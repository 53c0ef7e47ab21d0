/-
Reading an address with a scheme.

  Whatever comes out of the reading of a text behind two slashes has the scheme that
  was given and a path of segments (`yields_readAuthority`).  So an address with a
  well-known scheme that is written out has that scheme and such a path, whatever
  stands behind the scheme (`yields_parse`).
-/

import GitTransport.Proofs.Url.Authority
import GitTransport.Proofs.Url.Reading

namespace GitTransport.Url

open Text

/-! ## What a reading yields -/

/-- Every address that comes out of a reading has a property. -/
def Yields (P : Url → Prop) (x : Except Fault Url) : Prop := ∀ url, x = .ok url → P url

/-- An address of a scheme with a path of segments. -/
structure Served (scheme : String) (url : Url) : Prop where
  scheme : url.scheme = scheme
  path : ∃ names, url.path = .segments names

theorem exists_pathFrom (scheme : String) (names : List String) (text : List Char) :
    ∃ names', pathFrom scheme names text = .segments names' := by
  rw [pathFrom]
  split
  · exact ⟨_, rfl⟩
  · exact ⟨_, rfl⟩

variable {scheme : String}

theorem served_withPathAndTail (authority : Option Authority) (names : List String)
    (text : List Char) : Served scheme (withPathAndTail scheme authority names text) :=
  ⟨rfl, exists_pathFrom scheme names _⟩

theorem served_behindAuthority (authority : Authority) (text : List Char) :
    Served scheme (behindAuthority scheme authority text) := by
  unfold behindAuthority
  split
  · split
    · split
      · exact served_withPathAndTail _ _ _
      · exact ⟨rfl, _, rfl⟩
    · exact served_withPathAndTail _ _ _
  · exact ⟨rfl, _, rfl⟩

/-- What is read behind two slashes has a path of segments. -/
theorem yields_readAuthority (scheme : String) (text : List Char) :
    Yields (Served scheme) (readAuthority scheme text) := by
  intro url h
  obtain ⟨authority, -, rfl⟩ := exists_of_readAuthority h
  exact served_behindAuthority authority _

/-! ## Complete addresses -/

/-- Behind a well-known scheme the authority begins after all slashes. -/
theorem parse_eq_readAuthority {text : String} {tail : List Char}
    (hspecial : isSpecial scheme = true) (hfile : scheme ≠ "file") (hword : IsWord scheme)
    (hlower : lower scheme = scheme) (hread : significant text = scheme.toList ++ ':' :: tail) :
    parse text = readAuthority scheme (tail.dropWhile (isSlash scheme)) := by
  simp only [parse, read, hread, splitScheme?_of_word hword, hlower, readWithScheme,
    if_neg hfile, hspecial, if_true]

/-- What begins with a well-known scheme is an address of that scheme, with a path of
    segments, if it is an address. -/
theorem yields_parse {text : String} {rest : List Char} (hspecial : isSpecial scheme = true)
    (hfile : scheme ≠ "file") (hword : IsWord scheme) (hlower : lower scheme = scheme)
    (htext : text.toList = scheme.toList ++ ':' :: rest) :
    Yields (Served scheme) (parse text) := by
  obtain ⟨tail, hread⟩ := exists_significant_of_word hword (by decide) htext
  rw [parse_eq_readAuthority hspecial hfile hword hlower hread]
  exact yields_readAuthority scheme _

end GitTransport.Url
