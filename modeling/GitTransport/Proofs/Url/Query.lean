/-
Addresses that end with their path.

  A text without the marks of a query and a fragment leads from a base without a query
  to an address that has neither (`bare_of_join`), whatever else the text is: a path, an
  authority with a path, or a complete address.  Setting the query of such an address
  changes nothing but the query (`withQuery_eq`).  A path without slashes is the one that
  could lose blanks at its end by that; but a text is read without the blanks at its end,
  and an encoded blank is none (`getLast?_significant`, `getLast?_percentEncode`).
-/

import GitTransport.Proofs.Url.Absolute
import GitTransport.Proofs.Url.Percent

namespace GitTransport.Url

open Text

/-! ## Setting the query -/

/-- Whether a path is the same when nothing follows it. -/
def EndsPlain (path : Path) : Prop :=
  ∀ text, path = .rootless text → text.toList.getLast? ≠ some ' '

theorem endsPlain_segments (names : List String) : EndsPlain (.segments names) := by
  rintro text ⟨⟩

/-- A new query leaves everything else as it is. -/
theorem withQuery_eq {url : Url} (h : EndsPlain url.path) (query : Option String) :
    url.withQuery query = { url with query := query } := by
  rw [withQuery, stripRootless]
  split
  · next text hpath hquery hfragment =>
    have hend : dropLastWhile (· = ' ') text.toList = text.toList := by
      refine dropLastWhile_eq_self_iff.2 fun c hc => decide_eq_false ?_
      rintro rfl
      exact h text hpath hc
    have hkept : (text.toList.reverse.dropWhile (· = ' ')).reverse = text.toList := hend
    simp only at hpath
    simp only [hkept, String.ofList_toList, ← hpath]
  · rfl

/-! ## Marks -/

/-- A text without the marks that end a path. -/
def Unmarked (text : List Char) : Prop := ∀ c ∈ text, endsPath c = false

theorem Unmarked.sublist {part text : List Char} (h : Unmarked text) (hpart : part.Sublist text) :
    Unmarked part :=
  fun c hc => h c (hpart.subset hc)

theorem Unmarked.tail {c : Char} {text : List Char} (h : Unmarked (c :: text)) : Unmarked text :=
  h.sublist (List.sublist_cons_self c text)

theorem Unmarked.takeWhile {text : List Char} (h : Unmarked text) :
    text.takeWhile (!endsPath ·) = text := by
  refine List.takeWhile_eq_self_iff.2 fun c hc => ?_
  rw [h c hc]
  rfl

theorem Unmarked.dropWhile {text : List Char} (h : Unmarked text) :
    text.dropWhile (!endsPath ·) = [] := by
  refine List.dropWhile_eq_nil_iff.2 fun c hc => ?_
  rw [h c hc]
  rfl

/-! ## Nothing behind the path -/

/-- An address that ends with its path. -/
structure Bare (url : Url) : Prop where
  query : url.query = none
  fragment : url.fragment = none
  ending : EndsPlain url.path

section

variable {scheme : String} {text : List Char}

/-- Without marks a text is all path. -/
theorem withPathAndTail_of_unmarked (h : Unmarked text) (authority : Option Authority)
    (names : List String) : withPathAndTail scheme authority names text =
      ⟨scheme, authority, pathFrom scheme names text, none, none⟩ := by
  rw [withPathAndTail, h.takeWhile, h.dropWhile]
  rfl

theorem bare_withPathAndTail (h : Unmarked text) (authority : Option Authority)
    (names : List String) : Bare (withPathAndTail scheme authority names text) := by
  obtain ⟨names', hpath⟩ := exists_pathFrom scheme names text
  rw [withPathAndTail_of_unmarked h, hpath]
  exact ⟨rfl, rfl, endsPlain_segments names'⟩

/-- With a mark something follows the path. -/
theorem unmarked_of_withPathAndTail {authority : Option Authority} {names : List String}
    (hquery : (withPathAndTail scheme authority names text).query = none)
    (hfragment : (withPathAndTail scheme authority names text).fragment = none) :
    Unmarked text := by
  cases hdrop : text.dropWhile (!endsPath ·) with
  | nil =>
    intro c hc
    simpa using List.dropWhile_eq_nil_iff.1 hdrop c hc
  | cons c rest =>
    exfalso
    have hmark := List.head?_dropWhile_not (!endsPath ·) text
    rw [hdrop] at hmark
    have hc : c = '?' ∨ c = '#' := by
      simpa [endsPath, or_iff_not_imp_left] using hmark
    rw [withPathAndTail, hdrop] at hquery hfragment
    rcases hc with rfl | rfl
    · cases hquery
    · cases hfragment

theorem bare_behindAuthority (h : Unmarked text) (authority : Authority) :
    Bare (behindAuthority scheme authority text) := by
  cases text with
  | nil => exact ⟨rfl, rfl, endsPlain_segments _⟩
  | cons c rest =>
    have hc : ¬ endsPath c = true := Bool.eq_false_iff.1 (h c List.mem_cons_self)
    rw [behindAuthority, if_neg hc]
    exact bare_withPathAndTail h.tail _ _

theorem bare_of_readAuthority {url : Url} (h : readAuthority scheme text = .ok url)
    (hmarks : Unmarked text) : Bare url := by
  obtain ⟨authority, -, rfl⟩ := exists_of_readAuthority h
  exact bare_behindAuthority (hmarks.sublist (List.dropWhile_sublist _)) authority

theorem bare_of_readFile {url : Url} (h : readFile text = .ok url) (hmarks : Unmarked text) :
    Bare url := by
  -- the path is a part of the text in every case, wherever it begins
  unfold readFile at h
  dsimp only at h
  split at h
  · next a b rest =>
    have hrest := hmarks.tail.tail
    split at h
    · split at h
      · -- a drive letter is not a host
        cases h
        exact bare_withPathAndTail hrest _ _
      · obtain ⟨host, -, h⟩ := choice_eq_ok_iff.1 h
        cases h
        refine bare_withPathAndTail ?_ _ _
        have htail := hrest.sublist (List.dropWhile_sublist (!endsAuthority "file" ·))
        split
        · next heq =>
          rw [heq] at htail
          split
          · exact htail.tail
          · rw [heq]
            exact htail
        · exact fun c hc => nomatch hc
    · -- one slash or none: there is no host
      cases h
      refine bare_withPathAndTail ?_ _ _
      split
      · exact hmarks.tail
      · exact hmarks
  · cases h
    exact bare_withPathAndTail hmarks _ _

theorem bare_of_readRelative {base url : Url} {names : List String}
    (h : readRelative base names text = .ok url) (hpath : base.path = .segments names)
    (hbase : base.query = none) (hmarks : Unmarked text) : Bare url := by
  unfold readRelative at h
  split at h
  · -- no text leads to the base itself
    cases h
    refine ⟨hbase, rfl, ?_⟩
    rw [hpath]
    exact endsPlain_segments names
  · cases hmarks '#' List.mem_cons_self
  · cases hmarks '?' List.mem_cons_self
  · next c rest _ _ =>
    simp only at h
    split at h
    · split at h
      · next d rest' =>
        split at h
        · -- two slashes begin an authority, and more of them may be skipped
          refine bare_of_readAuthority h ?_
          split
          · exact hmarks.tail.tail
          · exact hmarks.tail.tail.sublist (List.dropWhile_sublist _)
        · cases h
          exact bare_withPathAndTail hmarks.tail _ _
      · cases h
        exact bare_withPathAndTail hmarks.tail _ _
    · cases h
      exact bare_withPathAndTail hmarks _ _

end

/-! ## Blanks at the end -/

theorem isEdge_of_isLineEnd {c : Char} (h : isLineEnd c = true) : isEdge c = true := by
  simp only [isLineEnd, Bool.or_eq_true, decide_eq_true_eq] at h
  rcases h with (rfl | rfl) | rfl
  · decide
  · decide
  · decide

/-- What is read of a text does not end with a character that is dropped there. -/
theorem getLast?_significant {text : String} {c : Char}
    (h : (significant text).getLast? = some c) : isEdge c = false := by
  rw [significant_eq] at h
  have hlast := List.head?_dropWhile_not isEdge (text.toList.dropWhile isEdge).reverse
  rw [← List.getLast?_reverse] at hlast
  have hread : ((text.toList.dropWhile isEdge).reverse.dropWhile isEdge).reverse =
      dropLastWhile isEdge (text.toList.dropWhile isEdge) := rfl
  rw [hread] at hlast
  -- the last character is kept when the line ends are left out, since it is none
  cases hinner : (dropLastWhile isEdge (text.toList.dropWhile isEdge)).getLast? with
  | none =>
    rw [List.getLast?_eq_none_iff.1 hinner] at h
    cases h
  | some d =>
    rw [hinner] at hlast
    have hkept : isLineEnd d = false := by
      refine Bool.eq_false_iff.2 fun hline => ?_
      have hnot : isEdge d = false := hlast
      rw [isEdge_of_isLineEnd hline] at hnot
      cases hnot
    obtain ⟨init, hinit⟩ := List.getLast?_eq_some_iff.1 hinner
    rw [hinit, List.filter_append, List.filter_cons_of_pos (by rw [hkept]; rfl),
      List.filter_nil, List.getLast?_concat] at h
    rwa [← Option.some.inj h]

/-- An encoded text ends with a blank only if the text does. -/
theorem getLast?_percentEncode {encodes : Char → Bool} {text : List Char}
    (h : (percentEncode encodes text).getLast? = some ' ') : text.getLast? = some ' ' := by
  have hdigit : ∀ n < 16, hexDigit n ≠ ' ' := by decide
  rcases List.eq_nil_or_concat text with rfl | ⟨init, c, rfl⟩
  · cases h
  · rw [List.concat_eq_append, percentEncode, List.flatMap_append, List.flatMap_singleton] at h
    rw [List.concat_eq_append, List.getLast?_concat]
    split at h
    · -- the last character would be a part of an escape
      obtain ⟨first, d, hd⟩ := List.eq_nil_or_concat (percentChar c) |>.resolve_left
        (percentChar_ne_nil c)
      rw [hd, List.concat_eq_append, ← List.append_assoc, List.getLast?_concat] at h
      have hmem : ' ' ∈ percentChar c := by
        rw [hd, ← Option.some.inj h]
        simp
      rcases mem_percentChar hmem with heq | ⟨n, hn, heq⟩
      · cases heq
      · exact absurd heq.symm (hdigit n hn)
    · rwa [List.getLast?_concat] at h

/-! ## Complete and relative addresses -/

theorem exists_of_splitScheme? {text rest : List Char} {scheme : String}
    (h : splitScheme? text = some (scheme, rest)) : ∃ front, text = front ++ ':' :: rest := by
  unfold splitScheme? at h
  simp only at h
  split at h
  · next c cs tail hdrop =>
    split at h
    · cases h
      have happend := List.takeWhile_append_dropWhile (l := c :: cs)
        (p := fun c => c.isAlphanum || c = '+' || c = '-' || c = '.')
      rw [hdrop] at happend
      exact ⟨_, happend.symm⟩
    · cases h
  · cases h

theorem bare_of_readWithScheme {base : Option Url} {scheme : String} {text : List Char} {url : Url}
    (h : readWithScheme base scheme text = .ok url) (hbase : ∀ b, base = some b → b.query = none)
    (hmarks : Unmarked text) (hend : text.getLast? ≠ some ' ') : Bare url := by
  have hdropped : Unmarked (text.dropWhile (isSlash scheme)) :=
    hmarks.sublist (List.dropWhile_sublist _)
  unfold readWithScheme at h
  split at h
  · exact bare_of_readFile h hmarks
  split at h
  · simp only at h
    split at h
    · split at h
      · -- the scheme is the one of the base, and less than two slashes stand behind it
        exact bare_of_readRelative h rfl (hbase _ rfl :) hmarks
      · exact bare_of_readAuthority h hdropped
    · exact bare_of_readAuthority h hdropped
  split at h
  · exact bare_of_readAuthority h hmarks.tail.tail
  · cases h
    exact bare_withPathAndTail hmarks.tail _ _
  · -- without a slash behind the scheme the path is the text, which has no blank at its end
    cases h
    rw [hmarks.takeWhile, hmarks.dropWhile]
    refine ⟨rfl, rfl, ?_⟩
    rintro path ⟨⟩
    rw [String.toList_ofList]
    exact fun hlast => hend (getLast?_percentEncode hlast)

/-- A text without marks leads from a base without a query to an address without query and
    fragment. -/
theorem bare_of_join {base url : Url} {text : String} (h : base.join text = .ok url)
    (hbase : base.query = none) (hmarks : Unmarked text.toList) : Bare url := by
  have hread : Unmarked (significant text) := by
    rw [significant_eq]
    exact hmarks.sublist (List.filter_sublist.trans ((dropLastWhile_sublist _ _).trans
      (List.dropWhile_sublist _)))
  rw [join, read] at h
  split at h
  · next scheme rest hscheme =>
    obtain ⟨front, hfront⟩ := exists_of_splitScheme? hscheme
    refine bare_of_readWithScheme h (fun b hb => ?_) ?_ fun hlast => ?_
    · cases hb
      exact hbase
    · rw [hfront] at hread
      exact (hread.sublist (List.sublist_append_right _ _)).tail
    · -- what stands behind the scheme ends as the whole text does
      have hedge : (significant text).getLast? = some ' ' → isEdge ' ' = false :=
        getLast?_significant
      rw [hfront, List.getLast?_append, List.getLast?_cons, hlast] at hedge
      cases hedge rfl
  · split at h
    · next names hpath => exact bare_of_readRelative h hpath hbase hread
    · next hfragment =>
      rw [hfragment] at hread
      cases hread '#' List.mem_cons_self
    · cases h

end GitTransport.Url
