/-
The name of a repository after its remote address: the last piece of the path,
without the ending that remote repositories have.

  An address is a front and a piece (`IsFront`).  The ending is taken off where it
  stands (`withoutEnding_append`) and nothing else is (`withoutEnding_of_not_suffix`), so
  a piece that does not have it can be a name as it stands (`IsName`).
-/

namespace GitTransport

/-- What a remote repository's address ends with. -/
def repositoryEnding : List Char := ".git".toList

/-- A text without an ending that it may have. -/
def withoutEnding (ending text : List Char) : List Char :=
  if ending.isSuffixOf text then text.take (text.length - ending.length) else text

theorem withoutEnding_append (ending text : List Char) :
    withoutEnding ending (text ++ ending) = text := by
  have hlength : (text ++ ending).length - ending.length = text.length := by
    rw [List.length_append, Nat.add_sub_cancel]
  rw [withoutEnding, if_pos (List.isSuffixOf_iff_suffix.2 (List.suffix_append text ending)),
    hlength, List.take_left]

theorem withoutEnding_of_not_suffix {ending text : List Char} (h : ¬ ending <:+ text) :
    withoutEnding ending text = text :=
  if_neg fun hsuffix => h (List.isSuffixOf_iff_suffix.1 hsuffix)

/-- The name of the package for an address. -/
def packageName (url : String) : String :=
  let last := (url.toList.reverse.takeWhile (· ≠ '/')).reverse
  String.ofList (withoutEnding repositoryEnding last)

/-! ## The pieces of an address -/

/-- What stands in front of the last piece of an address: nothing, or a text that ends with a
    slash. -/
def IsFront (text : String) : Prop := text = "" ∨ ∃ start, text = start ++ "/"

/-- A piece of an address that is the name of a repository as it stands. -/
structure IsName (piece : String) : Prop where
  nonempty : piece ≠ ""
  slashes : '/' ∉ piece.toList
  ending : ¬ ".git".toList <:+ piece.toList

instance (piece : String) : Decidable (IsName piece) :=
  decidable_of_iff (piece ≠ "" ∧ '/' ∉ piece.toList ∧ ¬ ".git".toList <:+ piece.toList)
    ⟨fun ⟨hne, hslashes, hending⟩ => ⟨hne, hslashes, hending⟩,
      fun ⟨hne, hslashes, hending⟩ => ⟨hne, hslashes, hending⟩⟩

end GitTransport
