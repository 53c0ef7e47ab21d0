/-
What is read of a text.

  Of a text the reader leaves out the characters at its ends that do not count and
  the line ends inside it, and reads the path up to the first mark (`reach`).
  Everything is read exactly if nothing of this kind is there (`spec_of_reach_eq`,
  `reach_eq_of_spec`).  What begins with a word begins with it also for the reader
  (`significant_append`): the word is the scheme when a colon follows, and no scheme
  when a slash does.
-/

import Mathlib.Data.List.TakeWhile
import GitTransport.Text.Basic
import GitTransport.Url.Parser
import GitTransport.Proofs.Text.Utf8

namespace GitTransport.Url

open Text

/-! ## The characters that count -/

/-- Whether a character is dropped at the ends of a text. -/
def isEdge (c : Char) : Bool := c.toNat ≤ 0x20

/-- Whether a character is dropped wherever it stands. -/
def isLineEnd (c : Char) : Bool := c = '\t' || c = '\n' || c = '\r'

theorem significant_eq (text : String) : significant text =
    (dropLastWhile isEdge (text.toList.dropWhile isEdge)).filter (!isLineEnd ·) := rfl

/-- The part of a text that its path is read from. -/
def reach (text : String) : List Char := (significant text).takeWhile (!endsPath ·)

theorem dropLastWhile_sublist (p : Char → Bool) (text : List Char) :
    (dropLastWhile p text).Sublist text := by
  have h := (List.dropWhile_sublist p (l := text.reverse)).reverse
  rwa [List.reverse_reverse] at h

/-- Nothing is dropped behind an item that is kept. -/
theorem dropLastWhile_append {p : Char → Bool} {first : List Char}
    (h : ∀ c ∈ first, p c = false) (rest : List Char) :
    dropLastWhile p (first ++ rest) = first ++ dropLastWhile p rest := by
  have hfirst : first.reverse.dropWhile p = first.reverse := by
    cases hr : first.reverse with
    | nil => rfl
    | cons c cs =>
      have hc : p c = false := h c (List.mem_reverse.1 (hr ▸ List.mem_cons_self))
      rw [List.dropWhile_cons, hc]
      rfl
  simp only [dropLastWhile, List.reverse_append, List.dropWhile_append, hfirst]
  split
  · next hnil =>
    rw [List.isEmpty_iff.1 hnil, List.reverse_reverse, List.reverse_nil, List.append_nil]
  · rw [List.reverse_append, List.reverse_reverse]

theorem dropLastWhile_eq_self_iff {p : Char → Bool} {text : List Char} :
    dropLastWhile p text = text ↔ ∀ c, text.getLast? = some c → p c = false := by
  rw [dropLastWhile, ← List.reverse_inj, List.reverse_reverse, List.getLast?_eq_head?_reverse]
  cases text.reverse with
  | nil => simp
  | cons c cs =>
    rw [List.dropWhile_cons]
    cases hc : p c with
    | false => simp [hc]
    | true =>
      simp only [if_true, List.head?_cons, Option.some.injEq, forall_eq', hc,
        Bool.true_eq_false, iff_false]
      intro heq
      have hlength := congrArg List.length heq
      have hle := (List.dropWhile_sublist p (l := cs)).length_le
      rw [List.length_cons] at hlength
      omega

theorem reach_sublist (text : String) : (reach text).Sublist text.toList := by
  rw [reach, significant_eq]
  exact (List.takeWhile_sublist _).trans (List.filter_sublist.trans
    ((dropLastWhile_sublist _ _).trans (List.dropWhile_sublist _)))

/-- A text of which everything is read holds nothing that is dropped and nothing that ends
    a path. -/
theorem spec_of_reach_eq {text : String} (h : reach text = text.toList) :
    (∀ c ∈ text.toList, endsPath c = false ∧ isLineEnd c = false) ∧
      ∀ c, text.toList.getLast? = some c → isEdge c = false := by
  -- each step of the reading leaves a part, and the last part is everything
  have hlast := dropLastWhile_sublist isEdge (text.toList.dropWhile isEdge)
  have hfilter := List.filter_sublist (p := (!isLineEnd ·))
    (l := dropLastWhile isEdge (text.toList.dropWhile isEdge))
  have hpath := List.takeWhile_sublist (!endsPath ·) (l := significant text)
  rw [← reach, h, significant_eq] at hpath
  have h1 : text.toList.dropWhile isEdge = text.toList :=
    (List.dropWhile_sublist _).eq_of_length_le (hpath.trans (hfilter.trans hlast)).length_le
  rw [h1] at hlast hfilter hpath
  have h2 : dropLastWhile isEdge text.toList = text.toList :=
    hlast.eq_of_length_le (hpath.trans hfilter).length_le
  rw [h2] at hfilter hpath
  have h3 : text.toList.filter (!isLineEnd ·) = text.toList :=
    hfilter.eq_of_length_le hpath.length_le
  have hreach : text.toList.takeWhile (!endsPath ·) = text.toList := by
    rw [reach, significant_eq, h1, h2, h3] at h
    exact h
  refine ⟨fun c hc => ?_, dropLastWhile_eq_self_iff.1 h2⟩
  have hend := List.mem_takeWhile_imp (hreach.symm ▸ hc)
  have hline := (List.mem_filter.1 (h3.symm ▸ hc)).2
  exact ⟨by simpa using hend, by simpa using hline⟩

theorem dropWhile_eq_of_head {text : List Char}
    (h : ∀ c, text.head? = some c → isEdge c = false) : text.dropWhile isEdge = text := by
  cases text with
  | nil => rfl
  | cons c rest =>
    rw [List.dropWhile_cons, h c rfl]
    rfl

/-- Of a text that holds nothing of this kind everything is read. -/
theorem reach_eq_of_spec {text : String} (hall : ∀ c ∈ text.toList, endsPath c = false ∧
    isLineEnd c = false) (hhead : ∀ c, text.toList.head? = some c → isEdge c = false)
    (hlast : ∀ c, text.toList.getLast? = some c → isEdge c = false) :
    reach text = text.toList := by
  have h1 := dropWhile_eq_of_head hhead
  have h2 := dropLastWhile_eq_self_iff.2 hlast
  have h3 : text.toList.filter (!isLineEnd ·) = text.toList := by
    refine List.filter_eq_self.2 fun c hc => ?_
    rw [(hall c hc).2]
    rfl
  have h4 : text.toList.takeWhile (!endsPath ·) = text.toList := by
    refine List.takeWhile_eq_self_iff.2 fun c hc => ?_
    rw [(hall c hc).1]
    rfl
  rw [reach, significant_eq, h1, h2, h3, h4]

/-! ## Words -/

/-- A text of letters, and not an empty one. -/
structure IsWord (text : String) : Prop where
  nonempty : text ≠ ""
  letters : ∀ c ∈ text.toList, c.isAlpha = true

instance (text : String) : Decidable (IsWord text) :=
  decidable_of_iff (text ≠ "" ∧ text.toList.all Char.isAlpha = true) <| by
    rw [List.all_eq_true]
    exact ⟨fun ⟨hne, hletters⟩ => ⟨hne, hletters⟩, fun ⟨hne, hletters⟩ => ⟨hne, hletters⟩⟩

/-- A letter is neither dropped nor a mark. -/
theorem spec_of_isAlpha {c : Char} (h : c.isAlpha = true) : isEdge c = false ∧
    isLineEnd c = false ∧ c ≠ '#' ∧ c ≠ '?' ∧ c ≠ '/' ∧ c ≠ '\\' := by
  have hall : c.isAlpha = true → isEdge c = false ∧ isLineEnd c = false ∧ c ≠ '#' ∧ c ≠ '?' ∧
      c ≠ '/' ∧ c ≠ '\\' := of_toNat_lt c (toNat_lt_of_isAlpha h) (by decide)
  exact hall h

theorem IsWord.exists_cons {first : String} (h : IsWord first) :
    ∃ c cs, first.toList = c :: cs ∧ c.isAlpha = true := by
  obtain ⟨c, cs, hfirst⟩ := List.exists_cons_of_ne_nil fun hnil =>
    h.nonempty (String.toList_inj.1 (hnil.trans String.toList_empty.symm))
  exact ⟨c, cs, hfirst, h.letters c (hfirst ▸ List.mem_cons_self)⟩

/-- What a text begins with is read as it stands when none of it is dropped. -/
theorem significant_append {text : String} {first rest : List Char} (hne : first ≠ [])
    (hfirst : ∀ c ∈ first, isEdge c = false ∧ isLineEnd c = false)
    (htext : text.toList = first ++ rest) :
    significant text = first ++ (dropLastWhile isEdge rest).filter (!isLineEnd ·) := by
  have hhead : text.toList.dropWhile isEdge = text.toList := by
    obtain ⟨c, cs, rfl⟩ := List.exists_cons_of_ne_nil hne
    refine dropWhile_eq_of_head fun d hd => ?_
    rw [htext, List.cons_append, List.head?_cons] at hd
    cases hd
    exact (hfirst c List.mem_cons_self).1
  have hkept : first.filter (!isLineEnd ·) = first := by
    refine List.filter_eq_self.2 fun c hc => ?_
    rw [(hfirst c hc).2]
    rfl
  rw [significant_eq, hhead, htext, dropLastWhile_append fun c hc => (hfirst c hc).1,
    List.filter_append, hkept]

/-- A word is read with the mark behind it. -/
theorem exists_significant_of_word {text first : String} (hword : IsWord first) {mark : Char}
    (hmark : isEdge mark = false ∧ isLineEnd mark = false) {rest : List Char}
    (htext : text.toList = first.toList ++ mark :: rest) :
    ∃ tail, significant text = first.toList ++ mark :: tail := by
  have htext' : text.toList = (first.toList ++ [mark]) ++ rest := by simpa using htext
  have hread := significant_append (by simp) (fun c hc => ?_) htext'
  · rw [List.append_assoc] at hread
    exact ⟨_, hread⟩
  · rcases List.mem_append.1 hc with hc | hc
    · have hspec := spec_of_isAlpha (hword.letters c hc)
      exact ⟨hspec.1, hspec.2.1⟩
    · rwa [List.mem_singleton.1 hc]

/-! ## Schemes -/

/-- A word in front of a slash is no scheme. -/
theorem splitScheme?_eq_none {first : String} (hword : IsWord first) {tail : List Char}
    (htail : tail = [] ∨ ∃ t, tail = '/' :: t) : splitScheme? (first.toList ++ tail) = none := by
  have hdrop {belongs : Char → Bool} (hletters : ∀ c, c.isAlpha = true → belongs c = true)
      (hslash : belongs '/' = false) : (first.toList ++ tail).dropWhile belongs = tail := by
    rw [List.dropWhile_append_of_pos fun c hc => hletters c (hword.letters c hc)]
    rcases htail with rfl | ⟨t, rfl⟩
    · rfl
    · rw [List.dropWhile_cons, hslash]
      rfl
  unfold splitScheme?
  simp only
  rw [hdrop (fun c hc => by simp [Char.isAlphanum, hc]) (by decide)]
  rcases htail with rfl | ⟨t, rfl⟩
  · split
    · next heq => cases heq
    · rfl
  · split
    · next heq => cases heq
    · rfl

/-- A word in front of a colon is the scheme. -/
theorem splitScheme?_of_word {first : String} (hword : IsWord first) (tail : List Char) :
    splitScheme? (first.toList ++ ':' :: tail) = some (lower first, tail) := by
  have hbelongs (c : Char) (hc : c ∈ first.toList) :
      (c.isAlphanum || c = '+' || c = '-' || c = '.') = true := by
    simp [Char.isAlphanum, hword.letters c hc]
  have hcolon : ((':' : Char).isAlphanum || ':' = '+' || ':' = '-' || ':' = '.') = false := by
    decide
  obtain ⟨c, cs, hfirst, hc⟩ := hword.exists_cons
  unfold splitScheme?
  simp only
  rw [List.dropWhile_append_of_pos hbelongs, List.takeWhile_append_of_pos hbelongs,
    List.dropWhile_cons, List.takeWhile_cons, hcolon]
  split
  · next heq heq' =>
    rw [hfirst, List.cons_append] at heq
    cases heq
    cases heq'
    rw [if_pos hc, if_neg Bool.false_ne_true, List.append_nil, String.ofList_toList]
  · next hnone => exact absurd rfl (hnone _ _ _ (by rw [hfirst]; rfl))

end GitTransport.Url
