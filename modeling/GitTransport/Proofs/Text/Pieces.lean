/-
The pieces of a list between its breaks.

  A list of pieces without breaks, joined with one break before each piece but the
  first, falls into these pieces again (`splitAt_joined`).  Whatever a list falls
  into, no piece holds a break (`not_break_of_mem_splitAt`) and nothing but the breaks
  is lost (`length_utf8_splitAt`).

  A part without breaks stands on one side of the first break or on the other
  (`occursIn_eq_or`).
-/

import Mathlib.Algebra.Ring.Nat
import Mathlib.Data.List.Infix
import Mathlib.Data.List.TakeWhile
import GitTransport.Text.Basic
import GitTransport.Proofs.Text.Utf8

namespace GitTransport.Text

variable {α : Type} {isBreak : α → Bool}

theorem splitAt_cons_break {c : α} (hc : isBreak c = true) (rest : List α) :
    splitAt isBreak (c :: rest) = [] :: splitAt isBreak rest := by
  simp only [splitAt, hc]

/-- An item that is no break goes into the first piece. -/
theorem splitAt_cons_item {c : α} (hc : isBreak c = false) (rest : List α) :
    ∃ piece pieces, splitAt isBreak rest = piece :: pieces ∧
      splitAt isBreak (c :: rest) = (c :: piece) :: pieces := by
  cases hrest : splitAt isBreak rest with
  | nil => exact absurd hrest (splitAt_ne_nil isBreak rest)
  | cons piece pieces => exact ⟨piece, pieces, rfl, by simp only [splitAt, hc, hrest]⟩

/-- Everything up to the first break is the first piece. -/
theorem splitAt_append_break {piece : List α} (h : ∀ x ∈ piece, isBreak x = false) {c : α}
    (hc : isBreak c = true) (rest : List α) :
    splitAt isBreak (piece ++ c :: rest) = piece :: splitAt isBreak rest := by
  induction piece with
  | nil => exact splitAt_cons_break hc rest
  | cons x piece ih =>
    rw [List.forall_mem_cons] at h
    obtain ⟨first, pieces, hrest, hx⟩ := splitAt_cons_item h.1 (piece ++ c :: rest)
    rw [ih h.2] at hrest
    cases hrest
    rw [List.cons_append, hx]

theorem splitAt_of_no_break {piece : List α} (h : ∀ x ∈ piece, isBreak x = false) :
    splitAt isBreak piece = [piece] := by
  induction piece with
  | nil => rfl
  | cons x piece ih =>
    rw [List.forall_mem_cons] at h
    obtain ⟨first, pieces, hrest, hx⟩ := splitAt_cons_item h.1 piece
    rw [ih h.2] at hrest
    cases hrest
    exact hx

/-- Pieces that are joined by breaks come apart again. -/
theorem splitAt_joined {c : α} (hc : isBreak c = true) {first : List α} {rest : List (List α)}
    (hfirst : ∀ x ∈ first, isBreak x = false)
    (hrest : ∀ piece ∈ rest, ∀ x ∈ piece, isBreak x = false) :
    splitAt isBreak (first ++ rest.flatMap (c :: ·)) = first :: rest := by
  induction rest generalizing first with
  | nil => rw [List.flatMap_nil, List.append_nil, splitAt_of_no_break hfirst]
  | cons piece rest ih =>
    rw [List.forall_mem_cons] at hrest
    rw [List.flatMap_cons, List.cons_append, splitAt_append_break hfirst hc,
      ih hrest.1 hrest.2]

/-- No piece holds a break. -/
theorem not_break_of_mem_splitAt {items piece : List α} (h : piece ∈ splitAt isBreak items) :
    ∀ x ∈ piece, isBreak x = false := by
  induction items generalizing piece with
  | nil =>
    rw [List.mem_singleton.1 h]
    exact fun x hx => nomatch hx
  | cons c items ih =>
    cases hc : isBreak c with
    | true =>
      rw [splitAt_cons_break hc] at h
      rcases List.mem_cons.1 h with rfl | h
      · exact fun x hx => nomatch hx
      · exact ih h
    | false =>
      obtain ⟨first, pieces, hrest, hcons⟩ := splitAt_cons_item hc items
      rw [hrest] at ih
      rw [hcons] at h
      rcases List.mem_cons.1 h with rfl | h
      · rw [List.forall_mem_cons]
        exact ⟨hc, ih List.mem_cons_self⟩
      · exact ih (List.mem_cons_of_mem _ h)

/-- Whatever is no break is in some piece. -/
theorem exists_mem_splitAt {c : α} (hc : isBreak c = false) {items : List α} (h : c ∈ items) :
    ∃ piece ∈ splitAt isBreak items, c ∈ piece := by
  induction items with
  | nil => cases h
  | cons x items ih =>
    cases hx : isBreak x with
    | true =>
      rw [splitAt_cons_break hx]
      rcases List.mem_cons.1 h with rfl | h
      · rw [hx] at hc
        cases hc
      · obtain ⟨piece, hpiece, hmem⟩ := ih h
        exact ⟨piece, List.mem_cons_of_mem _ hpiece, hmem⟩
    | false =>
      obtain ⟨first, pieces, hrest, hcons⟩ := splitAt_cons_item hx items
      rw [hcons]
      rcases List.mem_cons.1 h with rfl | h
      · exact ⟨_, List.mem_cons_self, List.mem_cons_self⟩
      · rw [hrest] at ih
        obtain ⟨piece, hpiece, hmem⟩ := ih h
        rcases List.mem_cons.1 hpiece with rfl | hpiece
        · exact ⟨_, List.mem_cons_self, List.mem_cons_of_mem _ hmem⟩
        · exact ⟨piece, List.mem_cons_of_mem _ hpiece, hmem⟩

/-- Behind a list the pieces go on with the last one. -/
theorem exists_splitAt_append (first : List α) {rest piece : List α} {pieces : List (List α)}
    (h : splitAt isBreak rest = piece :: pieces) :
    ∃ before last, splitAt isBreak first = before ++ [last] ∧
      splitAt isBreak (first ++ rest) = before ++ (last ++ piece) :: pieces := by
  induction first with
  | nil => exact ⟨[], [], rfl, h⟩
  | cons x first ih =>
    obtain ⟨before, last, hfirst, happend⟩ := ih
    cases hx : isBreak x with
    | true =>
      rw [List.cons_append, splitAt_cons_break hx, splitAt_cons_break hx, hfirst, happend]
      exact ⟨[] :: before, last, rfl, rfl⟩
    | false =>
      -- the item goes into the first piece, which may be the last one too
      obtain ⟨next, others, hnext, hcons⟩ := splitAt_cons_item hx first
      obtain ⟨next', others', hnext', hcons'⟩ := splitAt_cons_item hx (first ++ rest)
      rw [List.cons_append, hcons, hcons']
      rw [hfirst] at hnext
      rw [happend] at hnext'
      cases before with
      | nil =>
        cases hnext
        cases hnext'
        exact ⟨[], x :: last, rfl, rfl⟩
      | cons front before =>
        cases hnext
        cases hnext'
        exact ⟨(x :: _) :: before, last, rfl, rfl⟩

/-- The lengths of the pieces in bytes, with one for the end of each, make up the length
    of the text, if every break is a single byte. -/
theorem length_utf8_splitAt {isBreak : Char → Bool}
    (hbreak : ∀ c, isBreak c = true → (utf8Char c).length = 1) (text : List Char) :
    ((splitAt isBreak text).map fun piece => (utf8 piece).length + 1).sum =
      (utf8 text).length + 1 := by
  induction text with
  | nil => rfl
  | cons c text ih =>
    rw [utf8_cons, List.length_append]
    cases hc : isBreak c with
    | true =>
      rw [splitAt_cons_break hc, List.map_cons, List.sum_cons, ih, hbreak c hc]
      rw [utf8_nil, List.length_nil]
      omega
    | false =>
      obtain ⟨first, pieces, hrest, hcons⟩ := splitAt_cons_item hc text
      rw [hrest, List.map_cons, List.sum_cons] at ih
      rw [hcons, List.map_cons, List.sum_cons, utf8_cons, List.length_append]
      omega

/-! ## Behind the last mark -/

/-- What stands behind the last mark of a text; everything when there is none. -/
def behindLast (mark : Char) (text : List Char) : List Char :=
  (text.reverse.takeWhile (· ≠ mark)).reverse

section

variable {mark : Char} {front rest text : List Char}

theorem behindLast_of_not_mem (h : mark ∉ text) : behindLast mark text = text := by
  have hall : text.reverse.takeWhile (· ≠ mark) = text.reverse := by
    refine List.takeWhile_eq_self_iff.2 fun c hc => decide_eq_true ?_
    rintro rfl
    exact h (List.mem_reverse.1 hc)
  rw [behindLast, hall, List.reverse_reverse]

theorem behindLast_append (h : mark ∉ rest) : behindLast mark (front ++ mark :: rest) = rest := by
  have hall : ∀ c ∈ rest.reverse, decide (c ≠ mark) = true := by
    intro c hc
    refine decide_eq_true ?_
    rintro rfl
    exact h (List.mem_reverse.1 hc)
  rw [behindLast, List.reverse_append, List.reverse_cons, List.append_assoc,
    List.takeWhile_append_of_pos hall]
  simp

theorem exists_last_of_mem (h : mark ∈ text) :
    ∃ front rest, text = front ++ mark :: rest ∧ mark ∉ rest := by
  obtain ⟨behind, before, hreverse, hnot⟩ := List.eq_append_cons_of_mem (List.mem_reverse.2 h)
  refine ⟨before.reverse, behind.reverse, ?_, fun hmem => hnot (List.mem_reverse.1 hmem)⟩
  rw [← List.reverse_inj, hreverse]
  simp

end

/-! ## Parts on either side of a break -/

theorem occursIn_iff_isInfix {part text : List Char} :
    occursIn part text = true ↔ part <:+: text := by
  induction text with
  | nil => rw [occursIn, List.isEmpty_iff, List.infix_nil]
  | cons c rest ih =>
    rw [occursIn, Bool.or_eq_true, List.isPrefixOf_iff_prefix, ih, List.infix_cons_iff]

/-- A part without breaks occurs before the first break or behind it. -/
theorem occursIn_eq_or {isBreak : Char → Bool} {part : List Char}
    (h : ∀ c ∈ part, isBreak c = false) (text : List Char) :
    occursIn part text = (occursIn part (text.takeWhile (!isBreak ·)) ||
      occursIn part (text.dropWhile (!isBreak ·))) := by
  rw [Bool.eq_iff_iff, Bool.or_eq_true]
  simp only [occursIn_iff_isInfix]
  constructor
  · intro hpart
    rw [← List.takeWhile_append_dropWhile (p := (!isBreak ·)) (l := text)] at hpart
    rcases List.infix_append_iff.1 hpart with hbefore | hbehind | ⟨first, last, rfl, hfirst, hlast⟩
    · exact .inl hbefore
    · exact .inr hbehind
    · -- the part would have to begin before the break and reach over it
      cases last with
      | nil => exact .inl (by rw [List.append_nil]; exact hfirst.isInfix)
      | cons c last =>
        obtain ⟨rest, hrest⟩ := hlast
        have hbreak := List.head?_dropWhile_not (!isBreak ·) text
        rw [← hrest, List.cons_append, List.head?_cons] at hbreak
        have hc : isBreak c = false := h c (List.mem_append_right first List.mem_cons_self)
        simp [hc] at hbreak
  · rintro (hbefore | hbehind)
    · exact hbefore.trans (List.takeWhile_prefix _).isInfix
    · exact hbehind.trans (List.dropWhile_suffix _).isInfix

end GitTransport.Text
