/-
What the compact text of a value begins with, and how long it is.

  A value is told by its first character: a letter of a word, a sign or a digit of a
  number, a quote or a bracket.  None of these is a capital letter
  (`beginsSmall_chars`), so a text that begins with one is the compact text of no value.

  A value is written with more characters than any of its items or members
  (`length_chars_lt_of_item`, `length_chars_lt_of_get?`), and a string with more than it
  has.  So no text inside a value is the compact text of the value.
-/

import GitTransport.Json.Printer
import GitTransport.Proofs.Fields

namespace GitTransport.Json

/-- The text does not begin with a capital letter. -/
def BeginsSmall (text : List Char) : Prop := ∀ c, text.head? = some c → c.isUpper = false

theorem beginsSmall_cons {c : Char} (h : c.isUpper = false) (rest : List Char) :
    BeginsSmall (c :: rest) := by
  rintro d ⟨⟩
  exact h

theorem toDigits_ne_nil (n : Nat) : Nat.toDigits 10 n ≠ [] :=
  List.ne_nil_of_length_pos Nat.length_toDigits_pos

theorem beginsSmall_toDigits (n : Nat) : BeginsSmall (Nat.toDigits 10 n) := by
  intro c hc
  have hdigit := Nat.isDigit_of_mem_toDigits (by decide) (by decide) (List.mem_of_head? hc)
  obtain ⟨-, hle⟩ := Bool.and_eq_true_iff.1 hdigit
  refine Bool.eq_false_iff.2 fun hupper => ?_
  obtain ⟨hge, -⟩ := of_decide_eq_true hupper
  have hlt : '9'.val < 'A'.val := by decide
  exact UInt32.not_le.2 (UInt32.lt_of_le_of_lt (of_decide_eq_true hle) hlt) hge

/-- The digits of a number come first, or a zero does. -/
theorem beginsSmall_decimalText (layout : FloatLayout) (value : Binary64.Decimal) :
    BeginsSmall (decimalText layout value) := by
  have hdigits := beginsSmall_toDigits value.digits
  obtain ⟨d, rest, hrest⟩ := List.exists_cons_of_ne_nil (toDigits_ne_nil value.digits)
  have hd : d.isUpper = false := hdigits d (by rw [hrest]; rfl)
  unfold decimalText
  simp only [hrest]
  split
  · split
    · exact beginsSmall_cons hd _
    · split
      · exact beginsSmall_cons hd _
      · exact beginsSmall_cons (by decide) _
  · cases rest with
    | nil => exact beginsSmall_cons hd _
    | cons d' rest => exact beginsSmall_cons hd _

theorem beginsSmall_text (value : Number) : BeginsSmall value.text := by
  cases value with
  | integer value =>
    simp only [Number.text]
    split
    · exact beginsSmall_cons (by decide) _
    · exact beginsSmall_toDigits _
  | float value =>
    simp only [Number.text, floatText]
    split
    · exact beginsSmall_cons (by decide) _
    · split
      · exact beginsSmall_cons (by decide) _
      · exact beginsSmall_decimalText _ _

/-- No value is written with a capital letter in front. -/
theorem beginsSmall_chars (value : Json) : BeginsSmall value.chars := by
  cases value with
  | null => exact beginsSmall_cons (by decide) _
  | bool value => cases value <;> exact beginsSmall_cons (by decide) _
  | number value => exact beginsSmall_text value
  | string text => exact beginsSmall_cons (by decide) _
  | array items => exact beginsSmall_cons (by decide) _
  | object members => exact beginsSmall_cons (by decide) _

/-- So a text that begins with one is the compact text of no value. -/
theorem compact_ne_of_isUpper {text : String} {c : Char} (hc : text.toList.head? = some c)
    (hupper : c.isUpper = true) (value : Json) : value.compact ≠ text := by
  rintro rfl
  rw [compact, String.toList_ofList] at hc
  rw [beginsSmall_chars value c hc] at hupper
  cases hupper

/-! ## Lengths -/

theorem decimalText_ne_nil (layout : FloatLayout) (value : Binary64.Decimal) :
    decimalText layout value ≠ [] := by
  -- a point or an exponent is there, whatever the digits are
  unfold decimalText
  dsimp only
  split
  · split
    · exact List.append_ne_nil_of_right_ne_nil _ (List.cons_ne_nil _ _)
    · split
      · exact List.append_ne_nil_of_right_ne_nil _ (List.cons_ne_nil _ _)
      · exact List.cons_ne_nil _ _
  · exact List.append_ne_nil_of_right_ne_nil _ (List.cons_ne_nil _ _)

theorem number_text_ne_nil (value : Number) : value.text ≠ [] := by
  cases value with
  | integer value =>
    simp only [Number.text]
    split
    · exact List.cons_ne_nil _ _
    · exact toDigits_ne_nil _
  | float value =>
    simp only [Number.text, floatText]
    split
    · exact List.cons_ne_nil _ _
    · split
      · exact List.cons_ne_nil _ _
      · exact decimalText_ne_nil _ _

/-- No value is written with no characters at all. -/
theorem compact_ne_empty (value : Json) : value.compact ≠ "" := by
  have hchars : value.chars ≠ [] := by
    cases value with
    | null => exact List.cons_ne_nil _ _
    | bool value => cases value <;> exact List.cons_ne_nil _ _
    | number value => exact number_text_ne_nil value
    | string text => exact List.cons_ne_nil _ _
    | array items => exact List.cons_ne_nil _ _
    | object members => exact List.cons_ne_nil _ _
  intro h
  exact hchars (String.ofList_eq_empty_iff.1 h)

theorem escape_ne_nil (c : Char) : escape c ≠ [] := by
  unfold escape
  repeat' split
  all_goals exact List.cons_ne_nil _ _

theorem length_le_flatMap_escape (text : List Char) :
    text.length ≤ (text.flatMap escape).length := by
  induction text with
  | nil => exact Nat.le_refl 0
  | cons c rest ih =>
    have hpos := List.length_pos_iff.2 (escape_ne_nil c)
    rw [List.flatMap_cons, List.length_append, List.length_cons]
    omega

theorem length_lt_chars_string (text : String) : text.length < (string text).chars.length := by
  have hle := length_le_flatMap_escape text.toList
  rw [chars, quoted, List.length_append, List.length_cons, List.length_singleton,
    ← String.length_toList]
  omega

theorem itemChars_cons_cons (first next : Json) (rest : List Json) :
    itemChars (first :: next :: rest) = first.chars ++ ',' :: itemChars (next :: rest) := rfl

theorem memberChars_cons_cons (name : String) (value : Json) (next : String × Json)
    (rest : List (String × Json)) : memberChars ((name, value) :: next :: rest) =
      quoted name ++ ':' :: (value.chars ++ ',' :: memberChars (next :: rest)) := rfl

theorem length_chars_le_itemChars {item : Json} {items : List Json} (h : item ∈ items) :
    item.chars.length ≤ (itemChars items).length := by
  induction items with
  | nil => cases h
  | cons first rest ih =>
    cases rest with
    | nil =>
      obtain rfl := List.mem_singleton.1 h
      exact Nat.le_refl _
    | cons next rest =>
      rw [itemChars_cons_cons, List.length_append, List.length_cons]
      rcases List.mem_cons.1 h with rfl | hlater
      · exact Nat.le_add_right _ _
      · have hle := ih hlater
        omega

theorem length_chars_le_memberChars {name : String} {value : Json} {members : Fields Json}
    (h : (name, value) ∈ members) : value.chars.length ≤ (memberChars members).length := by
  induction members with
  | nil => cases h
  | cons first rest ih =>
    obtain ⟨firstName, first⟩ := first
    cases rest with
    | nil =>
      cases List.mem_singleton.1 h
      rw [memberChars, List.length_append, List.length_cons]
      omega
    | cons next rest =>
      rw [memberChars_cons_cons, List.length_append, List.length_cons, List.length_append,
        List.length_cons]
      rcases List.mem_cons.1 h with heq | hlater
      · cases heq
        omega
      · have hle := ih hlater
        omega

theorem length_chars_lt_of_item {item : Json} {items : List Json} (h : item ∈ items) :
    item.chars.length < (array items).chars.length := by
  have hle := length_chars_le_itemChars h
  rw [chars, List.length_append, List.length_cons]
  omega

theorem length_chars_lt_of_get? {members : Fields Json} {name : String} {value : Json}
    (h : Fields.get? members name = some value) :
    value.chars.length < (object members).chars.length := by
  have hle := length_chars_le_memberChars (Fields.mem_of_get? h)
  rw [chars, List.length_append, List.length_cons]
  omega

theorem compact_ne_of_length_lt {text : String} {value : Json}
    (h : text.length < value.chars.length) : text ≠ value.compact := by
  rintro rfl
  rw [compact, String.length_ofList] at h
  exact Nat.lt_irrefl _ h

end GitTransport.Json
