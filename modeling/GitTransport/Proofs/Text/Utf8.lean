/-
Texts survive their UTF-8 form.

  The reader takes the bytes of a character one after the other: the first one says
  how many are to come and between which bounds the second one lies, and the last one
  completes the number of the character (`decodeUtf8From_utf8Char`).  So reading the
  form of a text gives the text back (`decodeUtf8_utf8`), and two texts of one form
  are the same.  A part of a text has a shorter form unless it is the whole text
  (`eq_of_sublist_of_length_utf8`), and the order of texts by their characters is the
  order of their forms by the bytes (`utf8_lt_utf8_iff`).
-/

import GitTransport.Text.Utf8

namespace GitTransport.Text

/-! ## Numbers of characters and of bytes -/

/-- No character has the number of a surrogate. -/
theorem toNat_lt_or (c : Char) :
    c.toNat < 0xd800 ∨ (0xdfff < c.toNat ∧ c.toNat < 0x110000) := c.valid

/-- What holds of the characters with the numbers below a bound. -/
@[elab_as_elim]
theorem of_toNat_lt {bound : Nat} {P : Char → Prop} (c : Char) (hc : c.toNat < bound)
    (h : ∀ n < bound, P (Char.ofNat n)) : P c := by
  have hP := h c.toNat hc
  rwa [Char.ofNat_toNat] at hP

/-- A decimal digit is ASCII. -/
theorem toNat_lt_of_isDigit {c : Char} (h : c.isDigit = true) : c.toNat < 0x80 := by
  obtain ⟨-, hle⟩ := Bool.and_eq_true_iff.1 h
  exact Nat.lt_of_le_of_lt (UInt32.le_iff_toNat_le.1 (of_decide_eq_true hle)) (by decide)

/-- A letter is ASCII. -/
theorem toNat_lt_of_isAlpha {c : Char} (h : c.isAlpha = true) : c.toNat < 0x80 := by
  rcases Bool.or_eq_true_iff.1 h with h | h
  · obtain ⟨-, hle⟩ := of_decide_eq_true h
    exact Nat.lt_of_le_of_lt (UInt32.le_iff_toNat_le.1 hle) (by decide)
  · obtain ⟨-, hle⟩ := Bool.and_eq_true_iff.1 h
    exact Nat.lt_of_le_of_lt (UInt32.le_iff_toNat_le.1 (of_decide_eq_true hle)) (by decide)

theorem toNat_ofNat_lt {n : Nat} (h : n < 256) : (UInt8.ofNat n).toNat = n := by
  rw [UInt8.toNat_ofNat', Nat.mod_eq_of_lt h]

/-! ## The steps of the reader -/

/-- A first byte opens a character. -/
theorem decodeUtf8From_first {b : UInt8} {p : PartialChar} (h : lead b = .first p)
    (rest : List UInt8) : decodeUtf8From none (b :: rest) = decodeUtf8From (some p) rest := by
  simp only [decodeUtf8From, h]

/-- A byte within the bounds goes into a character that more bytes follow for. -/
theorem decodeUtf8From_more {bits owed low high x : Nat} (hx : x < 64) (hlow : low ≤ 0x80 + x)
    (hhigh : 0x80 + x ≤ high) (rest : List UInt8) :
    decodeUtf8From (some ⟨bits, owed + 2, low, high⟩) (UInt8.ofNat (0x80 + x) :: rest) =
      decodeUtf8From (some ⟨bits * 64 + x, owed + 1, 0x80, 0xbf⟩) rest := by
  have hbits : (0x80 + x) % 64 = x := by omega
  simp only [decodeUtf8From, toNat_ofNat_lt (show 0x80 + x < 256 by omega)]
  rw [if_pos ⟨hlow, hhigh⟩, if_neg (by omega), hbits]
  rfl

/-- A last byte within the bounds completes the character. -/
theorem decodeUtf8From_last {bits low high x : Nat} (hx : x < 64) (hlow : low ≤ 0x80 + x)
    (hhigh : 0x80 + x ≤ high) (rest : List UInt8) :
    decodeUtf8From (some ⟨bits, 1, low, high⟩) (UInt8.ofNat (0x80 + x) :: rest) =
      Char.ofNat (bits * 64 + x) :: decodeUtf8From none rest := by
  have hbits : (0x80 + x) % 64 = x := by omega
  simp only [decodeUtf8From, toNat_ofNat_lt (show 0x80 + x < 256 by omega)]
  rw [if_pos ⟨hlow, hhigh⟩, if_pos (Nat.le_refl 1), hbits]

/-! ## The form of a character -/

theorem utf8Char_of_lt {c : Char} (h : c.toNat < 0x80) : utf8Char c = [UInt8.ofNat c.toNat] := by
  simp only [utf8Char]
  rw [if_pos h]

/-- Reading the form of a character gives the character back, whatever follows it. -/
theorem decodeUtf8From_utf8Char (c : Char) (rest : List UInt8) :
    decodeUtf8From none (utf8Char c ++ rest) = c :: decodeUtf8From none rest := by
  have hvalid := toNat_lt_or c
  -- the four lengths that a form can have
  by_cases h1 : c.toNat < 0x80
  · have hlead : lead (UInt8.ofNat c.toNat) = .whole c := by
      simp only [lead, toNat_ofNat_lt (show c.toNat < 256 by omega)]
      rw [if_pos h1, Char.ofNat_toNat]
    rw [utf8Char_of_lt h1]
    simp only [List.cons_append, List.nil_append, decodeUtf8From, hlead]
  simp only [utf8Char, Nat.shiftRight_eq_div_pow]
  rw [if_neg h1]
  by_cases h2 : c.toNat < 0x800
  · have hlead : lead (UInt8.ofNat (0xc0 + c.toNat / 0x40)) =
        .first ⟨c.toNat / 0x40, 1, 0x80, 0xbf⟩ := by
      simp only [lead, toNat_ofNat_lt (show 0xc0 + c.toNat / 0x40 < 256 by omega)]
      rw [if_neg (by omega), if_neg (by omega), if_pos (by omega), Nat.add_sub_cancel_left]
    have hbits : c.toNat / 0x40 * 64 + c.toNat / 2 ^ 0 % 64 = c.toNat := by omega
    rw [if_pos h2, List.cons_append, List.cons_append, List.nil_append,
      decodeUtf8From_first hlead, decodeUtf8From_last (by omega) (by omega) (by omega), hbits,
      Char.ofNat_toNat]
  rw [if_neg h2]
  by_cases h3 : c.toNat < 0x10000
  · -- the bounds of the second byte hang on the first one
    have hlead : lead (UInt8.ofNat (0xe0 + c.toNat / 0x1000)) =
        .first ⟨c.toNat / 0x1000, 2, if 0xe0 + c.toNat / 0x1000 = 0xe0 then 0xa0 else 0x80,
          if 0xe0 + c.toNat / 0x1000 = 0xed then 0x9f else 0xbf⟩ := by
      simp only [lead, toNat_ofNat_lt (show 0xe0 + c.toNat / 0x1000 < 256 by omega)]
      rw [if_neg (by omega), if_neg (by omega), if_neg (by omega), if_pos (by omega),
        Nat.add_sub_cancel_left]
    have hlow : (if 0xe0 + c.toNat / 0x1000 = 0xe0 then 0xa0 else 0x80) ≤
        0x80 + c.toNat / 2 ^ 6 % 64 := by
      split <;> omega
    have hhigh : 0x80 + c.toNat / 2 ^ 6 % 64 ≤
        (if 0xe0 + c.toNat / 0x1000 = 0xed then 0x9f else 0xbf) := by
      split <;> omega
    have hbits : (c.toNat / 0x1000 * 64 + c.toNat / 2 ^ 6 % 64) * 64 + c.toNat / 2 ^ 0 % 64 =
        c.toNat := by omega
    rw [if_pos h3, List.cons_append, List.cons_append, List.cons_append, List.nil_append,
      decodeUtf8From_first hlead, decodeUtf8From_more (by omega) hlow hhigh,
      decodeUtf8From_last (by omega) (by omega) (by omega), hbits, Char.ofNat_toNat]
  · have hlead : lead (UInt8.ofNat (0xf0 + c.toNat / 0x40000)) =
        .first ⟨c.toNat / 0x40000, 3, if 0xf0 + c.toNat / 0x40000 = 0xf0 then 0x90 else 0x80,
          if 0xf0 + c.toNat / 0x40000 = 0xf4 then 0x8f else 0xbf⟩ := by
      simp only [lead, toNat_ofNat_lt (show 0xf0 + c.toNat / 0x40000 < 256 by omega)]
      rw [if_neg (by omega), if_neg (by omega), if_neg (by omega), if_neg (by omega),
        if_pos (by omega), Nat.add_sub_cancel_left]
    have hlow : (if 0xf0 + c.toNat / 0x40000 = 0xf0 then 0x90 else 0x80) ≤
        0x80 + c.toNat / 2 ^ 12 % 64 := by
      split <;> omega
    have hhigh : 0x80 + c.toNat / 2 ^ 12 % 64 ≤
        (if 0xf0 + c.toNat / 0x40000 = 0xf4 then 0x8f else 0xbf) := by
      split <;> omega
    have hbits : ((c.toNat / 0x40000 * 64 + c.toNat / 2 ^ 12 % 64) * 64 +
        c.toNat / 2 ^ 6 % 64) * 64 + c.toNat / 2 ^ 0 % 64 = c.toNat := by omega
    rw [if_neg h3, List.cons_append, List.cons_append, List.cons_append, List.cons_append,
      List.nil_append, decodeUtf8From_first hlead, decodeUtf8From_more (by omega) hlow hhigh,
      decodeUtf8From_more (by omega) (by omega) (by omega),
      decodeUtf8From_last (by omega) (by omega) (by omega), hbits, Char.ofNat_toNat]

/-! ## The form of a text -/

@[simp] theorem utf8_nil : utf8 [] = [] := rfl

theorem utf8_cons (c : Char) (text : List Char) : utf8 (c :: text) = utf8Char c ++ utf8 text := rfl

theorem utf8_append (first rest : List Char) : utf8 (first ++ rest) = utf8 first ++ utf8 rest :=
  List.flatMap_append

/-- Reading the form of a text gives the text back. -/
theorem decodeUtf8_utf8 (text : List Char) : decodeUtf8 (utf8 text) = text := by
  induction text with
  | nil => rfl
  | cons c text ih => rw [utf8_cons, decodeUtf8, decodeUtf8From_utf8Char, ← decodeUtf8, ih]

theorem utf8_injective : Function.Injective utf8 := Function.LeftInverse.injective decodeUtf8_utf8

/-! ## Lengths -/

theorem length_utf8Char_pos (c : Char) : 0 < (utf8Char c).length := by
  simp only [utf8Char]
  split
  · exact Nat.zero_lt_succ _
  · split
    · exact Nat.zero_lt_succ _
    · split <;> exact Nat.zero_lt_succ _

/-- What is left of a text has a form that is not longer, and a shorter one when anything
    was left out. -/
theorem eq_of_sublist_of_length_utf8 {part text : List Char} (h : part.Sublist text) :
    (utf8 part).length ≤ (utf8 text).length ∧
      ((utf8 part).length = (utf8 text).length → part = text) := by
  induction h with
  | slnil => exact ⟨Nat.le_refl _, fun _ => rfl⟩
  | cons c _ ih =>
    rw [utf8_cons, List.length_append]
    have hpos := length_utf8Char_pos c
    exact ⟨by omega, fun heq => by omega⟩
  | cons_cons c _ ih =>
    rw [utf8_cons, utf8_cons, List.length_append, List.length_append]
    exact ⟨by omega, fun heq => by rw [ih.2 (by omega)]⟩

/-! ## Order -/

/-- Bytes are compared by the first one that differs. -/
theorem cons_lt_cons {m n : Nat} {x y : List UInt8} (hn : n < 256) (hle : m ≤ n)
    (h : m = n → x < y) : UInt8.ofNat m :: x < UInt8.ofNat n :: y := by
  rw [List.cons_lt_cons_iff, UInt8.lt_iff_toNat_lt, toNat_ofNat_lt hn,
    toNat_ofNat_lt (Nat.lt_of_le_of_lt hle hn)]
  rcases Nat.lt_or_eq_of_le hle with hlt | rfl
  · exact .inl hlt
  · exact .inr ⟨rfl, h rfl⟩

theorem cons_lt_cons_of_lt {m n : Nat} (x y : List UInt8) (hn : n < 256) (hlt : m < n) :
    UInt8.ofNat m :: x < UInt8.ofNat n :: y :=
  cons_lt_cons hn (Nat.le_of_lt hlt) fun heq => absurd heq (Nat.ne_of_lt hlt)

/-- The first byte of a character, by its code point. -/
def firstByte (n : Nat) : Nat :=
  if n < 0x80 then n
  else if n < 0x800 then 0xc0 + n / 0x40
  else if n < 0x10000 then 0xe0 + n / 0x1000
  else 0xf0 + n / 0x40000

theorem exists_utf8Char_eq (c : Char) :
    ∃ rest, utf8Char c = UInt8.ofNat (firstByte c.toNat) :: rest := by
  unfold utf8Char firstByte
  by_cases h1 : c.toNat < 0x80
  · exact ⟨[], by rw [if_pos h1, if_pos h1]⟩
  by_cases h2 : c.toNat < 0x800
  · exact ⟨_, by rw [if_neg h1, if_pos h2, if_neg h1, if_pos h2]⟩
  by_cases h3 : c.toNat < 0x10000
  · exact ⟨_, by rw [if_neg h1, if_neg h2, if_pos h3, if_neg h1, if_neg h2, if_pos h3]⟩
  · exact ⟨_, by rw [if_neg h1, if_neg h2, if_neg h3, if_neg h1, if_neg h2, if_neg h3]⟩

theorem firstByte_lt {n : Nat} (h : n < 0x110000) : firstByte n < 256 := by
  unfold firstByte
  repeat' split
  all_goals omega

theorem firstByte_mono {m n : Nat} (hn : n < 0x110000) (h : m ≤ n) :
    firstByte m ≤ firstByte n := by
  unfold firstByte
  repeat' split
  all_goals omega

/-- Characters with one first byte have forms of one length. -/
theorem length_eq_of_firstByte_eq {m n : Nat} (hn : n < 0x110000) (hm : m < n)
    (h : firstByte m = firstByte n) :
    0x80 ≤ m ∧ n < 0x800 ∨ 0x800 ≤ m ∧ n < 0x10000 ∨ 0x10000 ≤ m := by
  unfold firstByte at h
  repeat' split at h
  all_goals omega

/-- The form of an earlier character is less, whatever follows either. -/
theorem utf8Char_append_lt {c d : Char} (h : c.toNat < d.toNat) (x y : List UInt8) :
    utf8Char c ++ x < utf8Char d ++ y := by
  have hd : d.toNat < 0x110000 := by
    have hvalid := toNat_lt_or d
    omega
  rcases Nat.lt_or_eq_of_le (firstByte_mono hd (Nat.le_of_lt h)) with hlt | heq
  · obtain ⟨form, hc⟩ := exists_utf8Char_eq c
    obtain ⟨form', hd'⟩ := exists_utf8Char_eq d
    rw [hc, hd']
    exact cons_lt_cons_of_lt _ _ (firstByte_lt hd) hlt
  -- the forms have one length, and differ in some byte behind the first one
  simp only [utf8Char, Nat.shiftRight_eq_div_pow]
  rcases length_eq_of_firstByte_eq hd h heq with ⟨hlow, hhigh⟩ | ⟨hlow, hhigh⟩ | hlow
  · rw [if_neg (by omega), if_pos (by omega), if_neg (by omega), if_pos (by omega)]
    exact cons_lt_cons (by omega) (by omega) fun _ => cons_lt_cons_of_lt _ _ (by omega) (by omega)
  · rw [if_neg (by omega), if_neg (by omega), if_pos (by omega), if_neg (by omega),
      if_neg (by omega), if_pos (by omega)]
    exact cons_lt_cons (by omega) (by omega) fun _ => cons_lt_cons (by omega) (by omega) fun _ =>
      cons_lt_cons_of_lt _ _ (by omega) (by omega)
  · rw [if_neg (by omega), if_neg (by omega), if_neg (by omega), if_neg (by omega),
      if_neg (by omega), if_neg (by omega)]
    exact cons_lt_cons (by omega) (by omega) fun _ => cons_lt_cons (by omega) (by omega) fun _ =>
      cons_lt_cons (by omega) (by omega) fun _ => cons_lt_cons_of_lt _ _ (by omega) (by omega)

/-- Texts in the order of their code points are in the order of their bytes. -/
theorem utf8_lt_utf8 {a b : List Char} (h : a < b) : utf8 a < utf8 b := by
  induction h with
  | @nil c text =>
    have hpos := length_utf8Char_pos c
    rw [utf8_cons]
    cases hform : utf8Char c with
    | nil => simp [hform] at hpos
    | cons b form => exact List.Lex.nil
  | rel h => exact utf8Char_append_lt h _ _
  | cons _ ih =>
    rw [utf8_cons, utf8_cons]
    exact List.append_left_lt ih

/-- And the other way round, since one of two texts comes first. -/
theorem utf8_lt_utf8_iff {a b : String} : utf8 a.toList < utf8 b.toList ↔ a < b := by
  constructor
  · intro hbytes
    refine Decidable.byContradiction fun hnot => ?_
    by_cases hafter : b < a
    · exact List.lt_asymm hbytes (utf8_lt_utf8 (String.lt_iff.1 hafter))
    · have heq : a = b := String.le_antisymm (String.not_lt.1 hafter) (String.not_lt.1 hnot)
      rw [heq] at hbytes
      exact List.lt_irrefl _ hbytes
  · intro hlt
    exact utf8_lt_utf8 (String.lt_iff.1 hlt)

end GitTransport.Text
