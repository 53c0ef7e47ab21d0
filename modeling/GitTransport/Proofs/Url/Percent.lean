/-
What is read out of an encoded part of an address.

  Percent encoding writes a character as its bytes, three characters for each, and the
  reader puts the bytes together again (`percentDecodeBytes_percentChar`).  In a
  segment of a path the percent sign is not encoded, so a text that has an escape of
  its own is not read back: what is read is shorter than the text (`length_pathBytes`).
  Every other text is read back (`pathBytes_eq_utf8`).

  A form encodes everything that its grammar uses, so all its names and values are
  read back (`formPairs_appendPairs`).
-/

import GitTransport.Url.Percent
import GitTransport.Proofs.Text.Pieces

namespace GitTransport.Url

open Text

/-! ## Single bytes -/

theorem utf8Char_percent : utf8Char '%' = [0x25] := by decide

@[simp] theorem percentDecodeBytes_nil : percentDecodeBytes [] = [] := by
  simp [percentDecodeBytes]

@[simp] theorem percentDecodeBytes_singleton (b : UInt8) : percentDecodeBytes [b] = [b] := by
  simp [percentDecodeBytes]

/-- A byte that is no percent sign stands for itself. -/
theorem percentDecodeBytes_cons_ne {b : UInt8} (h : b ≠ 0x25) (rest : List UInt8) :
    percentDecodeBytes (b :: rest) = b :: percentDecodeBytes rest := by
  match rest with
  | [] => simp
  | [x] => simp [percentDecodeBytes, h]
  | x :: y :: rest => rw [percentDecodeBytes, if_neg h]

/-- A percent sign stands for itself when no digit follows. -/
theorem percentDecodeBytes_percent_of_first {x : UInt8} (hx : hexValue? x = none)
    (rest : List UInt8) :
    percentDecodeBytes (0x25 :: x :: rest) = 0x25 :: percentDecodeBytes (x :: rest) := by
  cases rest with
  | nil => simp [percentDecodeBytes]
  | cons y rest =>
    rw [percentDecodeBytes, if_pos rfl]
    simp only [hx]

/-- So it does when a single digit follows. -/
theorem percentDecodeBytes_percent_of_second (x : UInt8) {y : UInt8} (hy : hexValue? y = none)
    (rest : List UInt8) :
    percentDecodeBytes (0x25 :: x :: y :: rest) = 0x25 :: percentDecodeBytes (x :: y :: rest) := by
  rw [percentDecodeBytes, if_pos rfl]
  cases hexValue? x <;> simp only [hy]

/-- A percent sign and two digits stand for one byte. -/
theorem percentDecodeBytes_escape {x y : UInt8} {v w : Nat} (hx : hexValue? x = some v)
    (hy : hexValue? y = some w) (rest : List UInt8) :
    percentDecodeBytes (0x25 :: x :: y :: rest) =
      UInt8.ofNat (v * 16 + w) :: percentDecodeBytes rest := by
  rw [percentDecodeBytes, if_pos rfl]
  simp only [hx, hy]

/-- The digits that encoding writes are ASCII and have their value. -/
theorem hexDigit_spec : ∀ n < 16, (hexDigit n).toNat < 0x80 ∧
    hexValue? (UInt8.ofNat (hexDigit n).toNat) = some n := by decide

theorem utf8_percentByte (b : UInt8) : utf8 (percentByte b) =
    [0x25, UInt8.ofNat (hexDigit (b.toNat / 16)).toNat,
      UInt8.ofNat (hexDigit (b.toNat % 16)).toNat] := by
  have hb := b.toNat_lt
  have hhigh := (hexDigit_spec (b.toNat / 16) (by omega)).1
  have hlow := (hexDigit_spec (b.toNat % 16) (by omega)).1
  simp only [percentByte, utf8_cons, utf8_nil, utf8Char_percent, utf8Char_of_lt hhigh,
    utf8Char_of_lt hlow]
  rfl

/-- An encoded byte is read back. -/
theorem percentDecodeBytes_percentByte (b : UInt8) (rest : List UInt8) :
    percentDecodeBytes (utf8 (percentByte b) ++ rest) = b :: percentDecodeBytes rest := by
  have hb := b.toNat_lt
  have hhigh := (hexDigit_spec (b.toNat / 16) (by omega)).2
  have hlow := (hexDigit_spec (b.toNat % 16) (by omega)).2
  have hvalue : b.toNat / 16 * 16 + b.toNat % 16 = b.toNat := by omega
  rw [utf8_percentByte, List.cons_append, List.cons_append, List.cons_append, List.nil_append,
    percentDecodeBytes_escape hhigh hlow, hvalue, UInt8.ofNat_toNat]

theorem percentDecodeBytes_percentBytes (bytes rest : List UInt8) :
    percentDecodeBytes (utf8 (bytes.flatMap percentByte) ++ rest) =
      bytes ++ percentDecodeBytes rest := by
  induction bytes with
  | nil => rfl
  | cons b bytes ih =>
    rw [List.flatMap_cons, utf8_append, List.append_assoc, percentDecodeBytes_percentByte, ih,
      List.cons_append]

/-- An encoded character is read back as its bytes. -/
theorem percentDecodeBytes_percentChar (c : Char) (rest : List UInt8) :
    percentDecodeBytes (utf8 (percentChar c) ++ rest) = utf8Char c ++ percentDecodeBytes rest :=
  percentDecodeBytes_percentBytes (utf8Char c) rest

/-! ## Segments of a path -/

/-- Whether a character is a hexadecimal digit. -/
def isHexDigit (c : Char) : Bool := (digit? 16 c).isSome

/-- Whether a text begins with a percent sign and two hexadecimal digits. -/
def startsEscape : List Char → Bool
  | '%' :: x :: y :: _ => isHexDigit x && isHexDigit y
  | _ => false

/-- Whether a percent sign and two hexadecimal digits stand anywhere in a text. -/
def hasEscape : List Char → Bool
  | [] => false
  | c :: rest => startsEscape (c :: rest) || hasEscape rest

/-- The bytes that are read out of the segment written for a text. -/
def pathBytes (text : List Char) : List UInt8 := percentDecode (percentEncode inPath text)

theorem percentEncode_cons (encodes : Char → Bool) (c : Char) (text : List Char) :
    percentEncode encodes (c :: text) =
      (if encodes c then percentChar c else [c]) ++ percentEncode encodes text := rfl

/-- What a segment leaves as it is is ASCII. -/
theorem toNat_lt_of_not_inPath {c : Char} (h : inPath c = false) : c.toNat < 0x80 := by
  simp only [inPath, inFragment, inControls, Bool.or_eq_false_iff, decide_eq_false_iff_not] at h
  omega

/-- Only the percent sign has its byte among the ASCII characters. -/
theorem ofNat_toNat_ne_percent {c : Char} (hlt : c.toNat < 0x80) (h : c ≠ '%') :
    UInt8.ofNat c.toNat ≠ 0x25 := by
  intro heq
  have hnat := congrArg UInt8.toNat heq
  rw [toNat_ofNat_lt (by omega)] at hnat
  exact h (Char.toNat_inj.1 hnat)

/-- A character that is no percent sign is read back, encoded or not. -/
theorem pathBytes_cons_of_ne {c : Char} (h : c ≠ '%') (text : List Char) :
    pathBytes (c :: text) = utf8Char c ++ pathBytes text := by
  simp only [pathBytes, percentDecode, percentEncode_cons]
  cases hin : inPath c with
  | true => rw [if_pos rfl, utf8_append, percentDecodeBytes_percentChar]
  | false =>
    have hlt := toNat_lt_of_not_inPath hin
    have hne := ofNat_toNat_ne_percent hlt h
    rw [if_neg Bool.false_ne_true, utf8_append, utf8_cons, utf8_nil, List.append_nil,
      utf8Char_of_lt hlt, List.cons_append, List.nil_append, percentDecodeBytes_cons_ne hne]
    rfl

/-! ### Escapes -/

/-- A hexadecimal digit is ASCII, and a segment leaves it as it is. -/
theorem spec_of_isHexDigit {c : Char} (h : isHexDigit c = true) :
    c.toNat < 0x80 ∧ inPath c = false := by
  have hlt : c.toNat < 0x80 := by
    simp only [isHexDigit, digit?, Char.le_def, UInt32.le_iff_toNat_le] at h
    refine Nat.lt_of_not_le fun hlarge => ?_
    rw [if_neg (fun hle => absurd (Nat.le_trans hlarge hle.2) (by decide)),
      if_neg (fun hle => absurd (Nat.le_trans hlarge hle.2) (by decide)),
      if_neg (fun hle => absurd (Nat.le_trans hlarge hle.2) (by decide))] at h
    cases h
  have hall : isHexDigit c = true → inPath c = false := of_toNat_lt c hlt (by decide)
  exact ⟨hlt, hall h⟩

/-- The encoded form of a text begins with a digit exactly when the text does. -/
theorem utf8_percentEncode_cons (c : Char) (text : List Char) :
    (isHexDigit c = true ∧ (∃ v, hexValue? (UInt8.ofNat c.toNat) = some v) ∧
      utf8 (percentEncode inPath (c :: text)) =
        UInt8.ofNat c.toNat :: utf8 (percentEncode inPath text)) ∨
    (isHexDigit c = false ∧ ∃ b rest, hexValue? b = none ∧
      utf8 (percentEncode inPath (c :: text)) = b :: rest) := by
  rw [percentEncode_cons, utf8_append]
  have hvalue (hlt : c.toNat < 0x80) : hexValue? (UInt8.ofNat c.toNat) = digit? 16 c := by
    rw [hexValue?, toNat_ofNat_lt (by omega), Char.ofNat_toNat]
  cases hin : inPath c with
  | true =>
    -- what is encoded begins with a percent sign
    have hdigit : isHexDigit c = false := by
      cases h : isHexDigit c with
      | false => rfl
      | true => rw [(spec_of_isHexDigit h).2] at hin; cases hin
    obtain ⟨b, bytes, hbytes⟩ := List.exists_cons_of_length_pos (length_utf8Char_pos c)
    rw [if_pos rfl, percentChar, hbytes, List.flatMap_cons, utf8_append, utf8_percentByte]
    exact .inr ⟨hdigit, 0x25, _, by decide, rfl⟩
  | false =>
    have hlt := toNat_lt_of_not_inPath hin
    rw [if_neg Bool.false_ne_true, utf8_cons, utf8_nil, List.append_nil, utf8Char_of_lt hlt]
    cases hdigit : isHexDigit c with
    | true =>
      obtain ⟨v, hv⟩ := Option.isSome_iff_exists.1 hdigit
      exact .inl ⟨rfl, ⟨v, (hvalue hlt).trans hv⟩, rfl⟩
    | false =>
      have hnone : digit? 16 c = none := by simpa [isHexDigit] using hdigit
      exact .inr ⟨rfl, _, _, (hvalue hlt).trans hnone, rfl⟩

/-- A percent sign that begins no escape is read back. -/
theorem pathBytes_percent {text : List Char} (h : startsEscape ('%' :: text) = false) :
    pathBytes ('%' :: text) = 0x25 :: pathBytes text := by
  have hstart : pathBytes ('%' :: text) =
      percentDecodeBytes (0x25 :: utf8 (percentEncode inPath text)) := rfl
  rw [hstart]
  cases text with
  | nil => rfl
  | cons x text =>
    rcases utf8_percentEncode_cons x text with ⟨hx, ⟨v, hv⟩, hbytes⟩ | ⟨-, b, rest, hb, hbytes⟩
    · -- behind one digit there is no second one
      rw [pathBytes, percentDecode, hbytes]
      cases text with
      | nil => simp [percentDecodeBytes, percentEncode]
      | cons y text =>
        rcases utf8_percentEncode_cons y text with ⟨hy, -, -⟩ | ⟨-, b, rest, hb, hrest⟩
        · simp [startsEscape, hx, hy] at h
        · rw [hrest, percentDecodeBytes_percent_of_second _ hb]
    · rw [pathBytes, percentDecode, hbytes, percentDecodeBytes_percent_of_first hb]

/-- An escape is read as a single byte. -/
theorem pathBytes_escape {x y : Char} (hx : isHexDigit x = true) (hy : isHexDigit y = true)
    (text : List Char) : ∃ b, pathBytes ('%' :: x :: y :: text) = b :: pathBytes text := by
  have hstart : pathBytes ('%' :: x :: y :: text) =
      percentDecodeBytes (0x25 :: utf8 (percentEncode inPath (x :: y :: text))) := rfl
  rcases utf8_percentEncode_cons x (y :: text) with ⟨-, ⟨v, hv⟩, hxs⟩ | ⟨hnot, -⟩
  · rcases utf8_percentEncode_cons y text with ⟨-, ⟨w, hw⟩, hys⟩ | ⟨hnot, -⟩
    · refine ⟨UInt8.ofNat (v * 16 + w), ?_⟩
      rw [hstart, hxs, hys, percentDecodeBytes_escape hv hw]
      rfl
    · rw [hy] at hnot; cases hnot
  · rw [hx] at hnot; cases hnot

theorem exists_of_startsEscape {text : List Char} (h : startsEscape text = true) :
    ∃ x y rest, text = '%' :: x :: y :: rest ∧ isHexDigit x = true ∧ isHexDigit y = true := by
  unfold startsEscape at h
  split at h
  · next x y rest =>
    rw [Bool.and_eq_true] at h
    exact ⟨x, y, rest, rfl, h⟩
  · cases h

/-! ### Texts -/

/-- A text without escapes is read back. -/
theorem pathBytes_eq_utf8 {text : List Char} (h : hasEscape text = false) :
    pathBytes text = utf8 text := by
  induction text with
  | nil => rfl
  | cons c text ih =>
    rw [hasEscape, Bool.or_eq_false_iff] at h
    rw [utf8_cons, ← ih h.2]
    by_cases hc : c = '%'
    · subst hc
      rw [pathBytes_percent h.1, utf8Char_percent]
      rfl
    · exact pathBytes_cons_of_ne hc text

/-- What is read is never longer than the text, and shorter if there is an escape.  The
    recursion steps over a whole escape, so it is not the one of lists. -/
theorem length_pathBytes (text : List Char) :
    (pathBytes text).length + (if hasEscape text then 1 else 0) ≤ (utf8 text).length := by
  match text with
  | [] => decide
  | c :: text =>
    rw [hasEscape]
    cases hstart : startsEscape (c :: text) with
    | false =>
      have ih := length_pathBytes text
      rw [Bool.false_or, utf8_cons, List.length_append]
      by_cases hc : c = '%'
      · subst hc
        rw [pathBytes_percent hstart, utf8Char_percent, List.length_cons, List.length_singleton]
        omega
      · rw [pathBytes_cons_of_ne hc, List.length_append]
        omega
    | true =>
      obtain ⟨x, y, rest, heq, hx, hy⟩ := exists_of_startsEscape hstart
      cases heq
      obtain ⟨b, hb⟩ := pathBytes_escape hx hy rest
      have ih := length_pathBytes rest
      have hpercent := length_utf8Char_pos '%'
      have hxpos := length_utf8Char_pos x
      have hypos := length_utf8Char_pos y
      rw [hb, utf8_cons, utf8_cons, utf8_cons, Bool.true_or, if_pos rfl]
      simp only [List.length_append, List.length_cons]
      split at ih <;> omega
termination_by text.length

/-! ## Names and values of forms -/

/-- The characters that the grammar of forms uses, but for the percent sign. -/
def isFormMark (c : Char) : Bool := c = '+' || c = '&' || c = '='

/-- What a form leaves as it is is ASCII and has no meaning in its grammar. -/
theorem spec_of_isFormPlain {c : Char} (h : isFormPlain c = true) :
    c.toNat < 0x80 ∧ c ≠ '%' ∧ isFormMark c = false := by
  have hlt : c.toNat < 0x80 := by
    simp only [isFormPlain, Char.isAlphanum, Bool.or_eq_true, List.contains_iff_mem,
      List.mem_cons, List.not_mem_nil] at h
    rcases h with (h | h) | rfl | rfl | rfl | rfl | h
    · exact toNat_lt_of_isAlpha h
    · exact toNat_lt_of_isDigit h
    · decide
    · decide
    · decide
    · decide
    · cases h
  have hall : isFormPlain c = true → c ≠ '%' ∧ isFormMark c = false :=
    of_toNat_lt c hlt (by decide)
  exact ⟨hlt, hall h⟩

/-- Encoding writes percent signs and hexadecimal digits. -/
theorem mem_percentChar {c x : Char} (h : x ∈ percentChar c) :
    x = '%' ∨ ∃ n < 16, x = hexDigit n := by
  obtain ⟨b, -, hb⟩ := List.mem_flatMap.1 h
  have hlt := b.toNat_lt
  simp only [percentByte, List.mem_cons, List.not_mem_nil, or_false] at hb
  rcases hb with rfl | rfl | rfl
  · exact .inl rfl
  · exact .inr ⟨_, by omega, rfl⟩
  · exact .inr ⟨_, by omega, rfl⟩

theorem percentChar_ne_nil (c : Char) : percentChar c ≠ [] := by
  obtain ⟨b, bytes, hbytes⟩ := List.exists_cons_of_length_pos (length_utf8Char_pos c)
  rw [percentChar, hbytes, List.flatMap_cons]
  exact List.append_ne_nil_of_left_ne_nil (List.cons_ne_nil _ _) _

/-- Encoding writes no character that the grammar of forms uses. -/
theorem isFormMark_of_mem_percentChar {c x : Char} (h : x ∈ percentChar c) :
    isFormMark x = false := by
  have hall : ∀ n < 16, isFormMark (hexDigit n) = false := by decide
  rcases mem_percentChar h with rfl | ⟨n, hn, rfl⟩
  · decide
  · exact hall n hn

theorem formEncode_cons (c : Char) (text : List Char) : formEncode (c :: text) =
    (if isFormPlain c then [c] else if c = ' ' then ['+'] else percentChar c) ++
      formEncode text := rfl

/-- A blank for every plus sign, which the reader of a form puts there first. -/
def spaced (text : List Char) : List Char := text.map fun c => if c = '+' then ' ' else c

theorem spaced_eq_self {text : List Char} (h : ∀ c ∈ text, isFormMark c = false) :
    spaced text = text := by
  refine (List.map_congr_left fun c hc => ?_).trans (List.map_id text)
  have hmark := h c hc
  rw [if_neg (fun heq => by rw [heq] at hmark; cases hmark)]
  rfl

/-- An encoded name or value is read back, the blanks among it too. -/
theorem percentDecode_spaced_formEncode (text : List Char) :
    percentDecode (spaced (formEncode text)) = utf8 text := by
  induction text with
  | nil => rfl
  | cons c text ih =>
    have happend (first rest : List Char) : spaced (first ++ rest) = spaced first ++ spaced rest :=
      List.map_append
    rw [formEncode_cons, happend, percentDecode, utf8_append, utf8_cons]
    rw [percentDecode] at ih
    -- a character is left as it is, becomes a plus sign, or is written byte by byte
    by_cases hplain : isFormPlain c = true
    · obtain ⟨hlt, hpercent, hmark⟩ := spec_of_isFormPlain hplain
      have hself : spaced [c] = [c] := spaced_eq_self (List.forall_mem_singleton.2 hmark)
      have hne := ofNat_toNat_ne_percent hlt hpercent
      rw [if_pos hplain, hself, utf8_cons, utf8_nil, List.append_nil, utf8Char_of_lt hlt,
        List.cons_append, List.nil_append, percentDecodeBytes_cons_ne hne, ih]
      rfl
    · rw [if_neg hplain]
      by_cases hblank : c = ' '
      · subst hblank
        have hspace : utf8 (spaced ['+']) = [0x20] := by decide
        rw [if_pos rfl, hspace, List.cons_append, List.nil_append,
          percentDecodeBytes_cons_ne (by decide), ih]
        rfl
      · have hself : spaced (percentChar c) = percentChar c :=
          spaced_eq_self fun x => isFormMark_of_mem_percentChar
        rw [if_neg hblank, hself, percentDecodeBytes_percentChar, ih]

theorem formDecode_formEncode (text : List Char) : formDecode (formEncode text) = text := by
  have hread : formDecode (formEncode text) =
      decodeUtf8 (percentDecode (spaced (formEncode text))) := rfl
  rw [hread, percentDecode_spaced_formEncode, decodeUtf8_utf8]

/-- An encoded name or value holds neither of the separators of a form. -/
theorem not_separator_of_mem_formEncode {text : List Char} :
    ∀ x ∈ formEncode text, x ≠ '&' ∧ x ≠ '=' := by
  intro x hx
  have hmark {y : Char} (h : isFormMark y = false) : y ≠ '&' ∧ y ≠ '=' := by
    simp only [isFormMark, Bool.or_eq_false_iff, decide_eq_false_iff_not] at h
    exact ⟨h.1.2, h.2⟩
  obtain ⟨c, -, hc⟩ := List.mem_flatMap.1 hx
  split at hc
  · next hplain =>
    rw [List.mem_singleton.1 hc]
    exact hmark (spec_of_isFormPlain hplain).2.2
  · split at hc
    · rw [List.mem_singleton.1 hc]
      decide
    · exact hmark (isFormMark_of_mem_percentChar hc)

/-! ## Whole forms -/

/-- The pair that a piece of a form is. -/
def pairOf (piece : List Char) : String × String :=
  (String.ofList (formDecode (piece.takeWhile (· ≠ '='))),
    String.ofList (formDecode ((piece.dropWhile (· ≠ '=')).drop 1)))

theorem pairOf_formPair (pair : String × String) : pairOf (formPair pair) = pair := by
  have hname : ∀ x ∈ formEncode pair.1.toList, decide (x ≠ '=') = true :=
    fun x hx => decide_eq_true (not_separator_of_mem_formEncode x hx).2
  have htake : (formPair pair).takeWhile (· ≠ '=') = formEncode pair.1.toList := by
    rw [formPair, List.takeWhile_append_of_pos hname]
    simp
  have hdrop : (formPair pair).dropWhile (· ≠ '=') = '=' :: formEncode pair.2.toList := by
    rw [formPair, List.dropWhile_append_of_pos hname]
    simp
  rw [pairOf, htake, hdrop, List.drop_one, List.tail_cons, formDecode_formEncode,
    formDecode_formEncode, String.ofList_toList, String.ofList_toList]

theorem formPair_ne_nil (pair : String × String) : formPair pair ≠ [] :=
  List.append_ne_nil_of_right_ne_nil _ (List.cons_ne_nil _ _)

theorem not_ampersand_of_mem_formPair {pair : String × String} :
    ∀ x ∈ formPair pair, decide (x = '&') = false := by
  intro x hx
  apply decide_eq_false
  rcases List.mem_append.1 hx with hx | hx
  · exact (not_separator_of_mem_formEncode x hx).1
  · rcases List.mem_cons.1 hx with rfl | hx
    · decide
    · exact (not_separator_of_mem_formEncode x hx).1

/-- Behind a pair every further one stands after an ampersand. -/
theorem appendPairs_of_ne_nil {query : List Char} (h : query ≠ [])
    (pairs : List (String × String)) :
    appendPairs query pairs = query ++ (pairs.map formPair).flatMap ('&' :: ·) := by
  induction pairs generalizing query with
  | nil => simp [appendPairs]
  | cons pair pairs ih =>
    have hstep : appendPairs query (pair :: pairs) =
        appendPairs (query ++ '&' :: formPair pair) pairs := by
      simp only [appendPairs, List.foldl_cons, List.isEmpty_iff]
      rw [if_neg h]
    rw [hstep, ih (List.append_ne_nil_of_left_ne_nil h _), List.map_cons, List.flatMap_cons,
      List.append_assoc]

/-- The pairs of a form that was written for a list of pairs are these pairs. -/
theorem formPairs_appendPairs (pairs : List (String × String)) :
    formPairs (appendPairs [] pairs) = pairs := by
  have hpieces (query : List Char) : formPairs query =
      ((splitAt (· = '&') query).filter fun piece => !piece.isEmpty).map pairOf := rfl
  cases pairs with
  | nil => rfl
  | cons pair pairs =>
    have hstart : appendPairs [] (pair :: pairs) = appendPairs (formPair pair) pairs := rfl
    have hall : ∀ piece ∈ (pair :: pairs).map formPair, (!piece.isEmpty) = true := by
      intro piece hpiece
      obtain ⟨source, -, rfl⟩ := List.mem_map.1 hpiece
      simpa using formPair_ne_nil source
    have hrest : ∀ piece ∈ pairs.map formPair, ∀ x ∈ piece, decide (x = '&') = false := by
      intro piece hpiece
      obtain ⟨source, -, rfl⟩ := List.mem_map.1 hpiece
      exact not_ampersand_of_mem_formPair
    rw [hstart, appendPairs_of_ne_nil (formPair_ne_nil pair), hpieces,
      splitAt_joined (by decide) not_ampersand_of_mem_formPair hrest, ← List.map_cons,
      List.filter_eq_self.2 hall, List.map_map]
    exact (List.map_congr_left fun source _ => pairOf_formPair source).trans (List.map_id _)

/-- Only a form of no pairs is empty, whatever the names and values are. -/
theorem appendPairs_eq_nil_iff (pairs : List (String × String)) :
    appendPairs [] pairs = [] ↔ pairs = [] := by
  constructor
  · intro h
    rw [← formPairs_appendPairs pairs, h]
    rfl
  · rintro rfl
    rfl

end GitTransport.Url
