/-
What the pieces of a text become as segments of a path.

  A piece that stands for a directory moves the path or leaves it where it is; any
  other piece is one more segment.  A piece is read back as it stands (`isLiteral`)
  when it is of the second kind and holds no escape.  No piece makes the path longer
  than its own length and a slash, and one that is not read back as it stands makes
  it longer by less (`weight_addPiece`).  So over a whole text the lengths tell
  whether anything was lost (`weight_addPieces`), and if nothing was, the pieces are
  the segments (`addPieces_of_literal`).
-/

import GitTransport.Url.Parser
import GitTransport.Proofs.Url.Percent

namespace GitTransport.Url

open Text

/-- The bytes of each segment of a path, as whoever serves the address reads them. -/
def Path.segmentBytes : Path → List (List UInt8)
  | .segments names => names.map fun name => percentDecode name.toList
  | .rootless text => [percentDecode text.toList]

/-! ## Dots -/

/-- The case of letters matters neither to digits nor to the marks of dots. -/
theorem toLower_spec (c : Char) : isHexDigit c.toLower = isHexDigit c ∧
    (c.toLower = '%' ↔ c = '%') ∧ (c.toLower = '.' ↔ c = '.') := by
  by_cases hlt : c.toNat < 0x80
  · exact of_toNat_lt c hlt (by decide)
  · -- beyond ASCII there is no case
    have hself : c.toLower = c := dif_neg fun ⟨_, hle⟩ =>
      hlt (Nat.lt_of_le_of_lt (UInt32.le_iff_toNat_le.1 hle) (by decide))
    rw [hself]
    exact ⟨rfl, Iff.rfl, Iff.rfl⟩

theorem startsEscape_map_toLower (text : List Char) :
    startsEscape (text.map Char.toLower) = startsEscape text := by
  match text with
  | [] => rfl
  | [c] => simp [startsEscape]
  | [c, x] => simp [startsEscape]
  | c :: x :: y :: rest =>
    simp only [List.map_cons]
    by_cases hc : c = '%'
    · subst hc
      have hpercent : '%'.toLower = '%' := by decide
      rw [hpercent]
      simp only [startsEscape, (toLower_spec x).1, (toLower_spec y).1]
    · have hlower : ¬ c.toLower = '%' := fun h => hc ((toLower_spec c).2.1.1 h)
      simp [startsEscape, hc, hlower]

theorem hasEscape_map_toLower (text : List Char) :
    hasEscape (text.map Char.toLower) = hasEscape text := by
  induction text with
  | nil => rfl
  | cons c text ih =>
    have hstart := startsEscape_map_toLower (c :: text)
    rw [List.map_cons] at hstart
    rw [List.map_cons, hasEscape, hasEscape, hstart, ih]

/-- A text without escapes does not stand for a longer one in small letters. -/
theorem map_toLower_ne {text target : List Char} (h : hasEscape text = false)
    (htarget : hasEscape target = true) : text.map Char.toLower ≠ target := by
  intro heq
  rw [← hasEscape_map_toLower, heq, htarget] at h
  cases h

theorem lower_eq_iff {text : List Char} {target : String} :
    lower (String.ofList text) = target ↔ text.map Char.toLower = target.toList := by
  rw [lower, String.toList_ofList, ← String.toList_inj, String.toList_ofList]

/-- Without escapes, only a dot is read as a dot. -/
theorem isSingleDot_iff {piece : List Char} (h : hasEscape piece = false) :
    isSingleDot piece = true ↔ piece = ['.'] := by
  have hescape := map_toLower_ne h (show hasEscape ['%', '2', 'e'] = true by decide)
  simp only [isSingleDot, List.contains_iff_mem, List.mem_cons, List.not_mem_nil, or_false,
    lower_eq_iff]
  constructor
  · rintro (hdot | hdot)
    · obtain ⟨c, rest, rfl, hc, hrest⟩ := List.map_eq_cons_iff.1 hdot
      rw [List.map_eq_nil_iff.1 hrest, (toLower_spec c).2.2.1 hc]
    · exact absurd hdot hescape
  · rintro rfl
    exact .inl (by decide)

/-- Without escapes, only two dots are read as two dots. -/
theorem isDoubleDot_iff {piece : List Char} (h : hasEscape piece = false) :
    isDoubleDot piece = true ↔ piece = ['.', '.'] := by
  have hfirst := map_toLower_ne h (show hasEscape ['%', '2', 'e', '.'] = true by decide)
  have hsecond := map_toLower_ne h (show hasEscape ['.', '%', '2', 'e'] = true by decide)
  have hboth := map_toLower_ne h
    (show hasEscape ['%', '2', 'e', '%', '2', 'e'] = true by decide)
  simp only [isDoubleDot, List.contains_iff_mem, List.mem_cons, List.not_mem_nil, or_false,
    lower_eq_iff]
  constructor
  · rintro (hdots | hdots | hdots | hdots)
    · obtain ⟨c, rest, rfl, hc, hrest⟩ := List.map_eq_cons_iff.1 hdots
      obtain ⟨d, rest, rfl, hd, hrest⟩ := List.map_eq_cons_iff.1 hrest
      rw [List.map_eq_nil_iff.1 hrest, (toLower_spec c).2.2.1 hc, (toLower_spec d).2.2.1 hd]
    · exact absurd hdots hfirst
    · exact absurd hdots hsecond
    · exact absurd hdots hboth
  · rintro rfl
    exact .inl (by decide)

/-! ## The pieces of a path -/

/-- Whether a piece of a path is read back as it stands. -/
def isLiteral (piece : List Char) : Bool :=
  !isDoubleDot piece && !isSingleDot piece && !hasEscape piece

/-- The lengths of segments in bytes, with one for the slash before each. -/
def weight (names : List String) : Nat :=
  (names.map fun name => (percentDecode name.toList).length + 1).sum

theorem weight_append (first rest : List String) :
    weight (first ++ rest) = weight first + weight rest := by
  rw [weight, List.map_append, List.sum_append]
  rfl

theorem weight_dropLast_le (names : List String) : weight names.dropLast ≤ weight names := by
  have h := weight_append names.dropLast (names.drop (names.length - 1))
  rw [List.dropLast_eq_take, List.take_append_drop] at h
  rw [List.dropLast_eq_take]
  omega

/-- Outside of files, the last segment is left out whatever it is. -/
theorem shorten_false (names : List String) : shorten false names = names.dropLast := by
  match names with
  | [] => rfl
  | [name] => simp [shorten]
  | name :: other :: rest => rfl

section

variable {names : List String} {piece : List Char} {isLast : Bool}

theorem addPiece_of_doubleDot (h : isDoubleDot piece = true) :
    addPiece false names piece isLast = names.dropLast ++ if isLast then [""] else [] := by
  rw [addPiece, if_pos h, shorten_false]

theorem addPiece_of_singleDot (hdouble : isDoubleDot piece = false)
    (hsingle : isSingleDot piece = true) :
    addPiece false names piece isLast = names ++ if isLast then [""] else [] := by
  rw [addPiece, if_neg (Bool.eq_false_iff.1 hdouble), if_pos hsingle]

theorem addPiece_of_name (hdouble : isDoubleDot piece = false)
    (hsingle : isSingleDot piece = false) :
    addPiece false names piece isLast =
      names ++ [String.ofList (percentEncode inPath piece)] := by
  rw [addPiece, if_neg (Bool.eq_false_iff.1 hdouble), if_neg (Bool.eq_false_iff.1 hsingle),
    if_neg (fun h => Bool.false_ne_true h.1)]

/-- A piece adds its length in bytes, and less if it is not read back as it stands. -/
theorem weight_addPiece (names : List String) (piece : List Char) (isLast : Bool) :
    weight (addPiece false names piece isLast) + (if isLiteral piece then 0 else 1) ≤
      weight names + ((utf8 piece).length + 1) := by
  have hslash : weight (if isLast then [""] else []) ≤ 1 := by cases isLast <;> decide
  have hlong (hne : piece ≠ []) : 0 < (utf8 piece).length := by
    obtain ⟨c, rest, rfl⟩ := List.exists_cons_of_ne_nil hne
    rw [utf8_cons, List.length_append]
    have hc := length_utf8Char_pos c
    omega
  cases hdouble : isDoubleDot piece with
  | true =>
    -- two dots take a segment away and add at most an empty one
    have hpos := hlong (by rintro rfl; cases hdouble)
    have hless := weight_dropLast_le names
    have hliteral : isLiteral piece = false := by simp [isLiteral, hdouble]
    rw [addPiece_of_doubleDot hdouble, weight_append, hliteral, if_neg Bool.false_ne_true]
    omega
  | false =>
    cases hsingle : isSingleDot piece with
    | true =>
      have hpos := hlong (by rintro rfl; cases hsingle)
      have hliteral : isLiteral piece = false := by simp [isLiteral, hsingle]
      rw [addPiece_of_singleDot hdouble hsingle, weight_append, hliteral,
        if_neg Bool.false_ne_true]
      omega
    | false =>
      have hread := length_pathBytes piece
      have hone : weight [String.ofList (percentEncode inPath piece)] =
          (pathBytes piece).length + 1 := by
        simp [weight, pathBytes]
      have hliteral : isLiteral piece = !hasEscape piece := by simp [isLiteral, hdouble, hsingle]
      rw [addPiece_of_name hdouble hsingle, weight_append, hone, hliteral]
      cases hescape : hasEscape piece with
      | true =>
        rw [hescape, if_pos rfl] at hread
        rw [Bool.not_true, if_neg Bool.false_ne_true]
        omega
      | false =>
        rw [hescape, if_neg Bool.false_ne_true] at hread
        rw [Bool.not_false, if_pos rfl]
        omega

end

/-- Pieces add their lengths, and less if one of them is not read back as it stands. -/
theorem weight_addPieces (names : List String) (pieces : List (List Char)) :
    weight (addPieces false names pieces) + (if pieces.all isLiteral then 0 else 1) ≤
      weight names + (pieces.map fun piece => (utf8 piece).length + 1).sum := by
  match pieces with
  | [] => simp [addPieces]
  | [piece] =>
    have h := weight_addPiece names piece true
    simpa [addPieces] using h
  | piece :: next :: rest =>
    have hfirst := weight_addPiece names piece false
    have hrest := weight_addPieces (addPiece false names piece false) (next :: rest)
    rw [addPieces, List.all_cons, List.map_cons, List.sum_cons]
    · cases hliteral : isLiteral piece
      · rw [hliteral] at hfirst
        simp only [Bool.false_and, Bool.false_eq_true, if_false] at hfirst ⊢
        omega
      · rw [hliteral] at hfirst
        simp only [Bool.true_and, if_true] at hfirst ⊢
        omega
    · exact List.cons_ne_nil _ _

/-- Pieces that are read back as they stand are added one by one. -/
theorem addPieces_of_literal {pieces : List (List Char)} (h : pieces.all isLiteral = true)
    (names : List String) : addPieces false names pieces =
      names ++ pieces.map fun piece => String.ofList (percentEncode inPath piece) := by
  have hpiece (names : List String) (piece : List Char) (isLast : Bool)
      (hp : isLiteral piece = true) : addPiece false names piece isLast =
        names ++ [String.ofList (percentEncode inPath piece)] := by
    simp only [isLiteral, Bool.and_eq_true, Bool.not_eq_true'] at hp
    exact addPiece_of_name hp.1.1 hp.1.2
  match pieces with
  | [] => simp [addPieces]
  | [piece] =>
    rw [List.all_cons, Bool.and_eq_true] at h
    rw [addPieces, hpiece names piece true h.1]
    rfl
  | piece :: next :: rest =>
    rw [List.all_cons, Bool.and_eq_true] at h
    rw [addPieces, hpiece names piece false h.1, addPieces_of_literal h.2, List.append_assoc]
    · rfl
    · exact List.cons_ne_nil _ _

/-- Whatever stands in front, the pieces behind it are added to some segments. -/
theorem exists_addPieces_append (names : List String) (first : List (List Char))
    {rest : List (List Char)} (hrest : rest ≠ []) :
    ∃ names', addPieces false names (first ++ rest) = addPieces false names' rest := by
  induction first generalizing names with
  | nil => exact ⟨names, rfl⟩
  | cons piece first ih =>
    obtain ⟨names', hnames⟩ := ih (addPiece false names piece false)
    refine ⟨names', ?_⟩
    rw [List.cons_append, addPieces, hnames]
    exact List.append_ne_nil_of_right_ne_nil _ hrest

/-- A piece with a colon in it stands for no directory. -/
theorem not_dots_of_mem {piece : List Char} (h : ':' ∈ piece) :
    isDoubleDot piece = false ∧ isSingleDot piece = false := by
  have hcolon : ':' ∈ piece.map Char.toLower := List.mem_map.2 ⟨':', h, by decide⟩
  have hne {target : String} (ht : ':' ∉ target.toList) :
      lower (String.ofList piece) ≠ target := by
    intro heq
    rw [lower_eq_iff.1 heq] at hcolon
    exact ht hcolon
  constructor
  · simp only [isDoubleDot, List.contains_eq_mem, List.mem_cons, List.not_mem_nil, or_false]
    refine decide_eq_false ?_
    rintro (heq | heq | heq | heq)
    · exact hne (by decide) heq
    · exact hne (by decide) heq
    · exact hne (by decide) heq
    · exact hne (by decide) heq
  · simp only [isSingleDot, List.contains_eq_mem, List.mem_cons, List.not_mem_nil, or_false]
    refine decide_eq_false ?_
    rintro (heq | heq)
    · exact hne (by decide) heq
    · exact hne (by decide) heq

/-- A piece that is a name and two dots behind it leave the path as it was. -/
theorem addPieces_name_doubleDot {piece dots : List Char} {rest : List (List Char)}
    (hdouble : isDoubleDot piece = false) (hsingle : isSingleDot piece = false)
    (hdots : isDoubleDot dots = true) (hrest : rest ≠ []) (names : List String) :
    addPieces false names (piece :: dots :: rest) = addPieces false names rest := by
  obtain ⟨next, rest, rfl⟩ := List.exists_cons_of_ne_nil hrest
  rw [addPieces, addPieces, addPiece_of_name hdouble hsingle, addPiece_of_doubleDot hdots]
  · simp
  · exact List.cons_ne_nil _ _
  · exact List.cons_ne_nil _ _

end GitTransport.Url
