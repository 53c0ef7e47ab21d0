/-
Where a relative text leads.

  A text of segments that is read at a base leads below the directory of the base when
  every segment stands for itself (`Plain`).  For no other text does it lead there
  (`segmentBytes_join_iff`): whatever the reader drops, decodes or resolves makes the
  path shorter, and the lengths of all segments are kept account of (`weight`), so
  that nothing that is lost in one place can be made up for in another.
-/

import GitTransport.Proofs.Text.Pieces
import GitTransport.Proofs.Url.Reading
import GitTransport.Proofs.Url.Segments

namespace GitTransport.Url

open Text

/-! ## Segments that stand for themselves -/

/-- A segment without characters that end it, are dropped or begin an escape, and that is
    not one of the two that stand for a directory. -/
structure IsPlain (segment : String) : Prop where
  marks : ∀ c ∈ segment.toList, c ∉ ['/', '\\', '?', '#', '\t', '\n', '\r']
  escapes : hasEscape segment.toList = false
  dots : segment ≠ "." ∧ segment ≠ ".."

/-- Segments that all stand for themselves; the last one does not end with a character
    that is dropped there. -/
structure Plain (segments : List String) : Prop where
  segment : ∀ s ∈ segments, IsPlain s
  ending : ∀ s, segments.getLast? = some s → ∀ c, s.toList.getLast? = some c → isEdge c = false

instance (segment : String) : Decidable (IsPlain segment) :=
  decidable_of_iff ((segment.toList.all fun c => c ∉ ['/', '\\', '?', '#', '\t', '\n', '\r']) ∧
      hasEscape segment.toList = false ∧ segment ≠ "." ∧ segment ≠ "..") <| by
    simp only [List.all_eq_true, decide_eq_true_eq]
    exact ⟨fun ⟨hmarks, hescape, hdots⟩ => ⟨hmarks, hescape, hdots⟩,
      fun ⟨hmarks, hescape, hdots⟩ => ⟨hmarks, hescape, hdots⟩⟩

instance (segments : List String) : Decidable (Plain segments) :=
  decidable_of_iff ((∀ s ∈ segments, IsPlain s) ∧
      segments.getLast?.all fun s => s.toList.getLast?.all fun c => isEdge c = false) <| by
    simp only [Option.all_eq_true, decide_eq_true_eq]
    exact ⟨fun ⟨hsegment, hending⟩ => ⟨hsegment, hending⟩,
      fun ⟨hsegment, hending⟩ => ⟨hsegment, hending⟩⟩

/-! ## Texts of segments -/

/-- The text of segments with a slash between any two. -/
def joined (first : String) (rest : List String) : List Char :=
  first.toList ++ (rest.map String.toList).flatMap ('/' :: ·)

theorem joined_nil (first : String) : joined first [] = first.toList := List.append_nil _

theorem joined_cons (first s : String) (rest : List String) :
    joined first (s :: rest) = first.toList ++ '/' :: joined s rest := by
  simp [joined]

theorem mem_joined {first : String} {rest : List String} {c : Char} (h : c ∈ joined first rest) :
    c = '/' ∨ ∃ s ∈ first :: rest, c ∈ s.toList := by
  induction rest generalizing first with
  | nil =>
    rw [joined_nil] at h
    exact .inr ⟨first, List.mem_cons_self, h⟩
  | cons s rest ih =>
    rw [joined_cons, List.mem_append, List.mem_cons] at h
    rcases h with h | h | h
    · exact .inr ⟨first, List.mem_cons_self, h⟩
    · exact .inl h
    · rcases ih h with h | ⟨t, ht, hc⟩
      · exact .inl h
      · exact .inr ⟨t, List.mem_cons_of_mem _ ht, hc⟩

theorem mem_joined_of_mem {first : String} {rest : List String} {s : String}
    (hs : s ∈ first :: rest) {c : Char} (hc : c ∈ s.toList) : c ∈ joined first rest := by
  induction rest generalizing first with
  | nil =>
    rw [List.mem_singleton.1 hs] at hc
    rwa [joined_nil]
  | cons t rest ih =>
    rw [joined_cons, List.mem_append, List.mem_cons]
    rcases List.mem_cons.1 hs with rfl | hs
    · exact .inl hc
    · exact .inr (.inr (ih hs))

theorem getLast?_joined_cons (first s : String) (rest : List String) :
    (joined first (s :: rest)).getLast? = some ((joined s rest).getLast?.getD '/') := by
  rw [joined_cons, List.getLast?_append, List.getLast?_cons, Option.some_or]

/-- The last character of the last segment is the last one of the text. -/
theorem getLast?_joined {first : String} {rest : List String} {s : String}
    (hs : (first :: rest).getLast? = some s) {c : Char} (hc : s.toList.getLast? = some c) :
    (joined first rest).getLast? = some c := by
  induction rest generalizing first with
  | nil =>
    cases hs
    rwa [joined_nil]
  | cons t rest ih =>
    rw [List.getLast?_cons_cons] at hs
    rw [getLast?_joined_cons, ih hs]
    rfl

/-- Behind an empty last segment the text ends with a slash. -/
theorem not_edge_of_getLast?_joined {first : String} {rest : List String}
    (h : ∀ s, (first :: rest).getLast? = some s → ∀ c, s.toList.getLast? = some c →
      isEdge c = false) : ∀ c, (joined first rest).getLast? = some c → isEdge c = false := by
  induction rest generalizing first with
  | nil =>
    rw [joined_nil]
    exact h first rfl
  | cons t rest ih =>
    rw [List.getLast?_cons_cons] at h
    rw [getLast?_joined_cons]
    intro c hc
    cases hlast : (joined t rest).getLast? with
    | none =>
      rw [hlast] at hc
      cases hc
      decide
    | some d =>
      rw [hlast] at hc
      cases hc
      exact ih h d hlast

theorem length_utf8_joined (first : String) (rest : List String) :
    ((first :: rest).map fun s => (utf8 s.toList).length + 1).sum =
      (utf8 (joined first rest)).length + 1 := by
  induction rest generalizing first with
  | nil => simp [joined_nil]
  | cons s rest ih =>
    have hslash : (utf8Char '/').length = 1 := by decide
    rw [List.map_cons, List.sum_cons, ih, joined_cons, utf8_append, utf8_cons]
    simp only [List.length_append, hslash]
    omega

/-! ## Plain segments and the reader -/

theorem isSlash_of_special {scheme : String} (h : isSpecial scheme = true) (c : Char) :
    isSlash scheme c = (c = '/' || c = '\\') := by
  rw [isSlash, h, Bool.true_and]

/-- Whether the reader takes a text of segments as it stands. -/
structure Kept (scheme : String) (text : String) (segments : List String) : Prop where
  reach : reach text = text.toList
  pieces : splitAt (isSlash scheme) text.toList = segments.map String.toList
  literal : (segments.map String.toList).all isLiteral = true

/-- Segments that stand for themselves are taken as they stand. -/
theorem kept_of_plain {scheme text first : String} {rest : List String}
    (hspecial : isSpecial scheme = true) (htext : text.toList = joined first rest)
    (hhead : ∀ c, text.toList.head? = some c → isEdge c = false) (h : Plain (first :: rest)) :
    Kept scheme text (first :: rest) := by
  have hmarks {s : String} (hs : s ∈ first :: rest) {c : Char} (hc : c ∈ s.toList) :
      endsPath c = false ∧ isLineEnd c = false ∧ isSlash scheme c = false := by
    have hc := (h.segment s hs).marks c hc
    simp only [List.mem_cons, List.not_mem_nil, or_false, not_or] at hc
    obtain ⟨hslash, hback, hquery, hfragment, htab, hline, hreturn⟩ := hc
    simp [endsPath, isLineEnd, isSlash_of_special hspecial, *]
  refine ⟨reach_eq_of_spec (fun c hc => ?_) hhead ?_, ?_, ?_⟩
  -- none of the text is dropped, at its ends or within
  · rw [htext] at hc
    rcases mem_joined hc with rfl | ⟨s, hs, hc⟩
    · decide
    · exact ⟨(hmarks hs hc).1, (hmarks hs hc).2.1⟩
  · rw [htext]
    exact not_edge_of_getLast?_joined h.ending
  -- the only slashes are those between the segments
  · have hslash : isSlash scheme '/' = true := by rw [isSlash_of_special hspecial]; decide
    rw [htext, joined, splitAt_joined hslash fun c hc => (hmarks List.mem_cons_self hc).2.2]
    · rfl
    · intro piece hpiece c hc
      obtain ⟨s, hs, rfl⟩ := List.mem_map.1 hpiece
      exact (hmarks (List.mem_cons_of_mem _ hs) hc).2.2
  -- and no segment stands for a directory
  · rw [List.all_map, List.all_eq_true]
    intro s hs
    obtain ⟨-, hescape, hdot, hdots⟩ := h.segment s hs
    have hsingle : isSingleDot s.toList = false := by
      refine Bool.eq_false_iff.2 fun hs => hdot ?_
      rw [← String.toList_inj, (isSingleDot_iff hescape).1 hs]
      rfl
    have hdouble : isDoubleDot s.toList = false := by
      refine Bool.eq_false_iff.2 fun hs => hdots ?_
      rw [← String.toList_inj, (isDoubleDot_iff hescape).1 hs]
      rfl
    simp [isLiteral, hsingle, hdouble, hescape]

/-- Segments that are taken as they stand stand for themselves. -/
theorem plain_of_kept {scheme text first : String} {rest : List String}
    (hspecial : isSpecial scheme = true) (htext : text.toList = joined first rest)
    (h : Kept scheme text (first :: rest)) : Plain (first :: rest) := by
  obtain ⟨hmarks, hlast⟩ := spec_of_reach_eq h.reach
  refine ⟨fun s hs => ?_, fun s hs c hc => hlast c ?_⟩
  · have hliteral := List.all_eq_true.1 h.literal s.toList (List.mem_map_of_mem hs)
    simp only [isLiteral, Bool.and_eq_true, Bool.not_eq_true'] at hliteral
    obtain ⟨⟨hdouble, hsingle⟩, hescape⟩ := hliteral
    refine ⟨fun c hc => ?_, hescape, ?_, ?_⟩
    · have hslash := not_break_of_mem_splitAt (h.pieces ▸ List.mem_map_of_mem hs) c hc
      rw [isSlash_of_special hspecial] at hslash
      have hc := hmarks c (htext ▸ mem_joined_of_mem hs hc)
      simp only [endsPath, isLineEnd, Bool.or_eq_false_iff, decide_eq_false_iff_not] at hc hslash
      simp only [List.mem_cons, List.not_mem_nil, or_false, not_or]
      exact ⟨hslash.1, hslash.2, hc.1.1, hc.1.2, hc.2.1.1, hc.2.1.2, hc.2.2⟩
    · rintro rfl
      revert hsingle
      decide
    · rintro rfl
      revert hdouble
      decide
  · rw [htext]
    exact getLast?_joined hs hc

/-! ## Reading at a base -/

section

variable {text first : String} {rest : List String}

theorem head_joined (hword : IsWord first) (htext : text.toList = joined first rest) :
    ∀ c, text.toList.head? = some c → isEdge c = false := by
  obtain ⟨c, cs, hfirst, hc⟩ := hword.exists_cons
  rw [htext, joined, hfirst]
  rintro d ⟨⟩
  exact (spec_of_isAlpha hc).1

/-- Of a text that begins with a word the word is read, up to the first slash. -/
theorem exists_significant (hword : IsWord first) (htext : text.toList = joined first rest) :
    ∃ tail, significant text = first.toList ++ tail ∧ (tail = [] ∨ ∃ t, tail = '/' :: t) := by
  cases rest with
  | nil =>
    rw [joined_nil] at htext
    have hread := significant_append (fun hnil => hword.nonempty (String.toList_eq_nil_iff.1 hnil))
      (fun c hc => ?_) (htext.trans (List.append_nil _).symm)
    · exact ⟨[], hread, .inl rfl⟩
    · have hspec := spec_of_isAlpha (hword.letters c hc)
      exact ⟨hspec.1, hspec.2.1⟩
  | cons s rest =>
    rw [joined_cons] at htext
    obtain ⟨tail, hread⟩ := exists_significant_of_word hword (by decide) htext
    exact ⟨_, hread, .inr ⟨tail, rfl⟩⟩

/-- A text that begins with a word is read below the directory of the base. -/
theorem join_eq {base : Url} {names : List String} (hpath : base.path = .segments names)
    (hword : IsWord first) (htext : text.toList = joined first rest) :
    base.join text = .ok (withPathAndTail base.scheme base.authority names.dropLast
      (significant text)) := by
  obtain ⟨tail, hsignificant, htail⟩ := exists_significant hword htext
  obtain ⟨c, cs, hfirst, hc⟩ := hword.exists_cons
  obtain ⟨-, -, hfragment, hquery, hslash, hback⟩ := spec_of_isAlpha hc
  have hnot : isSlash base.scheme c = false := by simp [isSlash, hslash, hback]
  have hread : readRelative base names (significant text) =
      .ok (withPathAndTail base.scheme base.authority names.dropLast (significant text)) := by
    rw [hsignificant, hfirst, List.cons_append]
    unfold readRelative
    split
    · next heq => cases heq
    · next heq => cases heq; exact absurd rfl hfragment
    · next heq => cases heq; exact absurd rfl hquery
    · next heq =>
      cases heq
      exact if_neg (Bool.eq_false_iff.1 hnot)
  have hscheme : splitScheme? (significant text) = none := by
    rw [hsignificant]
    exact splitScheme?_eq_none hword htail
  simp only [join, read, hscheme, hpath, hread]

end

/-- The path of such an address comes from the pieces of what is read. -/
theorem path_withPathAndTail {scheme : String} (hfile : scheme ≠ "file")
    (authority : Option Authority) (names : List String) (text : String) :
    (withPathAndTail scheme authority names (significant text)).path =
      .segments (addPieces false names (splitAt (isSlash scheme) (reach text))) := by
  have hpath : (withPathAndTail scheme authority names (significant text)).path =
      pathFrom scheme names (reach text) := rfl
  rw [hpath, pathFrom, if_neg hfile, decide_eq_false hfile]

/-- What is left of a text that is read to its end. -/
theorem dropWhile_significant {text : String} (h : reach text = text.toList) :
    (significant text).dropWhile (!endsPath ·) = [] := by
  have hle : (significant text).length ≤ (reach text).length := by
    rw [h, significant_eq]
    exact (List.filter_sublist.trans ((dropLastWhile_sublist _ _).trans
      (List.dropWhile_sublist _))).length_le
  have happend := congrArg List.length
    (List.takeWhile_append_dropWhile (p := (!endsPath ·)) (l := significant text))
  rw [← reach, List.length_append] at happend
  exact List.eq_nil_of_length_eq_zero (by omega)

/-! ## Where the segments lead -/

section

variable {base : Url} {names : List String} {text first : String} {rest : List String}

/-- The path of the address is the directory of the base and the segments exactly if the
    reader takes them as they stand. -/
theorem segmentBytes_eq_iff_kept {scheme : String} (hspecial : isSpecial scheme = true)
    (names : List String) (htext : text.toList = joined first rest) :
    (Path.segments (addPieces false names
        (splitAt (isSlash scheme) (reach text)))).segmentBytes =
      (Path.segments names).segmentBytes ++ (first :: rest).map (fun s => utf8 s.toList) ↔
      Kept scheme text (first :: rest) := by
  have hbyte (c : Char) (hc : isSlash scheme c = true) : (utf8Char c).length = 1 := by
    rw [isSlash_of_special hspecial, Bool.or_eq_true, decide_eq_true_eq, decide_eq_true_eq] at hc
    rcases hc with rfl | rfl <;> decide
  have hliteral (h : (splitAt (isSlash scheme) (reach text)).all isLiteral = true) :
      (Path.segments (addPieces false names
        (splitAt (isSlash scheme) (reach text)))).segmentBytes =
      (Path.segments names).segmentBytes ++
        (splitAt (isSlash scheme) (reach text)).map utf8 := by
    rw [addPieces_of_literal h, Path.segmentBytes, List.map_append, List.map_map]
    refine congrArg _ (List.map_congr_left fun piece hpiece => ?_)
    have hp := List.all_eq_true.1 h piece hpiece
    simp only [isLiteral, Bool.and_eq_true, Bool.not_eq_true'] at hp
    simp only [Function.comp_apply, String.toList_ofList]
    exact pathBytes_eq_utf8 hp.2
  constructor
  · intro h
    -- the lengths leave no room for anything that is lost
    have hsum : weight (addPieces false names (splitAt (isSlash scheme) (reach text))) =
        weight names + ((utf8 text.toList).length + 1) := by
      have hsums := congrArg (fun bytes => (bytes.map fun b => b.length + 1).sum) h
      simp only [Path.segmentBytes, List.map_append, List.map_map, List.sum_append] at hsums
      have hjoined := length_utf8_joined first rest
      rw [← htext] at hjoined
      rw [← hjoined]
      exact hsums
    have hweight := weight_addPieces names (splitAt (isSlash scheme) (reach text))
    rw [length_utf8_splitAt hbyte, hsum] at hweight
    obtain ⟨hle, heq⟩ := eq_of_sublist_of_length_utf8 (reach_sublist text)
    have hall : (splitAt (isSlash scheme) (reach text)).all isLiteral = true := by
      refine Decidable.byContradiction fun hnot => ?_
      rw [if_neg hnot] at hweight
      omega
    rw [if_pos hall] at hweight
    have hreach : reach text = text.toList := heq (by omega)
    rw [hliteral hall, List.append_cancel_left_eq, hreach] at h
    have hpieces : splitAt (isSlash scheme) text.toList = (first :: rest).map String.toList :=
      (List.map_inj_right fun _ _ heq => utf8_injective heq).1 (h.trans (List.map_map ..).symm)
    exact ⟨hreach, hpieces, by rw [← hpieces, ← hreach]; exact hall⟩
  · rintro ⟨hreach, hpieces, hall⟩
    rw [← hpieces, ← hreach] at hall
    rw [hliteral hall, hreach, hpieces, List.map_map]
    rfl

/-- A text of segments leads to these segments below the directory of the base exactly if
    each of them stands for itself, and then nothing follows the path. -/
theorem segmentBytes_join_iff (hspecial : isSpecial base.scheme = true)
    (hfile : base.scheme ≠ "file") (hpath : base.path = .segments names) (hword : IsWord first)
    (htext : text.toList = joined first rest) :
    ∃ url reached, base.join text = .ok url ∧ url.path = .segments reached ∧
      (url.path.segmentBytes = (Path.segments names.dropLast).segmentBytes ++
        (first :: rest).map (fun s => utf8 s.toList) ↔ Plain (first :: rest)) ∧
      (Plain (first :: rest) → url.query = none ∧ url.fragment = none) := by
  refine ⟨_, _, join_eq hpath hword htext, path_withPathAndTail hfile _ _ _, ?_, fun hplain => ?_⟩
  · rw [path_withPathAndTail hfile, segmentBytes_eq_iff_kept hspecial _ htext]
    exact ⟨plain_of_kept hspecial htext, kept_of_plain hspecial htext (head_joined hword htext)⟩
  · have hkept := kept_of_plain hspecial htext (head_joined hword htext) hplain
    rw [withPathAndTail, dropWhile_significant hkept.reach]
    exact ⟨rfl, rfl⟩

end

end GitTransport.Url
