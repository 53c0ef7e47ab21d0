/-
What is read has its members in order.

  The reader puts every member into its object at the place of its name, so that an
  object which is still open is in order at any time (`State.Ordered`).  One character
  keeps this (`ordered_of_step`), hence a whole text does, and the value at its end is in
  order (`wellFormed_of_parse`): whatever a service sends, an object has each name once.
-/

import GitTransport.Json.Parser
import GitTransport.Proofs.Fields

namespace GitTransport.Json

/-! ## Items and members -/

theorem itemsWellFormed_iff {items : List Json} :
    ItemsWellFormed items ↔ ∀ item ∈ items, item.WellFormed := by
  induction items with
  | nil => simp [ItemsWellFormed]
  | cons item rest ih => simp [ItemsWellFormed, ih]

theorem membersWellFormed_iff {members : List (String × Json)} :
    MembersWellFormed members ↔ ∀ pair ∈ members, pair.2.WellFormed := by
  induction members with
  | nil => simp [MembersWellFormed]
  | cons pair rest ih =>
    obtain ⟨name, value⟩ := pair
    simp [MembersWellFormed, ih]

/-- An array is in order if its items are. -/
theorem wellFormed_array_iff {items : List Json} :
    (array items).WellFormed ↔ ∀ item ∈ items, item.WellFormed := by
  rw [WellFormed, itemsWellFormed_iff]

/-- An object is in order if its names and its members are. -/
theorem wellFormed_object_iff {members : List (String × Json)} :
    (object members).WellFormed ↔
      Fields.Sorted members ∧ ∀ pair ∈ members, pair.2.WellFormed := by
  rw [WellFormed, membersWellFormed_iff]

/-- An object stays in order when a member is put in. -/
theorem wellFormed_insert {members : Fields Json} (h : (object members).WellFormed) (name : String)
    {value : Json} (hvalue : value.WellFormed) :
    (object (Fields.insert name value members)).WellFormed := by
  obtain ⟨hsorted, hmembers⟩ := wellFormed_object_iff.1 h
  refine wellFormed_object_iff.2 ⟨hsorted.insert name value, fun pair hpair => ?_⟩
  rcases Fields.mem_insert hpair with rfl | hpair
  · exact hvalue
  · exact hmembers pair hpair

namespace Parser

/-! ## States in order -/

/-- What has been read of an array or an object is in order. -/
def Frame.Ordered : Frame → Prop
  | .array items => (Json.array items).WellFormed
  | .object members _ => (Json.object members).WellFormed

/-- A value that is complete, or will be at the end of a word, is in order. -/
def Mode.Ordered : Mode → Prop
  | .word _ result => result.WellFormed
  | .after result => result.WellFormed
  | _ => True

/-- All that has been read is in order. -/
structure State.Ordered (s : State) : Prop where
  mode : s.mode.Ordered
  frames : ∀ frame ∈ s.frames, frame.Ordered

variable {s t : State} {c : Char} {frames : List Frame} {value : Json}

theorem State.Ordered.withMode (h : s.Ordered) {mode : Mode} (hmode : mode.Ordered) :
    State.Ordered { s with mode := mode } :=
  ⟨hmode, h.frames⟩

theorem ordered_of_enter {frame : Frame} {mode : Mode} (hstep : enter s frame mode = .ok t)
    (h : s.Ordered) (hframe : frame.Ordered) (hmode : mode.Ordered) : t.Ordered := by
  unfold enter at hstep
  split at hstep
  · cases hstep
    exact ⟨hmode, List.forall_mem_cons.2 ⟨hframe, h.frames⟩⟩
  · cases hstep

theorem ordered_of_beginValue (hstep : beginValue s c = .ok t) (h : s.Ordered) : t.Ordered := by
  unfold beginValue at hstep
  repeat' split at hstep
  · cases hstep
    exact h
  · cases hstep
    exact h.withMode trivial
  · exact ordered_of_enter hstep h (wellFormed_array_iff.2 (List.forall_mem_nil _)) trivial
  · exact ordered_of_enter hstep h
      (wellFormed_object_iff.2 ⟨Fields.sorted_nil, List.forall_mem_nil _⟩) trivial
  -- the words and the numerals, and behind them the refusal
  all_goals cases hstep
  all_goals exact h.withMode trivial

/-- A complete value goes into the innermost frame, or is what has been read. -/
theorem ordered_of_afterValue (hstep : afterValue frames value c = .ok t)
    (hframes : ∀ frame ∈ frames, frame.Ordered) (hvalue : value.WellFormed) : t.Ordered := by
  unfold afterValue at hstep
  split at hstep
  · cases hstep
    exact ⟨hvalue, hframes⟩
  split at hstep
  · next items rest =>
    obtain ⟨hitems, hrest⟩ := List.forall_mem_cons.1 hframes
    have hmore : (array (value :: items)).WellFormed :=
      wellFormed_array_iff.2 (List.forall_mem_cons.2 ⟨hvalue, wellFormed_array_iff.1 hitems⟩)
    split at hstep
    · cases hstep
      exact ⟨trivial, List.forall_mem_cons.2 ⟨hmore, hrest⟩⟩
    split at hstep
    · cases hstep
      refine ⟨wellFormed_array_iff.2 fun item hitem => ?_, hrest⟩
      exact wellFormed_array_iff.1 hmore item (List.mem_reverse.1 hitem)
    · cases hstep
  · next members name rest =>
    obtain ⟨hmembers, hrest⟩ := List.forall_mem_cons.1 hframes
    have hmore := wellFormed_insert hmembers name hvalue
    dsimp only at hstep
    split at hstep
    · cases hstep
      exact ⟨trivial, List.forall_mem_cons.2 ⟨hmore, hrest⟩⟩
    split at hstep
    · cases hstep
      exact ⟨hmore, hrest⟩
    · cases hstep
  · cases hstep

theorem ordered_endText (hframes : ∀ frame ∈ frames, frame.Ordered) (isName : Bool)
    (chars : List Char) : (endText frames isName chars).Ordered := by
  unfold endText
  split
  · obtain ⟨hmembers, hrest⟩ := List.forall_mem_cons.1 hframes
    exact ⟨trivial, List.forall_mem_cons.2 ⟨hmembers, hrest⟩⟩
  · exact ⟨trivial, hframes⟩

theorem ordered_of_endNumeral {digits : Digits} (hstep : endNumeral frames digits c = .ok t)
    (hframes : ∀ frame ∈ frames, frame.Ordered) : t.Ordered := by
  unfold endNumeral at hstep
  split at hstep
  · split at hstep
    · exact ordered_of_afterValue hstep hframes trivial
    · cases hstep
  · cases hstep

/-- One character keeps everything in order. -/
theorem ordered_of_step (hstep : step s c = .ok t) (h : s.Ordered) : t.Ordered := by
  obtain ⟨mode, frames⟩ := s
  have htail : ∀ frame ∈ frames.tail, frame.Ordered := fun frame hframe =>
    h.frames frame (List.mem_of_mem_tail hframe)
  cases mode with
  | value => exact ordered_of_beginValue hstep h
  | firstItem =>
    simp only [step] at hstep
    split at hstep
    · cases hstep
      exact ⟨wellFormed_array_iff.2 (List.forall_mem_nil _), htail⟩
    split at hstep
    · cases hstep
      exact h
    · exact ordered_of_beginValue hstep h
  | firstName =>
    simp only [step] at hstep
    repeat' split at hstep
    · cases hstep
      exact h
    · cases hstep
      exact ⟨wellFormed_object_iff.2 ⟨Fields.sorted_nil, List.forall_mem_nil _⟩, htail⟩
    · cases hstep
      exact h.withMode trivial
    · cases hstep
  | name =>
    simp only [step] at hstep
    repeat' split at hstep
    · cases hstep
      exact h
    · cases hstep
      exact h.withMode trivial
    · cases hstep
  | colon =>
    simp only [step] at hstep
    repeat' split at hstep
    · cases hstep
      exact h
    · cases hstep
      exact h.withMode trivial
    · cases hstep
  | word rest value =>
    have hvalue : value.WellFormed := h.mode
    simp only [step] at hstep
    split at hstep
    · exact ordered_of_afterValue hstep h.frames hvalue
    · split at hstep
      · cases hstep
        exact h.withMode hvalue
      · cases hstep
    · split at hstep
      · cases hstep
        exact h.withMode hvalue
      · cases hstep
  | numeral digits =>
    simp only [step] at hstep
    split at hstep
    · cases hstep
      exact h.withMode trivial
    · exact ordered_of_endNumeral hstep h.frames
  | text isName chars escape =>
    simp only [step] at hstep
    split at hstep
    · cases hstep
      exact ordered_endText h.frames isName chars
    · cases hin : inText chars escape c with
      | error fault =>
        rw [hin] at hstep
        cases hstep
      | ok next =>
        rw [hin] at hstep
        cases hstep
        exact h.withMode trivial
  | after value => exact ordered_of_afterValue hstep h.frames h.mode

/-- So do all characters of a text. -/
theorem ordered_of_steps {chars : List Char} (hsteps : chars.foldlM step s = .ok t)
    (h : s.Ordered) : t.Ordered := by
  induction chars generalizing s with
  | nil =>
    cases hsteps
    exact h
  | cons c chars ih =>
    rw [List.foldlM_cons] at hsteps
    cases hstep : step s c with
    | error fault =>
      rw [hstep] at hsteps
      cases hsteps
    | ok between =>
      rw [hstep] at hsteps
      exact ih hsteps (ordered_of_step hstep h)

/-- The value at the end of a text is in order. -/
theorem wellFormed_of_finish (hfinish : finish s = .ok value) (h : s.Ordered) :
    value.WellFormed := by
  obtain ⟨mode, frames⟩ := s
  cases mode with
  | numeral digits =>
    simp only [finish] at hfinish
    repeat' split at hfinish
    all_goals cases hfinish
    exact trivial
  | after result =>
    simp only [finish] at hfinish
    split at hfinish
    · cases hfinish
      exact h.mode
    · cases hfinish
  | _ => cases hfinish

end Parser

/-- A value that is read has its members in order. -/
theorem wellFormed_of_parse {text : String} {value : Json} (h : parse text = .ok value) :
    value.WellFormed := by
  have hstart : Parser.State.Ordered ⟨.value, []⟩ := ⟨trivial, List.forall_mem_nil _⟩
  unfold parse at h
  cases hsteps : text.toList.foldlM Parser.step ⟨.value, []⟩ with
  | error fault =>
    rw [hsteps] at h
    cases h
  | ok s =>
    rw [hsteps] at h
    exact Parser.wellFormed_of_finish h (Parser.ordered_of_steps hsteps hstart)

/-- A member of a value in order is in order. -/
theorem wellFormed_member {value member : Json} {name : String} (h : value.WellFormed)
    (hmember : value.member? name = some member) : member.WellFormed := by
  cases value with
  | object members =>
    exact (wellFormed_object_iff.1 h).2 (name, member) (Fields.mem_of_get? hmember)
  | _ => cases hmember

end GitTransport.Json
