/-
Headings, and whether something stands below them.

  The lines of a body are `Filled` when each heading has a line below it that is no
  heading.  A section has a heading as soon as it has entries (`Occupied`), but its lines
  come from the messages in these entries alone, and entries of no known shape have none.

  A heading is told from every other line: the lines of messages and of the exception begin
  with a blank (`blank_of_mem_listLines`), and no JSON value with a capital letter.

  So the lines are filled exactly if every section with entries tells a message; the
  exception always does.  A body is shown as it is exactly if there is no section with
  entries and no exception (`raw_or_filled_iff`).
-/

import GitTransport.Proofs.Json.Printer
import GitTransport.Proofs.MessageLog.Lines

namespace GitTransport

namespace MessageNode

/-! ## Indented lines -/

/-- The text begins with a blank. -/
def BeginsBlank (text : String) : Prop := text.toList.head? = some ' '

theorem beginsBlank_blank : BeginsBlank " " := by
  rw [BeginsBlank]
  rfl

theorem BeginsBlank.append {text : String} (h : BeginsBlank text) (rest : String) :
    BeginsBlank (text ++ rest) := by
  rw [BeginsBlank, String.toList_append, List.head?_append, h]
  rfl

mutual

/-- Whatever the texts in an entry are, the indentation stands in front of each of its lines. -/
theorem blank_of_mem_lines {indent : String} (hindent : BeginsBlank indent) :
    (entry : MessageNode) → ∀ line ∈ lines indent entry, BeginsBlank line
  | .node (some message) children => by
    intro line hline
    rw [lines] at hline
    rcases List.mem_cons.1 hline with rfl | hinside
    · exact (hindent.append " ").append message
    · -- the entries inside are indented by more, so the blank in front is still there
      exact blank_of_mem_listLines (hindent.append "  ") children line hinside
  | .node none children => by
    intro line hline
    rw [lines] at hline
    exact blank_of_mem_listLines hindent children line hline

theorem blank_of_mem_listLines {indent : String} (hindent : BeginsBlank indent) :
    (entries : List MessageNode) → ∀ line ∈ listLines indent entries, BeginsBlank line
  | [] => nofun
  | entry :: rest => by
    intro line hline
    rw [listLines] at hline
    rcases List.mem_append.1 hline with hfirst | hrest
    · exact blank_of_mem_lines hindent entry line hfirst
    · exact blank_of_mem_listLines hindent rest line hrest

end

end MessageNode

namespace MessageDump

open MessageNode

/-! ## Headings with a line below them -/

/-- Each heading has a line below it that is no heading. -/
def Filled : List String → Prop
  | [] => True
  | line :: rest =>
    (line ∈ headings → ∃ next, rest.head? = some next ∧ next ∉ headings) ∧ Filled rest

/-- The lines begin with a heading, if there are any. -/
def BeginsSection (lines : List String) : Prop := ∀ line, lines.head? = some line → line ∈ headings

variable {title : String} {content rest : List String} {section? : Option Json}

theorem filled_append (h : ∀ line ∈ content, line ∉ headings) :
    Filled (content ++ rest) ↔ Filled rest := by
  induction content with
  | nil => rfl
  | cons line content ih =>
    obtain ⟨hline, hcontent⟩ := List.forall_mem_cons.1 h
    rw [List.cons_append, Filled, ih hcontent]
    exact and_iff_right fun hheading => absurd hheading hline

/-- A heading in front of its content and of the next section. -/
theorem filled_cons_append (htitle : title ∈ headings)
    (hcontent : ∀ line ∈ content, line ∉ headings) (hrest : BeginsSection rest) :
    Filled (title :: (content ++ rest)) ↔ content ≠ [] ∧ Filled rest := by
  rw [Filled, filled_append hcontent]
  refine and_congr_left fun _ => ?_
  cases content with
  | nil =>
    -- what comes next is a heading again, or nothing at all
    refine iff_of_false (fun h => ?_) (fun h => h rfl)
    obtain ⟨next, hnext, hnot⟩ := h htitle
    exact hnot (hrest next hnext)
  | cons line content =>
    have hline : line ∉ headings := hcontent line List.mem_cons_self
    exact iff_of_true (fun _ => ⟨line, rfl, hline⟩) (List.cons_ne_nil line content)

/-- Headings begin with a capital letter. -/
theorem isUpper_of_mem_headings (h : title ∈ headings) :
    ∃ c, title.toList.head? = some c ∧ c.isUpper = true := by
  simp only [headings, List.mem_cons, List.not_mem_nil, or_false] at h
  rcases h with rfl | rfl | rfl
  · exact ⟨'E', rfl, rfl⟩
  · exact ⟨'L', rfl, rfl⟩
  · exact ⟨'E', rfl, rfl⟩

/-- A line that begins with a blank is no heading. -/
theorem not_mem_headings {line : String} (h : BeginsBlank line) : line ∉ headings := by
  intro hmem
  obtain ⟨c, hc, hupper⟩ := isUpper_of_mem_headings hmem
  rw [h] at hc
  cases hc
  cases hupper

/-- No message of a section is shown like a heading. -/
theorem not_mem_headings_of_mem_listLines {entries : List MessageNode} {line : String}
    (h : line ∈ listLines " " entries) : line ∉ headings :=
  not_mem_headings (blank_of_mem_listLines beginsBlank_blank entries line h)

/-- Neither is an exception. -/
theorem indented_not_mem_headings (text : String) : "  " ++ text ∉ headings :=
  not_mem_headings ((beginsBlank_blank.append " ").append text)

/-- Neither is a body. -/
theorem compact_not_mem_headings (value : Json) : value.compact ∉ headings := by
  intro hmem
  obtain ⟨c, hc, hupper⟩ := isUpper_of_mem_headings hmem
  exact Json.compact_ne_of_isUpper hc hupper value rfl

/-! ## Sections with entries -/

/-- The section has entries: it is there, is not null and is no empty list. -/
def Occupied (section? : Option Json) : Prop :=
  ∃ value, section? = some value ∧ value ≠ .null ∧ value ≠ .array []

/-- A message is told in the section. -/
def TellsMessage (section? : Option Json) : Prop :=
  ∃ value place depth text, section? = some value ∧ Told value place depth text

theorem foundIn_ne_nil_iff : foundIn section? ≠ [] ↔ TellsMessage section? := by
  have htold := (lists_foundIn section?).told
  constructor
  · intro h
    obtain ⟨message, hmessage⟩ := List.exists_mem_of_ne_nil _ h
    obtain ⟨value, hvalue, hreached⟩ := (htold message).1 hmessage
    exact ⟨value, _, _, _, hvalue, hreached⟩
  · rintro ⟨value, place, depth, text, hvalue, hreached⟩
    have hmem := (htold ⟨place, depth, text⟩).2 ⟨value, hvalue, hreached⟩
    exact List.ne_nil_of_mem hmem

/-- A section with entries has its heading and the lines of its messages; any other one has
    no lines. -/
theorem logLines_cases (title : String) (section? : Option Json) :
    Occupied section? ∧
        logLines title (ofSection section?) = title :: (foundIn section?).map Message.line ∨
      ¬ Occupied section? ∧ logLines title (ofSection section?) = [] := by
  rw [logLines_ofSection]
  unfold headingOf
  split
  · refine .inr ⟨?_, rfl⟩
    rintro ⟨value, hvalue, -⟩
    cases hvalue
  · refine .inr ⟨?_, rfl⟩
    rintro ⟨value, hvalue, hnull, -⟩
    exact hnull (Option.some.inj hvalue).symm
  · refine .inr ⟨?_, rfl⟩
    rintro ⟨value, hvalue, -, hempty⟩
    exact hempty (Option.some.inj hvalue).symm
  · next value hnull hempty => exact .inl ⟨⟨value, rfl, hnull, hempty⟩, rfl⟩

theorem filled_logLines_append (htitle : title ∈ headings) (hrest : BeginsSection rest) :
    Filled (logLines title (ofSection section?) ++ rest) ↔
      (Occupied section? → TellsMessage section?) ∧ Filled rest := by
  rcases logLines_cases title section? with ⟨hoccupied, hlines⟩ | ⟨hfree, hlines⟩
  · have hcontent : ∀ line ∈ (foundIn section?).map Message.line, line ∉ headings := by
      rw [← listLines_ofSection]
      exact fun line hline => not_mem_headings_of_mem_listLines hline
    have hfound : (foundIn section?).map Message.line ≠ [] ↔ TellsMessage section? := by
      rw [Ne, List.map_eq_nil_iff]
      exact foundIn_ne_nil_iff
    rw [hlines, List.cons_append, filled_cons_append htitle hcontent hrest, hfound,
      forall_prop_of_true hoccupied]
  · rw [hlines, List.nil_append]
    exact (and_iff_right fun hoccupied => absurd hoccupied hfree).symm

theorem beginsSection_logLines_append (htitle : title ∈ headings) (hrest : BeginsSection rest) :
    BeginsSection (logLines title (ofSection section?) ++ rest) := by
  rcases logLines_cases title section? with ⟨-, hlines⟩ | ⟨-, hlines⟩
  · rw [hlines]
    rintro line ⟨⟩
    exact htitle
  · rw [hlines]
    exact hrest

theorem logLines_eq_nil_iff : logLines title (ofSection section?) = [] ↔ ¬ Occupied section? := by
  rcases logLines_cases title section? with ⟨hoccupied, hlines⟩ | ⟨hfree, hlines⟩
  · rw [hlines]
    exact iff_of_false (List.cons_ne_nil _ _) (fun h => h hoccupied)
  · exact iff_of_true hlines hfree

/-! ## The exception -/

theorem beginsSection_exceptionLines (text? : Option String) :
    BeginsSection (exceptionLines text?) := by
  cases text? with
  | none => exact nofun
  | some text =>
    rintro line ⟨⟩
    decide

theorem filled_exceptionLines (text? : Option String) : Filled (exceptionLines text?) := by
  cases text? with
  | none => trivial
  | some text =>
    have hline := indented_not_mem_headings text
    exact ⟨fun _ => ⟨_, rfl, hline⟩, fun hheading => absurd hheading hline, trivial⟩

theorem exceptionLines_eq_nil_iff {exception? : Option Json} :
    exceptionLines (exceptionOf exception?) = [] ↔
      ∀ value, exception? = some value → value = .null ∨ value = .string "" := by
  cases exception? with
  | none => exact iff_of_true rfl nofun
  | some value =>
    cases value with
    | null => simp [exceptionOf, exceptionLines]
    | string text =>
      by_cases h : text = ""
      · simp [exceptionOf, exceptionLines, h]
      · simp [exceptionOf, exceptionLines, h]
    | _ => simp [exceptionOf, exceptionLines]

/-! ## Bodies -/

section

variable (body : Json)

theorem sectionLines_ofMessages : (ofMessages body).sectionLines =
    logLines "Error Log:" (ofSection (body.member? "errorLog")) ++
      (logLines "Log:" (ofSection (body.member? "log")) ++
        exceptionLines (exceptionOf (body.member? "exception"))) :=
  List.append_assoc _ _ _

theorem beginsSection_log : BeginsSection (logLines "Log:" (ofSection (body.member? "log")) ++
    exceptionLines (exceptionOf (body.member? "exception"))) :=
  beginsSection_logLines_append (by decide) (beginsSection_exceptionLines _)

/-- A body is shown as it is only for want of sections, since no value is written like a
    heading. -/
theorem lines_eq_compact_iff :
    (ofMessages body).lines = [body.compact] ↔ (ofMessages body).sectionLines = [] := by
  have hbegins : BeginsSection (ofMessages body).sectionLines := by
    rw [sectionLines_ofMessages]
    exact beginsSection_logLines_append (by decide) (beginsSection_log body)
  rw [lines]
  constructor
  · intro h
    by_cases hempty : (ofMessages body).sectionLines.isEmpty = true
    · exact List.isEmpty_iff.1 hempty
    · rw [if_neg hempty] at h
      exact absurd (hbegins body.compact (by rw [h]; rfl)) (compact_not_mem_headings body)
  · intro h
    rw [h]
    rfl

theorem filled_sectionLines_iff : Filled (ofMessages body).sectionLines ↔
    (Occupied (body.member? "errorLog") → TellsMessage (body.member? "errorLog")) ∧
      (Occupied (body.member? "log") → TellsMessage (body.member? "log")) := by
  rw [sectionLines_ofMessages, filled_logLines_append (by decide) (beginsSection_log body),
    filled_logLines_append (by decide) (beginsSection_exceptionLines _),
    and_iff_left (filled_exceptionLines _)]

theorem sectionLines_eq_nil_iff : (ofMessages body).sectionLines = [] ↔
    ¬ Occupied (body.member? "errorLog") ∧ ¬ Occupied (body.member? "log") ∧
      ∀ value, body.member? "exception" = some value → value = .null ∨ value = .string "" := by
  rw [sectionLines_ofMessages, List.append_eq_nil_iff, List.append_eq_nil_iff, logLines_eq_nil_iff,
    logLines_eq_nil_iff, exceptionLines_eq_nil_iff]

/-- The lines of a body are its own text or leave no heading bare, exactly if each section
    with entries tells a message.  They are its own text exactly if no section has entries
    and there is no exception. -/
theorem raw_or_filled_iff :
    ((ofMessages body).lines = [body.compact] ∨ Filled (ofMessages body).lines ↔
      ∀ name ∈ ["errorLog", "log"], Occupied (body.member? name) →
        TellsMessage (body.member? name)) ∧
    ((ofMessages body).lines = [body.compact] ↔
      ¬ Occupied (body.member? "errorLog") ∧ ¬ Occupied (body.member? "log") ∧
        ∀ value, body.member? "exception" = some value → value = .null ∨ value = .string "") := by
  refine ⟨?_, (lines_eq_compact_iff body).trans (sectionLines_eq_nil_iff body)⟩
  have hsections : (∀ name ∈ ["errorLog", "log"], Occupied (body.member? name) →
      TellsMessage (body.member? name)) ↔ Filled (ofMessages body).sectionLines := by
    rw [filled_sectionLines_iff, List.forall_mem_cons, List.forall_mem_singleton]
  rw [hsections, lines_eq_compact_iff]
  by_cases hempty : (ofMessages body).sectionLines = []
  · rw [hempty]
    exact iff_of_true (.inl rfl) trivial
  · have hlines : (ofMessages body).lines = (ofMessages body).sectionLines := by
      rw [lines, if_neg (mt List.isEmpty_iff.1 hempty)]
    rw [hlines]
    exact or_iff_right hempty

end

/-- A heading can stay bare: here the only entry of the log is of no known shape. -/
theorem not_filled_of_entries : ¬ ∀ body : Json,
    (ofMessages body).lines = [body.compact] ∨ Filled (ofMessages body).lines := by
  intro h
  have hlines : (ofMessages (.object [("errorLog", .array [.null])])).lines = ["Error Log:"] := rfl
  rcases h (.object [("errorLog", .array [.null])]) with hraw | hfilled
  · rw [hlines] at hraw
    exact absurd hraw (by decide)
  · rw [hlines] at hfilled
    obtain ⟨next, hnext, -⟩ := hfilled.1 (by decide)
    cases hnext

end MessageDump

end GitTransport
