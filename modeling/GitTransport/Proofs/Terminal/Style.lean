/-
Which lines of an error body are shown as headings.

  A style looks for the headings among the lines by their text.  Here each line has its
  kind from where it is emitted, as a `Piece`: a heading, a message, the exception or the
  body itself.  A message is indented whatever its text is (`blank_of_mem_listLines`), the
  exception stands behind two blanks, and no JSON value is written like a heading.  So
  just the headings have the text of one (`mem_headings_iff`), and a style changes them and
  nothing else (`dumpLines_of_pieces`).
-/

import GitTransport.Proofs.MessageLog.Headings
import GitTransport.Terminal.Style

namespace GitTransport

namespace MessageDump

open MessageNode

/-! ## Lines with their kind -/

/-- A line and what it is emitted as. -/
inductive Piece where
  /-- The heading of a section. -/
  | heading (title : String)
  /-- The line of a message, which is indented already. -/
  | message (line : String)
  /-- The exception, which is going to be indented. -/
  | exception (text : String)
  /-- The body as it is. -/
  | body (text : String)

namespace Piece

/-- The line. -/
def text : Piece → String
  | .heading title => title
  | .message line => line
  | .exception text => "  " ++ text
  | .body text => text

/-- Whether the line is emitted as a heading. -/
def isHeading : Piece → Bool
  | .heading _ => true
  | _ => false

end Piece

/-- What is emitted for a section of log entries. -/
def logPieces (title : String) (entries : List MessageNode) : List Piece :=
  if entries.isEmpty then [] else .heading title :: (listLines " " entries).map .message

/-- What is emitted for the exception. -/
def exceptionPieces : Option String → List Piece
  | some text => [.heading "Exception:", .exception text]
  | none => []

/-- What is emitted for the sections. -/
def sectionPieces (dump : MessageDump) : List Piece :=
  logPieces "Error Log:" dump.errorLog ++ logPieces "Log:" dump.log ++
    exceptionPieces dump.exception

/-- What is emitted for a body. -/
def pieces (dump : MessageDump) : List Piece :=
  if dump.sectionPieces.isEmpty then [.body dump.body.compact] else dump.sectionPieces

section

variable (title : String) (entries : List MessageNode) (exception? : Option String)
  (dump : MessageDump)

theorem map_text_logPieces : (logPieces title entries).map Piece.text = logLines title entries := by
  unfold logPieces logLines
  split
  · rfl
  · rw [List.map_cons, List.map_map]
    exact congrArg (title :: ·) (List.map_id _)

theorem map_text_sectionPieces : dump.sectionPieces.map Piece.text = dump.sectionLines := by
  have hexception : (exceptionPieces dump.exception).map Piece.text =
      exceptionLines dump.exception := by
    cases dump.exception <;> rfl
  rw [sectionPieces, sectionLines, List.map_append, List.map_append, map_text_logPieces,
    map_text_logPieces, hexception]

/-- The lines of a body are what is emitted for it. -/
theorem map_text_pieces : dump.pieces.map Piece.text = dump.lines := by
  rw [pieces, lines, ← map_text_sectionPieces, List.isEmpty_map]
  split
  · rfl
  · rfl

/-! ## Headings are told by their text -/

theorem mem_headings_iff_of_mem_logPieces (htitle : title ∈ headings) :
    ∀ piece ∈ logPieces title entries, piece.text ∈ headings ↔ piece.isHeading = true := by
  intro piece hpiece
  unfold logPieces at hpiece
  split at hpiece
  · cases hpiece
  · rcases List.mem_cons.1 hpiece with rfl | hmessage
    · exact iff_of_true htitle rfl
    · obtain ⟨line, hline, rfl⟩ := List.mem_map.1 hmessage
      exact iff_of_false (not_mem_headings_of_mem_listLines hline) nofun

theorem mem_headings_iff_of_mem_exceptionPieces :
    ∀ piece ∈ exceptionPieces exception?, piece.text ∈ headings ↔ piece.isHeading = true := by
  intro piece hpiece
  cases exception? with
  | none => cases hpiece
  | some text =>
    rcases List.mem_cons.1 hpiece with rfl | hpiece
    · exact iff_of_true (by decide) rfl
    · obtain rfl := List.mem_singleton.1 hpiece
      exact iff_of_false (indented_not_mem_headings text) nofun

/-- Just the lines that are emitted as headings have the text of one. -/
theorem mem_headings_iff :
    ∀ piece ∈ dump.pieces, piece.text ∈ headings ↔ piece.isHeading = true := by
  intro piece hpiece
  unfold pieces at hpiece
  split at hpiece
  · obtain rfl := List.mem_singleton.1 hpiece
    exact iff_of_false (compact_not_mem_headings dump.body) nofun
  · rcases List.mem_append.1 hpiece with hlog | hexception
    · rcases List.mem_append.1 hlog with herrors | hlogged
      · exact mem_headings_iff_of_mem_logPieces _ _ (by decide) piece herrors
      · exact mem_headings_iff_of_mem_logPieces _ _ (by decide) piece hlogged
    · exact mem_headings_iff_of_mem_exceptionPieces _ piece hexception

/-! ## One heading for each section -/

theorem countP_isHeading_logPieces : (logPieces title entries).countP Piece.isHeading ≤ 1 := by
  unfold logPieces
  split
  · exact Nat.zero_le 1
  · have hmessages : ((listLines " " entries).map Piece.message).countP Piece.isHeading = 0 := by
      rw [List.countP_eq_zero]
      intro piece hpiece
      obtain ⟨line, -, rfl⟩ := List.mem_map.1 hpiece
      exact Bool.false_ne_true
    exact Nat.le_of_eq (by rw [List.countP_cons_of_pos rfl, hmessages])

theorem countP_isHeading_le : dump.pieces.countP Piece.isHeading ≤ 3 := by
  unfold pieces
  split
  · exact Nat.zero_le 3
  · have herrors := countP_isHeading_logPieces "Error Log:" dump.errorLog
    have hlogged := countP_isHeading_logPieces "Log:" dump.log
    have hexception : (exceptionPieces dump.exception).countP Piece.isHeading ≤ 1 := by
      cases dump.exception with
      | none => exact Nat.zero_le 1
      | some text => exact Nat.le_refl 1
    rw [sectionPieces, List.countP_append, List.countP_append]
    omega

end

end MessageDump

namespace Terminal.Style

open MessageDump

/-! ## Shown lines -/

/-- A line as it is shown: a heading in the style of headings, and any other line as it is. -/
def shown (style : Style) : Piece → String
  | .heading title => style.heading title
  | piece => piece.text

theorem dumpLines_eq_map (style : Style) (dump : MessageDump) :
    style.dumpLines dump = dump.pieces.map style.shown := by
  rw [dumpLines, ← map_text_pieces, List.map_map]
  refine List.map_congr_left fun piece hpiece => ?_
  have hheading := mem_headings_iff dump piece hpiece
  -- the test for the text of a heading is a test for the kind of the piece
  rw [← List.contains_iff_mem] at hheading
  rw [Function.comp_apply]
  cases piece with
  | heading title => exact if_pos (hheading.2 rfl)
  | _ => exact if_neg fun hcontains => Bool.false_ne_true (hheading.1 hcontains)

/-- With colours, just the headings are shown otherwise than they are. -/
theorem shown_ne_text_iff {style : Style} (h : style.useColor = true) (piece : Piece) :
    style.shown piece ≠ piece.text ↔ piece.isHeading = true := by
  cases piece with
  | heading title =>
    refine iff_of_true (fun heq => ?_) rfl
    have hlength := congrArg String.length heq
    rw [shown, heading, if_pos h, String.length_append, String.length_append] at hlength
    have hcolor : "\x1b[31m\x1b[1m".length = 9 := by decide
    simp only [Piece.text] at hlength
    omega
  | _ => exact iff_of_false (fun hne => hne rfl) nofun

/-- The lines of a body are shown one for one in their order, and the style of headings is used
    just where a heading is emitted, whatever the texts in the body are.  There are three
    headings at most, and without colours no line is shown otherwise than it is. -/
theorem dumpLines_of_pieces (style : Style) (dump : MessageDump) :
    dump.lines = dump.pieces.map Piece.text ∧
      style.dumpLines dump = dump.pieces.map style.shown ∧
      (∀ piece ∈ dump.pieces, piece.text ∈ headings ↔ piece.isHeading = true) ∧
      (style.useColor = true → ∀ piece ∈ dump.pieces,
        style.shown piece ≠ piece.text ↔ piece.isHeading = true) ∧
      dump.pieces.countP Piece.isHeading ≤ 3 ∧
      plain.dumpLines dump = dump.lines := by
  have hplain : plain.shown = Piece.text := by
    funext piece
    cases piece <;> rfl
  refine ⟨(map_text_pieces dump).symm, dumpLines_eq_map style dump, mem_headings_iff dump,
    fun hcolor piece _ => shown_ne_text_iff hcolor piece, countP_isHeading_le dump, ?_⟩
  rw [dumpLines_eq_map, hplain, map_text_pieces]

/-- A message that reads like a heading is no heading. -/
example : (Style.mk true).dumpLines (.ofMessages (.object [("log", .string "Log:")])) =
    ["\x1b[31m\x1b[1mLog:\x1b[0m", "  Log:"] := by
  decide

end Terminal.Style

end GitTransport
