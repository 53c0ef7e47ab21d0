/-
The one line for an error body, and the lines for the same body.

  The summary of an error and the dump of its body are made by two readers.  Both look for
  a text in the exception, then in the error log, then in the log, and take the body as it
  is when there is none (`Summarized`, `Headlined`).  They do not read alike: an exception
  counts for the summary if it is a text, be it empty, and for the dump if it is anything
  but empty; and only the dump knows entries that are plain texts, sections that are a
  lone entry, and empty messages (`Misread`).

  The two tell the same in every body that is `Regular`, and in any other one only where the
  same text happens to stand in two places (`message_eq_headline_iff`).  For a body is longer
  than every text in it, so no text that one of them finds is the whole body, which the
  other one would take.
-/

import GitTransport.Proofs.Classifier.Decision
import GitTransport.Proofs.Json.Printer
import GitTransport.Proofs.MessageLog.Lines

namespace GitTransport

/-! ## One reader after the other -/

/-- The text that the one finds, or else the other. -/
def OrElse (first second : String → Prop) (text : String) : Prop :=
  first text ∨ (∀ other, ¬ first other) ∧ second text

section

variable {first first' second second' : String → Prop}

theorem or_eq_some_iff {a b : Option String} (ha : ∀ text, a = some text ↔ first text)
    (hb : ∀ text, b = some text ↔ second text) (text : String) :
    a.or b = some text ↔ OrElse first second text := by
  unfold OrElse
  cases a with
  | none =>
    have hnone : ∀ other, ¬ first other := fun other h => nomatch (ha other).2 h
    rw [Option.none_or, hb, and_iff_right hnone]
    exact (or_iff_right (hnone text)).symm
  | some own =>
    have hown : ¬ ∀ other, ¬ first other := fun h => h own ((ha own).1 rfl)
    rw [Option.some_or, ha]
    exact (or_iff_left fun h => hown h.1).symm

/-- It is enough that the readers agree up to the first text. -/
theorem orElse_congr (hfirst : ∀ text, first text ↔ first' text)
    (hsecond : (∃ text, first text) ∨ ∀ text, second text ↔ second' text) (text : String) :
    OrElse first second text ↔ OrElse first' second' text := by
  unfold OrElse
  simp only [← hfirst]
  refine or_congr_right (and_congr_right fun hnone => ?_)
  rcases hsecond with ⟨other, hother⟩ | hsecond
  · exact absurd hother (hnone other)
  · exact hsecond text

theorem exists_orElse_iff :
    (∃ text, OrElse first second text) ↔ (∃ text, first text) ∨ ∃ text, second text := by
  constructor
  · rintro ⟨text, hfirst | ⟨-, hsecond⟩⟩
    · exact .inl ⟨text, hfirst⟩
    · exact .inr ⟨text, hsecond⟩
  · intro h
    by_cases hfirst : ∃ text, first text
    · obtain ⟨text, htext⟩ := hfirst
      exact ⟨text, .inl htext⟩
    · obtain ⟨text, htext⟩ := h.resolve_left hfirst
      exact ⟨text, .inr ⟨not_exists.1 hfirst, htext⟩⟩

end

/-- What is taken in place of a text tells that there is none, if it is none of the texts. -/
theorem getD_eq_getD_iff {a b : Option String} {whole : String} (ha : a ≠ some whole)
    (hb : b ≠ some whole) :
    a.getD whole = b.getD whole ↔ ∀ text, a = some text ↔ b = some text := by
  cases a with
  | none =>
    cases b with
    | none => exact iff_of_true rfl fun _ => Iff.rfl
    | some found =>
      exact iff_of_false (fun h => hb (congrArg some h.symm)) fun h => nomatch (h found).2 rfl
  | some text =>
    cases b with
    | none => exact iff_of_false (fun h => ha (congrArg some h)) fun h => nomatch (h text).1 rfl
    | some found =>
      refine ⟨fun h _ => ?_, fun h => ?_⟩
      · rw [show text = found from h]
      · exact Option.some.inj ((h found).2 rfl)

namespace MessageNode

/-! ## The first message of a section -/

/-- The message of the first of the entries. -/
def leading? (entries : List MessageNode) : Option String := entries.head?.bind message?

/-- As an entry the value has this message itself. -/
def Utters (entry : Json) (text : String) : Prop :=
  entry = .string text ∨ ∃ members, entry = .object members ∧ Carries members text

/-- The first entry of the section has this message; a lone entry is the first one. -/
def Leads (section? : Option Json) (text : String) : Prop :=
  ∃ entry, (section? = some entry ∨ ∃ rest, section? = some (.array (entry :: rest))) ∧
    Utters entry text

variable {entry : Json} {section? : Option Json} {text : String}

theorem message_ofJson_eq_some_iff : (ofJson entry).message? = some text ↔ Utters entry text := by
  cases entry with
  | string own => simp [ofJson, message?, Utters]
  | object members => simp [ofJson, message?, Utters, ownMessage_eq_some_iff]
  | _ => simp [ofJson, message?, Utters]

theorem leading_eq_some_iff : leading? (ofSection section?) = some text ↔ Leads section? text := by
  cases section? with
  | none => simp [ofSection, leading?, Leads]
  | some value =>
    cases value with
    | array items =>
      cases items with
      | nil => simp [ofSection, ofItems, leading?, Leads, Utters]
      | cons item rest =>
        have hitem : leading? (ofSection (some (.array (item :: rest)))) =
            (ofJson item).message? := rfl
        rw [hitem, message_ofJson_eq_some_iff]
        simp [Leads, Utters]
    | null => simp [ofSection, leading?, Leads, Utters]
    | _ => simp [ofSection, leading?, message_ofJson_eq_some_iff, Leads]

/-! ## Sections that are read otherwise -/

/-- The summary and the dump read the section otherwise. -/
inductive Misread : Option Json → Prop where
  /-- There is a lone entry with a message. -/
  | lone {entry : Json} {text : String} : Utters entry text → Misread (some entry)
  /-- The first entry is a plain text. -/
  | plain {text : String} {rest : List Json} : Misread (some (.array (.string text :: rest)))
  /-- The first entry has an empty message. -/
  | blank {members : Fields Json} {rest : List Json} :
      Fields.get? members "message" = some (.string "") →
      Misread (some (.array (.object members :: rest)))

open ServiceError (BeginsWith)

theorem not_utters_array {items : List Json} : ¬ Utters (.array items) text := by
  rintro (h | ⟨members, h, -⟩) <;> cases h

/-- A section is read alike exactly if it is of no kind that is read otherwise. -/
theorem beginsWith_iff_leads_iff :
    (∀ text, BeginsWith section? text ↔ Leads section? text) ↔ ¬ Misread section? := by
  constructor
  · intro h hmisread
    cases hmisread with
    | lone hutters =>
      -- the summary would have to find a list in place of the entry, and a list says nothing itself
      obtain ⟨members, rest, heq, -⟩ := (h _).2 ⟨_, .inl rfl, hutters⟩
      cases heq
      exact not_utters_array hutters
    | plain =>
      obtain ⟨members, rest, heq, -⟩ := (h _).2 ⟨_, .inr ⟨_, rfl⟩, .inl rfl⟩
      cases heq
    | blank hblank =>
      obtain ⟨entry, hentry, hutters⟩ := (h "").1 ⟨_, _, rfl, hblank⟩
      rcases hentry with heq | ⟨rest, heq⟩
      · cases heq
        exact not_utters_array hutters
      · cases heq
        rcases hutters with heq | ⟨members, heq, hcarries⟩
        · cases heq
        · exact hcarries.2 rfl
  · intro h text
    constructor
    · rintro ⟨members, rest, rfl, hmessage⟩
      have hne : text ≠ "" := by
        rintro rfl
        exact h (.blank hmessage)
      exact ⟨.object members, .inr ⟨rest, rfl⟩, .inr ⟨members, rfl, hmessage, hne⟩⟩
    · rintro ⟨entry, rfl | ⟨rest, rfl⟩, hutters⟩
      · exact absurd (.lone hutters) h
      · rcases hutters with rfl | ⟨members, rfl, hcarries⟩
        · exact absurd .plain h
        · exact ⟨members, rest, rfl, hcarries.1⟩

end MessageNode

namespace MessageDump

open MessageNode ServiceError

/-! ## What the two readers find -/

/-- The text that the dump of a body begins with: the exception, or else the first message of
    the error log or of the log, or else the whole body. -/
def headline (dump : MessageDump) : String :=
  ((dump.exception.or (leading? dump.errorLog)).or (leading? dump.log)).getD dump.body.compact

/-- The exception has this text, and it is not empty, or it is another value that is written
    so. -/
def ShowsException (exception? : Option Json) (text : String) : Prop :=
  (exception? = some (.string text) ∧ text ≠ "") ∨
    ∃ value, exception? = some value ∧ value ≠ .null ∧ (∀ own, value ≠ .string own) ∧
      text = value.compact

/-- The summary finds this text in the body. -/
def Summarized (body : Json) : String → Prop :=
  OrElse
    (OrElse (fun text => body.member? "exception" = some (.string text))
      (BeginsWith (body.member? "errorLog")))
    (BeginsWith (body.member? "log"))

/-- The dump finds this text in the body. -/
def Headlined (body : Json) : String → Prop :=
  OrElse
    (OrElse (ShowsException (body.member? "exception")) (Leads (body.member? "errorLog")))
    (Leads (body.member? "log"))

theorem exceptionOf_eq_some_iff {exception? : Option Json} {text : String} :
    exceptionOf exception? = some text ↔ ShowsException exception? text := by
  cases exception? with
  | none => simp [exceptionOf, ShowsException]
  | some value =>
    cases value with
    | string own =>
      by_cases hempty : own = ""
      · simp [exceptionOf, ShowsException, hempty]
      · have hkept : own = text → text ≠ "" := fun heq => heq ▸ hempty
        simpa [exceptionOf, ShowsException, hempty] using hkept
    | null => simp [exceptionOf, ShowsException]
    | _ => simp [exceptionOf, ShowsException, eq_comm]

variable {body : Json} {text : String}

theorem exists_summary (body : Json) : ∃ found : Option String,
    summary body = found.getD body.compact ∧ ∀ text, found = some text ↔ Summarized body text :=
  ⟨_, rfl, or_eq_some_iff (or_eq_some_iff (fun _ => bind_asString_eq_some_iff)
    fun _ => firstMessage_eq_some_iff_beginsWith) fun _ => firstMessage_eq_some_iff_beginsWith⟩

theorem exists_headline (body : Json) : ∃ found : Option String,
    (ofMessages body).headline = found.getD body.compact ∧
      ∀ text, found = some text ↔ Headlined body text :=
  ⟨_, rfl, or_eq_some_iff (or_eq_some_iff (fun _ => exceptionOf_eq_some_iff)
    fun _ => leading_eq_some_iff) fun _ => leading_eq_some_iff⟩

/-! ## A body is longer than the texts in it -/

theorem length_chars_lt_of_member {name : String} {value : Json}
    (h : body.member? name = some value) : value.chars.length < body.chars.length := by
  obtain ⟨members, rfl, hget⟩ := exists_members_of_member h
  exact Json.length_chars_lt_of_get? hget

theorem length_lt_of_carries {members : Fields Json}
    (h : Fields.get? members "message" = some (.string text)) :
    text.length < (Json.object members).chars.length :=
  Nat.lt_trans (Json.length_lt_chars_string text) (Json.length_chars_lt_of_get? h)

theorem length_lt_of_utters {entry : Json} (h : Utters entry text) :
    text.length < entry.chars.length := by
  rcases h with rfl | ⟨members, rfl, hcarries⟩
  · exact Json.length_lt_chars_string text
  · exact length_lt_of_carries hcarries.1

theorem length_lt_of_beginsWith {name : String} (h : BeginsWith (body.member? name) text) :
    text.length < body.chars.length := by
  obtain ⟨members, rest, hsection, hmessage⟩ := h
  calc text.length
    _ < (Json.object members).chars.length := length_lt_of_carries hmessage
    _ < (Json.array (.object members :: rest)).chars.length :=
      Json.length_chars_lt_of_item List.mem_cons_self
    _ < body.chars.length := length_chars_lt_of_member hsection

theorem length_lt_of_leads {name : String} (h : Leads (body.member? name) text) :
    text.length < body.chars.length := by
  obtain ⟨entry, hsection | ⟨rest, hsection⟩, hutters⟩ := h
  · exact Nat.lt_trans (length_lt_of_utters hutters) (length_chars_lt_of_member hsection)
  · calc text.length
      _ < entry.chars.length := length_lt_of_utters hutters
      _ < (Json.array (entry :: rest)).chars.length :=
        Json.length_chars_lt_of_item List.mem_cons_self
      _ < body.chars.length := length_chars_lt_of_member hsection

theorem length_lt_of_showsException {name : String} (h : ShowsException (body.member? name) text) :
    text.length < body.chars.length := by
  rcases h with ⟨hvalue, -⟩ | ⟨value, hvalue, -, -, rfl⟩
  · exact Nat.lt_trans (Json.length_lt_chars_string text) (length_chars_lt_of_member hvalue)
  · rw [Json.compact, String.length_ofList]
    exact length_chars_lt_of_member hvalue

theorem length_lt_of_summarized (h : Summarized body text) :
    text.length < body.chars.length := by
  rcases h with (hexception | ⟨-, herrors⟩) | ⟨-, hlogged⟩
  · exact Nat.lt_trans (Json.length_lt_chars_string text) (length_chars_lt_of_member hexception)
  · exact length_lt_of_beginsWith herrors
  · exact length_lt_of_beginsWith hlogged

theorem length_lt_of_headlined (h : Headlined body text) : text.length < body.chars.length := by
  rcases h with (hexception | ⟨-, herrors⟩) | ⟨-, hlogged⟩
  · exact length_lt_of_showsException hexception
  · exact length_lt_of_leads herrors
  · exact length_lt_of_leads hlogged

/-! ## The summary against the dump -/

theorem summary_eq_headline_iff (body : Json) : summary body = (ofMessages body).headline ↔
    ∀ text, Summarized body text ↔ Headlined body text := by
  obtain ⟨summarized, hsummary, hsummarized⟩ := exists_summary body
  obtain ⟨headlined, hheadline, hheadlined⟩ := exists_headline body
  -- neither text can be the whole body, which stands for none in both
  have hwhole : summarized ≠ some body.compact := fun h =>
    Json.compact_ne_of_length_lt (length_lt_of_summarized ((hsummarized _).1 h)) rfl
  have hwhole' : headlined ≠ some body.compact := fun h =>
    Json.compact_ne_of_length_lt (length_lt_of_headlined ((hheadlined _).1 h)) rfl
  rw [hsummary, hheadline, getD_eq_getD_iff hwhole hwhole']
  exact forall_congr' fun text => iff_congr (hsummarized text) (hheadlined text)

theorem summary_eq_headline_of_found (hsummarized : Summarized body text)
    (hheadlined : Headlined body text) : summary body = (ofMessages body).headline := by
  obtain ⟨summarized, hsummary, hfound⟩ := exists_summary body
  obtain ⟨headlined, hheadline, hfound'⟩ := exists_headline body
  rw [hsummary, hheadline, (hfound text).2 hsummarized, (hfound' text).2 hheadlined]

theorem summary_eq_empty_iff (body : Json) : summary body = "" ↔ Summarized body "" := by
  obtain ⟨found, hsummary, hfound⟩ := exists_summary body
  rw [hsummary, ← hfound]
  cases found with
  | none => exact iff_of_false (Json.compact_ne_empty body) nofun
  | some text => exact Option.some_inj.symm

/-- An exception is a text that is not empty, and the sections that count are not read otherwise.
    A section counts if there is no text in the parts before it. -/
structure Regular (body : Json) : Prop where
  /-- There may be no exception, or null in its place. -/
  exception : ∀ value, body.member? "exception" = some value →
    value = .null ∨ ∃ text, value = .string text ∧ text ≠ ""
  errorLog : (∃ text, body.member? "exception" = some (.string text)) ∨
    ¬ Misread (body.member? "errorLog")
  log : (∃ text, body.member? "exception" = some (.string text)) ∨
    (∃ text, BeginsWith (body.member? "errorLog") text) ∨ ¬ Misread (body.member? "log")

theorem Regular.showsException_iff (h : Regular body) (text : String) :
    body.member? "exception" = some (.string text) ↔
      ShowsException (body.member? "exception") text := by
  unfold ShowsException
  constructor
  · intro htext
    rcases h.exception _ htext with hnull | ⟨own, heq, hne⟩
    · cases hnull
    · cases heq
      exact .inl ⟨htext, hne⟩
  · rintro (⟨htext, -⟩ | ⟨value, hvalue, hnull, hother, -⟩)
    · exact htext
    · rcases h.exception _ hvalue with heq | ⟨own, heq, -⟩
      · exact absurd heq hnull
      · exact absurd heq (hother own)

/-- The log counts if there is no text in the exception and in the error log. -/
theorem Regular.told_or_not_misread_log (h : Regular body) :
    (∃ text, OrElse (fun text => body.member? "exception" = some (.string text))
      (BeginsWith (body.member? "errorLog")) text) ∨ ¬ Misread (body.member? "log") := by
  rcases h.log with htold | htold | hread
  · exact .inl (exists_orElse_iff.2 (.inl htold))
  · exact .inl (exists_orElse_iff.2 (.inr htold))
  · exact .inr hread

/-- Both readers find the same in such a body. -/
theorem Regular.summarized_iff_headlined (h : Regular body) (text : String) :
    Summarized body text ↔ Headlined body text := by
  have hexception := h.showsException_iff
  have herrors := orElse_congr hexception
    (h.errorLog.imp_right fun herrors => beginsWith_iff_leads_iff.2 herrors)
  have hlog := h.told_or_not_misread_log.imp_right fun hlog => beginsWith_iff_leads_iff.2 hlog
  exact orElse_congr herrors hlog text

theorem not_beginsWith_empty {section? : Option Json} (h : ¬ Misread section?) :
    ¬ BeginsWith section? "" := by
  rintro ⟨members, rest, rfl, hmessage⟩
  exact h (.blank hmessage)

theorem Regular.not_summarized_empty (h : Regular body) : ¬ Summarized body "" := by
  rintro ((hexception | ⟨hnone, herrors⟩) | ⟨hnone, hlogged⟩)
  · rcases h.exception _ hexception with hnull | ⟨own, heq, hne⟩
    · cases hnull
    · cases heq
      exact hne rfl
  · rcases h.errorLog with ⟨own, hown⟩ | hread
    · exact hnone own hown
    · exact not_beginsWith_empty hread herrors
  · rcases h.told_or_not_misread_log with ⟨own, hown⟩ | hread
    · exact hnone own hown
    · exact not_beginsWith_empty hread hlogged

/-- A body in which neither reader finds a text is regular. -/
theorem regular_of_not_found (hsummarized : ¬ ∃ text, Summarized body text)
    (hheadlined : ¬ ∃ text, Headlined body text) : Regular body := by
  simp only [Summarized, exists_orElse_iff, not_or] at hsummarized
  simp only [Headlined, exists_orElse_iff, not_or] at hheadlined
  obtain ⟨⟨hexception, herrors⟩, hlogged⟩ := hsummarized
  obtain ⟨⟨hexception', herrors'⟩, hlogged'⟩ := hheadlined
  refine ⟨fun value hvalue => ?_, .inr ?_, .inr (.inr ?_)⟩
  · by_cases hnull : value = .null
    · exact .inl hnull
    · -- any other value would be shown, as a text or as it is written
      have hother : ∀ own, value ≠ .string own := by
        rintro own rfl
        exact hexception ⟨own, hvalue⟩
      exact absurd ⟨value.compact, .inr ⟨value, hvalue, hnull, hother, rfl⟩⟩ hexception'
  · exact beginsWith_iff_leads_iff.1 fun text =>
      iff_of_false (not_exists.1 herrors text) (not_exists.1 herrors' text)
  · exact beginsWith_iff_leads_iff.1 fun text =>
      iff_of_false (not_exists.1 hlogged text) (not_exists.1 hlogged' text)

/-- The one line of an error is the text that the dump of its body begins with, exactly if the
    body is regular or both readers find the same text all the same.  It is blank exactly if
    the text that is found for it is empty, and never in a regular body. -/
theorem message_eq_headline_iff (e : ServiceError) :
    (e.message = "gCTS exception: " ++ (ofMessages e.messages).headline ↔
        Regular e.messages ∨
          ∃ text, Summarized e.messages text ∧ Headlined e.messages text) ∧
      (summary e.messages = "" ↔ Summarized e.messages "") ∧
      (Regular e.messages → summary e.messages ≠ "") := by
  have hsummary : e.message = "gCTS exception: " ++ (ofMessages e.messages).headline ↔
      summary e.messages = (ofMessages e.messages).headline :=
    String.append_right_inj "gCTS exception: "
  refine ⟨hsummary.trans ⟨fun h => ?_, ?_⟩, summary_eq_empty_iff e.messages, fun h => ?_⟩
  · have hsame := (summary_eq_headline_iff e.messages).1 h
    -- a body that is shown whole by both has nothing that could be read otherwise
    by_cases hfound : ∃ text, Summarized e.messages text
    · obtain ⟨text, htext⟩ := hfound
      exact .inr ⟨text, htext, (hsame text).1 htext⟩
    · refine .inl (regular_of_not_found hfound fun ⟨text, htext⟩ => ?_)
      exact hfound ⟨text, (hsame text).2 htext⟩
  · rintro (hregular | ⟨text, hsummarized, hheadlined⟩)
    · exact (summary_eq_headline_iff e.messages).2 hregular.summarized_iff_headlined
    · exact summary_eq_headline_of_found hsummarized hheadlined
  · exact mt (summary_eq_empty_iff e.messages).1 h.not_summarized_empty

/-- A body whose error log begins with an object. -/
def refusal : Fields Json := [("errorLog", .array [.object [("message", .string "No clone")]])]

/-- It is regular, and its message is the one line. -/
theorem message_eq_headline_iff_refusal : Regular (.object refusal) ∧
    (ServiceError.mk .request (.object refusal)).message =
      "gCTS exception: " ++ (ofMessages (.object refusal)).headline ∧
    summary (.object refusal) ≠ "" := by
  have hread : ¬ Misread ((Json.object refusal).member? "errorLog") := by
    intro hmisread
    cases hmisread with
    | lone hutters => exact not_utters_array hutters
    | blank hblank => exact absurd hblank (by decide)
  have hregular : Regular (.object refusal) := ⟨nofun, .inr hread, .inr (.inr nofun)⟩
  have h := message_eq_headline_iff ⟨.request, .object refusal⟩
  exact ⟨hregular, h.1.2 (.inl hregular), h.2.2 hregular⟩

/-- An empty exception makes the line blank, though there is a message to show. -/
theorem not_message_eq_headline : ¬ ∀ e : ServiceError,
    e.message = "gCTS exception: " ++ (ofMessages e.messages).headline := by
  intro h
  have hblank := h ⟨.request, .object (Fields.insert "exception" (.string "") refusal)⟩
  exact absurd hblank (by decide)

end MessageDump

end GitTransport
