/-
Two spellings of one log.

  An entry can stand alone where a list of entries is expected.  The trees that come of the
  two spellings differ, since a list in a list is an entry without a message; but such an
  entry has no line of its own and indents nothing, so the lines are the same
  (`sameLines_singleton`).  Having the same lines is kept by everything around a value
  (`sameLines_fill`), so it makes no difference how a protocol is spelled, wherever in
  a body it stands (`lines_of_spellings`).
-/

import GitTransport.Proofs.MessageLog.Lines

namespace GitTransport

/-- A value with a gap in it. -/
inductive Json.Context where
  /-- The gap alone. -/
  | gap
  /-- A list with the gap in one of its items. -/
  | item (before : List Json) (inner : Context) (after : List Json)
  /-- An object with the gap in the member of this name. -/
  | member (others : Fields Json) (name : String) (inner : Context)

/-- The value with the gap filled. -/
def Json.Context.fill : Context → Json → Json
  | .gap, value => value
  | .item before inner after, value => .array (before ++ inner.fill value :: after)
  | .member others name inner, value => .object (Fields.insert name (inner.fill value) others)

namespace MessageNode

open MessageDump

/-- The object with this protocol. -/
def withProtocol (members : Fields Json) (protocol : Json) : Json :=
  .object (Fields.insert "protocol" protocol members)

/-- As entries the values have the same lines, however far they are indented. -/
def SameLines (a b : Json) : Prop := ∀ indent, lines indent (ofJson a) = lines indent (ofJson b)

variable {a b : Json}

theorem sameLines_singleton (value : Json) : SameLines value (.array [value]) := by
  intro indent
  have hlist : lines indent (ofJson (.array [value])) = lines indent (ofJson value) ++ [] := rfl
  rw [hlist, List.append_nil]

/-! ## Lines around a value -/

theorem sameLines_item (h : SameLines a b) (before after : List Json) :
    SameLines (.array (before ++ a :: after)) (.array (before ++ b :: after)) := by
  intro indent
  rw [ofJson, ofJson, lines, lines, listLines_ofItems, listLines_ofItems, List.flatMap_append,
    List.flatMap_append, List.flatMap_cons, List.flatMap_cons, h indent]

theorem listLines_inProtocol (indent : String) (members : Fields Json) :
    listLines indent (inProtocol members) =
      ((Fields.get? members "protocol").map fun value => lines indent (ofJson value)).getD [] := by
  rw [inProtocol_eq]
  cases Fields.get? members "protocol" with
  | none => rfl
  | some value => exact listLines_ofProtocol indent value

/-- Of an object only its own message and the lines in its protocol count. -/
theorem sameLines_object {members others : Fields Json}
    (hown : ownMessage members = ownMessage others)
    (hprotocol : ∀ indent, listLines indent (inProtocol members) =
      listLines indent (inProtocol others)) :
    SameLines (.object members) (.object others) := by
  intro indent
  rw [ofJson, ofJson, hown]
  cases ownMessage others with
  | none => rw [lines, lines, hprotocol]
  | some text => rw [lines, lines, hprotocol]

theorem sameLines_member (h : SameLines a b) {name : String}
    (htext : name = "message" → a.asString? = b.asString?) (others : Fields Json) :
    SameLines (.object (Fields.insert name a others)) (.object (Fields.insert name b others)) := by
  apply sameLines_object
  · -- the value is the message of the object only if it is a text
    rw [ownMessage, ownMessage, Fields.get?_insert, Fields.get?_insert]
    by_cases hname : name = "message"
    · rw [if_pos hname, if_pos hname, Option.bind_some, Option.bind_some, htext hname]
    · rw [if_neg hname, if_neg hname]
  · intro indent
    rw [listLines_inProtocol, listLines_inProtocol, Fields.get?_insert, Fields.get?_insert]
    by_cases hname : name = "protocol"
    · rw [if_pos hname, if_pos hname, Option.map_some, Option.map_some, h indent]
    · rw [if_neg hname, if_neg hname]

theorem sameLines_withProtocol (members : Fields Json) (protocol : Json) :
    SameLines (withProtocol members protocol) (withProtocol members (.array [protocol])) :=
  sameLines_member (sameLines_singleton protocol) (fun hname => absurd hname (by decide)) members

/-- Around an object there is never a text. -/
theorem asString_fill_object (context : Json.Context) (members : Fields Json) :
    (context.fill (.object members)).asString? = none := by
  cases context <;> rfl

theorem sameLines_fill {members others : Fields Json}
    (h : SameLines (.object members) (.object others)) (context : Json.Context) :
    SameLines (context.fill (.object members)) (context.fill (.object others)) := by
  induction context with
  | gap => exact h
  | item before inner after ih => exact sameLines_item ih before after
  | member siblings name inner ih =>
    -- what fills the gap is no text here, so the object around it has the message it had
    refine sameLines_member ih (fun _ => ?_) siblings
    rw [asString_fill_object, asString_fill_object]

/-! ## Sections -/

theorem logLines_ofSection_some (title : String) (value : Json) :
    logLines title (ofSection (some value)) =
      headingOf title (some value) ++ lines " " (ofJson value) := by
  rw [logLines_ofSection, ← listLines_ofSection, listLines_ofSection_some]

/-- A section that holds an object somewhere has its heading. -/
theorem logLines_fill_object (title : String) (context : Json.Context) (members : Fields Json) :
    logLines title (ofSection (some (context.fill (.object members)))) =
      title :: lines " " (ofJson (context.fill (.object members))) := by
  have hheading : headingOf title (some (context.fill (.object members))) = [title] := by
    cases context with
    | gap => rfl
    | item before inner after => cases before <;> rfl
    | member others name inner => rfl
  rw [logLines_ofSection_some, hheading]
  rfl

/-- A section with a lone value has the messages of a list of this value below its heading. -/
theorem logLines_singleton (title : String) (value : Json) :
    logLines title (ofSection (some (.array [value]))) = title :: lines " " (ofJson value) := by
  rw [logLines_ofSection_some, ← sameLines_singleton value]
  rfl

end MessageNode

namespace MessageDump

open MessageNode

/-- The body with this value as the section of this name. -/
def withSection (body : Fields Json) (name : String) (value : Json) : Json :=
  .object (Fields.insert name value body)

/-- The lines of the section stand among lines that do not depend on it. -/
theorem exists_sectionLines_withSection (body : Fields Json) {name : String}
    (hname : name ∈ ["errorLog", "log"]) : ∃ title before after, ∀ value,
      (ofMessages (withSection body name value)).sectionLines =
        before ++ logLines title (ofSection (some value)) ++ after := by
  rcases List.mem_cons.1 hname with rfl | hlog
  · refine ⟨"Error Log:", [], logLines "Log:" (ofSection (Fields.get? body "log")) ++
      exceptionLines (exceptionOf (Fields.get? body "exception")), fun value => ?_⟩
    simp [sectionLines, ofMessages, withSection, Fields.get?_insert]
  · obtain rfl := List.mem_singleton.1 hlog
    refine ⟨"Log:", logLines "Error Log:" (ofSection (Fields.get? body "errorLog")),
      exceptionLines (exceptionOf (Fields.get? body "exception")), fun value => ?_⟩
    simp [sectionLines, ofMessages, withSection, Fields.get?_insert]

/-- A protocol that is a lone value and a list of just this value are told by the same lines, at
    any place of a log and whatever else is in the object, its message for instance.  So all the
    lines of a body are the same.  A section that is a lone value has the same messages as a
    list of just this value, below a heading that is there or not. -/
theorem lines_of_spellings (members : Fields Json) (protocol : Json) (context : Json.Context) :
    (∀ indent,
      MessageNode.lines indent (ofJson (context.fill (withProtocol members protocol))) =
        MessageNode.lines indent
          (ofJson (context.fill (withProtocol members (.array [protocol]))))) ∧
      (∀ (body : Fields Json), ∀ name ∈ ["errorLog", "log"],
        (ofMessages (withSection body name
            (context.fill (withProtocol members protocol)))).lines =
          (ofMessages (withSection body name
            (context.fill (withProtocol members (.array [protocol]))))).lines) ∧
      ∀ title value, ∃ messages,
        logLines title (ofSection (some value)) = headingOf title (some value) ++ messages ∧
          logLines title (ofSection (some (.array [value]))) = title :: messages := by
  have hsame : SameLines (context.fill (withProtocol members protocol))
      (context.fill (withProtocol members (.array [protocol]))) :=
    sameLines_fill (sameLines_withProtocol members protocol) context
  refine ⟨hsame, fun body name hname => ?_, fun title value => ?_⟩
  · obtain ⟨title, before, after, hsections⟩ := exists_sectionLines_withSection body hname
    have hlog : ∀ inside : Json,
        logLines title (ofSection (some (context.fill (withProtocol members inside)))) =
          title :: MessageNode.lines " " (ofJson (context.fill (withProtocol members inside))) :=
      fun inside => logLines_fill_object title context _
    -- there is a heading in any case, so the body is not shown as it is
    rw [lines, lines, hsections, hsections, hlog, hlog, hsame " "]
    simp
  · exact ⟨_, logLines_ofSection_some title value, logLines_singleton title value⟩

/-- Neither the section nor the protocol is a list here. -/
example : (ofMessages (.object [("log", withProtocol [("message", .string "Clone")]
    (.string "Step"))])).lines = ["Log:", "  Clone", "    Step"] := by
  decide

end MessageDump

end GitTransport
