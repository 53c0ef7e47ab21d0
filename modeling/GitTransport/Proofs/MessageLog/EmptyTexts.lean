/-
Empty texts in a log.

  An entry stands in another one as an item of it or in its protocol, where a list is its
  items and a text or an object is one entry (`EntryOf`).  The entries inside the tree of
  a value are the trees of the entries inside the value (`within_ofJson_iff`), and the
  messages that have a line are the messages of these entries (`told_iff_utters`).

  The message of an object does not count when it is empty, but a text is a message
  whatever it is.  So the only blank entries of a tree come from empty texts, and with
  them the lines that hold an indentation and nothing behind it.  A text can be
  exchanged for the object with this message, at any place of a log, exactly if it is not
  empty (`noneBlank_iff_of_texts`).
-/

import GitTransport.Proofs.MessageLog.Spellings
import GitTransport.Proofs.MessageLog.Summary
import Mathlib.Logic.Relation

namespace GitTransport

/-- What fills the gap is an entry of the value: the way to it leads through lists and protocols
    alone. -/
def Json.Context.AtEntry : Context → Prop
  | .gap => True
  | .item _ inner _ => inner.AtEntry
  | .member _ name inner => name = "protocol" ∧ inner.AtEntry

namespace MessageNode

/-! ## Entries inside an entry -/

/-- The values that are one entry when they are a protocol: texts and objects. -/
inductive Single : Json → Prop where
  | text (text : String) : Single (.string text)
  | object (members : Fields Json) : Single (.object members)

/-- `EntryOf inner outer`: the entry `inner` is one of those that `outer` consists of. -/
inductive EntryOf : Json → Json → Prop where
  | item {items : List Json} {inner : Json} : inner ∈ items → EntryOf inner (.array items)
  /-- A protocol that is a list stands for its items. -/
  | listed {members : Fields Json} {items : List Json} {inner : Json} :
      Fields.get? members "protocol" = some (.array items) → inner ∈ items →
      EntryOf inner (.object members)
  | alone {members : Fields Json} {inner : Json} :
      Fields.get? members "protocol" = some inner → Single inner → EntryOf inner (.object members)

/-- The entry stands in the value at some depth, or is the value itself. -/
def StandsIn (entry value : Json) : Prop := Relation.ReflTransGen EntryOf entry value

/-- The entry is one of those that the tree is made of. -/
def Within (node tree : MessageNode) : Prop :=
  Relation.ReflTransGen (fun inner outer => inner ∈ outer.children) node tree

variable {value entry a b : Json} {members : Fields Json} {node : MessageNode} {text : String}

theorem ofItems_eq_map (items : List Json) : ofItems items = items.map ofJson := by
  induction items with
  | nil => rfl
  | cons item rest ih => rw [ofItems, ih, List.map_cons]

theorem Single.ofProtocol_eq (h : Single value) : ofProtocol value = [ofJson value] := by
  cases h with
  | text text => rfl
  | object members => rfl

theorem mem_inProtocol_iff :
    node ∈ inProtocol members ↔ ∃ inner, EntryOf inner (.object members) ∧ ofJson inner = node := by
  rw [inProtocol_eq]
  constructor
  · cases hvalue : Fields.get? members "protocol" with
    | none => exact nofun
    | some value =>
      intro hnode
      rw [Option.map_some, Option.getD_some] at hnode
      cases value with
      | array items =>
        rw [ofProtocol, ofItems_eq_map] at hnode
        obtain ⟨inner, hinner, rfl⟩ := List.mem_map.1 hnode
        exact ⟨inner, .listed hvalue hinner, rfl⟩
      | string text =>
        exact ⟨_, .alone hvalue (.text text), (List.mem_singleton.1 hnode).symm⟩
      | object others =>
        exact ⟨_, .alone hvalue (.object others), (List.mem_singleton.1 hnode).symm⟩
      | _ => cases hnode
  · rintro ⟨inner, hinner, rfl⟩
    cases hinner with
    | listed hvalue hinner =>
      rw [hvalue, Option.map_some, Option.getD_some, ofProtocol, ofItems_eq_map]
      exact List.mem_map_of_mem hinner
    | alone hvalue hsingle =>
      rw [hvalue, Option.map_some, Option.getD_some, hsingle.ofProtocol_eq]
      exact List.mem_singleton_self _

/-- What an entry of a tree consists of comes from what the value consists of. -/
theorem mem_children_ofJson_iff :
    node ∈ (ofJson value).children ↔ ∃ inner, EntryOf inner value ∧ ofJson inner = node := by
  cases value with
  | array items =>
    rw [ofJson, children, ofItems_eq_map, List.mem_map]
    constructor
    · rintro ⟨inner, hinner, rfl⟩
      exact ⟨inner, .item hinner, rfl⟩
    · rintro ⟨inner, ⟨hinner⟩, rfl⟩
      exact ⟨inner, hinner, rfl⟩
  | object members => exact mem_inProtocol_iff
  | _ =>
    refine iff_of_false List.not_mem_nil ?_
    rintro ⟨inner, hinner, -⟩
    cases hinner

/-- The entries of the tree are the trees of the entries. -/
theorem within_ofJson_iff :
    Within node (ofJson value) ↔ ∃ entry, StandsIn entry value ∧ ofJson entry = node := by
  constructor
  · intro h
    -- from the whole tree down to the entry
    induction h using Relation.ReflTransGen.head_induction_on with
    | refl => exact ⟨value, .refl, rfl⟩
    | head hinner _ ih =>
      obtain ⟨outer, houter, rfl⟩ := ih
      obtain ⟨inner, hentry, rfl⟩ := mem_children_ofJson_iff.1 hinner
      exact ⟨inner, .head hentry houter, rfl⟩
  · rintro ⟨entry, hentry, rfl⟩
    have hstep : ∀ inner outer, EntryOf inner outer → ofJson inner ∈ (ofJson outer).children :=
      fun inner outer h => mem_children_ofJson_iff.2 ⟨inner, h, rfl⟩
    exact hentry.lift ofJson hstep

/-! ## Blank entries -/

/-- The entry has a message, but an empty one. -/
def IsBlank (node : MessageNode) : Prop := node.message? = some ""

/-- No entry of the tree is blank. -/
def NoneBlank (tree : MessageNode) : Prop := ∀ node, Within node tree → ¬ node.IsBlank

/-- The message of an object is not empty, so only a text can say nothing. -/
theorem utters_empty_iff : Utters entry "" ↔ entry = .string "" :=
  or_iff_left fun ⟨_, _, hcarries⟩ => hcarries.2 rfl

theorem isBlank_ofJson_iff : (ofJson entry).IsBlank ↔ entry = .string "" :=
  message_ofJson_eq_some_iff.trans utters_empty_iff

theorem noneBlank_ofJson_iff : NoneBlank (ofJson value) ↔ ¬ StandsIn (.string "") value := by
  constructor
  · intro h hstands
    exact h _ (within_ofJson_iff.2 ⟨_, hstands, rfl⟩) (isBlank_ofJson_iff.2 rfl)
  · intro h node hwithin hblank
    obtain ⟨entry, hstands, rfl⟩ := within_ofJson_iff.1 hwithin
    obtain rfl := isBlank_ofJson_iff.1 hblank
    exact h hstands

/-- There is nothing in a blank entry, so its line does not indent any other. -/
theorem children_of_isBlank (hwithin : Within node (ofJson value)) (hblank : node.IsBlank) :
    node.children = [] := by
  obtain ⟨entry, -, rfl⟩ := within_ofJson_iff.1 hwithin
  obtain rfl := isBlank_ofJson_iff.1 hblank
  rfl

/-! ## Texts and objects with a message -/

/-- The object with this message and nothing else. -/
def saying (text : String) : Json := .object [("message", .string text)]

theorem ofJson_saying (text : String) : ofJson (saying text) =
    .node (ownMessage [("message", .string text)]) [] := rfl

theorem ofJson_string_eq_saying_iff : ofJson (.string text) = ofJson (saying text) ↔ text ≠ "" := by
  have hown : ownMessage [("message", .string text)] = some text ↔ text ≠ "" :=
    ownMessage_eq_some_iff.trans (and_iff_right rfl)
  rw [ofJson_saying, ofJson, MessageNode.node.injEq, and_iff_left rfl, eq_comm, hown]

/-! ## Trees around a gap -/

/-- A protocol that an entry is put into is read like the entry that it would be itself. -/
theorem ofProtocol_fill_eq_iff (ha : Single a) (hb : Single b) (context : Json.Context) :
    ofProtocol (context.fill a) = ofProtocol (context.fill b) ↔
      ofJson (context.fill a) = ofJson (context.fill b) := by
  cases context with
  | gap =>
    rw [Json.Context.fill, Json.Context.fill, ha.ofProtocol_eq, hb.ofProtocol_eq,
      List.singleton_inj]
  | item before inner after =>
    rw [Json.Context.fill, Json.Context.fill, ofProtocol, ofProtocol, ofJson, ofJson,
      MessageNode.node.injEq, and_iff_right rfl]
  | member others name inner =>
    rw [Json.Context.fill, Json.Context.fill, (Single.object _).ofProtocol_eq,
      (Single.object _).ofProtocol_eq, List.singleton_inj]

/-- A section that an entry is put into is read like a protocol. -/
theorem ofSection_fill (ha : Single a) (context : Json.Context) :
    ofSection (some (context.fill a)) = ofProtocol (context.fill a) := by
  cases context with
  | gap =>
    cases ha with
    | text text => rfl
    | object members => rfl
  | item before inner after => rfl
  | member others name inner => rfl

theorem ofJson_withProtocol (members : Fields Json) (protocol : Json) :
    ofJson (withProtocol members protocol) = .node (ownMessage members) (ofProtocol protocol) := by
  have hown : ownMessage (Fields.insert "protocol" protocol members) = ownMessage members := by
    rw [ownMessage, ownMessage, Fields.get?_insert, if_neg (by decide)]
  rw [withProtocol, ofJson, hown, inProtocol_eq, Fields.get?_insert, if_pos rfl]
  rfl

/-- The tree around an entry tells what tree the entry has. -/
theorem ofJson_fill_eq_iff (ha : Single a) (hb : Single b) {context : Json.Context}
    (hcontext : context.AtEntry) :
    ofJson (context.fill a) = ofJson (context.fill b) ↔ ofJson a = ofJson b := by
  induction context with
  | gap => rfl
  | item before inner after ih =>
    rw [Json.Context.fill, Json.Context.fill, ofJson, ofJson, MessageNode.node.injEq,
      and_iff_right rfl, ofItems_eq_map, ofItems_eq_map, List.map_append, List.map_append,
      List.append_right_inj, List.map_cons, List.map_cons, List.cons.injEq, and_iff_left rfl]
    exact ih hcontext
  | member others name inner ih =>
    obtain ⟨rfl, hinner⟩ := hcontext
    have hfill : ∀ value, Json.Context.fill (.member others "protocol" inner) value =
        withProtocol others (inner.fill value) := fun _ => rfl
    rw [hfill, hfill, ofJson_withProtocol, ofJson_withProtocol, MessageNode.node.injEq,
      and_iff_right rfl, ofProtocol_fill_eq_iff ha hb]
    exact ih hinner

/-! ## Messages of the entries -/

theorem Utters.single (h : Utters entry text) : Single entry := by
  rcases h with rfl | ⟨members, rfl, -⟩
  · exact .text text
  · exact .object members

/-- A message in the protocol of an object is told in the object, one level further in or not. -/
theorem told_of_protocol (hvalue : Fields.get? members "protocol" = some value) {place : List Nat}
    {depth : Nat} (htold : Told value place depth text) :
    ∃ place depth, Told (.object members) place depth text := by
  by_cases hcarries : ∃ own, Carries members own
  · obtain ⟨own, hown⟩ := hcarries
    exact ⟨_, _, .inside hown hvalue htold⟩
  · exact ⟨_, _, .through (not_exists.1 hcarries) hvalue htold⟩

/-- An entry with a message that stands in the protocol of an object stands in the object. -/
theorem standsIn_of_protocol (hvalue : Fields.get? members "protocol" = some value)
    (hstands : StandsIn entry value) (hutters : Utters entry text) :
    StandsIn entry (.object members) := by
  rcases Relation.ReflTransGen.cases_tail hstands with rfl | ⟨outer, hentry, houter⟩
  · exact .single (.alone hvalue hutters.single)
  · have hinside : StandsIn entry value := hentry.tail houter
    -- a list is no entry as a protocol, so the way leads from its item to the object at once
    cases houter with
    | item hitem => exact hentry.tail (.listed hvalue hitem)
    | listed _ _ => exact hinside.tail (.alone hvalue (.object _))
    | alone _ _ => exact hinside.tail (.alone hvalue (.object _))

/-- The messages that are told are those of the entries. -/
theorem told_iff_utters : (∃ place depth, Told value place depth text) ↔
    ∃ entry, StandsIn entry value ∧ Utters entry text := by
  constructor
  · rintro ⟨place, depth, htold⟩
    induction htold with
    | text text => exact ⟨_, .refl, .inl rfl⟩
    | own hcarries => exact ⟨_, .refl, .inr ⟨_, rfl, hcarries⟩⟩
    | item hitem _ ih =>
      obtain ⟨entry, hentry, hutters⟩ := ih
      exact ⟨entry, hentry.tail (.item (List.mem_of_getElem? hitem)), hutters⟩
    | inside _ hvalue _ ih =>
      obtain ⟨entry, hentry, hutters⟩ := ih
      exact ⟨entry, standsIn_of_protocol hvalue hentry hutters, hutters⟩
    | through _ hvalue _ ih =>
      obtain ⟨entry, hentry, hutters⟩ := ih
      exact ⟨entry, standsIn_of_protocol hvalue hentry hutters, hutters⟩
  · rintro ⟨entry, hentry, hutters⟩
    -- from the entry out to the whole value
    induction hentry with
    | refl =>
      rcases hutters with rfl | ⟨members, rfl, hcarries⟩
      · exact ⟨_, _, .text text⟩
      · exact ⟨_, _, .own hcarries⟩
    | tail _ houter ih =>
      obtain ⟨place, depth, htold⟩ := ih
      cases houter with
      | item hitem =>
        obtain ⟨number, hnumber⟩ := List.mem_iff_getElem?.1 hitem
        exact ⟨_, _, .item hnumber htold⟩
      | listed hvalue hitem =>
        obtain ⟨number, hnumber⟩ := List.mem_iff_getElem?.1 hitem
        exact told_of_protocol hvalue (.item hnumber htold)
      | alone hvalue _ => exact told_of_protocol hvalue htold

theorem Message.line_eq_blanks_iff (message : Message) :
    message.line = blanks (2 + 2 * message.depth) ↔ message.text = "" := by
  rw [line]
  constructor
  · intro h
    exact String.append_right_inj _ |>.1 (h.trans String.append_empty.symm)
  · intro h
    rw [h, String.append_empty]

end MessageNode

namespace MessageDump

open MessageNode

/-- In the dump of the body a message is shown by its indentation alone. -/
def ShowsBlank (body : Json) : Prop :=
  ∃ name ∈ ["errorLog", "log"], ∃ value, body.member? name = some value ∧ ∃ message : Message,
    Told value message.place message.depth message.text ∧
      message.line ∈ (ofMessages body).lines ∧
      message.line = Message.blanks (2 + 2 * message.depth)

/-- An empty text stands as an entry in one of the sections of the body. -/
def HoldsEmptyText (body : Json) : Prop :=
  ∃ name ∈ ["errorLog", "log"], ∃ value, body.member? name = some value ∧
    StandsIn (.string "") value

variable {body value : Json}

/-- The line of a message is among the lines of the body. -/
theorem line_mem_lines {name : String} (hname : name ∈ ["errorLog", "log"])
    (hvalue : body.member? name = some value) {message : Message}
    (htold : Told value message.place message.depth message.text) :
    message.line ∈ (ofMessages body).lines := by
  have hfound : message.line ∈ (foundIn (body.member? name)).map Message.line := by
    rw [hvalue]
    exact List.mem_map_of_mem (mem_found_iff.2 htold)
  have hsection : message.line ∈ (ofMessages body).sectionLines := by
    rw [sectionLines, ofMessages, logLines_ofSection, logLines_ofSection]
    simp only [List.mem_append]
    rcases List.mem_cons.1 hname with rfl | hlog
    · exact .inl (.inl (.inr hfound))
    · obtain rfl := List.mem_singleton.1 hlog
      exact .inl (.inr (.inr hfound))
  have hlines : (ofMessages body).sectionLines.isEmpty = false :=
    List.isEmpty_eq_false_iff.2 (List.ne_nil_of_mem hsection)
  rw [lines, hlines]
  exact hsection

theorem showsBlank_iff : ShowsBlank body ↔ HoldsEmptyText body := by
  constructor
  · rintro ⟨name, hname, value, hvalue, message, htold, -, hline⟩
    rw [(Message.line_eq_blanks_iff message).1 hline] at htold
    obtain ⟨entry, hstands, hutters⟩ := told_iff_utters.1 ⟨_, _, htold⟩
    obtain rfl := utters_empty_iff.1 hutters
    exact ⟨name, hname, value, hvalue, hstands⟩
  · rintro ⟨name, hname, value, hvalue, hstands⟩
    obtain ⟨place, depth, htold⟩ := told_iff_utters.2 ⟨_, hstands, utters_empty_iff.2 rfl⟩
    have hline : (⟨place, depth, ""⟩ : Message).line = Message.blanks (2 + 2 * depth) :=
      (Message.line_eq_blanks_iff _).2 rfl
    exact ⟨name, hname, value, hvalue, ⟨place, depth, ""⟩, htold,
      line_mem_lines hname hvalue htold, hline⟩

/-- The last line is an indentation alone. -/
example : (ofMessages (.object [("log", .object [("message", .string "Clone"),
    ("protocol", .array [.string "Step", .string ""])])])).lines =
    ["Log:", "  Clone", "    Step", "    "] := by
  decide

/-- No entry in the tree of a value is blank exactly if no empty text stands as an entry in the
    value, and what is blank has nothing inside it.  A text has the tree of the object with this
    message, at any place of an entry or of a section, exactly if it is not empty.  The dump of
    a body shows a message by its indentation alone exactly if an empty text stands as an entry
    in one of its sections. -/
theorem noneBlank_iff_of_texts (value body : Json) (text : String) {context : Json.Context}
    (hcontext : context.AtEntry) :
    (NoneBlank (ofJson value) ↔ ¬ StandsIn (.string "") value) ∧
      (∀ node, Within node (ofJson value) → node.IsBlank → node.children = []) ∧
      (ofJson (context.fill (.string text)) = ofJson (context.fill (saying text)) ↔ text ≠ "") ∧
      (ofSection (some (context.fill (.string text))) =
          ofSection (some (context.fill (saying text))) ↔ text ≠ "") ∧
      (ShowsBlank body ↔ HoldsEmptyText body) := by
  have htext : Single (.string text) := .text text
  have hsaying : Single (saying text) := .object _
  have htrees : ofJson (context.fill (.string text)) = ofJson (context.fill (saying text)) ↔
      text ≠ "" :=
    (ofJson_fill_eq_iff htext hsaying hcontext).trans ofJson_string_eq_saying_iff
  have hsections : ofSection (some (context.fill (.string text))) =
      ofSection (some (context.fill (saying text))) ↔ text ≠ "" := by
    rw [ofSection_fill htext, ofSection_fill hsaying, ofProtocol_fill_eq_iff htext hsaying]
    exact htrees
  exact ⟨noneBlank_ofJson_iff, fun _ => children_of_isBlank, htrees, hsections, showsBlank_iff⟩

/-- The protocol of a clone: one step, and an empty text behind it. -/
def stepOfClone : Json.Context :=
  .member [("message", .string "Clone")] "protocol" (.item [] .gap [.string ""])

/-- The step can be told by a text or by an object; the empty text behind it is a blank entry. -/
theorem noneBlank_iff_of_texts_step : stepOfClone.AtEntry ∧
    ofJson (stepOfClone.fill (.string "Step")) = ofJson (stepOfClone.fill (saying "Step")) ∧
    ¬ NoneBlank (ofJson (stepOfClone.fill (.string "Step"))) ∧
    ShowsBlank (.object [("log", stepOfClone.fill (.string "Step"))]) := by
  have hcontext : stepOfClone.AtEntry := ⟨rfl, trivial⟩
  have hstands : StandsIn (.string "") (stepOfClone.fill (.string "Step")) :=
    .single (.listed rfl (.tail _ (.head _)))
  have hholds : HoldsEmptyText (.object [("log", stepOfClone.fill (.string "Step"))]) :=
    ⟨"log", .tail _ (.head _), _, rfl, hstands⟩
  obtain ⟨hnone, -, htrees, -, hshows⟩ := noneBlank_iff_of_texts
    (stepOfClone.fill (.string "Step")) (.object [("log", stepOfClone.fill (.string "Step"))])
    "Step" hcontext
  exact ⟨hcontext, htrees.2 (by decide), fun h => hnone.1 h hstands, hshows.2 hholds⟩

/-- An empty text is blank already where it is the whole value. -/
theorem not_noneBlank_of_ofJson : ¬ ∀ value, NoneBlank (ofJson value) :=
  fun h => h (.string "") _ .refl rfl

end MessageDump

end GitTransport
