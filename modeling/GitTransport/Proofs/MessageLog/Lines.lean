/-
The messages in a log, and the lines that show them.

  A message is a text that stands as an entry, or the message of an object that is not
  empty; it is reached through the items of lists and the protocols of objects (`Told`).
  The way to it is its place, and places are ordered like words: an entry before what is
  inside it, and an item before the next one.  Its depth is the number of objects on the
  way that have a message themselves.

  `found` collects the messages of a value.  These are the ones that are told
  (`mem_found_iff`), each once and in the order of their places (`pairwise_found`), and the
  lines of an entry show them (`lines_ofJson`).  So the lines of a body are its sections,
  each with its messages below its heading (`lines_of_sections`).
-/

import GitTransport.MessageLog
import GitTransport.Proofs.Fields

namespace GitTransport

namespace MessageNode

/-! ## Messages and their places -/

/-- The object has this message, and it is not empty. -/
def Carries (members : Fields Json) (text : String) : Prop :=
  Fields.get? members "message" = some (.string text) ∧ text ≠ ""

/-- `Told value place depth text`: the message `text` is reached in `value`.  The place has
    the number of the item for each list on the way, and a zero for each protocol. -/
inductive Told : Json → List Nat → Nat → String → Prop where
  | text (text : String) : Told (.string text) [] 0 text
  | own {members : Fields Json} {text : String} : Carries members text →
      Told (.object members) [] 0 text
  | item {items : List Json} {number depth : Nat} {value : Json} {place : List Nat}
      {text : String} : items[number]? = some value → Told value place depth text →
      Told (.array items) (number :: place) depth text
  /-- What is in the protocol of an object with a message is one level further in. -/
  | inside {members : Fields Json} {own text : String} {value : Json} {place : List Nat}
      {depth : Nat} : Carries members own → Fields.get? members "protocol" = some value →
      Told value place depth text → Told (.object members) (0 :: place) (depth + 1) text
  /-- An object without a message makes no difference to the depth. -/
  | through {members : Fields Json} {text : String} {value : Json} {place : List Nat}
      {depth : Nat} : (∀ own, ¬ Carries members own) →
      Fields.get? members "protocol" = some value →
      Told value place depth text → Told (.object members) (0 :: place) depth text

/-- A message with its place and its depth. -/
structure Message where
  place : List Nat
  depth : Nat
  text : String

namespace Message

/-- The message as seen from outside: one more step to it, and some more levels around it. -/
def under (step levels : Nat) (message : Message) : Message :=
  ⟨step :: message.place, message.depth + levels, message.text⟩

/-- A number of blanks. -/
def blanks (count : Nat) : String := String.ofList (List.replicate count ' ')

/-- The line of a message: its text behind two blanks, and two more for each level. -/
def line (message : Message) : String := blanks (2 + 2 * message.depth) ++ message.text

/-- The line of a message inside an entry with this indentation. -/
def lineFrom (indent : String) (message : Message) : String :=
  indent ++ blanks (1 + 2 * message.depth) ++ message.text

theorem blanks_add (a b : Nat) : blanks (a + b) = blanks a ++ blanks b := by
  rw [blanks, ← List.replicate_append_replicate, String.ofList_append]
  rfl

theorem lineFrom_under_one (indent : String) (step : Nat) (message : Message) :
    (message.under step 1).lineFrom indent = message.lineFrom (indent ++ "  ") := by
  have hblanks : blanks (1 + 2 * (message.depth + 1)) =
      "  " ++ blanks (1 + 2 * message.depth) := by
    rw [show 1 + 2 * (message.depth + 1) = 2 + (1 + 2 * message.depth) by omega, blanks_add]
    rfl
  rw [lineFrom, lineFrom, under, hblanks, String.append_assoc, String.append_assoc,
    String.append_assoc, String.append_assoc]

theorem lineFrom_blank (message : Message) : message.lineFrom " " = message.line := by
  have hblanks : blanks (2 + 2 * message.depth) = " " ++ blanks (1 + 2 * message.depth) := by
    rw [show 2 + 2 * message.depth = 1 + (1 + 2 * message.depth) by omega, blanks_add]
    rfl
  rw [lineFrom, line, hblanks]

end Message

open Message

mutual

/-- The messages of a value, in the order of their places. -/
def found : Json → List Message
  | .string text => [⟨[], 0, text⟩]
  | .array items => foundFrom 0 items
  | .object members =>
    match ownMessage members with
    | some text => ⟨[], 0, text⟩ :: (foundInProtocol members).map (under 0 1)
    | none => (foundInProtocol members).map (under 0 0)
  | _ => []

/-- The messages of items that are numbered from `number` on. -/
def foundFrom (number : Nat) : List Json → List Message
  | [] => []
  | item :: rest => (found item).map (under number 0) ++ foundFrom (number + 1) rest

/-- The messages in the protocol of an object. -/
def foundInProtocol : List (String × Json) → List Message
  | [] => []
  | (name, value) :: rest => if name = "protocol" then found value else foundInProtocol rest

end

/-! ## Objects -/

theorem ownMessage_eq_some_iff {members : Fields Json} {text : String} :
    ownMessage members = some text ↔ Carries members text := by
  rw [ownMessage, Option.filter_eq_some_iff, Carries]
  cases hmessage : Fields.get? members "message" with
  | none => simp
  | some value =>
    cases value with
    | string own =>
      simp only [Option.bind_some, Json.asString?, Option.some.injEq, Json.string.injEq]
      refine and_congr_right fun heq => ?_
      simp
    | _ => simp [Json.asString?]

theorem ownMessage_eq_none_iff {members : Fields Json} :
    ownMessage members = none ↔ ∀ own, ¬ Carries members own := by
  rw [Option.eq_none_iff_forall_ne_some]
  exact forall_congr' fun own => not_congr ownMessage_eq_some_iff

/-- A list that is made of the first member named `protocol` is made of what is found there. -/
theorem eq_getD_of_protocol {β : Type} {ofValue : Json → List β} {ofMembers : Fields Json → List β}
    (hnil : ofMembers [] = [])
    (hcons : ∀ name value rest, ofMembers ((name, value) :: rest) =
      if name = "protocol" then ofValue value else ofMembers rest) (members : Fields Json) :
    ofMembers members = ((Fields.get? members "protocol").map ofValue).getD [] := by
  induction members with
  | nil => exact hnil
  | cons pair rest ih =>
    obtain ⟨name, value⟩ := pair
    rw [hcons, Fields.get?_cons, ih]
    by_cases h : name = "protocol"
    · rw [if_pos h, if_pos h]
      rfl
    · rw [if_neg h, if_neg h]

theorem foundInProtocol_eq (members : Fields Json) :
    foundInProtocol members = ((Fields.get? members "protocol").map found).getD [] :=
  eq_getD_of_protocol rfl (fun _ _ _ => rfl) members

theorem inProtocol_eq (members : Fields Json) :
    inProtocol members = ((Fields.get? members "protocol").map ofProtocol).getD [] :=
  eq_getD_of_protocol rfl (fun _ _ _ => rfl) members

/-! ## The lines show what is found -/

theorem listLines_ofItems (indent : String) (items : List Json) :
    listLines indent (ofItems items) = items.flatMap fun item => lines indent (ofJson item) := by
  induction items with
  | nil => rfl
  | cons item rest ih => rw [ofItems, listLines, ih, List.flatMap_cons]

/-- A protocol has the lines of the entry that it would be itself. -/
theorem listLines_ofProtocol (indent : String) (value : Json) :
    listLines indent (ofProtocol value) = lines indent (ofJson value) := by
  cases value with
  | array items => rw [ofProtocol, ofJson, lines]
  | object members => rw [ofProtocol, ofJson, listLines, listLines, List.append_nil]
  | string text => rw [ofProtocol, ofJson, listLines, listLines, List.append_nil]
  | _ => rfl

theorem map_foundFrom (indent : String) (number : Nat) (items : List Json) :
    (foundFrom number items).map (lineFrom indent) =
      items.flatMap fun item => (found item).map (lineFrom indent) := by
  induction items generalizing number with
  | nil => rfl
  | cons item rest ih =>
    rw [foundFrom, List.map_append, ih, List.map_map, List.flatMap_cons]
    rfl

/-- The lines of an entry are those of the messages in it. -/
theorem lines_ofJson (value : Json) (indent : String) :
    lines indent (ofJson value) = (found value).map (lineFrom indent) := by
  induction value using Json.induction generalizing indent with
  | null => rfl
  | bool value => rfl
  | number value => rfl
  | string text => rfl
  | array items ih =>
    rw [ofJson, lines, listLines_ofItems, found, map_foundFrom]
    rw [List.flatMap_def, List.flatMap_def]
    exact congrArg List.flatten (List.map_congr_left fun item hitem => ih item hitem indent)
  | object members ih =>
    have hprotocol : ∀ indent, listLines indent (inProtocol members) =
        (foundInProtocol members).map (lineFrom indent) := by
      intro indent
      rw [inProtocol_eq, foundInProtocol_eq]
      cases hvalue : Fields.get? members "protocol" with
      | none => rfl
      | some value =>
        have hlines := ih _ (Fields.mem_of_get? hvalue) indent
        exact (listLines_ofProtocol indent value).trans hlines
    rw [ofJson, found]
    cases ownMessage members with
    | some text =>
      rw [lines, hprotocol, List.map_cons, List.map_map]
      congr 1
      exact List.map_congr_left fun message _ => (lineFrom_under_one indent 0 message).symm
    | none =>
      rw [lines, hprotocol, List.map_map]
      rfl

/-! ## What is found is what is told -/

theorem mem_foundFrom_iff {number : Nat} {items : List Json} {message : Message} :
    message ∈ foundFrom number items ↔ ∃ index item, items[index]? = some item ∧
      ∃ inner ∈ found item, message = inner.under (number + index) 0 := by
  induction items generalizing number with
  | nil => simp [foundFrom]
  | cons item rest ih =>
    rw [foundFrom, List.mem_append, List.mem_map, ih]
    constructor
    · rintro (⟨inner, hinner, rfl⟩ | ⟨index, value, hvalue, inner, hinner, rfl⟩)
      · exact ⟨0, item, rfl, inner, hinner, rfl⟩
      · exact ⟨index + 1, value, hvalue, inner, hinner, by rw [Nat.add_right_comm, Nat.add_assoc]⟩
    · rintro ⟨index, value, hvalue, inner, hinner, rfl⟩
      cases index with
      | zero =>
        cases hvalue
        exact .inl ⟨inner, hinner, rfl⟩
      | succ index =>
        refine .inr ⟨index, value, hvalue, inner, hinner, ?_⟩
        rw [Nat.add_right_comm, Nat.add_assoc]

/-- In an object with a message, this message is told and what the protocol tells. -/
theorem told_object_iff_of_carries {members : Fields Json} {own : String} {message : Message}
    (hcarries : Carries members own) :
    Told (.object members) message.place message.depth message.text ↔
      message = ⟨[], 0, own⟩ ∨ ∃ inner : Message,
        (∃ value, Fields.get? members "protocol" = some value ∧
          Told value inner.place inner.depth inner.text) ∧ inner.under 0 1 = message := by
  obtain ⟨place, depth, text⟩ := message
  constructor
  · intro h
    cases h with
    | own hother =>
      -- an object has one message
      have hsame := ownMessage_eq_some_iff.2 hcarries
      rw [ownMessage_eq_some_iff.2 hother] at hsame
      cases hsame
      exact .inl rfl
    | @inside _ _ _ value place depth _ hvalue htold =>
      exact .inr ⟨⟨place, depth, text⟩, ⟨value, hvalue, htold⟩, rfl⟩
    | through hnone _ _ => exact absurd hcarries (hnone own)
  · rintro (heq | ⟨inner, ⟨value, hvalue, htold⟩, heq⟩)
    · cases heq
      exact .own hcarries
    · cases heq
      exact .inside hcarries hvalue htold

/-- In an object without a message, only what the protocol tells is told. -/
theorem told_object_iff_of_not_carries {members : Fields Json} {message : Message}
    (hnone : ∀ own, ¬ Carries members own) :
    Told (.object members) message.place message.depth message.text ↔ ∃ inner : Message,
      (∃ value, Fields.get? members "protocol" = some value ∧
        Told value inner.place inner.depth inner.text) ∧ inner.under 0 0 = message := by
  obtain ⟨place, depth, text⟩ := message
  constructor
  · intro h
    cases h with
    | own hother => exact absurd hother (hnone _)
    | inside hother _ _ => exact absurd hother (hnone _)
    | @through _ _ value place _ _ hvalue htold =>
      exact ⟨⟨place, depth, text⟩, ⟨value, hvalue, htold⟩, rfl⟩
  · rintro ⟨inner, ⟨value, hvalue, htold⟩, heq⟩
    cases heq
    exact .through hnone hvalue htold

/-- The messages that are found are those that are told. -/
theorem mem_found_iff {value : Json} {message : Message} :
    message ∈ found value ↔ Told value message.place message.depth message.text := by
  induction value using Json.induction generalizing message with
  | null => exact iff_of_false nofun nofun
  | bool value => exact iff_of_false nofun nofun
  | number value => exact iff_of_false nofun nofun
  | string text =>
    rw [found, List.mem_singleton]
    constructor
    · rintro rfl
      exact .text text
    · obtain ⟨place, depth, own⟩ := message
      rintro ⟨⟩
      rfl
  | array items ih =>
    rw [found, mem_foundFrom_iff]
    constructor
    · rintro ⟨index, item, hitem, inner, hinner, rfl⟩
      have htold := (ih item (List.mem_of_getElem? hitem)).1 hinner
      rw [Nat.zero_add]
      exact .item hitem htold
    · obtain ⟨place, depth, text⟩ := message
      rintro (_ | _ | @⟨_, number, _, item, inner, _, hitem, htold⟩)
      have hinner : (⟨inner, depth, text⟩ : Message) ∈ found item :=
        (ih item (List.mem_of_getElem? hitem)).2 htold
      refine ⟨number, item, hitem, _, hinner, ?_⟩
      rw [Nat.zero_add]
      rfl
  | object members ih =>
    have hprotocol : ∀ {inner : Message}, inner ∈ foundInProtocol members ↔
        ∃ value, Fields.get? members "protocol" = some value ∧
          Told value inner.place inner.depth inner.text := by
      intro inner
      rw [foundInProtocol_eq]
      cases hvalue : Fields.get? members "protocol" with
      | none => simp
      | some value => simpa using ih _ (Fields.mem_of_get? hvalue)
    rw [found]
    cases hown : ownMessage members with
    | some own =>
      simp only [List.mem_cons, List.mem_map, hprotocol]
      exact (told_object_iff_of_carries (ownMessage_eq_some_iff.1 hown)).symm
    | none =>
      simp only [List.mem_map, hprotocol]
      exact (told_object_iff_of_not_carries (ownMessage_eq_none_iff.1 hown)).symm

/-! ## Each is found once, and in order -/

/-- Steps in front of all places keep their order. -/
theorem pairwise_under {messages : List Message} (h : messages.Pairwise (·.place < ·.place))
    (step levels : Nat) : (messages.map (under step levels)).Pairwise (·.place < ·.place) := by
  rw [List.pairwise_map]
  exact h.imp fun hlt => List.cons_lt_cons_self.2 hlt

theorem pairwise_foundFrom {items : List Json}
    (h : ∀ item ∈ items, (found item).Pairwise (·.place < ·.place)) (number : Nat) :
    (foundFrom number items).Pairwise (·.place < ·.place) := by
  induction items generalizing number with
  | nil => exact .nil
  | cons item rest ih =>
    obtain ⟨hitem, hrest⟩ := List.forall_mem_cons.1 h
    rw [foundFrom, List.pairwise_append]
    refine ⟨pairwise_under hitem number 0, ih hrest (number + 1), ?_⟩
    intro first hfirst later hlater
    obtain ⟨inner, -, rfl⟩ := List.mem_map.1 hfirst
    obtain ⟨index, value, -, inner', -, rfl⟩ := mem_foundFrom_iff.1 hlater
    -- the first step already tells the items apart
    have hlt : number < number + 1 + index := by omega
    exact List.cons_lt_cons_iff.2 (.inl hlt)

/-- The messages are found in the order of their places, each of them once. -/
theorem pairwise_found (value : Json) : (found value).Pairwise (·.place < ·.place) := by
  induction value using Json.induction with
  | null => exact .nil
  | bool value => exact .nil
  | number value => exact .nil
  | string text => exact List.pairwise_singleton _ _
  | array items ih => exact pairwise_foundFrom ih 0
  | object members ih =>
    have hprotocol : (foundInProtocol members).Pairwise (·.place < ·.place) := by
      rw [foundInProtocol_eq]
      cases hvalue : Fields.get? members "protocol" with
      | none => exact .nil
      | some value => exact ih _ (Fields.mem_of_get? hvalue)
    rw [found]
    cases ownMessage members with
    | none => exact pairwise_under hprotocol 0 0
    | some own =>
      refine List.pairwise_cons.2 ⟨fun later hlater => ?_, pairwise_under hprotocol 0 1⟩
      obtain ⟨inner, -, rfl⟩ := List.mem_map.1 hlater
      exact List.nil_lt_cons 0 inner.place

/-! ## Sections -/

/-- The messages of a section of a body. -/
def foundIn : Option Json → List Message
  | some value => found value
  | none => []

/-- A section has the lines of the entry that its value would be itself. -/
theorem listLines_ofSection_some (indent : String) (value : Json) :
    listLines indent (ofSection (some value)) = lines indent (ofJson value) := by
  cases value with
  | array items => rw [ofSection, ofJson, lines]
  | null => rfl
  | _ => exact List.append_nil _

theorem listLines_ofSection (section? : Option Json) :
    listLines " " (ofSection section?) = (foundIn section?).map line := by
  cases section? with
  | none => rfl
  | some value =>
    rw [listLines_ofSection_some, lines_ofJson, foundIn]
    exact List.map_congr_left fun message _ => lineFrom_blank message

/-- The messages of a section: just those that are told in its value, each once and in the
    order of their places. -/
structure Lists (section? : Option Json) (messages : List Message) : Prop where
  told : ∀ message, message ∈ messages ↔
    ∃ value, section? = some value ∧ Told value message.place message.depth message.text
  ordered : messages.Pairwise (·.place < ·.place)

theorem lists_foundIn (section? : Option Json) : Lists section? (foundIn section?) := by
  cases section? with
  | none => exact ⟨fun message => by simp [foundIn], .nil⟩
  | some value =>
    refine ⟨fun message => ?_, pairwise_found value⟩
    simpa [foundIn] using mem_found_iff

end MessageNode

namespace MessageDump

open MessageNode

/-- The heading of a section; there is none when the section is not there, is null or is an
    empty list. -/
def headingOf (title : String) : Option Json → List String
  | none | some .null | some (.array []) => []
  | some _ => [title]

/-- The lines of a section are its heading and those of its messages. -/
theorem logLines_ofSection (title : String) (section? : Option Json) :
    logLines title (ofSection section?) =
      headingOf title section? ++ (foundIn section?).map Message.line := by
  rw [logLines, listLines_ofSection]
  cases section? with
  | none => rfl
  | some value =>
    cases value with
    | null => rfl
    | array items =>
      cases items with
      | nil => rfl
      | cons item rest => rfl
    | _ => rfl

/-- The lines of a body are the headings of its sections, each with the messages of the section
    below it, and the exception; a body that has nothing of this is shown as it is. -/
theorem lines_of_sections (body : Json) : ∃ errors logged : List Message,
    Lists (body.member? "errorLog") errors ∧ Lists (body.member? "log") logged ∧
      ∃ shown, shown =
          headingOf "Error Log:" (body.member? "errorLog") ++ errors.map Message.line ++
          (headingOf "Log:" (body.member? "log") ++ logged.map Message.line) ++
          exceptionLines (exceptionOf (body.member? "exception")) ∧
        (ofMessages body).lines = if shown.isEmpty then [body.compact] else shown := by
  refine ⟨foundIn (body.member? "errorLog"), foundIn (body.member? "log"), lists_foundIn _,
    lists_foundIn _, (ofMessages body).sectionLines, ?_, rfl⟩
  rw [sectionLines, ofMessages, logLines_ofSection, logLines_ofSection]

end MessageDump

end GitTransport
