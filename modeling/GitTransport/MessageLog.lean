/-
The messages of an error body as trees, and the trees as lines.

  An entry of a log is a text, or an object with a message and a protocol, which is
  again an entry or a list of entries.  Shapes that are none of these contribute
  nothing.  The lines of a body are a heading for each section that has entries, its
  messages below it, indented by the entries around them; a body without sections is
  shown as it is.
-/

import GitTransport.Json.Printer

namespace GitTransport

/-- An entry of a log: its own message and the entries inside it. -/
inductive MessageNode where
  | node (message : Option String) (children : List MessageNode)
  deriving Repr, Inhabited

namespace MessageNode

/-- The message of an entry. -/
def message? : MessageNode → Option String
  | .node message _ => message

/-- The entries inside an entry. -/
def children : MessageNode → List MessageNode
  | .node _ children => children

/-- The message that an object carries itself; an empty one does not count. -/
def ownMessage (members : Fields Json) : Option String :=
  ((Fields.get? members "message").bind Json.asString?).filter (!·.isEmpty)

mutual

/-- The entry that a value is. -/
def ofJson : Json → MessageNode
  | .string text => .node (some text) []
  | .object members => .node (ownMessage members) (inProtocol members)
  | .array items => .node none (ofItems items)
  | _ => .node none []

/-- The entries that the items of a list are. -/
def ofItems : List Json → List MessageNode
  | [] => []
  | item :: rest => ofJson item :: ofItems rest

/-- The entries in the protocol of an object. -/
def inProtocol : List (String × Json) → List MessageNode
  | [] => []
  | (name, value) :: rest => if name = "protocol" then ofProtocol value else inProtocol rest

/-- The entries that the value of a protocol is: the items of a list, or one. -/
def ofProtocol : Json → List MessageNode
  | .array items => ofItems items
  | .object members => [.node (ownMessage members) (inProtocol members)]
  | .string text => [.node (some text) []]
  | _ => []

end

/-- The entries of a section. -/
def ofSection : Option Json → List MessageNode
  | some (.array items) => ofItems items
  | some .null | none => []
  | some value => [ofJson value]

mutual

/-- The lines of an entry: its message behind the indentation, and the entries
    inside it two columns further. -/
def lines (indent : String) : MessageNode → List String
  | .node (some message) children =>
    (indent ++ " " ++ message) :: listLines (indent ++ "  ") children
  | .node none children => listLines indent children

/-- The lines of several entries. -/
def listLines (indent : String) : List MessageNode → List String
  | [] => []
  | entry :: rest => lines indent entry ++ listLines indent rest

end

end MessageNode

/-- The printable parts of an error body. -/
structure MessageDump where
  errorLog : List MessageNode
  log : List MessageNode
  exception : Option String
  /-- The body itself, for when there is nothing else to show. -/
  body : Json

namespace MessageDump

/-- The exception that a body shows; a value that is no text is shown as JSON. -/
def exceptionOf : Option Json → Option String
  | some (.string text) => if text.isEmpty then none else some text
  | some .null | none => none
  | some value => some value.compact

/-- The printable parts of a body. -/
def ofMessages (messages : Json) : MessageDump where
  errorLog := MessageNode.ofSection (messages.member? "errorLog")
  log := MessageNode.ofSection (messages.member? "log")
  exception := exceptionOf (messages.member? "exception")
  body := messages

/-- The headings of the sections. -/
def headings : List String := ["Error Log:", "Log:", "Exception:"]

/-- The lines of a section that holds log entries; there are none without entries. -/
def logLines (heading : String) (entries : List MessageNode) : List String :=
  if entries.isEmpty then [] else heading :: MessageNode.listLines " " entries

/-- The lines of the exception. -/
def exceptionLines : Option String → List String
  | some text => ["Exception:", "  " ++ text]
  | none => []

/-- The lines of the sections. -/
def sectionLines (dump : MessageDump) : List String :=
  logLines "Error Log:" dump.errorLog ++ logLines "Log:" dump.log ++ exceptionLines dump.exception

/-- The lines of a body. -/
def lines (dump : MessageDump) : List String :=
  if dump.sectionLines.isEmpty then [dump.body.compact] else dump.sectionLines

/-- The lines as one text. -/
def text (dump : MessageDump) : String := String.intercalate "\n" dump.lines

end MessageDump

end GitTransport
