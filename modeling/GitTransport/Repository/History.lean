/-
The history of a repository: its commits, and the change of the current commit that
a pull or a switch of branches makes.
-/

import GitTransport.Json.Basic

namespace GitTransport

/-- An entry of the history. -/
structure Commit where
  id : String
  author : String
  authorMail : String
  date : String
  message : String
  deriving DecidableEq, Repr

namespace Commit

/-- A text that may be missing; anything but a text in its place is refused. -/
def textOf? : Option Json → Option String
  | none => some ""
  | some (.string text) => some text
  | some _ => none

/-- The commit that a value is: an object of texts, or a list of at most five texts
    in the order of the fields.  What is missing is empty. -/
def ofJson? : Json → Option Commit
  | .object members => do
    let id ← textOf? (Fields.get? members "id")
    let author ← textOf? (Fields.get? members "author")
    let authorMail ← textOf? (Fields.get? members "authorMail")
    let date ← textOf? (Fields.get? members "date")
    let message ← textOf? (Fields.get? members "message")
    return ⟨id, author, authorMail, date, message⟩
  | .array items => do
    if 5 < items.length then failure
    let texts ← items.mapM Json.asString?
    let text (i : Nat) : String := texts.getD i ""
    return ⟨text 0, text 1, text 2, text 3, text 4⟩
  | _ => none

/-- A commit as an object. -/
def toJson (commit : Commit) : Json :=
  .object [("author", .string commit.author), ("authorMail", .string commit.authorMail),
    ("date", .string commit.date), ("id", .string commit.id), ("message", .string commit.message)]

/-- The commits that a value is; nothing is no commits. -/
def listOfJson : Option Json → Except Json.Fault (List Commit)
  | none | some .null => .ok []
  | some (.array items) =>
    match items.mapM ofJson? with
    | some commits => .ok commits
    | none => .error .unexpected
  | some _ => .error .unexpected

end Commit

/-- The current commit before and after an operation, and whatever else the service
    reports about it. -/
structure CommitTransition where
  fromCommit : Option String
  toCommit : Option String
  extra : Fields Json
  deriving DecidableEq, Repr

namespace CommitTransition

/-- A text that may be missing or nothing. -/
def optionalText? : Option Json → Option (Option String)
  | none | some .null => some none
  | some (.string text) => some (some text)
  | some _ => none

/-- The transition that an object describes. -/
def ofJson : Json → Except Json.Fault CommitTransition
  | .object members =>
    match optionalText? (Fields.get? members "fromCommit"),
        optionalText? (Fields.get? members "toCommit") with
    | some before, some after =>
      .ok ⟨before, after, Fields.erase (Fields.erase members "fromCommit") "toCommit"⟩
    | _, _ => .error .unexpected
  | _ => .error .unexpected

/-- A text or nothing. -/
def optionalJson : Option String → Json
  | some text => .string text
  | none => .null

/-- A transition as an object.  What else is reported goes over the two commits. -/
def toJson (t : CommitTransition) : Json :=
  .object (Fields.extend
    [("fromCommit", optionalJson t.fromCommit), ("toCommit", optionalJson t.toCommit)] t.extra)

end CommitTransition

end GitTransport
