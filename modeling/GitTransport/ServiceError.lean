/-
Errors that the service reports in a JSON body.

  The service has no error codes; the kind of an error is found in its messages by
  a `Classifier`.  The body is kept, so that the messages can be shown later.
-/

import GitTransport.Http.Message

namespace GitTransport

/-- What went wrong, as far as it can be told. -/
inductive ServiceError.Kind where
  /-- Some request was refused. -/
  | request
  /-- A repository was to be registered that is registered already. -/
  | alreadyExists
  /-- The repository is not known. -/
  | notExists
  deriving DecidableEq, Repr

/-- An error with the JSON body that reported it. -/
structure ServiceError where
  kind : ServiceError.Kind
  messages : Json
  deriving DecidableEq, Repr

namespace ServiceError

/-- The text that stands for an unknown repository. -/
def unknownRepository : String := "Repository does not exist"

/-- A body whose exception says plainly that the repository is unknown. -/
def withPlainException : Json → Json
  | .object members => .object (Fields.insert "exception" (.string unknownRepository) members)
  | other => other

/-- The error for an unknown repository. -/
def notExists (messages : Json) : ServiceError := ⟨.notExists, withPlainException messages⟩

/-- The exception that the body names. -/
def exception? (e : ServiceError) : Option String :=
  (e.messages.member? "exception").bind Json.asString?

/-- The message of the first entry of a log that is a list. -/
def firstMessage? (log : Option Json) : Option String := do
  let entries ← log.bind Json.asArray?
  let message ← (← entries.head?).member? "message"
  message.asString?

/-- One line for the body: the exception, the first message of the error log or of
    the log, or the whole body. -/
def summary (messages : Json) : String :=
  let exception? := (messages.member? "exception").bind Json.asString?
  let message? := exception?
    |>.or (firstMessage? (messages.member? "errorLog"))
    |>.or (firstMessage? (messages.member? "log"))
  message?.getD messages.compact

/-- The words for an error. -/
def message (e : ServiceError) : String := "gCTS exception: " ++ summary e.messages

end ServiceError

end GitTransport
