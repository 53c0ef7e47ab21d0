/-
Telling the errors of the service apart by the texts of their messages.

  A repository exists already when the first message of the log ends with a known
  text, and does not exist when the exception is a known text; the first rule wins.
  Only a failure whose body is declared to be JSON, and is JSON, is an error of the
  service.
-/

import GitTransport.Error

namespace GitTransport

/-- The texts by which errors are told apart. -/
structure Classifier where
  /-- How the first message of the log ends when a repository exists already. -/
  existsSuffixes : List String
  /-- The exceptions that stand for an unknown repository. -/
  unknownExceptions : List String
  deriving DecidableEq, Repr

namespace Classifier

/-- The classifier that tells nothing apart. -/
def empty : Classifier := ⟨[], []⟩

/-- The texts that the service is known to use. -/
def standard : Classifier :=
  ⟨["Error action CREATE_REPOSITORY Repository already exists"],
    ["No relation between system and repository"]⟩

/-- Also take a message with this ending for "exists already". -/
def withSuffix (c : Classifier) (suffix : String) : Classifier :=
  { c with existsSuffixes := c.existsSuffixes ++ [suffix] }

/-- Also take this exception for "does not exist". -/
def withException (c : Classifier) (text : String) : Classifier :=
  { c with unknownExceptions := c.unknownExceptions ++ [text] }

/-- Whether a text ends with another one. -/
def endsWith (text suffix : String) : Bool := suffix.toList.isSuffixOf text.toList

/-- Whether the messages say that a repository exists already. -/
def saysExists (c : Classifier) (messages : Json) : Bool :=
  match ServiceError.firstMessage? (messages.member? "log") with
  | some message => c.existsSuffixes.any (endsWith message)
  | none => false

/-- Whether the messages say that a repository is unknown. -/
def saysUnknown (c : Classifier) (messages : Json) : Bool :=
  match (messages.member? "exception").bind Json.asString? with
  | some exception => c.unknownExceptions.contains exception
  | none => false

/-- The error that the messages of a JSON body report. -/
def classifyMessages (c : Classifier) (messages : Json) : ServiceError :=
  if c.saysExists messages then ⟨.alreadyExists, messages⟩
  else if c.saysUnknown messages then .notExists messages
  else ⟨.request, messages⟩

/-- The error that a failed request stands for. -/
def classify (c : Classifier) (failure : HttpFailure) : Error :=
  if failure.response.isJson then
    match failure.response.json with
    | .ok messages => .service (c.classifyMessages messages)
    | .error _ => .http failure
  else .http failure

/-- Classify the failures of requests and leave every other error as it is. -/
def refine (c : Classifier) : Error → Error
  | .http failure => c.classify failure
  | other => other

end Classifier

end GitTransport
