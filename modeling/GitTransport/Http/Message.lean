/-
Requests to the service and its responses.

  A request names a resource relative to the root of the service; a response is
  kept whatever its status.  Names of headers are compared without regard to case.
-/

import GitTransport.Json.Parser
import GitTransport.Json.Printer

namespace GitTransport

/-- What a request does with a resource. -/
inductive Method where
  | get
  | post
  | delete
  deriving DecidableEq, Repr

/-- The word for a method on the wire. -/
def Method.text : Method → String
  | .get => "GET"
  | .post => "POST"
  | .delete => "DELETE"

/-- A request for a resource of the service. -/
structure Request where
  method : Method
  /-- The resource, relative to the root of the service. -/
  path : String
  /-- Names and values for the query. -/
  params : List (String × String) := []
  /-- The media type that is wanted. -/
  accept : Option String := none
  body : Option Json := none
  deriving DecidableEq, Repr

/-- A response that has been read to its end. -/
structure Response where
  status : Nat
  headers : List (String × String)
  body : String
  deriving DecidableEq, Repr

namespace Response

/-- A response whose body is the compact text of a value. -/
def ofJson (status : Nat) (value : Json) : Response :=
  ⟨status, [("Content-Type", "application/json")], value.compact⟩

/-- Whether the request succeeded. -/
def isSuccess (r : Response) : Bool := 200 ≤ r.status && r.status < 300

/-- The value of the first header with this name. -/
def header? (r : Response) (name : String) : Option String :=
  (r.headers.find? fun header => Text.sameLetters header.1 name).map (·.2)

/-- The type of the body, empty when there is no such header. -/
def contentType (r : Response) : String := (r.header? "Content-Type").getD ""

/-- Whether the body is declared to be JSON. -/
def isJson (r : Response) : Bool :=
  Text.occursIn "application/json".toList r.contentType.toList

/-- The body as JSON. -/
def json (r : Response) : Except Json.Fault Json := Json.parse r.body

end Response

/-- A response that reports a failure, with the request that it belongs to. -/
structure HttpFailure where
  method : Method
  path : String
  response : Response
  deriving DecidableEq, Repr

/-- The words for a failed request: its body follows on lines of its own. -/
def HttpFailure.message (f : HttpFailure) : String :=
  f.method.text ++ " " ++ f.path ++ " failed with HTTP " ++ toString f.response.status ++ "\n" ++
    f.response.body

end GitTransport
