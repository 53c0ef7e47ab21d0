/-
Jobs: what a client of the service does, as exchanges of requests and replies.

  A reply is a response, whatever its status, or the reason why there was none.  A
  job ends with a value or an error.  The checked requests below fail on every
  status that does not report success, and keep the response in the failure.
-/

import GitTransport.Exchange
import GitTransport.Classifier

namespace GitTransport

/-- Why a request got no response. -/
inductive Undelivered where
  /-- The service could not be reached. -/
  | network (url message : String)
  /-- The request names a resource without an address. -/
  | address (fault : Url.Fault)
  deriving DecidableEq, Repr

/-- The error that a missing response is. -/
def Undelivered.toError : Undelivered → Error
  | .network url message => .network url message
  | .address fault => .address fault

/-- What comes back for a request. -/
abbrev Reply := Except Undelivered Response

/-- Computations that send requests. -/
abbrev Client := Exchange Request Reply

/-- Computations that send requests and can fail. -/
abbrev Job := ExceptT Error Client

namespace Job

variable {α : Type}

/-- The outcome of a request, an undelivered one being an error. -/
def outcome : Reply → Except Error Response
  | .ok response => .ok response
  | .error reason => .error reason.toError

/-- The outcome of a request whose status matters. -/
def checkedOutcome (request : Request) (reply : Reply) : Except Error Response :=
  match outcome reply with
  | .error error => .error error
  | .ok response =>
    if response.isSuccess then .ok response
    else .error (.http ⟨request.method, request.path, response⟩)

/-- Send a request and take the response whatever its status. -/
def send (request : Request) : Job Response :=
  ExceptT.mk (.ask request fun reply => .done (outcome reply))

/-- Send a request; a status that does not report success is an error. -/
def sendChecked (request : Request) : Job Response :=
  ExceptT.mk (.ask request fun reply => .done (checkedOutcome request reply))

/-- The body of a response as JSON. -/
def readJson (response : Response) : Except Error Json := response.json.mapError .json

/-- Send a request without a body. -/
def execute (method : Method) (path : String) (params : List (String × String)) : Job Response :=
  sendChecked { method, path, params }

/-- Ask for a resource as JSON. -/
def getJson (path : String) : Job Json := do
  let response ← sendChecked { method := .get, path, accept := some "application/json" }
  ExceptT.mk (.done (readJson response))

/-- Send a value to a resource. -/
def postJson (path : String) (body : Json) (accept : Option String) : Job Response :=
  sendChecked { method := .post, path, accept, body := some body }

/-- Classify the failures of a job. -/
def classified (classifier : Classifier) (job : Job α) : Job α :=
  ExceptT.mk (job.run >>= fun outcome => .done (outcome.mapError classifier.refine))

end Job

end GitTransport
