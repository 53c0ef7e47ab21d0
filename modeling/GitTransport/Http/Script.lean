/-
A service that plays prepared replies.

  Each resource has a list of replies for each method; they are given in order, and
  the last one again and again.  A request without a reply gets a response that says
  so.
-/

import GitTransport.Client

namespace GitTransport

/-- What is prepared for a request. -/
inductive ScriptedReply where
  | response (response : Response)
  /-- No response, with the words for the reason. -/
  | silence (message : String)
  deriving DecidableEq, Repr

/-- A resource with the method that it is asked with. -/
abbrev Script.Key := Method × String

/-- The replies that are still to come. -/
structure Script where
  routes : List (Script.Key × List ScriptedReply)

namespace Script

/-- Add replies behind those of the same resource and method. -/
def insert (key : Key) (replies : List ScriptedReply) :
    List (Key × List ScriptedReply) → List (Key × List ScriptedReply)
  | [] => [(key, replies)]
  | (k, earlier) :: rest =>
    if k = key then (k, earlier ++ replies) :: rest else (k, earlier) :: insert key replies rest

/-- The script of a list of routes. -/
def ofRoutes (routes : List (Key × List ScriptedReply)) : Script :=
  ⟨routes.foldl (fun acc (key, replies) => insert key replies acc) []⟩

/-- Take the next reply of a resource and method; the last one stays. -/
def next (key : Key) :
    List (Key × List ScriptedReply) → Option ScriptedReply × List (Key × List ScriptedReply)
  | [] => (none, [])
  | (k, replies) :: rest =>
    if k = key then
      match replies with
      | [] => (none, (k, []) :: rest)
      | [last] => (some last, (k, [last]) :: rest)
      | reply :: more => (some reply, (k, more) :: rest)
    else
      let (reply, rest) := next key rest
      (reply, (k, replies) :: rest)

/-- The response when there is no reply. -/
def noRoute (request : Request) : Response :=
  ⟨404, [("Content-Type", "text/plain")],
    "no route for " ++ request.method.text ++ " " ++ request.path⟩

/-- The reply to a request. -/
def serve (script : Script) (request : Request) : Reply × Script :=
  let (reply, routes) := next (request.method, request.path) script.routes
  (match reply with
    | some (.response response) => .ok response
    | some (.silence message) => .error (.network request.path message)
    | none => .ok (noRoute request),
    ⟨routes⟩)

end Script

end GitTransport
