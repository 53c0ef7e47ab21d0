/-
Operations that change a repository or read its history.

  An operation that changes the repository forgets what the service said before, and
  does so as soon as its request has been sent, whatever comes back.
-/

import GitTransport.Repository.Attributes
import GitTransport.Repository.History

namespace GitTransport.Proxy

/-- Clone the remote repository into the system. -/
def clone : ProxyJob Response := do
  let proxy ← ProxyJob.current
  ProxyJob.thenWipe (ProxyJob.request
    (Job.execute .post (resource proxy.name (some "clone")) []))

/-- Delete the repository from the system. -/
def delete : ProxyJob Response := do
  let proxy ← ProxyJob.current
  ProxyJob.thenWipe (ProxyJob.request (Job.execute .delete (resource proxy.name none) []))

/-- The transition in the reply to a switch. -/
def switchOf (name : String) (reply : Json) : Except Error CommitTransition :=
  match reply.member? "result" with
  | some value => (CommitTransition.ofJson value).mapError .json
  | none => .error (.invalidResponse (.checkoutResult name))

/-- The branch that a switch starts from. -/
def currentBranch : ProxyJob String := do
  let branch ← branch
  let proxy ← ProxyJob.current
  ProxyJob.ofOutcome (match branch with
    | some name => .ok name
    | none => .error (.invalidResponse (.currentBranch proxy.name)))

/-- Switch to another branch.  The service is asked for it at the current one. -/
def checkout (branch : String) : ProxyJob CommitTransition := do
  let current ← currentBranch
  let proxy ← ProxyJob.current
  let response ← ProxyJob.thenWipe (ProxyJob.request
    (Job.execute .get (resource proxy.name (some ("branches/" ++ current ++ "/switch")))
      [("branch", branch)]))
  let reply ← ProxyJob.ofOutcome (Job.readJson response)
  ProxyJob.ofOutcome (switchOf proxy.name reply)

/-- The commits of the repository, the newest first. -/
def log : ProxyJob (List Commit) := do
  let proxy ← ProxyJob.current
  let reply ← ProxyJob.request (Job.getJson (resource proxy.name (some "getCommit")))
  ProxyJob.ofOutcome ((Commit.listOfJson (reply.member? "commits")).mapError .json)

/-- Bring the newest commit of the remote repository into the system. -/
def pull : ProxyJob CommitTransition := do
  let proxy ← ProxyJob.current
  let reply ← ProxyJob.thenWipe (ProxyJob.request
    (Job.getJson (resource proxy.name (some "pullByCommit"))))
  ProxyJob.ofOutcome ((CommitTransition.ofJson reply).mapError .json)

/-- The body of a request that commits a transport; an empty description is left
    out. -/
def commitBody (transport message : String) (description : Option String) : Json :=
  let transportObject : Json :=
    .object [("object", .string transport), ("type", .string "TRANSPORT")]
  let described : Fields Json :=
    match description.filter (!·.isEmpty) with
    | some text => [("description", .string text)]
    | none => []
  .object (("autoPush", .string "true") :: described ++
    [("message", .string message), ("objects", .array [transportObject])])

/-- Turn a transport into a commit. -/
def commit (transport message : String) (description : Option String) : ProxyJob Response := do
  let proxy ← ProxyJob.current
  ProxyJob.thenWipe (ProxyJob.request
    (Job.postJson (resource proxy.name (some "commit"))
      (commitBody transport message description) none))

/-- Give the repository another remote address.  The record is read afresh, and
    nothing is sent when it has that address already. -/
def setUrl (url : String) : ProxyJob (Option Response) := do
  let record ← readRecord
  if Fields.get? record "url" = some (.string url) then return none
  let proxy ← ProxyJob.current
  let body : Json := .object (Fields.insert "url" (.string url) record)
  let response ← ProxyJob.thenWipe (ProxyJob.request
    (Job.postJson (resource proxy.name none) body none))
  return some response

end GitTransport.Proxy
