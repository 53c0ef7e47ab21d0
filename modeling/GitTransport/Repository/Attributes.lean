/-
Reading what the service knows of a repository.

  An attribute is a member of the record.  The record is asked for when it is first
  needed and remembered from then on; `fetch` asks for it in any case.
-/

import GitTransport.Repository.Basic

namespace GitTransport.Proxy

/-- The record in the reply for a repository. -/
def recordOf (name : String) (reply : Json) : Except Error (Fields Json) :=
  match (reply.member? "result").bind Json.asObject? with
  | some record => .ok record
  | none => .error (.invalidResponse (.resultObject name))

/-- Ask the service for the record. -/
def readRecord : ProxyJob (Fields Json) := do
  let proxy ← ProxyJob.current
  let reply ← ProxyJob.request (Job.getJson (resource proxy.name none))
  ProxyJob.ofOutcome (recordOf proxy.name reply)

/-- Remember a record. -/
def remember (record : Fields Json) : ProxyJob Unit :=
  ProxyJob.update fun proxy => { proxy with snapshot := some record }

/-- Ask for the record again, whether it is known or not. -/
def fetch : ProxyJob Unit := do
  let record ← readRecord
  remember record

/-- The record, which is asked for when it is not known. -/
def loaded : ProxyJob (Fields Json) := do
  let proxy ← ProxyJob.current
  match proxy.snapshot with
  | some record => return record
  | none =>
    let record ← readRecord
    remember record
    return record

/-- A member of the record. -/
def item (name : String) : ProxyJob (Option Json) := do
  let record ← loaded
  return Fields.get? record name

/-- A member of the record, or another value when it is missing. -/
def itemOr (name : String) (default : Json) : ProxyJob Json := do
  let value ← item name
  return value.getD default

/-- The text of a member: a text stands for itself, nothing for no text, and any
    other value for its JSON. -/
def textOf : Json → Option String
  | .null => none
  | .string text => some text
  | other => some other.compact

/-- A member of the record as text. -/
def textItem (name : String) : ProxyJob (Option String) := do
  let value ← item name
  return value.bind textOf

/-- The identifier of the repository. -/
def rid : ProxyJob (Option String) := textItem "rid"

/-- The status of the repository. -/
def status : ProxyJob (Option String) := textItem "status"

/-- The virtual system that the repository belongs to. -/
def vsid : ProxyJob (Option String) := textItem "vsid"

/-- The address of the remote repository. -/
def url : ProxyJob (Option String) := textItem "url"

/-- The current branch. -/
def branch : ProxyJob (Option String) := textItem "branch"

/-- The current commit. -/
def head : ProxyJob (Option String) := textItem "currentCommit"

/-- The status of a repository that is registered and not cloned yet. -/
def statusCreated : String := "CREATED"

/-- Whether the repository has been cloned. -/
def isCloned : ProxyJob Bool := do
  let status ← status
  return status ≠ some statusCreated

/-! ## Configuration -/

/-- The entries of a member that holds a configuration. -/
def entriesOf (value : Option Json) : Except Error (List Configuration.Entry) :=
  (Configuration.ofJson value).mapError .json

/-- The configuration, read from the record when it is not known. -/
def configuration : ProxyJob (Dictionary String) := do
  let proxy ← ProxyJob.current
  match proxy.config with
  | some entries => return Configuration.toDictionary entries
  | none =>
    let value ← item "config"
    let entries ← ProxyJob.ofOutcome (entriesOf value)
    ProxyJob.update fun proxy => { proxy with config := some entries }
    return Configuration.toDictionary entries

/-- The entries that a change of the configuration starts from. -/
def knownEntries (proxy : Proxy) : List Configuration.Entry :=
  match proxy.config, proxy.snapshot with
  | some entries, _ => entries
  | none, some record => (configOfRecord record).getD []
  | none, none => []

/-- Give a key a value in what is known of the configuration. -/
def setKnown (key value : String) (proxy : Proxy) : Proxy :=
  { proxy with config := some (Configuration.setKey proxy.knownEntries key value) }

/-- The value in the reply for a key. -/
def valueOf (key name : String) (reply : Json) : Except Error String :=
  match ((reply.member? "result").bind (·.member? "value")).bind textOf with
  | some value => .ok value
  | none => .error (.invalidResponse (.configurationValue key name))

/-- The value of a key; the service is asked for it only when it is not known. -/
def getConfig (key : String) : ProxyJob String := do
  let known ← configuration
  match known.get? key with
  | some value => return value
  | none =>
    let proxy ← ProxyJob.current
    let reply ← ProxyJob.request (Job.getJson (resource proxy.name (some ("config/" ++ key))))
    let value ← ProxyJob.ofOutcome (valueOf key proxy.name reply)
    ProxyJob.update (setKnown key value)
    return value

/-- The body of a request that sets a key. -/
def keyBody (key value : String) : Json :=
  .object [("key", .string key), ("value", .string value)]

/-- Set a key, at the service and in what is known. -/
def setConfig (key value : String) : ProxyJob Unit := do
  let proxy ← ProxyJob.current
  let _ ← ProxyJob.request
    (Job.postJson (resource proxy.name (some "config")) (keyBody key value) none)
  ProxyJob.update (setKnown key value)

end GitTransport.Proxy
