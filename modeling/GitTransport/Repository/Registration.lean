/-
Registering a repository.

  The record that is sent is the known one with the fields of the registration over
  it; a configuration that is given goes over the configuration of the record.  What
  the service answers is put over what is known.
-/

import GitTransport.Repository.Attributes
import GitTransport.Text.Basic

namespace GitTransport

/-- What a repository is used for. -/
inductive Role where
  | source
  | target
  deriving DecidableEq, Repr

/-- The host of the remote repository. -/
inductive RepositoryType where
  | github
  | git
  deriving DecidableEq, Repr

/-- A word that is none of the known ones. -/
inductive UnknownWord where
  | role (text : String)
  | repositoryType (text : String)
  deriving DecidableEq, Repr

/-- The words for an unknown word. -/
def UnknownWord.message : UnknownWord → String
  | .role text => "unknown role '" ++ text ++ "' (expected SOURCE or TARGET)"
  | .repositoryType text => "unknown type '" ++ text ++ "' (expected GITHUB or GIT)"

/-- The word for a role. -/
def Role.text : Role → String
  | .source => "SOURCE"
  | .target => "TARGET"

/-- The role that a word means, without regard to case. -/
def Role.ofText (text : String) : Except UnknownWord Role :=
  if Text.sameLetters text "SOURCE" then .ok .source
  else if Text.sameLetters text "TARGET" then .ok .target
  else .error (.role text)

/-- The word for a type. -/
def RepositoryType.text : RepositoryType → String
  | .github => "GITHUB"
  | .git => "GIT"

/-- The type that a word means, without regard to case. -/
def RepositoryType.ofText (text : String) : Except UnknownWord RepositoryType :=
  if Text.sameLetters text "GITHUB" then .ok .github
  else if Text.sameLetters text "GIT" then .ok .git
  else .error (.repositoryType text)

/-- What a registration says of a repository. -/
structure Registration where
  url : String
  vsid : String
  config : Option (Dictionary String) := none
  role : Role := .source
  type : RepositoryType := .github

namespace Registration

/-- The fields that every registration sets. -/
def fields (r : Registration) (name : String) : Fields Json :=
  [("connection", .string "ssl"), ("name", .string name), ("rid", .string name),
    ("role", .string r.role.text), ("type", .string r.type.text), ("url", .string r.url),
    ("vsid", .string r.vsid)]

/-- The configuration that a registration sends: the given one over the one of the
    record.  An empty one is as good as none. -/
def configured (r : Registration) (record : Fields Json) : Except Error (Fields Json) :=
  match r.config with
  | none => .ok record
  | some config =>
    if config.isEmpty then .ok record
    else
      (Proxy.entriesOf (Fields.get? record "config")).map fun entries =>
        let merged := (Configuration.toDictionary entries).extend config
        Fields.insert "config" (Configuration.toJson (Configuration.ofDictionary merged)) record

/-- The record that a registration sends. -/
def record (r : Registration) (proxy : Proxy) : Except Error (Fields Json) :=
  r.configured (Fields.extend (proxy.snapshot.getD []) (r.fields proxy.name))

/-- The request of a registration. -/
def request (name : String) (record : Fields Json) : Request :=
  { method := .post, path := "repository", accept := some "application/json",
    body := some (.object [("data", .object record), ("repository", .string name)]) }

/-- The record in the reply to a registration. -/
def recordOf (name : String) (reply : Json) : Except Error (Fields Json) :=
  match (reply.member? "repository").bind Json.asObject? with
  | some record => .ok record
  | none => .error (.invalidResponse (.repositoryObject name))

/-- What is known after a registration: the record of the reply over the one before;
    the configuration is to be read again. -/
def registered (record : Fields Json) (proxy : Proxy) : Proxy :=
  { proxy with
    snapshot := some ((proxy.snapshot.map (Fields.extend · record)).getD record)
    config := none }

end Registration

namespace Proxy

/-- Register the repository with the service. -/
def create (registration : Registration) : ProxyJob Unit := do
  let proxy ← ProxyJob.current
  let record ← ProxyJob.ofOutcome (registration.record proxy)
  let response ← ProxyJob.request (Job.sendChecked (Registration.request proxy.name record))
  let reply ← ProxyJob.ofOutcome (Job.readJson response)
  let created ← ProxyJob.ofOutcome (Registration.recordOf proxy.name reply)
  ProxyJob.update (Registration.registered created)

end Proxy

end GitTransport
