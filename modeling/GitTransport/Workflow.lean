/-
Work with repositories in several steps.

  The steps are jobs on proxies; a job that is given a name runs on a proxy of its
  own (`ProxyJob.onName`).
-/

import GitTransport.Repository.Registration
import GitTransport.Repository.Operations

namespace GitTransport.Workflow

/-! ## All repositories -/

/-- The proxy of an item of the list of repositories. -/
def proxyOfItem : Json → Except MissingPart Proxy
  | .object record =>
    match (Fields.get? record "name").bind Json.asString? with
    | some name => .ok (.withRecord name record)
    | none => .error .listedName
  | _ => .error .listedObject

/-- The proxies of a list of repositories; nothing is no repositories. -/
def proxiesOf : Option Json → Except MissingPart (List Proxy)
  | none | some .null => .ok []
  | some (.array items) => items.mapM proxyOfItem
  | some _ => .error .repositoryList

/-- The repositories of the system. -/
def listAll : Job (List Proxy) := do
  let reply ← (Job.getJson "repository").classified .standard
  ExceptT.mk (.done ((proxiesOf (reply.member? "result")).mapError .invalidResponse))

/-! ## Cloning -/

/-- The virtual system of a new repository when none is named. -/
def standardVsid : String := "6IT"

/-- The folder of the sources when none is named. -/
def standardDirectory : String := "src/"

/-- How a repository is cloned. -/
structure CloneOptions where
  vsid : String := standardVsid
  /-- The folder that holds the sources. -/
  startDirectory : Option String := some standardDirectory
  /-- The token for the remote host. -/
  token : Option String := none
  /-- Whether a repository that is registered already is an error. -/
  failIfExists : Bool := true
  role : Role := .source
  type : RepositoryType := .github

/-- The configuration that a clone is registered with; empty texts are left out. -/
def CloneOptions.configuration (options : CloneOptions) : Dictionary String :=
  let entry (key : String) (value : Option String) : List (String × String) :=
    ((value.filter (!·.isEmpty)).map fun value => (key, value)).toList
  Dictionary.ofList (entry Configuration.targetDirectory options.startDirectory ++
    entry Configuration.authToken options.token)

/-- The registration of a clone. -/
def CloneOptions.registration (options : CloneOptions) (url : String) : Registration where
  url := url
  vsid := options.vsid
  config := some options.configuration
  role := options.role
  type := options.type

/-- Register a repository; one that exists already is taken as it is when the
    options allow it. -/
def register (url : String) (options : CloneOptions) : ProxyJob Unit :=
  tryCatch (Proxy.create (options.registration url)) fun error =>
    match error with
    | .service problem =>
      if problem.kind = .alreadyExists ∧ !options.failIfExists then do
        ProxyJob.note problem.message
        ProxyJob.wipe
      else throw error
    | _ => throw error

/-- Register a repository and clone it, unless that has been done. -/
def registerAndClone (url : String) (options : CloneOptions) : ProxyJob Unit := do
  register url options
  if ← Proxy.isCloned then
    let proxy ← ProxyJob.current
    ProxyJob.note ("Not cloning the repository \"" ++ proxy.name ++ "\": already performed")
  else
    let _ ← Proxy.clone

/-- Register a repository under a name and clone it. -/
def cloneNew (url name : String) (options : CloneOptions) : Job Proxy :=
  ExceptT.mk ((registerAndClone url options).runOn (.new name) >>= fun (outcome, proxy) =>
    .done (outcome.map fun _ => proxy))

/-! ## Other jobs -/

/-- Delete the repository with this name. -/
def delete (name : String) : Job Unit := do
  let _ ← ProxyJob.onName name Proxy.delete

/-- The body of a request that stores a token. -/
def tokenBody (apiUrl token : String) : Json :=
  .object [("endpoint", .string apiUrl), ("password", .string ""), ("token", .string token),
    ("type", .string "token"), ("user", .string "")]

/-- Store the user's token for a remote host. -/
def setUserApiToken (apiUrl token : String) : Job Unit := do
  let _ ← (Job.postJson "user/credentials" (tokenBody apiUrl token) none).classified .standard

end GitTransport.Workflow
