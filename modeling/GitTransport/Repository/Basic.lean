/-
Proxies of repositories.

  A proxy knows the name of a repository and remembers what the service said about
  it: the members of its record (`snapshot`) and its configuration.  Both may be
  missing, and are read when they are first needed.  A job on a proxy ends with an
  outcome and with the proxy as it is then, also when it fails.
-/

import GitTransport.Client
import GitTransport.Configuration

namespace GitTransport

/-- What is known of a repository. -/
structure Proxy where
  name : String
  /-- How the errors of the service are told apart. -/
  classifier : Classifier
  /-- The record of the repository, when it has been read. -/
  snapshot : Option (Fields Json)
  /-- The configuration, when it is known apart from the record. -/
  config : Option (List Configuration.Entry)
  deriving DecidableEq, Repr

/-- Computations on a proxy that send requests and can fail. -/
abbrev ProxyJob := ExceptT Error (StateT Proxy Client)

namespace Proxy

/-- A proxy that knows nothing but a name. -/
def new (name : String) : Proxy := ⟨name, .standard, none, none⟩

/-- The configuration that a record holds; `none` without one or with a malformed
    one. -/
def configOfRecord (record : Fields Json) : Option (List Configuration.Entry) :=
  match Fields.get? record "config" with
  | none | some .null => none
  | some value => (Configuration.ofJson (some value)).toOption

/-- A proxy that knows the record of its repository. -/
def withRecord (name : String) (record : Fields Json) : Proxy :=
  ⟨name, .standard, some record, configOfRecord record⟩

/-- A proxy that tells errors apart in another way. -/
def withClassifier (proxy : Proxy) (classifier : Classifier) : Proxy :=
  { proxy with classifier := classifier }

/-- Whether the record is known. -/
def isLoaded (proxy : Proxy) : Bool := proxy.snapshot.isSome

/-- A proxy that has forgotten what the service said. -/
def wiped (proxy : Proxy) : Proxy := { proxy with snapshot := none, config := none }

/-- The resource of a repository, or one below it. -/
def resource (name : String) (below : Option String) : String :=
  match below with
  | some below => "repository/" ++ name ++ "/" ++ below
  | none => "repository/" ++ name

end Proxy

namespace ProxyJob

variable {α : Type}

/-- A job with the proxy that it starts from, as a function. -/
def ofRun (run : Proxy → Client (Except Error α × Proxy)) : ProxyJob α := ExceptT.mk run

/-- Run a job, beginning with a proxy. -/
def runOn (job : ProxyJob α) (proxy : Proxy) : Client (Except Error α × Proxy) :=
  job.run proxy

/-- The proxy at this point. -/
def current : ProxyJob Proxy := ofRun fun proxy => .done (.ok proxy, proxy)

/-- Change the proxy. -/
def update (change : Proxy → Proxy) : ProxyJob Unit :=
  ofRun fun proxy => .done (.ok (), change proxy)

/-- A result that may be an error. -/
def ofOutcome (outcome : Except Error α) : ProxyJob α :=
  ofRun fun proxy => .done (outcome, proxy)

/-- A job that does not look at the proxy; its failures are classified as the
    proxy's classifier has it. -/
def request (job : Job α) : ProxyJob α :=
  ofRun fun proxy =>
    (job.classified proxy.classifier).run >>= fun outcome => .done (outcome, proxy)

/-- Leave a remark in the log. -/
def note (text : String) : ProxyJob Unit :=
  ofRun fun proxy => .note text (.done (.ok (), proxy))

/-- Run a job and then forget what the service said, whatever the outcome is. -/
def thenWipe (job : ProxyJob α) : ProxyJob α :=
  ofRun fun proxy =>
    job.runOn proxy >>= fun (outcome, proxy) => .done (outcome, proxy.wiped)

/-- Forget what the service said. -/
def wipe : ProxyJob Unit := update Proxy.wiped

/-- Run a job on a proxy that is given up afterwards. -/
def startingFrom (job : ProxyJob α) (proxy : Proxy) : Job α :=
  ExceptT.mk (job.runOn proxy >>= fun (outcome, _) => .done outcome)

/-- Run a job on a new proxy. -/
def onName (name : String) (job : ProxyJob α) : Job α := job.startingFrom (.new name)

end ProxyJob

end GitTransport
