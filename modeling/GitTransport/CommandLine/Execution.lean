/-
Carrying out a command line.

  A command for the service is a routine, run in a session.  What it prints goes to the
  output.  The messages of the service go to the error output, and the words for the
  error below them.
-/

import GitTransport.CommandLine.Completion
import GitTransport.CommandLine.Routine
import GitTransport.Settings
import GitTransport.Terminal.Table

namespace GitTransport.CommandLine

/-! ## Results -/

/-- How a command ends. -/
inductive Ending where
  | success
  | failure (failure : Failure)
  /-- The program cannot go on. -/
  | crash
  deriving DecidableEq, Repr

/-- What a command leaves behind. -/
structure Outcome where
  /-- The lines of the output. -/
  output : List String
  /-- The lines of the error output before the failure. -/
  messages : List String
  ending : Ending
  deriving DecidableEq, Repr

namespace Outcome

/-- The status that the program exits with. -/
def status (o : Outcome) : Nat :=
  match o.ending with
  | .success => 0
  | .failure _ => 1
  | .crash => 101

/-- All lines of the error output. -/
def errorOutput (o : Outcome) : List String :=
  match o.ending with
  | .failure failure => o.messages ++ failure.report
  | _ => o.messages

/-- The outcome of a command that succeeded. -/
def printed (lines : List String) : Outcome := ⟨lines, [], .success⟩

/-- The outcome of a command that failed before it reached the service. -/
def failed (failure : Failure) : Outcome := ⟨[], [], .failure failure⟩

/-- The messages of the service for a failure. -/
def messagesOf (style : Terminal.Style) : Failure → List String
  | .operation (.service problem) => style.dumpLines (.ofMessages problem.messages)
  | _ => []

/-- The outcome of a routine with the lines that it printed. -/
def ofResult (style : Terminal.Style) (result : Except Failure Unit) (lines : List String) :
    Outcome :=
  match result with
  | .ok _ => printed lines
  | .error failure => ⟨lines, messagesOf style failure, .failure failure⟩

end Outcome

/-! ## Commands -/

open Routine

/-- The headers of the list of repositories. -/
def listHeaders : List String := ["Name", "Branch", "Commit", "Status", "vSID", "URL"]

/-- The cells of a repository in the list. -/
def listRow (proxy : Proxy) : Routine (List String) := do
  let (branch, proxy) ← onProxy proxy Proxy.branch
  let (head, proxy) ← onProxy proxy Proxy.head
  let (status, proxy) ← onProxy proxy Proxy.status
  let (vsid, proxy) ← onProxy proxy Proxy.vsid
  let (url, proxy) ← onProxy proxy Proxy.url
  return proxy.name :: [branch, head, status, vsid, url].map (·.getD "")

/-- List the repositories. -/
def listed : Routine Unit := do
  let proxies ← ofJob Workflow.listAll
  let rows ← proxies.mapM listRow
  let table := rows.foldl Terminal.Table.addRow (Terminal.Table.ofHeaders listHeaders)
  sayAll ((table.lines " | ").map Text.trimEnd)

/-- Clone a repository; its name is the one in its address when none is given. -/
def cloned (url : String) (package : Option String) (options : Workflow.CloneOptions) :
    Routine Unit := do
  let proxy ← ofJob (Workflow.cloneNew url (package.getD (packageName url)) options)
  let (url, proxy) ← onProxy proxy Proxy.url
  let (branch, proxy) ← onProxy proxy Proxy.branch
  let (head, _) ← onProxy proxy Proxy.head
  sayAll ["Cloned repository:", " URL   : " ++ url.getD "", " branch: " ++ branch.getD "",
    " HEAD  : " ++ head.getD ""]

/-- What is wrong with the options of the command for the configuration: all it can do is
    list. -/
def configFault? (list : Bool) : Option Failure :=
  if list then none else some (.options "sapcli gcts config")

/-- List the configuration of a repository.  The options are looked at once more. -/
def configured (list : Bool) (package : String) : Routine Unit := do
  if let some failure := configFault? list then Routine.refuse failure
  let values ← ofJob (ProxyJob.onName package Proxy.configuration)
  sayAll (values.fields.map fun (key, value) => key ++ "=" ++ value)

/-- A name or text in quotation marks. -/
def quoted (text : String) : String := "\"" ++ text ++ "\""

/-- Delete a repository. -/
def deleted (package : String) : Routine Unit := do
  ofJob (Workflow.delete package)
  sayAll ["The repository " ++ quoted package ++ " has been deleted"]

/-- Switch to another branch. -/
def switched (package branch : String) : Routine Unit := do
  let (before, proxy) ← onProxy (.new package) Proxy.branch
  let (transition, _) ← onProxy proxy (Proxy.checkout branch)
  let place (branch commit : String) : String := "(" ++ branch ++ ":" ++ commit ++ ")"
  sayAll ["The repository " ++ quoted package ++ " has been set to the branch " ++ quoted branch,
    place (before.getD "") (transition.fromCommit.getD "") ++ " -> " ++
      place branch (transition.toCommit.getD "")]

/-- The lines of a commit. -/
def commitLines (commit : Commit) : List String :=
  ["commit " ++ commit.id, "Author: " ++ commit.author ++ " <" ++ commit.authorMail ++ ">",
    "Date:   " ++ commit.date, "", "    " ++ commit.message]

/-- The lines of a history, an empty one between two commits. -/
def historyLines (commits : List Commit) : List String :=
  List.intercalate [""] (commits.map commitLines)

/-- List the commits of a repository. -/
def logged (package : String) : Routine Unit := do
  let commits ← ofJob (ProxyJob.onName package Proxy.log)
  sayAll (historyLines commits)

/-- Pull a repository. -/
def pulled (package : String) : Routine Unit := do
  let transition ← ofJob (ProxyJob.onName package Proxy.pull)
  sayAll ["The repository " ++ quoted package ++ " has been pulled",
    transition.fromCommit.getD "" ++ " -> " ++ transition.toCommit.getD ""]

/-- Commit a transport; the message names it when none is given. -/
def committed (package transport : String) (message description : Option String) :
    Routine Unit := do
  let message := message.getD ("Transport " ++ transport)
  let _ ← ofJob (ProxyJob.onName package (Proxy.commit transport message description))
  sayAll ["The transport " ++ quoted transport ++ " has been committed"]

/-- Give a repository another remote address. -/
def retargeted (package url : String) : Routine Unit := do
  let response ← ofJob (ProxyJob.onName package (Proxy.setUrl url))
  match response with
  | some response => sayAll [response.body]
  | none => sayAll ["The repository " ++ quoted package ++ " already uses the URL " ++ quoted url]

/-- The routine of a command. -/
def Action.routine : Action → Routine Unit
  | .repolist => listed
  | .clone url package options => cloned url package options
  | .config list package => configured list package
  | .delete package => deleted package
  | .checkout package branch => switched package branch
  | .log package => logged package
  | .pull package => pulled package
  | .commit package transport message description => committed package transport message description
  | .setCredentials apiUrl token => ofJob (Workflow.setUserApiToken apiUrl token)
  | .setUrl package url => retargeted package url

/-- What is wrong with a command in itself. -/
def Action.fault? : Action → Option Failure
  | .config list _ => configFault? list
  | _ => none

/-! ## Command lines -/

/-- The settings of a connection. -/
def ConnectionArguments.settings (c : ConnectionArguments) (timeout : Duration) : Settings where
  host := c.host.getD ""
  port := c.port
  client := c.client
  user := c.user
  password := c.password
  ssl := c.ssl
  verify := c.verify
  timeout := timeout

/-- What a command needs before the first request: its settings and a session. -/
def prepare (env : Environment) (c : ConnectionArguments) (action : Action) :
    Except Ending (Settings × Session) :=
  match action.fault? with
  | some fault => .error (.failure fault)
  | none =>
    match Timeout.ofVariable (env.get? Timeout.variableName) with
    | .error fault =>
      match Settings.timeoutError? fault with
      | some error => .error (.failure (.operation error))
      | none => .error .crash
    | .ok timeout =>
      let settings := c.settings timeout
      match settings.connect with
      | .error error => .error (.failure (.operation error))
      | .ok session => .ok (settings, session)

/-- Carry out a command for the service. -/
def perform (style : Terminal.Style) (session : Session) (action : Action) : Wire Outcome :=
  session.run action.routine.run >>= fun ((result, lines), _) =>
    .done (.ofResult style result lines)

/-- Carry out a command line; `capable` is whether the terminal can show colours. -/
def execute (env : Environment) (capable : Bool) (i : Invocation) : Wire Outcome :=
  match i.command with
  | .completions shell => .done (.printed (Completion.script shell))
  | .service action =>
    match prepare env i.connection action with
    | .error ending => .done ⟨[], [], ending⟩
    | .ok (_, session) => perform (.ofFlag i.color env capable) session action

end GitTransport.CommandLine
