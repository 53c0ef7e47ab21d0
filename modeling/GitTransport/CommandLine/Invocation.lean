/-
The commands of the program, and what a command line asks for.

  `program` lists the commands with their options; `invocation` turns what has been
  read into a value with a field for each of them.
-/

import GitTransport.CommandLine.Grammar
import GitTransport.PackageName
import GitTransport.Workflow

namespace GitTransport.CommandLine

/-! ## The commands -/

/-- The name of the program. -/
def programName : String := "sapcli"

/-- The version of the program. -/
def programVersion : String := "0.1.0"

/-- What the program prints when its version is wanted. -/
def versionLines : List String := [programName ++ " " ++ programVersion]

/-- The options of all commands. -/
def globalOptions : List OptionSpec :=
  [{ long := "ashost", envName := some "SAP_ASHOST" },
    { long := "port", form := some .port, envName := some "SAP_PORT", default := some "443" },
    { long := "client", envName := some "SAP_CLIENT" },
    { long := "user", envName := some "SAP_USER" },
    { long := "password", envName := some "SAP_PASSWORD" },
    { long := "ssl", form := some .yesNo, envName := some "SAP_SSL", default := some "yes" },
    { long := "verify", form := some .yesNo, envName := some "SAP_SSL_VERIFY",
      default := some "yes" },
    { long := "color", default := some Terminal.Style.standardFlag },
    { long := "log-level", default := some "warn" }]

/-- The option for signs of life while a request is on its way. -/
def heartbeat : OptionSpec :=
  { long := "heartbeat", form := some .count, default := some "0" }

/-- The argument that names a repository. -/
def package : PositionalSpec := { name := "package" }

/-- The command that lists the repositories. -/
def repolistSpec : CommandSpec := .command "repolist" [] [] []

/-- The command that clones a repository. -/
def cloneSpec : CommandSpec :=
  .command "clone"
    [{ long := "vsid", default := some Workflow.standardVsid },
      { long := "starting-folder", default := some Workflow.standardDirectory },
      { long := "no-fail-exists", form := none },
      { long := "vcs-token" },
      { long := "type", short := some 't', form := some .repositoryType,
        default := some RepositoryType.github.text },
      { long := "role", short := some 'r', form := some .role, default := some Role.source.text },
      heartbeat]
    [{ name := "url" }, { package with required := false }] []

/-- The command that shows the configuration of a repository. -/
def configSpec : CommandSpec :=
  .command "config" [{ long := "list", short := some 'l', form := none }] [package] []

/-- The command that deletes a repository. -/
def deleteSpec : CommandSpec := .command "delete" [] [package] []

/-- The command that switches a repository to another branch. -/
def checkoutSpec : CommandSpec :=
  .command "checkout" [heartbeat] [package, { name := "branch" }] []

/-- The command that shows the history of a repository. -/
def logSpec : CommandSpec := .command "log" [] [package] []

/-- The command that pulls a repository. -/
def pullSpec : CommandSpec := .command "pull" [heartbeat] [package] []

/-- The command that commits a transport. -/
def commitSpec : CommandSpec :=
  .command "commit"
    [{ long := "message", short := some 'm' }, { long := "description" }, heartbeat]
    [package, { name := "corrnr" }] []

/-- The commands for the user's settings. -/
def userSpec : CommandSpec :=
  .command "user" [] []
    [.command "set-credentials"
      [{ long := "api-url", short := some 'a', required := true },
        { long := "token", short := some 't', required := true }] [] []]

/-- The commands for a repository's settings. -/
def repoSpec : CommandSpec :=
  .command "repo" [] [] [.command "set-url" [] [package, { name := "url" }] []]

/-- The commands for repositories. -/
def serviceSpec : CommandSpec :=
  .command "gcts" [] []
    [repolistSpec, cloneSpec, configSpec, deleteSpec, checkoutSpec, logSpec, pullSpec, commitSpec,
      userSpec, repoSpec]

/-- The command that prints a script for the completion of commands. -/
def completionsSpec : CommandSpec :=
  .command "completions" [] [{ name := "shell", form := .shell }] []

/-- The whole program. -/
def program : Program where
  root := .command programName [] [] [serviceSpec, completionsSpec]
  globals := globalOptions

mutual

/-- The lines that tell how a command is called, and the commands below it. -/
def usageOf (before : String) : CommandSpec → List String
  | .command name options positionals subcommands =>
    let words := positionals.map fun place =>
      if place.required then " <" ++ place.name ++ ">" else " [" ++ place.name ++ "]"
    let options := options.map fun option =>
      let value := if option.form.isSome then " <value>" else ""
      if option.required then " --" ++ option.long ++ value
      else " [--" ++ option.long ++ value ++ "]"
    let line := before ++ name ++ String.join options ++ String.join words
    if subcommands.isEmpty then [line] else usageOfAll (before ++ name ++ " ") subcommands

/-- The lines for several commands. -/
def usageOfAll (before : String) : List CommandSpec → List String
  | [] => []
  | spec :: rest => usageOf before spec ++ usageOfAll before rest

end

/-- How the program is called. -/
def usageLines : List String :=
  "Usage:" :: usageOf "  " program.root ++
    ["Options of all commands:",
      "  " ++ String.intercalate " " (globalOptions.map ("--" ++ ·.long))]

/-- Whether the level of the log admits remarks. -/
def showsRemarks (level : String) : Bool := ["info", "debug", "trace"].contains (Text.lower level)

/-! ## What is asked for -/

/-- The service and the user, as far as the command line says. -/
structure ConnectionArguments where
  host : Option String
  port : Nat
  client : Option String
  user : Option String
  password : Option String
  ssl : Bool
  verify : Bool
  deriving DecidableEq, Repr

/-- A command for the service. -/
inductive Action where
  | repolist
  | clone (url : String) (package : Option String) (options : Workflow.CloneOptions)
  | config (list : Bool) (package : String)
  | delete (package : String)
  | checkout (package branch : String)
  | log (package : String)
  | pull (package : String)
  | commit (package transport : String) (message description : Option String)
  | setCredentials (apiUrl token : String)
  | setUrl (package url : String)

/-- A command. -/
inductive Command where
  | service (action : Action)
  | completions (shell : String)

/-- A command line that has been understood. -/
structure Invocation where
  connection : ConnectionArguments
  color : String
  logLevel : String
  command : Command

/-- The value of an option of all commands, or its default. -/
def globalValue? (r : Reading) (name : String) : Option String :=
  (r.global? name).or ((globalOptions.find? (·.long = name)).bind (·.default))

/-- The value of an option or argument of the command itself, empty when there is
    none. -/
def localText (r : Reading) (name : String) : String := (r.local? name).getD ""

/-- The service and the user. -/
def connectionArguments (r : Reading) : ConnectionArguments where
  host := globalValue? r "ashost"
  port := ((globalValue? r "port").bind port?).getD 443
  client := globalValue? r "client"
  user := globalValue? r "user"
  password := globalValue? r "password"
  ssl := ((globalValue? r "ssl").bind yesNo?).getD true
  verify := ((globalValue? r "verify").bind yesNo?).getD true

/-- How a repository is to be cloned. -/
def cloneOptions (r : Reading) : Workflow.CloneOptions where
  vsid := (r.local? "vsid").getD Workflow.standardVsid
  startDirectory := some ((r.local? "starting-folder").getD Workflow.standardDirectory)
  token := r.local? "vcs-token"
  failIfExists := (r.local? "no-fail-exists").isNone
  role := ((r.local? "role").bind fun word => (Role.ofText word).toOption).getD .source
  type :=
    ((r.local? "type").bind fun word => (RepositoryType.ofText word).toOption).getD .github

/-- The command of a reading. -/
def command (r : Reading) : Command :=
  let package := localText r "package"
  match r.path.drop 1 with
  | ["gcts", "clone"] =>
    .service (.clone (localText r "url") (r.local? "package") (cloneOptions r))
  | ["gcts", "config"] => .service (.config (r.local? "list").isSome package)
  | ["gcts", "delete"] => .service (.delete package)
  | ["gcts", "checkout"] => .service (.checkout package (localText r "branch"))
  | ["gcts", "log"] => .service (.log package)
  | ["gcts", "pull"] => .service (.pull package)
  | ["gcts", "commit"] =>
    .service (.commit package (localText r "corrnr") (r.local? "message") (r.local? "description"))
  | ["gcts", "user", "set-credentials"] =>
    .service (.setCredentials (localText r "api-url") (localText r "token"))
  | ["gcts", "repo", "set-url"] => .service (.setUrl package (localText r "url"))
  | ["completions"] => .completions (localText r "shell")
  | _ => .service .repolist

/-- What a reading asks for. -/
def invocation (r : Reading) : Invocation where
  connection := connectionArguments r
  color := (globalValue? r "color").getD Terminal.Style.standardFlag
  logLevel := (globalValue? r "log-level").getD "warn"
  command := command r

/-- Understand the words of a command line. -/
def parse (env : Environment) (words : List String) : Except Refusal Invocation :=
  (read program env program.root {} words).map invocation

end GitTransport.CommandLine
