/-
What a user is told about an error: the advice that goes with its words, and the last
lines of a command that failed.
-/

import GitTransport.Error

namespace GitTransport

namespace Error

/-- The advice for an error that can be mended from the command line. -/
def hints : Error → List String
  | .network _ _ =>
    ["Check --ashost and --port (SAP_ASHOST, SAP_PORT)",
      "Use --ssl no for plain HTTP or --verify no for self-signed certificates",
      "Raise SAPCLI_HTTP_TIMEOUT for slow systems"]
  | .http failure =>
    if failure.response.status = 401 then ["Check --user and --password (SAP_USER, SAP_PASSWORD)"]
    else if failure.response.status = 403 then ["The user may lack gCTS authorizations"]
    else []
  | _ => []

/-- The words for an error that advice follows. -/
def headline : Error → String
  | .network url message => "Cannot reach " ++ url ++ ": " ++ message
  | other => other.message

/-- The words for an error, with an empty line and the advice below it. -/
def advised (error : Error) : String :=
  if error.hints.isEmpty then error.message
  else
    let lines := error.hints.map ("hint: " ++ ·)
    error.headline ++ "\n\n" ++ String.intercalate "\n" lines

end Error

namespace CommandLine

/-- Why a command failed. -/
inductive Failure where
  /-- The options of the command do not go together. -/
  | options (command : String)
  | operation (error : Error)
  deriving DecidableEq, Repr

/-- The words for a failure. -/
def Failure.message : Failure → String
  | .options command => "Invalid command line options\nRun: " ++ command ++ " --help"
  | .operation (.service error) => error.message
  | .operation error => error.advised

/-- The words for the error behind a failure. -/
def Failure.cause? : Failure → Option String
  | .options _ => none
  | .operation error => error.cause?

/-- The last lines on the error output. -/
def Failure.report (failure : Failure) : List String :=
  ("Error: " ++ failure.message) ::
    match failure.cause? with
    | some cause => ["", "Caused by:", "    " ++ cause]
    | none => []

end CommandLine

end GitTransport
