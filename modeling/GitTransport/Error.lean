/-
Every way in which an operation of the client can fail.

  Each constructor keeps the cause; `message` has the words, and `cause?` the words
  of an error that the message only passes on.
-/

import GitTransport.ServiceError
import GitTransport.Url.Basic

namespace GitTransport

/-- What a reply lacks that the request asked for. -/
inductive MissingPart where
  | resultObject (repository : String)
  | repositoryObject (repository : String)
  | currentBranch (repository : String)
  | checkoutResult (repository : String)
  | configurationValue (key repository : String)
  | repositoryList
  | listedObject
  | listedName
  | other (message : String)
  deriving DecidableEq, Repr

/-- The words for what a reply lacks. -/
def MissingPart.message : MissingPart → String
  | .resultObject name => "the data of the repository \"" ++ name ++ "\" has no result object"
  | .repositoryObject name =>
    "the creation response of the repository \"" ++ name ++ "\" has no repository object"
  | .currentBranch name => "the repository \"" ++ name ++ "\" reports no current branch"
  | .checkoutResult name =>
    "the checkout response of the repository \"" ++ name ++ "\" has no result"
  | .configurationValue key name =>
    "no value for the configuration key \"" ++ key ++ "\" of the repository \"" ++ name ++ "\""
  | .repositoryList => "the repository list is not a list"
  | .listedObject => "a repository list item is not an object"
  | .listedName => "a repository list item has no name"
  | .other message => message

/-- What is wrong with the settings of a connection. -/
inductive SettingsFault where
  | noHost
  | badTimeout (text : String)
  | other (message : String) (hint : Option String)
  deriving DecidableEq, Repr

/-- The words for a fault of the settings. -/
def SettingsFault.message : SettingsFault → String
  | .noHost => "No application server host given"
  | .badTimeout text => "Invalid SAPCLI_HTTP_TIMEOUT value: " ++ text
  | .other message _ => message

/-- How a fault of the settings is mended. -/
def SettingsFault.hint? : SettingsFault → Option String
  | .noHost => some "Pass --ashost or set SAP_ASHOST"
  | .badTimeout _ => some "Use a positive number of seconds, e.g. 900 or 2.5"
  | .other _ hint => hint

/-- Why an operation failed. -/
inductive Error where
  /-- A response reports a failure and says no more about it. -/
  | http (failure : HttpFailure)
  /-- The service reports an error. -/
  | service (error : ServiceError)
  /-- There was no response. -/
  | network (url message : String)
  /-- A response has another shape than it should have. -/
  | invalidResponse (part : MissingPart)
  | settings (fault : SettingsFault)
  | json (fault : Json.Fault)
  | address (fault : Url.Fault)
  deriving DecidableEq, Repr

namespace Error

/-- The words for an error. -/
def message : Error → String
  | .http failure => failure.message
  | .service error => error.message
  | .network url message => "Network operation error: " ++ url ++ " - " ++ message
  | .invalidResponse part => "Invalid response: " ++ part.message
  | .settings fault =>
    let hint := match fault.hint? with
      | some hint => "\n  hint: " ++ hint
      | none => ""
    "Configuration error: " ++ fault.message ++ hint
  | .json fault => "JSON error: " ++ fault.message
  | .address fault => "URL parsing error: " ++ fault.message

/-- The error behind an error, in its own words. -/
def cause? : Error → Option String
  | .json fault => some fault.message
  | .address fault => some fault.message
  | _ => none

end Error

end GitTransport
