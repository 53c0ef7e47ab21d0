/-
The settings of a connection, and the root of the service that they lead to.
-/

import GitTransport.Error
import GitTransport.Text.Basic
import GitTransport.Timeout
import GitTransport.Http.Session

namespace GitTransport

/-- How the service is reached. -/
structure Settings where
  host : String
  port : Nat
  client : Option String
  user : Option String
  password : Option String
  /-- Whether the connection is secure. -/
  ssl : Bool
  /-- Whether the certificate of a secure connection is verified. -/
  verify : Bool
  timeout : Duration
  deriving DecidableEq, Repr

namespace Settings

/-- The path of the service on its host. -/
def servicePath : String := "/sap/bc/cts_abapvcs/"

/-- The root of the service; a blank host is none. -/
def baseUrl (host : String) (port : Nat) (ssl : Bool) : Except Error Url :=
  if (Text.trim host).isEmpty then .error (.settings .noHost)
  else
    let scheme := if ssl then "https" else "http"
    (Url.parse (scheme ++ "://" ++ host ++ ":" ++ toString port ++ servicePath)).mapError .address

/-- A new session. -/
def connect (settings : Settings) : Except Error Session :=
  (baseUrl settings.host settings.port settings.ssl).map fun url =>
    { baseUrl := url, client := settings.client, user := settings.user.getD "",
      password := settings.password }

/-- The fault of the settings that a fault of the timeout is; a timeout that is too
    long is none of them. -/
def timeoutError? : Timeout.Fault → Option Error
  | .invalid text => some (.settings (.badTimeout text))
  | .tooLong => none

end Settings

end GitTransport
