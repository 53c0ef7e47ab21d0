/-
The program: a command line in, requests over the network, two outputs and a status.

  Everything that the program decides is in `CommandLine`; here its questions are put
  to the network.  Connections are plain ones, so a service that is reached over
  `https` does not answer.
-/

import GitTransport.CommandLine.Execution
import GitTransport.Http.Framing
import Std.Async.DNS
import Std.Async.TCP

namespace GitTransport.Main

open Std.Async Std.Net

/-! ## The network -/

/-- Everything that arrives on a connection until the other side closes it. -/
partial def receiveAll (client : TCP.Socket.Client) (received : ByteArray) : Async ByteArray := do
  match ← client.recv? 65536 with
  | some bytes => receiveAll client (received ++ bytes)
  | none => return received

/-- The address of a machine with a port. -/
def socketAddress (address : IPAddr) (port : Nat) : SocketAddress :=
  match address with
  | .v4 addr => .v4 ⟨addr, UInt16.ofNat port⟩
  | .v6 addr => .v6 ⟨addr, UInt16.ofNat port⟩

/-- Send bytes to a machine and take what comes back. -/
def converse (address : SocketAddress) (bytes : ByteArray) : Async ByteArray := do
  let client ← TCP.Socket.Client.mk
  client.connect address
  client.send bytes
  receiveAll client .empty

/-- The name of a host as the network knows it. -/
def hostName : Url.Host → String
  | .ipv6 pieces => Url.ipv6Text pieces
  | host => host.text

/-- Put a request to the network. -/
def request (r : WireRequest) : IO WireReply := do
  match r.url.authority, r.url.effectivePort? with
  | some authority, some port =>
    if r.url.scheme ≠ "http" then return .error .unanswered
    try
      let addresses ← (DNS.getAddrInfo (hostName authority.host) "").block
      let some address := addresses[0]? | return .error .unanswered
      let answer ← (converse (socketAddress address port) ⟨r.bytes.toArray⟩).block
      return WireResponse.ofBytes answer.toList
    catch _ => return .error .unanswered
  | _, _ => return .error .unanswered

/-- Run an exchange with the network. -/
def runWire {α : Type} (remark : String → IO Unit) : Wire α → IO α
  | .done result => return result
  | .ask question next => do
    let reply ← request question
    runWire remark (next reply)
  | .note text next => do
    remark text
    runWire remark next

/-! ## The program -/

/-- The variables that the program looks at. -/
def variableNames : List String :=
  ["SAP_ASHOST", "SAP_PORT", "SAP_CLIENT", "SAP_USER", "SAP_PASSWORD", "SAP_SSL",
    "SAP_SSL_VERIFY", Timeout.variableName, "NO_COLOR", "CLICOLOR", "CLICOLOR_FORCE", "TERM"]

/-- The environment of the program. -/
def environment : IO Environment := do
  let pairs ← variableNames.filterMapM fun name => do
    return (← IO.getEnv name).map fun value => (name, value)
  return Dictionary.ofList pairs

/-- Print the lines of one output. -/
def printLines (output : IO.FS.Stream) (lines : List String) : IO Unit :=
  lines.forM output.putStrLn

/-- Tell why a command line is not carried out. -/
def refuse (refusal : CommandLine.Refusal) : IO Unit := do
  match refusal with
  | .version => printLines (← IO.getStdout) CommandLine.versionLines
  | .help => printLines (← IO.getStdout) CommandLine.usageLines
  | _ => printLines (← IO.getStderr) (("error: " ++ refusal.message) :: CommandLine.usageLines)

/-- Carry out a command line that has been understood. -/
def carryOut (env : Environment) (invocation : CommandLine.Invocation) : IO Nat := do
  let errors ← IO.getStderr
  let capable := (← errors.isTty) && (env.get? "TERM").isSome
  let remark (text : String) : IO Unit :=
    if CommandLine.showsRemarks invocation.logLevel then errors.putStrLn ("[INFO] " ++ text)
    else pure ()
  let outcome ← runWire remark (CommandLine.execute env capable invocation)
  printLines (← IO.getStdout) outcome.output
  printLines errors outcome.errorOutput
  return outcome.status

end GitTransport.Main

/-- Run the program. -/
def main (words : List String) : IO UInt32 := do
  let env ← GitTransport.Main.environment
  match GitTransport.CommandLine.parse env words with
  | .error refusal =>
    GitTransport.Main.refuse refusal
    return UInt32.ofNat refusal.status
  | .ok invocation => return UInt32.ofNat (← GitTransport.Main.carryOut env invocation)
