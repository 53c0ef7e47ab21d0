/-
Colours on the terminal.

  A flag of the command line decides; without a decision there, the variables of the
  environment do, and then the terminal itself.
-/

import GitTransport.MessageLog
import GitTransport.Text.Basic

namespace GitTransport

/-- The variables of an environment. -/
abbrev Environment := Dictionary String

namespace Terminal

/-- How headings are shown. -/
structure Style where
  useColor : Bool
  deriving DecidableEq, Repr

namespace Style

/-- Headings like any other text. -/
def plain : Style := ⟨false⟩

/-- Whether the environment wants colours, `capable` being what the terminal can do. -/
def wantsColor (env : Environment) (capable : Bool) : Bool :=
  if (env.get? "NO_COLOR").isSome ∨ env.get? "CLICOLOR" = some "0" ∨
      env.get? "TERM" = some "dumb" then false
  else
    match env.get? "CLICOLOR_FORCE" with
    | some force => (!force.isEmpty && force ≠ "0") || capable
    | none => capable

/-- The style for the word of the flag. -/
def ofFlag (flag : String) (env : Environment) (capable : Bool) : Style :=
  if Text.sameLetters flag "always" then ⟨true⟩
  else if Text.sameLetters flag "never" then ⟨false⟩
  else ⟨wantsColor env capable⟩

/-- The word of the flag when it is not given. -/
def standardFlag : String := "auto"

/-- A heading: red and bold, or as it is. -/
def heading (style : Style) (text : String) : String :=
  if style.useColor then "\x1b[31m\x1b[1m" ++ text ++ "\x1b[0m" else text

/-- The lines of an error body; a line with the text of a heading is one. -/
def dumpLines (style : Style) (dump : MessageDump) : List String :=
  dump.lines.map fun line =>
    if MessageDump.headings.contains line then style.heading line else line

end Style

end Terminal

end GitTransport
