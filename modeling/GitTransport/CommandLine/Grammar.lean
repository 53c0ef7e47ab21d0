/-
Command lines: commands with options, arguments and commands below them.

  Arguments are read one after the other.  An option may stand before or after the
  arguments of its command, its value behind an equals sign or in the next word, and
  two dashes end the options.  The name of a command below hands the remaining words
  over to it.  What the words leave open is taken from the environment, and only then
  is it checked that nothing is missing.

  Of several faults the first one in this order is reported: an unknown word or option
  at once, the faults of a value when the word after it has been recognised, and the
  faults of a command below before those of the commands around it.
-/

import GitTransport.Repository.Registration
import GitTransport.Terminal.Style

namespace GitTransport.CommandLine

/-- Why the words of a command line are not carried out. -/
inductive Refusal where
  /-- Help is wanted. -/
  | help
  /-- The version is wanted. -/
  | version
  /-- A command with commands below it is given nothing. -/
  | nothingGiven
  | missingCommand
  | unknownCommand
  | unknownArgument
  /-- A value is missing, or none of the possible ones. -/
  | invalidValue
  /-- A value does not have the form that it should have. -/
  | malformedValue
  /-- A flag is given a value. -/
  | surplusValue
  | missingArgument
  /-- An option is given twice. -/
  | repeated
  deriving DecidableEq, Repr

/-- The status that the program exits with when it is not to do anything. -/
def Refusal.status : Refusal → Nat
  | .help | .version => 0
  | _ => 2

/-- The words for a refusal. -/
def Refusal.message : Refusal → String
  | .help => "help is wanted"
  | .version => "the version is wanted"
  | .nothingGiven | .missingCommand => "a command is missing"
  | .unknownCommand => "there is no such command"
  | .unknownArgument => "there is no such argument"
  | .invalidValue => "a value is missing or not possible"
  | .malformedValue => "a value does not have the form that it should have"
  | .surplusValue => "a flag takes no value"
  | .missingArgument => "an argument is missing"
  | .repeated => "an option is given twice"

/-! ## Values -/

/-- The shells that commands can be completed in. -/
def shells : List String := ["bash", "elvish", "fish", "powershell", "zsh"]

/-- What a value has to look like. -/
inductive ValueForm where
  | text
  /-- A number of sixteen bits. -/
  | port
  /-- A number of 64 bits. -/
  | count
  | yesNo
  | role
  | repositoryType
  | shell
  deriving DecidableEq, Repr

/-- The words for yes. -/
def yesWords : List String := ["y", "yes", "t", "true", "on", "1"]

/-- The words for no. -/
def noWords : List String := ["n", "no", "f", "false", "off", "0"]

/-- The truth value that a word stands for. -/
def yesNo? (text : String) : Option Bool :=
  if yesWords.contains (Text.lower text) then some true
  else if noWords.contains (Text.lower text) then some false
  else none

/-- Digits, at least one. -/
def digits? (digits : List Char) : Option Nat :=
  if digits.isEmpty then none else Text.number? 10 digits

/-- Digits with or without a plus sign. -/
def natural? (text : String) : Option Nat :=
  match text.toList with
  | '+' :: digits => digits? digits
  | digits => digits? digits

/-- A port; a minus sign is allowed before zeros. -/
def port? (text : String) : Option Nat :=
  match text.toList with
  | '-' :: digits => (digits? digits).filter (· = 0)
  | _ => (natural? text).filter (· ≤ 65535)

/-- Check the form of a value. -/
def ValueForm.check (form : ValueForm) (text : String) : Except Refusal Unit :=
  let require (ok : Bool) (refusal : Refusal) : Except Refusal Unit :=
    if ok then .ok () else .error refusal
  match form with
  | .text => .ok ()
  | .port => require (port? text).isSome .malformedValue
  | .count => require ((natural? text).any (· < 0x10000000000000000)) .malformedValue
  | .yesNo => require (yesNo? text).isSome .malformedValue
  | .role => require (Role.ofText text).toOption.isSome .malformedValue
  | .repositoryType => require (RepositoryType.ofText text).toOption.isSome .malformedValue
  | .shell => require (shells.contains text) .invalidValue

/-! ## Commands -/

/-- An option: a flag, or one with a value. -/
structure OptionSpec where
  long : String
  short : Option Char := none
  /-- The form of the value; a flag has none. -/
  form : Option ValueForm := some .text
  /-- The variable of the environment that gives the value when no word does. -/
  envName : Option String := none
  /-- The value when nothing gives one. -/
  default : Option String := none
  required : Bool := false
  deriving DecidableEq, Repr

/-- An argument that is known by its place. -/
structure PositionalSpec where
  name : String
  form : ValueForm := .text
  required : Bool := true
  deriving DecidableEq, Repr

/-- A command with its options, its arguments and the commands below it. -/
inductive CommandSpec where
  | command (name : String) (options : List OptionSpec) (positionals : List PositionalSpec)
      (subcommands : List CommandSpec)

namespace CommandSpec

/-- The name of a command. -/
def name : CommandSpec → String
  | .command name _ _ _ => name

/-- The options of a command itself. -/
def options : CommandSpec → List OptionSpec
  | .command _ options _ _ => options

/-- The arguments of a command. -/
def positionals : CommandSpec → List PositionalSpec
  | .command _ _ positionals _ => positionals

/-- The commands below a command. -/
def subcommands : CommandSpec → List CommandSpec
  | .command _ _ _ subcommands => subcommands

/-- The command below with this name. -/
def find? (spec : CommandSpec) (name : String) : Option CommandSpec :=
  spec.subcommands.find? (·.name = name)

/-- Whether the words behind `help` lead to a command.  Where there are commands there
    is also one for help, with nothing below it. -/
def helpReaches (spec : CommandSpec) : List String → Bool
  | [] => true
  | word :: rest =>
    match spec.find? word with
    | some below => helpReaches below rest
    | none => !spec.subcommands.isEmpty && word = "help" && rest.isEmpty

end CommandSpec

/-! ## What has been read -/

/-- Where a value comes from; the later ones count for more. -/
inductive Source where
  | standard
  | environment
  | words
  deriving DecidableEq, Repr

/-- The place of a source in their order. -/
def Source.rank : Source → Nat
  | .standard => 0
  | .environment => 1
  | .words => 2

/-- A value with the name of the option or argument that it belongs to. -/
structure Given where
  name : String
  value : String
  source : Source
  deriving DecidableEq, Repr

/-- The values of a command and of the one below it. -/
inductive Reading where
  | reading (command : String) (given : List Given) (below : Option Reading)

/-- A value that has not been checked yet. -/
inductive Pending where
  /-- An option that still waits for its value, or has it. -/
  | option (spec : OptionSpec) (value : Option String)
  | positional (spec : PositionalSpec) (value : String)
  deriving DecidableEq, Repr

/-- How far the words of one command have been read. -/
structure Scan where
  given : List Given := []
  pending : Option Pending := none
  /-- How many arguments there have been. -/
  places : Nat := 0
  /-- Whether the options are over. -/
  trailing : Bool := false
  deriving DecidableEq, Repr

namespace Scan

/-- Take in a checked value; an option is given once only. -/
def record (s : Scan) (name : String) (form : Option ValueForm) (value : String)
    (source : Source) : Except Refusal Scan :=
  if s.given.any (·.name = name) then .error .repeated
  else do
    if let some form := form then form.check value
    return { s with given := s.given ++ [⟨name, value, source⟩] }

/-- Take in the value that is waiting. -/
def resolve (s : Scan) : Except Refusal Scan :=
  let cleared : Scan := { s with pending := none }
  match s.pending with
  | none => .ok s
  | some (.option _ none) => .error .invalidValue
  | some (.option spec (some value)) => cleared.record spec.long spec.form value .words
  | some (.positional spec value) => cleared.record spec.name (some spec.form) value .words

/-- Whether the next word may be the value of an option. -/
def awaits (s : Scan) : Option OptionSpec :=
  match s.pending with
  | some (.option spec none) => if s.trailing then none else some spec
  | _ => none

/-- Meet an option, with a value that is attached to it or without. -/
def option (s : Scan) (spec : OptionSpec) (attached : Option String) : Except Refusal Scan := do
  let s ← s.resolve
  match spec.form, attached with
  | none, _ => s.record spec.long none "true" .words
  | some form, some value => s.record spec.long (some form) value .words
  | some _, none => return { s with pending := some (.option spec none) }

/-- Meet a request for help or for the version. -/
def stopWith (s : Scan) (refusal : Refusal) : Except Refusal Scan := do
  let _ ← s.resolve
  throw refusal

end Scan

/-! ## Words -/

/-- What a program understands besides its commands. -/
structure Program where
  root : CommandSpec
  /-- The options of all commands. -/
  globals : List OptionSpec

/-- The options that a command understands. -/
def Program.optionsAt (p : Program) (spec : CommandSpec) : List OptionSpec :=
  p.globals ++ spec.options

/-- Whether a command is the program itself. -/
def Program.isRoot (p : Program) (spec : CommandSpec) : Bool := spec.name = p.root.name

/-- The refusal that an option without a specification asks for. -/
def Program.builtin? (p : Program) (spec : CommandSpec) (isHelp isVersion : Bool) :
    Option Refusal :=
  if isHelp then some .help else if isVersion && p.isRoot spec then some .version else none

/-- Read a word that begins with two dashes. -/
def readLong (p : Program) (spec : CommandSpec) (s : Scan) (text : List Char) :
    Except Refusal Scan :=
  let name := String.ofList (text.takeWhile (· ≠ '='))
  let attached : Option String :=
    match text.dropWhile (· ≠ '=') with
    | _ :: value => some (String.ofList value)
    | [] => none
  match p.builtin? spec (name = "help") (name = "version") with
  | some refusal => if attached.isSome then .error .surplusValue else s.stopWith refusal
  | none =>
    match (p.optionsAt spec).find? (·.long = name) with
    | none => .error .unknownArgument
    | some option =>
      if option.form.isNone ∧ attached.isSome then .error .surplusValue
      else s.option option attached

/-- Read the letters behind one dash.  An option with a value takes the rest of the
    word. -/
def readShort (p : Program) (spec : CommandSpec) (s : Scan) : List Char → Except Refusal Scan
  | [] => .ok s
  | c :: rest =>
    match p.builtin? spec (c = 'h') (c = 'V') with
    | some refusal => s.stopWith refusal
    | none =>
      match (p.optionsAt spec).find? (·.short = some c) with
      | none => .error .unknownArgument
      | some option =>
        if option.form.isNone then do
          let s ← s.option option none
          readShort p spec s rest
        else
          match rest with
          | [] => s.option option none
          | '=' :: value => s.option option (some (String.ofList value))
          | value => s.option option (some (String.ofList value))

/-- Read a word that is no option. -/
def readPlace (spec : CommandSpec) (s : Scan) (word : String) : Except Refusal Scan :=
  match spec.positionals[s.places]? with
  | some place => do
    let s ← s.resolve
    return { s with pending := some (.positional place word), places := s.places + 1 }
  | none =>
    let isName := (spec.find? word).isSome || word = "help"
    if spec.subcommands.isEmpty ∨ (s.trailing ∧ isName) then .error .unknownArgument
    else .error .unknownCommand

/-- What a word leads to. -/
inductive Step where
  | next (s : Scan)
  | enter (below : CommandSpec)
  | showHelp

/-- Read a word that is not the name of a command. -/
def readWord (p : Program) (spec : CommandSpec) (s : Scan) (word : String) : Except Refusal Scan :=
  if s.trailing then readPlace spec s word
  else
    match word.toList with
    | ['-', '-'] => .ok { s with trailing := true }
    | '-' :: '-' :: text => readLong p spec s text
    | '-' :: c :: text => readShort p spec s (c :: text)
    | _ =>
      match s.awaits with
      | some option => .ok { s with pending := some (.option option (some word)) }
      | none => readPlace spec s word

/-- Read a word. -/
def step (p : Program) (spec : CommandSpec) (s : Scan) (word : String) : Except Refusal Step :=
  if s.trailing ∨ s.awaits.isSome then (readWord p spec s word).map .next
  else
    match spec.find? word with
    | some below => .ok (.enter below)
    | none =>
      if word = "help" ∧ !spec.subcommands.isEmpty then .ok .showHelp
      else (readWord p spec s word).map .next

/-! ## The end of a command -/

/-- Take a value from the environment for an option that no word gives. -/
def fromEnvironment (env : Environment) (s : Scan) (spec : OptionSpec) : Except Refusal Scan :=
  match spec.envName.bind env.get? with
  | none => .ok s
  | some value =>
    if s.given.any (·.name = spec.long) then .ok s
    else s.record spec.long spec.form value .environment

/-- Check that nothing is missing. -/
def complete (spec : CommandSpec) (s : Scan) (hasBelow : Bool) : Except Refusal Unit :=
  let isGiven (name : String) : Bool := s.given.any (·.name = name)
  if !spec.subcommands.isEmpty ∧ !hasBelow then
    .error (if s.given.isEmpty then .nothingGiven else .missingCommand)
  else if spec.positionals.any (fun place => place.required && !isGiven place.name) ||
      spec.options.any (fun option => option.required && !isGiven option.long) then
    .error .missingArgument
  else .ok ()

/-- Finish the reading of a command. -/
def finish (p : Program) (env : Environment) (spec : CommandSpec) (s : Scan)
    (below : Option Reading) : Except Refusal Reading := do
  let s ← s.resolve
  let s ← (p.optionsAt spec).foldlM (fromEnvironment env) s
  complete spec s below.isSome
  return .reading spec.name s.given below

/-- Read the words of a command. -/
def read (p : Program) (env : Environment) (spec : CommandSpec) (s : Scan) :
    List String → Except Refusal Reading
  | [] => finish p env spec s none
  | word :: rest => do
    match ← step p spec s word with
    | .next s => read p env spec s rest
    | .enter below =>
      let reading ← read p env below {} rest
      finish p env spec s (some reading)
    | .showHelp => throw (if spec.helpReaches rest then .help else .unknownCommand)

/-! ## Looking values up -/

namespace Reading

/-- The names of the commands from the outermost to the innermost one. -/
def path : Reading → List String
  | .reading name _ none => [name]
  | .reading name _ (some below) => name :: path below

/-- The values of the innermost command. -/
def innermost : Reading → List Given
  | .reading _ given none => given
  | .reading _ _ (some below) => innermost below

/-- The values of all commands, the outermost first. -/
def all : Reading → List Given
  | .reading _ given none => given
  | .reading _ given (some below) => given ++ all below

/-- The value of an option of the innermost command. -/
def local? (r : Reading) (name : String) : Option String :=
  (r.innermost.find? (·.name = name)).map (·.value)

/-- Of two values the one whose source counts for more, and else the second one. -/
def stronger (a : Option Given) (b : Given) : Option Given :=
  match a with
  | some a => if b.source.rank < a.source.rank then some a else some b
  | none => some b

/-- The value of an option of all commands. -/
def global? (r : Reading) (name : String) : Option String :=
  ((r.all.filter (·.name = name)).foldl stronger none).map (·.value)

end Reading

end GitTransport.CommandLine
