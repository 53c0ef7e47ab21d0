/-
Scripts that complete command lines in a shell.

  Each script offers the names of all commands and options, as the shell wants to be
  told.
-/

import GitTransport.CommandLine.Invocation

namespace GitTransport.CommandLine.Completion

mutual

/-- The names of a command and of everything that it understands. -/
def namesOf : CommandSpec → List String
  | .command name options _ subcommands =>
    name :: options.map ("--" ++ ·.long) ++ namesOfAll subcommands

/-- The names of several commands. -/
def namesOfAll : List CommandSpec → List String
  | [] => []
  | spec :: rest => namesOf spec ++ namesOfAll rest

end

/-- Every word that can be completed, without repetitions. -/
def words : List String :=
  (globalOptions.map ("--" ++ ·.long) ++ ["--help", "--version", "help"] ++
    namesOfAll program.root.subcommands).eraseDups

/-- The script for a shell. -/
def script (shell : String) : List String :=
  let list := String.intercalate " " words
  let quotedList := String.intercalate "," (words.map fun word => "'" ++ word ++ "'")
  if shell = "zsh" then ["#compdef " ++ programName, "compadd -- " ++ list]
  else if shell = "fish" then ["complete -c " ++ programName ++ " -f -a '" ++ list ++ "'"]
  else if shell = "powershell" then
    ["Register-ArgumentCompleter -Native -CommandName '" ++ programName ++ "' -ScriptBlock \x7b",
      "    param($word)",
      "    @(" ++ quotedList ++ ") | Where-Object \x7b $_ -like \"$word*\" \x7d",
      "\x7d"]
  else if shell = "elvish" then
    ["set edit:completion:arg-completer[" ++ programName ++ "] = \x7b|@words|",
      "    put " ++ list,
      "\x7d"]
  else ["complete -W '" ++ list ++ "' " ++ programName]

end GitTransport.CommandLine.Completion
