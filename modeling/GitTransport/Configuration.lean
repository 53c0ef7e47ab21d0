/-
Configurations of repositories.

  The service keeps a configuration as a list of entries, a caller wants the value
  of a key.  In a list a key may occur more than once, and its last entry is the one
  that counts; a dictionary has every key once.
-/

import GitTransport.Json.Printer

namespace GitTransport

/-- A key of a configuration with its value. -/
structure Configuration.Entry where
  key : String
  value : String
  deriving DecidableEq, Repr

namespace Configuration

/-- The key of the folder that holds the sources of a repository. -/
def targetDirectory : String := "VCS_TARGET_DIR"

/-- The key of the token for the remote host. -/
def authToken : String := "CLIENT_VCS_AUTH_TOKEN"

/-! ## Lists and dictionaries -/

/-- The value of every key. -/
def toDictionary (entries : List Entry) : Dictionary String :=
  Dictionary.ofList (entries.map fun entry => (entry.key, entry.value))

/-- One entry for every key, in the order of the keys. -/
def ofDictionary (values : Dictionary String) : List Entry :=
  values.fields.map fun (key, value) => ⟨key, value⟩

/-- Give a key a value: in each of its entries, or in a new entry at the end. -/
def setKey (entries : List Entry) (key value : String) : List Entry :=
  if entries.any (·.key = key) then
    entries.map fun entry => if entry.key = key then { entry with value := value } else entry
  else entries ++ [⟨key, value⟩]

/-! ## As JSON -/

/-- The text of a value: a text stands for itself, and nothing for the empty text. -/
def scalarText : Json → String
  | .null => ""
  | .string text => text
  | other => other.compact

/-- The entry that a value is: an object with a key, or a list of the key and the
    value.  The value may be missing. -/
def entryOfJson? : Json → Option Entry
  | .object members =>
    match Fields.get? members "key" with
    | some (.string key) => some ⟨key, ((Fields.get? members "value").map scalarText).getD ""⟩
    | _ => none
  | .array [.string key] => some ⟨key, ""⟩
  | .array [.string key, value] => some ⟨key, scalarText value⟩
  | _ => none

/-- The entries that a value is; nothing is no entries. -/
def ofJson : Option Json → Except Json.Fault (List Entry)
  | none | some .null => .ok []
  | some (.array items) =>
    match items.mapM entryOfJson? with
    | some entries => .ok entries
    | none => .error .unexpected
  | some _ => .error .unexpected

/-- An entry as an object. -/
def Entry.toJson (entry : Entry) : Json :=
  .object [("key", .string entry.key), ("value", .string entry.value)]

/-- Entries as a list of objects. -/
def toJson (entries : List Entry) : Json := .array (entries.map Entry.toJson)

end Configuration

end GitTransport
