/-
What a list of entries says of each key.

  The dictionary of a list holds, for each key, the value of its last entry
  (`get?_toDictionary`).  Giving a key a value changes what the list says of that key
  and nothing else, also when the key stands in it more than once
  (`get?_toDictionary_setKey`).  The list of a dictionary says the same as the dictionary
  (`toDictionary_ofDictionary`), and a list that is written is read back (`ofJson_toJson`).

  A list may hold an old value of a key before the one that counts.  It does not if it
  `Says` the value, as a list with one entry for a key does (`says_iff_of_mem_iff`).

  Giving a key a value in a list is the same as giving it the value in the dictionary of the
  list (`setKey_refines_insert`), although a list has places and a dictionary has none.
-/

import Mathlib.Data.List.Induction
import GitTransport.Configuration
import GitTransport.Proofs.Fields
import GitTransport.Proofs.Json.Items

namespace GitTransport.Configuration

/-- The pairs of a list of entries. -/
def pairs (entries : List Entry) : Fields String :=
  entries.map fun entry => (entry.key, entry.value)

/-- The last entry of a key counts. -/
theorem get?_toDictionary (entries : List Entry) (key : String) :
    (toDictionary entries).get? key = Fields.get? (pairs entries).reverse key :=
  Dictionary.get?_ofList _ key

theorem get?_toDictionary_eq_find? (entries : List Entry) (key : String) :
    (toDictionary entries).get? key =
      (entries.reverse.find? (·.key = key)).map (·.value) := by
  rw [get?_toDictionary, pairs, ← List.map_reverse]
  induction entries.reverse with
  | nil => rfl
  | cons entry rest ih =>
    rw [List.map_cons, Fields.get?_cons, ih]
    by_cases h : entry.key = key
    · rw [if_pos h, List.find?_cons_of_pos (by simpa using h)]
      rfl
    · rw [if_neg h, List.find?_cons_of_neg (by simpa using h)]

@[simp] theorem get?_toDictionary_nil (key : String) : (toDictionary []).get? key = none := rfl

/-- An entry at the end goes over all that stand before it. -/
theorem get?_toDictionary_concat (entries : List Entry) (last : Entry) (key : String) :
    (toDictionary (entries ++ [last])).get? key =
      if last.key = key then some last.value else (toDictionary entries).get? key := by
  rw [get?_toDictionary, get?_toDictionary]
  simp only [pairs, List.map_append, List.reverse_append]
  exact Fields.get?_cons _ _ _ _

/-- The list with every entry of `key` given `value`. -/
def overwritten (entries : List Entry) (key value : String) : List Entry :=
  entries.map fun entry => if entry.key = key then { entry with value := value } else entry

/-- Overwriting shows under the key itself, and only if the key has an entry. -/
theorem get?_toDictionary_overwritten (entries : List Entry) (key value name : String) :
    (toDictionary (overwritten entries key value)).get? name =
      if key = name ∧ ∃ entry ∈ entries, entry.key = key then some value
      else (toDictionary entries).get? name := by
  -- the last entry decides, so the list is taken apart from its end
  induction entries using List.reverseRecOn with
  | nil => simp [overwritten]
  | append_singleton entries last ih =>
    have hmap : overwritten (entries ++ [last]) key value = overwritten entries key value ++
        [if last.key = key then { last with value := value } else last] := by
      simp [overwritten]
    rw [hmap, get?_toDictionary_concat, get?_toDictionary_concat, ih]
    by_cases hlast : last.key = key
    · rw [if_pos hlast]
      by_cases hname : key = name
      · rw [if_pos (hlast.trans hname),
          if_pos ⟨hname, last, List.mem_append_right _ (List.mem_singleton_self _), hlast⟩]
      · have hne : ¬ last.key = name := fun h => hname (hlast.symm.trans h)
        rw [if_neg hne, if_neg (fun h => hname h.1), if_neg (fun h => hname h.1), if_neg hne]
    · rw [if_neg hlast]
      by_cases hname : last.key = name
      · have hne : ¬ key = name := fun h => hlast (hname.trans h.symm)
        rw [if_pos hname, if_neg (fun h => hne h.1), if_pos hname]
      · rw [if_neg hname]
        simp [hlast, hname]

section

variable {entries : List Entry} {key : String}

theorem any_key_iff : entries.any (·.key = key) = true ↔ key ∈ entries.map (·.key) := by
  simp

theorem setKey_of_mem (h : key ∈ entries.map (·.key)) (value : String) :
    setKey entries key value = overwritten entries key value :=
  if_pos (any_key_iff.2 h)

theorem setKey_of_not_mem (h : key ∉ entries.map (·.key)) (value : String) :
    setKey entries key value = entries ++ [⟨key, value⟩] :=
  if_neg (mt any_key_iff.1 h)

end

/-- Giving a key a value changes what a list says of this key and of no other. -/
theorem get?_toDictionary_setKey (entries : List Entry) (key value name : String) :
    (toDictionary (setKey entries key value)).get? name =
      if key = name then some value else (toDictionary entries).get? name := by
  by_cases h : key ∈ entries.map (·.key)
  · rw [setKey_of_mem h, get?_toDictionary_overwritten]
    by_cases hname : key = name
    · rw [if_pos ⟨hname, List.mem_map.1 h⟩, if_pos hname]
    · rw [if_neg (fun h => hname h.1), if_neg hname]
  · rw [setKey_of_not_mem h]
    exact get?_toDictionary_concat entries ⟨key, value⟩ name

/-! ## Lists with one value for a key -/

/-- The list gives a key this value and no other one. -/
def Says (entries : List Entry) (key value : String) : Prop :=
  ⟨key, value⟩ ∈ entries ∧ ∀ entry ∈ entries, entry.key = key → entry.value = value

variable {entries : List Entry} {values : String → Option String}

/-- A list that has just the entries of a function says what the function says. -/
theorem says_iff_of_mem_iff (h : ∀ entry, entry ∈ entries ↔ values entry.key = some entry.value)
    {key value : String} : Says entries key value ↔ values key = some value := by
  constructor
  · rintro ⟨hmem, -⟩
    exact (h _).1 hmem
  · intro hvalue
    refine ⟨(h _).2 hvalue, ?_⟩
    rintro entry hmem rfl
    exact Option.some.inj (((h entry).1 hmem).symm.trans hvalue)

theorem get?_toDictionary_of_mem_iff
    (h : ∀ entry, entry ∈ entries ↔ values entry.key = some entry.value) (key : String) :
    (toDictionary entries).get? key = values key := by
  rw [get?_toDictionary_eq_find?]
  cases hfind : entries.reverse.find? (·.key = key) with
  | some entry =>
    have hkey : entry.key = key := by simpa using List.find?_some hfind
    have hmem : entry ∈ entries := List.mem_reverse.1 (List.mem_of_find?_eq_some hfind)
    rw [← hkey, (h entry).1 hmem]
    rfl
  | none =>
    rw [List.find?_eq_none] at hfind
    cases hvalue : values key with
    | none => rfl
    | some value =>
      have hmem := List.mem_reverse.2 ((h ⟨key, value⟩).2 hvalue)
      exact absurd (decide_eq_true rfl) (hfind _ hmem)

/-! ## Written entries -/

/-- The entries of a dictionary are its values, each with its key. -/
theorem mem_ofDictionary {values : Dictionary String} {entry : Entry} :
    entry ∈ ofDictionary values ↔ values.get? entry.key = some entry.value := by
  rw [ofDictionary, List.mem_map]
  constructor
  · rintro ⟨⟨key, value⟩, hmem, rfl⟩
    exact values.sorted.get?_of_mem hmem
  · intro hget
    exact ⟨(entry.key, entry.value), Fields.mem_of_get? hget, rfl⟩

/-- The entries of a dictionary have its values. -/
@[simp] theorem toDictionary_ofDictionary (values : Dictionary String) :
    toDictionary (ofDictionary values) = values := by
  apply Dictionary.eq_of_get?
  intro key
  exact get?_toDictionary_of_mem_iff (fun _ => mem_ofDictionary) key

/-- The entries of a dictionary stand in the order of their keys. -/
theorem pairwise_ofDictionary (values : Dictionary String) :
    (ofDictionary values).Pairwise (·.key < ·.key) :=
  List.pairwise_map.2 values.sorted

theorem ofJson_eq_readList : ofJson = Json.readList entryOfJson? := by
  funext value
  cases value with
  | none => rfl
  | some value =>
    cases value with
    | array items =>
      rw [ofJson, Json.readList]
      cases items.mapM entryOfJson? <;> rfl
    | _ => rfl

theorem ofJson_cases (value : Option Json) :
    (∃ entries, ofJson value = .ok entries) ∨ ofJson value = .error .unexpected := by
  rw [ofJson_eq_readList]
  exact Json.readList_cases entryOfJson? value

/-- What cannot be read as entries is there, is not the empty value, and is no list of
    entries. -/
theorem ofJson_eq_error_iff {value : Option Json} {fault : Json.Fault} :
    ofJson value = .error fault ↔ fault = .unexpected ∧
      ∃ json, value = some json ∧ json ≠ .null ∧ ∀ entries, ofJson (some json) ≠ .ok entries := by
  constructor
  · intro h
    rcases ofJson_cases value with ⟨entries, hok⟩ | herror
    · rw [hok] at h
      cases h
    · rw [herror] at h
      cases h
      cases value with
      | none => cases herror
      | some json =>
        refine ⟨rfl, json, rfl, ?_, fun entries hok => ?_⟩
        · rintro rfl
          cases herror
        · rw [herror] at hok
          cases hok
  · rintro ⟨rfl, json, rfl, -, hbad⟩
    rcases ofJson_cases (some json) with ⟨entries, hok⟩ | herror
    · exact absurd hok (hbad entries)
    · exact herror

theorem entryOfJson?_toJson (entry : Entry) : entryOfJson? entry.toJson = some entry := rfl

/-- Entries that are written as JSON are read back. -/
@[simp] theorem ofJson_toJson (entries : List Entry) :
    ofJson (some (toJson entries)) = .ok entries := by
  rw [toJson, ofJson_eq_readList]
  exact Json.readList_map entryOfJson?_toJson entries

/-! ## Updates -/

section

variable (entries : List Entry) (key value : String)

theorem keys_overwritten :
    (overwritten entries key value).map (·.key) = entries.map (·.key) := by
  rw [overwritten, List.map_map]
  refine List.map_congr_left fun entry _ => ?_
  by_cases h : entry.key = key
  · rw [Function.comp_apply, if_pos h]
  · rw [Function.comp_apply, if_neg h]

variable {entries key} in
/-- Where the key has no entry, nothing is overwritten. -/
theorem overwritten_eq_self (h : key ∉ entries.map (·.key)) :
    overwritten entries key value = entries := by
  have hsame : ∀ entry ∈ entries,
      (if entry.key = key then { entry with value := value } else entry) = entry := by
    intro entry hentry
    refine if_neg fun hkey => h ?_
    rw [← hkey]
    exact List.mem_map_of_mem hentry
  rw [overwritten, List.map_congr_left hsame, List.map_id']

theorem overwritten_overwritten (later : String) :
    overwritten (overwritten entries key value) key later = overwritten entries key later := by
  rw [overwritten, overwritten, overwritten, List.map_map]
  refine List.map_congr_left fun entry _ => ?_
  by_cases h : entry.key = key
  · rw [Function.comp_apply, if_pos h, if_pos h, if_pos h]
  · rw [Function.comp_apply, if_neg h, if_neg h]

/-- Overwriting leaves the entries of other keys in their places, and makes no new ones. -/
theorem getElem?_overwritten_iff {entry : Entry} (hother : entry.key ≠ key) (place : Nat) :
    (overwritten entries key value)[place]? = some entry ↔ entries[place]? = some entry := by
  rw [overwritten, List.getElem?_map]
  cases entries[place]? with
  | none => simp
  | some old =>
    by_cases h : old.key = key
    · -- what has been overwritten still has the key, so it is no entry of another one
      have hold : old ≠ entry := fun heq => hother (heq ▸ h)
      have hnew : { old with value := value } ≠ entry := fun heq => hother (heq ▸ h)
      rw [Option.map_some, if_pos h, Option.some_inj, Option.some_inj]
      exact iff_of_false hnew hold
    · rw [Option.map_some, if_neg h]

theorem getElem?_concat_iff {entry last : Entry} (hother : entry ≠ last) (place : Nat) :
    (entries ++ [last])[place]? = some entry ↔ entries[place]? = some entry := by
  rw [List.getElem?_append]
  split
  · rfl
  · next hlt =>
    have hnone : entries[place]? = none := List.getElem?_eq_none (Nat.le_of_not_lt hlt)
    rw [hnone]
    refine iff_of_false (fun h => ?_) nofun
    exact hother (List.mem_singleton.1 (List.mem_of_getElem? h))

end

/-- What has become of a list in which a key has been given a value. -/
structure Updated (before : List Entry) (key value : String) (after : List Entry) : Prop where
  /-- The list says what its dictionary says once the key has been given the value there. -/
  dictionary : toDictionary after = (toDictionary before).insert key value
  /-- The keys are in their places, and a new one is the last. -/
  keys : after.map (·.key) =
    if key ∈ before.map (·.key) then before.map (·.key) else before.map (·.key) ++ [key]
  /-- The key has the value in all of its entries. -/
  own : Says after key value
  /-- All other entries are the same ones in the same places. -/
  others : ∀ (entry : Entry) (place : Nat), entry.key ≠ key →
    (after[place]? = some entry ↔ before[place]? = some entry)

section

variable (entries : List Entry) (key value : String)

theorem toDictionary_setKey :
    toDictionary (setKey entries key value) = (toDictionary entries).insert key value := by
  apply Dictionary.eq_of_get?
  intro name
  rw [get?_toDictionary_setKey, Dictionary.get?_insert]

theorem keys_setKey : (setKey entries key value).map (·.key) =
    if key ∈ entries.map (·.key) then entries.map (·.key) else entries.map (·.key) ++ [key] := by
  split
  · next h => rw [setKey_of_mem h, keys_overwritten]
  · next h =>
    rw [setKey_of_not_mem h, List.map_append]
    rfl

theorem mem_keys_setKey : key ∈ (setKey entries key value).map (·.key) := by
  rw [keys_setKey]
  split
  · assumption
  · exact List.mem_append_right _ (List.mem_singleton_self _)

theorem says_overwritten (h : key ∈ entries.map (·.key)) :
    Says (overwritten entries key value) key value := by
  obtain ⟨old, hold, rfl⟩ := List.mem_map.1 h
  refine ⟨List.mem_map.2 ⟨old, hold, if_pos rfl⟩, fun entry hentry hkey => ?_⟩
  obtain ⟨first, -, rfl⟩ := List.mem_map.1 hentry
  by_cases hfirst : first.key = old.key
  · rw [if_pos hfirst]
  · rw [if_neg hfirst] at hkey
    exact absurd hkey hfirst

theorem says_concat (h : key ∉ entries.map (·.key)) :
    Says (entries ++ [⟨key, value⟩]) key value := by
  refine ⟨List.mem_append_right _ (List.mem_singleton_self _), fun entry hentry hkey => ?_⟩
  rcases List.mem_append.1 hentry with hold | hlast
  · rw [← hkey] at h
    exact absurd (List.mem_map_of_mem hold) h
  · rw [List.mem_singleton.1 hlast]

theorem updated_setKey : Updated entries key value (setKey entries key value) := by
  refine ⟨toDictionary_setKey entries key value, keys_setKey entries key value, ?_, ?_⟩
  · by_cases h : key ∈ entries.map (·.key)
    · rw [setKey_of_mem h]
      exact says_overwritten entries key value h
    · rw [setKey_of_not_mem h]
      exact says_concat entries key value h
  · intro entry place hother
    by_cases h : key ∈ entries.map (·.key)
    · rw [setKey_of_mem h]
      exact getElem?_overwritten_iff entries key value hother place
    · rw [setKey_of_not_mem h]
      refine getElem?_concat_iff entries (fun heq => ?_) place
      exact hother (congrArg Entry.key heq)

/-- Only the last value counts that a key has been given. -/
theorem setKey_setKey (later : String) :
    setKey (setKey entries key value) key later = setKey entries key later := by
  -- the second time the key has an entry in any case
  rw [setKey_of_mem (mem_keys_setKey entries key value)]
  by_cases h : key ∈ entries.map (·.key)
  · rw [setKey_of_mem h, setKey_of_mem h, overwritten_overwritten]
  · have hlast : overwritten (entries ++ [⟨key, value⟩]) key later =
        overwritten entries key later ++ [⟨key, later⟩] := by
      simp [overwritten]
    rw [setKey_of_not_mem h, setKey_of_not_mem h, hlast, overwritten_eq_self later h]

/-- Giving a key a value in a list does to the list what it does to the dictionary of the list,
    also where the key has several entries.  A second value for the key makes the first one
    undone, and values for two keys can be given in either order. -/
theorem setKey_refines_insert :
    Updated entries key value (setKey entries key value) ∧
      (∀ later, setKey (setKey entries key value) key later = setKey entries key later) ∧
      ∀ other otherValue, other ≠ key →
        toDictionary (setKey (setKey entries key value) other otherValue) =
          toDictionary (setKey (setKey entries other otherValue) key value) := by
  refine ⟨updated_setKey entries key value, setKey_setKey entries key value, ?_⟩
  intro other otherValue hother
  simp only [toDictionary_setKey]
  exact Dictionary.insert_comm _ hother.symm value otherValue

end

/-- Every entry of a key is reached: here the key stands twice in the list, with another one
    between. -/
theorem setKey_refines_insert_repeated :
    Updated [⟨"A", "1"⟩, ⟨"B", "2"⟩, ⟨"A", "3"⟩] "A" "9" [⟨"A", "9"⟩, ⟨"B", "2"⟩, ⟨"A", "9"⟩] ∧
      "B" ≠ "A" ∧
      toDictionary (setKey [⟨"A", "9"⟩, ⟨"B", "2"⟩, ⟨"A", "9"⟩] "B" "0") =
        toDictionary (setKey [⟨"A", "1"⟩, ⟨"B", "0"⟩, ⟨"A", "3"⟩] "A" "9") := by
  have h := setKey_refines_insert [⟨"A", "1"⟩, ⟨"B", "2"⟩, ⟨"A", "3"⟩] "A" "9"
  exact ⟨h.1, by decide, h.2.2 "B" "0" (by decide)⟩

end GitTransport.Configuration
