/-
The normal form of a list of entries.

  A list becomes a dictionary, and a dictionary becomes a list again.  A dictionary comes
  through this unchanged (`toDictionary_ofDictionary`).  A list comes out in its normal form:
  of each key the last entry is left, and the entries stand in the order of the bytes of their
  keys (`normalForm_normalized`).

  A list with strictly increasing keys is its own normal form (`normalized_eq_self_iff`),
  since such a list is determined by what is found in it.  All normal forms are of this kind,
  so a second time nothing is changed.
-/

import GitTransport.Proofs.Configuration
import GitTransport.Proofs.Text.Utf8

namespace GitTransport.Configuration

/-- The list of the dictionary of a list. -/
def normalized (entries : List Entry) : List Entry := ofDictionary (toDictionary entries)

/-- The keys are strictly increasing, byte by byte. -/
def Increasing (entries : List Entry) : Prop :=
  entries.Pairwise fun a b => Text.utf8 a.key.toList < Text.utf8 b.key.toList

/-- The entry stands in the list, and none behind it has its key. -/
def IsLast (entries : List Entry) (entry : Entry) : Prop :=
  ∃ earlier later, entries = earlier ++ entry :: later ∧
    ∀ other ∈ later, other.key ≠ entry.key

/-- What the normal form of a list has to be. -/
structure NormalForm (entries form : List Entry) : Prop where
  increasing : Increasing form
  /-- No key is lost, and none is made up. -/
  keys : ∀ key, key ∈ form.map (·.key) ↔ key ∈ entries.map (·.key)
  /-- Of each key the last entry is left. -/
  last : ∀ entry, entry ∈ form ↔ IsLast entries entry

variable {entries : List Entry} {entry : Entry}

theorem increasing_iff : Increasing entries ↔ entries.Pairwise (·.key < ·.key) := by
  rw [Increasing]
  simp only [Text.utf8_lt_utf8_iff]

theorem increasing_iff_sorted : Increasing entries ↔ (pairs entries).Sorted := by
  rw [increasing_iff, Fields.Sorted, pairs, List.pairwise_map]

/-! ## The last entries -/

/-- The first entry of a key from behind is the last one from the front. -/
theorem find?_reverse_eq_some_iff :
    entries.reverse.find? (·.key = entry.key) = some entry ↔ IsLast entries entry := by
  rw [List.find?_eq_some_iff_append]
  constructor
  · rintro ⟨-, later, earlier, hreverse, hlater⟩
    refine ⟨earlier.reverse, later.reverse, ?_, fun other hother => ?_⟩
    · have heq := congrArg List.reverse hreverse
      rw [List.reverse_reverse] at heq
      simp [heq]
    · simpa using hlater other (List.mem_reverse.1 hother)
  · rintro ⟨earlier, later, rfl, hlater⟩
    refine ⟨decide_eq_true rfl, later.reverse, earlier.reverse, by simp, fun other hother => ?_⟩
    simpa using hlater other (List.mem_reverse.1 hother)

theorem mem_normalized_iff : entry ∈ normalized entries ↔ IsLast entries entry := by
  rw [normalized, mem_ofDictionary, get?_toDictionary_eq_find?, ← find?_reverse_eq_some_iff,
    Option.map_eq_some_iff]
  constructor
  · rintro ⟨found, hfind, hvalue⟩
    -- what is found has the key that was looked for
    have hkey : found.key = entry.key := by simpa using List.find?_some hfind
    have hfound : found = entry := by
      cases found
      cases entry
      cases hkey
      cases hvalue
      rfl
    rwa [hfound] at hfind
  · intro hfind
    exact ⟨entry, hfind, rfl⟩

/-- A key that has entries has a last one. -/
theorem exists_isLast {key : String} (h : key ∈ entries.map (·.key)) :
    ∃ last, last.key = key ∧ IsLast entries last := by
  cases hfind : entries.reverse.find? (·.key = key) with
  | some last =>
    have hkey : last.key = key := by simpa using List.find?_some hfind
    subst hkey
    exact ⟨last, rfl, find?_reverse_eq_some_iff.1 hfind⟩
  | none =>
    obtain ⟨some, hmem, rfl⟩ := List.mem_map.1 h
    have hnot := List.find?_eq_none.1 hfind some (List.mem_reverse.2 hmem)
    exact absurd (decide_eq_true rfl) hnot

theorem normalForm_normalized (entries : List Entry) : NormalForm entries (normalized entries) := by
  refine ⟨increasing_iff.2 (pairwise_ofDictionary _), fun key => ?_, fun _ => mem_normalized_iff⟩
  constructor
  · intro h
    obtain ⟨entry, hmem, rfl⟩ := List.mem_map.1 h
    obtain ⟨earlier, later, rfl, -⟩ := mem_normalized_iff.1 hmem
    exact List.mem_map_of_mem (List.mem_append_right _ List.mem_cons_self)
  · intro h
    obtain ⟨last, rfl, hlast⟩ := exists_isLast h
    exact List.mem_map_of_mem (mem_normalized_iff.2 hlast)

/-! ## Lists in their normal form -/

/-- A list with increasing keys has the pairs of its dictionary. -/
theorem fields_toDictionary (h : Increasing entries) :
    (toDictionary entries).fields = pairs entries := by
  have hsorted := increasing_iff_sorted.1 h
  refine (toDictionary entries).sorted.eq_of_get? hsorted fun name => ?_
  rw [← hsorted.get?_reverse]
  exact get?_toDictionary entries name

theorem normalized_eq_self_iff : normalized entries = entries ↔ Increasing entries := by
  constructor
  · intro h
    rw [← h]
    exact (normalForm_normalized entries).increasing
  · intro h
    rw [normalized, ofDictionary, fields_toDictionary h, pairs, List.map_map]
    exact List.map_id' entries

theorem normalized_normalized (entries : List Entry) :
    normalized (normalized entries) = normalized entries :=
  normalized_eq_self_iff.2 (normalForm_normalized entries).increasing

/-- Dictionaries and lists of entries are the same up to the normal form of a list, and a list
    that is written as JSON is read back as it is, in its normal form or not. -/
theorem adapters_inverse (values : Dictionary String) (entries : List Entry) :
    toDictionary (ofDictionary values) = values ∧
      NormalForm entries (normalized entries) ∧
      (normalized entries = entries ↔ Increasing entries) ∧
      normalized (normalized entries) = normalized entries ∧
      ofJson (some (toJson entries)) = .ok entries :=
  ⟨toDictionary_ofDictionary values, normalForm_normalized entries, normalized_eq_self_iff,
    normalized_normalized entries, ofJson_toJson entries⟩

/-- The second entry of a key takes the place of the first one, behind the keys before it. -/
example : normalized [⟨"B", "1"⟩, ⟨"A", "2"⟩, ⟨"B", "3"⟩] = [⟨"A", "2"⟩, ⟨"B", "3"⟩] := by decide

end GitTransport.Configuration
