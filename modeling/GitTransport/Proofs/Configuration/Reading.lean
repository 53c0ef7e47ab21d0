/-
Which JSON values are configurations.

  An item is an entry if it is an object with a text under `key`, or an array of a text and at
  most one more value (`IsEntry`); what else an object holds plays no part.  The value of an
  entry may be missing and need not be a text (`GivenAs`).

  These shapes are said without the reader.  The reader accepts them and no others
  (`entryOfJson?_eq_some_iff`, `exists_entryOfJson?_iff`), and what is known of one item carries
  over to lists.
-/

import GitTransport.Proofs.Configuration

namespace GitTransport.Configuration

open Json

/-! ## Shapes -/

/-- The text that stands for the value of an entry, which may be missing. -/
inductive GivenAs : Option Json → String → Prop where
  | missing : GivenAs none ""
  | null : GivenAs (some .null) ""
  | text (text : String) : GivenAs (some (.string text)) text
  /-- Anything else is given in its compact form. -/
  | other {value : Json} (hnull : value ≠ .null) (htext : ∀ text, value ≠ .string text) :
      GivenAs (some value) value.compact

/-- The item stands for this entry. -/
inductive Denotes : Json → Entry → Prop where
  | object {members : Fields Json} {key value : String}
      (hkey : Fields.get? members "key" = some (.string key))
      (hvalue : GivenAs (Fields.get? members "value") value) :
      Denotes (.object members) ⟨key, value⟩
  | key (key : String) : Denotes (.array [.string key]) ⟨key, ""⟩
  | pair {key value : String} {given : Json} (hvalue : GivenAs (some given) value) :
      Denotes (.array [.string key, given]) ⟨key, value⟩

/-- An object with a text as its key, or an array of one or two items with a text in front. -/
def IsEntry (item : Json) : Prop :=
  (∃ members key, item = .object members ∧ Fields.get? members "key" = some (.string key)) ∨
    ∃ items key, item = .array items ∧ (items.length = 1 ∨ items.length = 2) ∧
      items.head? = some (.string key)

variable {value : Option Json} {item : Json} {entry : Entry}

/-! ## Entries -/

theorem scalarText_eq_iff {value : Json} {text : String} :
    scalarText value = text ↔ GivenAs (some value) text := by
  constructor
  · rintro rfl
    cases value with
    | null => exact .null
    | string text => exact .text text
    | _ => exact .other (by simp) (by simp)
  · intro h
    cases h with
    | null => rfl
    | text => rfl
    | other hnull htext =>
      cases value with
      | null => exact absurd rfl hnull
      | string text => exact absurd rfl (htext text)
      | _ => rfl

theorem getD_map_scalarText_eq_iff {text : String} :
    (value.map scalarText).getD "" = text ↔ GivenAs value text := by
  cases value with
  | none =>
    constructor
    · rintro rfl
      exact .missing
    · intro h
      cases h
      rfl
  | some value => exact scalarText_eq_iff

/-- The reader of entries in terms of its arrays: of a text and at most one more value. -/
theorem entryOfJson?_array_eq_some_iff {items : List Json} :
    entryOfJson? (.array items) = some entry ↔
      items = [.string entry.key] ∧ entry.value = "" ∨
        ∃ given, items = [.string entry.key, given] ∧ scalarText given = entry.value := by
  obtain ⟨key, value⟩ := entry
  rcases items with _ | ⟨first, _ | ⟨second, _ | ⟨third, rest⟩⟩⟩
  · simp [entryOfJson?]
  · cases first <;> simp [entryOfJson?, eq_comm]
  · cases first <;> simp [entryOfJson?]
  · cases first <;> simp [entryOfJson?]

theorem entryOfJson?_object_eq_some_iff {members : Fields Json} :
    entryOfJson? (.object members) = some entry ↔
      Fields.get? members "key" = some (.string entry.key) ∧
        ((Fields.get? members "value").map scalarText).getD "" = entry.value := by
  obtain ⟨key, value⟩ := entry
  rw [entryOfJson?]
  cases Fields.get? members "key" with
  | none => simp
  | some found => cases found <;> simp

/-- What is read is what the item stands for. -/
theorem entryOfJson?_eq_some_iff : entryOfJson? item = some entry ↔ Denotes item entry := by
  cases item with
  | object members =>
    rw [entryOfJson?_object_eq_some_iff, getD_map_scalarText_eq_iff]
    constructor
    · rintro ⟨hkey, hvalue⟩
      exact .object hkey hvalue
    · intro h
      cases h with
      | object hkey hvalue => exact ⟨hkey, hvalue⟩
  | array items =>
    rw [entryOfJson?_array_eq_some_iff]
    simp only [scalarText_eq_iff]
    constructor
    · obtain ⟨key, value⟩ := entry
      rintro (⟨rfl, hvalue⟩ | ⟨given, rfl, hvalue⟩)
      · obtain rfl : value = "" := hvalue
        exact .key key
      · exact .pair hvalue
    · intro h
      cases h with
      | key => exact .inl ⟨rfl, rfl⟩
      | pair hvalue => exact .inr ⟨_, rfl, hvalue⟩
  | _ =>
    refine iff_of_false nofun (fun h => ?_)
    cases h

/-- Each value can be given as a text, so the shape alone decides. -/
theorem exists_entryOfJson?_iff : (∃ entry, entryOfJson? item = some entry) ↔ IsEntry item := by
  cases item with
  | object members =>
    simp only [entryOfJson?_object_eq_some_iff, IsEntry]
    constructor
    · rintro ⟨entry, hkey, -⟩
      exact .inl ⟨members, entry.key, rfl, hkey⟩
    · rintro (⟨_, key, heq, hkey⟩ | ⟨_, _, heq, -⟩)
      · cases heq
        exact ⟨⟨key, _⟩, hkey, rfl⟩
      · cases heq
  | array items =>
    simp only [entryOfJson?_array_eq_some_iff, IsEntry]
    constructor
    · rintro ⟨entry, ⟨rfl, -⟩ | ⟨given, rfl, -⟩⟩
      · exact .inr ⟨_, entry.key, rfl, .inl rfl, rfl⟩
      · exact .inr ⟨_, entry.key, rfl, .inr rfl, rfl⟩
    · rintro (⟨_, _, heq, -⟩ | ⟨_, key, heq, hlength, hhead⟩)
      · cases heq
      · cases heq
        obtain ⟨rest, rfl⟩ := List.head?_eq_some_iff.1 hhead
        rcases hlength with hlength | hlength
        · obtain rfl := List.length_eq_zero_iff.1 (Nat.succ.inj hlength)
          exact ⟨⟨key, ""⟩, .inl ⟨rfl, rfl⟩⟩
        · obtain ⟨given, rfl⟩ := List.length_eq_one_iff.1 (Nat.succ.inj hlength)
          exact ⟨⟨key, scalarText given⟩, .inr ⟨given, rfl, rfl⟩⟩
  | _ =>
    refine iff_of_false (fun h => ?_) (by simp [IsEntry])
    obtain ⟨entry, h⟩ := h
    cases h

/-! ## Lists of entries -/

theorem ofJson_eq_ok_iff {entries : List Entry} :
    ofJson value = .ok entries ↔ Lists Denotes value entries := by
  rw [ofJson_eq_readList]
  exact readList_eq_ok_iff fun _ _ => entryOfJson?_eq_some_iff

theorem exists_ofJson_iff : (∃ entries, ofJson value = .ok entries) ↔ IsListOf IsEntry value := by
  rw [ofJson_eq_readList]
  exact exists_readList_iff fun _ => exists_entryOfJson?_iff

/-- All other values are refused as a whole. -/
theorem ofJson_refused_iff {fault : Fault} :
    ofJson value = .error fault ↔ fault = .unexpected ∧ ¬ IsListOf IsEntry value := by
  rw [ofJson_eq_readList]
  exact readList_eq_error_iff fun _ => exists_entryOfJson?_iff

end GitTransport.Configuration
