/-
What is found in named values.

  The operations on `Fields` are seen through `get?`: an insertion changes what is
  found under one name, and extending by a list finds the last pair of a name in that
  list (`get?_extend`).  Fields in order are determined by what is found in them
  (`Sorted.eq_of_get?`), so dictionaries are compared name by name; a name is found in
  them from either end, so what is laid over a dictionary wins (`Dictionary.get?_extend`).
-/

import GitTransport.Fields

namespace GitTransport

namespace Fields

variable {α : Type}

@[simp] theorem get?_nil (name : String) : get? ([] : Fields α) name = none := rfl

theorem get?_cons (k : String) (v : α) (rest : Fields α) (name : String) :
    get? ((k, v) :: rest) name = if k = name then some v else get? rest name := rfl

/-- What is found in two lists is found in the first, or else in the second. -/
theorem get?_append (first rest : Fields α) (name : String) :
    get? (first ++ rest) name = (get? first name).or (get? rest name) := by
  induction first with
  | nil => rfl
  | cons pair first ih =>
    obtain ⟨k, v⟩ := pair
    rw [List.cons_append, get?_cons, get?_cons]
    by_cases h : k = name
    · rw [if_pos h, if_pos h]
      rfl
    · rw [if_neg h, if_neg h, ih]

/-- An insertion changes what is found under its own name only. -/
theorem get?_insert (key : String) (value : α) (fields : Fields α) (name : String) :
    get? (insert key value fields) name = if key = name then some value else get? fields name := by
  induction fields with
  | nil => rfl
  | cons pair rest ih =>
    obtain ⟨k, v⟩ := pair
    simp only [insert]
    by_cases hlt : key < k
    · rw [if_pos hlt, get?_cons]
    · rw [if_neg hlt]
      by_cases heq : k = key
      · -- the old value stands here, and is gone
        subst heq
        rw [if_pos rfl, get?_cons, get?_cons]
        by_cases hname : k = name
        · rw [if_pos hname, if_pos hname]
        · rw [if_neg hname, if_neg hname, if_neg hname]
      · rw [if_neg heq, get?_cons, get?_cons, ih]
        by_cases hname : key = name
        · subst hname
          rw [if_neg heq, if_pos rfl, if_pos rfl]
        · rw [if_neg hname, if_neg hname]

/-- A later pair wins over an earlier one and over what was there before. -/
theorem get?_extend (fields more : Fields α) (name : String) :
    get? (extend fields more) name = (get? more.reverse name).or (get? fields name) := by
  induction more generalizing fields with
  | nil => rfl
  | cons pair more ih =>
    obtain ⟨k, v⟩ := pair
    have hstep : extend fields ((k, v) :: more) = extend (insert k v fields) more := rfl
    rw [hstep, ih, get?_insert, List.reverse_cons, get?_append, get?_cons]
    by_cases h : k = name
    · rw [if_pos h, if_pos h]
      cases get? more.reverse name <;> rfl
    · rw [if_neg h, if_neg h]
      cases get? more.reverse name <;> rfl

theorem get?_ofList (pairs : List (String × α)) (name : String) :
    get? (ofList pairs) name = get? pairs.reverse name := by
  rw [ofList, get?_extend, get?_nil, Option.or_none]

/-- Leaving a name out changes what is found under this name only. -/
theorem get?_erase (fields : Fields α) (key name : String) :
    get? (erase fields key) name = if key = name then none else get? fields name := by
  induction fields with
  | nil => exact (ite_self none).symm
  | cons pair rest ih =>
    obtain ⟨k, v⟩ := pair
    by_cases hk : k = key
    · -- this pair is left out
      rw [erase, List.filter_cons_of_neg (by simpa using hk), ← erase, ih, get?_cons]
      by_cases hname : key = name
      · rw [if_pos hname, if_pos hname]
      · rw [if_neg hname, if_neg hname, if_neg (fun h => hname (hk.symm.trans h))]
    · rw [erase, List.filter_cons_of_pos (by simpa using hk), ← erase, get?_cons, get?_cons, ih]
      by_cases hname : k = name
      · rw [if_pos hname, if_pos hname, if_neg (fun h => hk (hname.trans h.symm))]
      · rw [if_neg hname, if_neg hname]

theorem mem_of_get? {fields : Fields α} {name : String} {value : α}
    (h : get? fields name = some value) : (name, value) ∈ fields := by
  induction fields with
  | nil => cases h
  | cons pair rest ih =>
    obtain ⟨k, v⟩ := pair
    rw [get?_cons] at h
    by_cases hk : k = name
    · rw [if_pos hk] at h
      cases h
      rw [hk]
      exact List.mem_cons_self
    · rw [if_neg hk] at h
      exact List.mem_cons_of_mem _ (ih h)

/-! ## Fields in order -/

/-- A name that stands before all others is not found behind them. -/
theorem get?_eq_none_of_lt {fields : Fields α} {name : String}
    (h : ∀ pair ∈ fields, name < pair.1) : get? fields name = none := by
  cases hget : get? fields name with
  | none => rfl
  | some value => exact absurd (h _ (mem_of_get? hget)) (String.lt_irrefl name)

/-- The first of two lists in order cannot begin with a name that the other lacks
    there. -/
theorem Sorted.not_lt_of_get? {k l : String} {v w : α} {as bs : Fields α}
    (hb : Sorted ((l, w) :: bs))
    (h : ∀ name, get? ((k, v) :: as) name = get? ((l, w) :: bs) name) : ¬ k < l := by
  intro hlt
  have hall : ∀ pair ∈ (l, w) :: bs, k < pair.1 := by
    intro pair hpair
    rcases List.mem_cons.1 hpair with rfl | hpair
    · exact hlt
    · exact String.lt_trans hlt ((List.pairwise_cons.1 hb).1 pair hpair)
  have hk := h k
  rw [get?_cons, if_pos rfl, get?_eq_none_of_lt hall] at hk
  cases hk

/-- Fields in order are determined by what is found in them. -/
theorem Sorted.eq_of_get? {a b : Fields α} (ha : a.Sorted) (hb : b.Sorted)
    (h : ∀ name, get? a name = get? b name) : a = b := by
  induction a generalizing b with
  | nil =>
    cases b with
    | nil => rfl
    | cons pair b =>
      obtain ⟨l, w⟩ := pair
      have hl := h l
      rw [get?_nil, get?_cons, if_pos rfl] at hl
      cases hl
  | cons pair a ih =>
    obtain ⟨k, v⟩ := pair
    cases b with
    | nil =>
      have hk := h k
      rw [get?_nil, get?_cons, if_pos rfl] at hk
      cases hk
    | cons pair b =>
      obtain ⟨l, w⟩ := pair
      have hkl : k = l := String.le_antisymm
        (String.not_lt.1 (Sorted.not_lt_of_get? ha fun name => (h name).symm))
        (String.not_lt.1 (Sorted.not_lt_of_get? hb h))
      subst hkl
      have hhead := h k
      rw [get?_cons, get?_cons, if_pos rfl, if_pos rfl] at hhead
      cases hhead
      obtain ⟨hka, ha⟩ := List.pairwise_cons.1 ha
      obtain ⟨hkb, hb⟩ := List.pairwise_cons.1 hb
      congr 1
      -- the common first name is found in neither rest
      refine ih ha hb fun name => ?_
      by_cases hname : k = name
      · subst hname
        rw [get?_eq_none_of_lt hka, get?_eq_none_of_lt hkb]
      · have htail := h name
        rwa [get?_cons, get?_cons, if_neg hname, if_neg hname] at htail

/-- Each pair of fields in order is found under its name. -/
theorem Sorted.get?_of_mem {fields : Fields α} (h : fields.Sorted) {name : String} {value : α}
    (hmem : (name, value) ∈ fields) : get? fields name = some value := by
  induction fields with
  | nil => cases hmem
  | cons pair rest ih =>
    obtain ⟨k, v⟩ := pair
    obtain ⟨hk, hrest⟩ := List.pairwise_cons.1 h
    rw [get?_cons]
    rcases List.mem_cons.1 hmem with heq | hmem
    · cases heq
      exact if_pos rfl
    · rw [if_neg, ih hrest hmem]
      rintro rfl
      exact String.lt_irrefl k (hk (k, value) hmem)

/-- In fields in order an insertion under a name that is there replaces its value, and leaves
    every other pair in its place. -/
theorem Sorted.insert_eq_map {fields : Fields α} (h : fields.Sorted) {key : String} {old : α}
    (hget : get? fields key = some old) (value : α) :
    Fields.insert key value fields =
      fields.map fun pair => if pair.1 = key then (pair.1, value) else pair := by
  induction fields with
  | nil => cases hget
  | cons pair rest ih =>
    obtain ⟨k, v⟩ := pair
    obtain ⟨hk, hrest⟩ := List.pairwise_cons.1 h
    rw [get?_cons] at hget
    by_cases heq : k = key
    · -- the name stands here, so it stands nowhere else
      subst heq
      have hkeep : ∀ pair ∈ rest, (if pair.1 = k then (pair.1, value) else pair) = pair := by
        intro pair hpair
        have hne : pair.1 ≠ k := fun hname => String.lt_irrefl k (hname ▸ hk pair hpair)
        exact if_neg hne
      rw [Fields.insert, if_neg (String.lt_irrefl k), if_pos rfl, List.map_cons, if_pos rfl,
        List.map_congr_left hkeep, List.map_id']
    · rw [if_neg heq] at hget
      -- the name stands further on, so it comes after the first name
      have hlt : k < key := hk _ (mem_of_get? hget)
      have hnot : ¬ key < k := fun h => String.lt_irrefl k (String.lt_trans hlt h)
      rw [Fields.insert, if_neg hnot, if_neg heq, List.map_cons, if_neg heq, ih hrest hget]

/-- In fields in order it makes no difference from which end a name is looked for. -/
theorem Sorted.get?_reverse {fields : Fields α} (h : fields.Sorted) (name : String) :
    get? fields.reverse name = get? fields name := by
  induction fields with
  | nil => rfl
  | cons pair rest ih =>
    obtain ⟨k, v⟩ := pair
    obtain ⟨hk, hrest⟩ := List.pairwise_cons.1 h
    rw [List.reverse_cons, get?_append, ih hrest, get?_cons, get?_cons]
    by_cases hname : k = name
    · subst hname
      rw [get?_eq_none_of_lt hk, if_pos rfl, if_pos rfl]
      rfl
    · rw [if_neg hname, if_neg hname, get?_nil, Option.or_none]

/-- What is laid over fields in order wins over what was there before. -/
theorem Sorted.get?_extend {more : Fields α} (h : more.Sorted) (fields : Fields α)
    (name : String) :
    get? (Fields.extend fields more) name = (get? more name).or (get? fields name) := by
  rw [Fields.get?_extend, h.get?_reverse]

end Fields

/-! ## Dictionaries -/

namespace Dictionary

variable {α : Type}

/-- Dictionaries in which the same is found are the same. -/
theorem eq_of_get? {a b : Dictionary α} (h : ∀ name, a.get? name = b.get? name) : a = b :=
  ext (a.sorted.eq_of_get? b.sorted h)

theorem isEmpty_iff {d : Dictionary α} : d.isEmpty = true ↔ d = .empty := by
  rw [isEmpty, List.isEmpty_iff]
  exact ⟨fun h => ext h, fun h => congrArg fields h⟩

theorem get?_insert (d : Dictionary α) (key : String) (value : α) (name : String) :
    (d.insert key value).get? name = if key = name then some value else d.get? name :=
  Fields.get?_insert key value d.fields name

/-- Values under two names can be given in either order. -/
theorem insert_comm (d : Dictionary α) {key other : String} (h : key ≠ other)
    (value otherValue : α) : (d.insert key value).insert other otherValue =
      (d.insert other otherValue).insert key value := by
  apply eq_of_get?
  intro name
  rw [get?_insert, get?_insert, get?_insert, get?_insert]
  by_cases hname : other = name
  · rw [if_pos hname, if_pos hname, if_neg (fun hkey => h (hkey.trans hname.symm))]
  · rw [if_neg hname, if_neg hname]

theorem get?_extend (d more : Dictionary α) (name : String) :
    (d.extend more).get? name = (more.get? name).or (d.get? name) :=
  more.sorted.get?_extend d.fields name

theorem get?_ofList (pairs : List (String × α)) (name : String) :
    (ofList pairs).get? name = Fields.get? pairs.reverse name :=
  Fields.get?_ofList pairs name

end Dictionary

end GitTransport
