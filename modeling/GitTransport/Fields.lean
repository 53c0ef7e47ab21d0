/-
Named values in the order of their names.

  `Fields α` is a plain list of pairs, so that it can occur inside a recursive
  type; its operations keep the names strictly increasing when they start from
  such a list (`Sorted`).  `Dictionary α` carries that fact with it.  Names are
  ordered by their code points, which is the order of their UTF-8 bytes.
-/

namespace GitTransport

/-- Pairs of a name and a value. -/
abbrev Fields (α : Type) := List (String × α)

namespace Fields

variable {α : Type}

/-- The names are strictly increasing, hence distinct. -/
def Sorted (fields : Fields α) : Prop := fields.Pairwise (·.1 < ·.1)

instance (fields : Fields α) : Decidable fields.Sorted :=
  inferInstanceAs (Decidable (fields.Pairwise _))

/-- The value of the first pair with this name. -/
def get? : Fields α → String → Option α
  | [], _ => none
  | (k, v) :: rest, key => if k = key then some v else get? rest key

/-- Give `key` a value, at the place that keeps the names in order. -/
def insert (key : String) (value : α) : Fields α → Fields α
  | [] => [(key, value)]
  | (k, v) :: rest =>
    if key < k then (key, value) :: (k, v) :: rest
    else if k = key then (key, value) :: rest
    else (k, v) :: insert key value rest

/-- Leave out every pair with this name. -/
def erase (fields : Fields α) (key : String) : Fields α := fields.filter (·.1 ≠ key)

/-- Insert the pairs of `more` one after the other; a later pair wins. -/
def extend (fields more : Fields α) : Fields α :=
  more.foldl (fun acc pair => insert pair.1 pair.2 acc) fields

/-- The pairs in the order of their names; of two with one name the later wins. -/
def ofList (pairs : List (String × α)) : Fields α := extend [] pairs

/-! ## What the operations keep -/

theorem sorted_nil : Sorted ([] : Fields α) := List.Pairwise.nil

theorem mem_insert {key : String} {value : α} {fields : Fields α} {pair : String × α}
    (h : pair ∈ insert key value fields) : pair = (key, value) ∨ pair ∈ fields := by
  induction fields with
  | nil => simpa [insert] using h
  | cons head rest ih =>
    obtain ⟨k, v⟩ := head
    simp only [insert] at h
    split at h
    · simpa using h
    · split at h
      · rcases List.mem_cons.1 h with h | h
        · exact .inl h
        · exact .inr (List.mem_cons_of_mem _ h)
      · rcases List.mem_cons.1 h with h | h
        · exact .inr (h ▸ List.mem_cons_self)
        · exact (ih h).imp_right (List.mem_cons_of_mem _)

theorem Sorted.insert {fields : Fields α} (h : fields.Sorted) (key : String) (value : α) :
    (Fields.insert key value fields).Sorted := by
  induction fields with
  | nil => exact List.pairwise_singleton ..
  | cons head rest ih =>
    obtain ⟨k, v⟩ := head
    obtain ⟨hk, hrest⟩ := List.pairwise_cons.1 h
    simp only [Fields.insert]
    split
    · next hlt =>
      refine List.pairwise_cons.2 ⟨fun pair hp => ?_, h⟩
      rcases List.mem_cons.1 hp with hp | hp
      · exact hp ▸ hlt
      · exact String.lt_trans hlt (hk pair hp)
    · split
      · next heq =>
        subst heq
        exact List.pairwise_cons.2 ⟨hk, hrest⟩
      · next hlt hne =>
        refine List.pairwise_cons.2 ⟨fun pair hp => ?_, ih hrest⟩
        rcases mem_insert hp with hp | hp
        · subst hp
          refine Decidable.byContradiction fun hge => hne ?_
          exact String.le_antisymm (String.not_lt.1 hlt) (String.not_lt.1 hge)
        · exact hk pair hp

theorem Sorted.extend {fields : Fields α} (h : fields.Sorted) (more : Fields α) :
    (fields.extend more).Sorted := by
  induction more generalizing fields with
  | nil => exact h
  | cons pair more ih => exact ih (h.insert pair.1 pair.2)

theorem sorted_ofList (pairs : List (String × α)) : (ofList pairs).Sorted :=
  sorted_nil.extend pairs

end Fields

/-- Values under distinct names, in the order of the names. -/
structure Dictionary (α : Type) where
  fields : Fields α
  sorted : fields.Sorted

namespace Dictionary

variable {α : Type}

@[ext] theorem ext {a b : Dictionary α} (h : a.fields = b.fields) : a = b := by
  cases a; cases b; cases h; rfl

instance [DecidableEq α] : DecidableEq (Dictionary α) := fun a b =>
  decidable_of_iff (a.fields = b.fields) ⟨ext, congrArg fields⟩

/-- No names at all. -/
def empty : Dictionary α := ⟨[], Fields.sorted_nil⟩

/-- The value under a name. -/
def get? (d : Dictionary α) (key : String) : Option α := d.fields.get? key

/-- Give a name a value, replacing the one that it had. -/
def insert (d : Dictionary α) (key : String) (value : α) : Dictionary α :=
  ⟨d.fields.insert key value, d.sorted.insert key value⟩

/-- The entries of `more` over those of `d`. -/
def extend (d more : Dictionary α) : Dictionary α :=
  ⟨d.fields.extend more.fields, d.sorted.extend more.fields⟩

/-- Of two pairs with one name the later wins. -/
def ofList (pairs : List (String × α)) : Dictionary α :=
  ⟨Fields.ofList pairs, Fields.sorted_ofList pairs⟩

/-- Whether there are no names. -/
def isEmpty (d : Dictionary α) : Bool := d.fields.isEmpty

end Dictionary

end GitTransport
