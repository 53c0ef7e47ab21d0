/-
Lists in JSON, read item by item.

  A reader of one item gives a reader of lists (`readList`): each item is read by itself, and
  an item that cannot be read spoils the whole list.  Nothing at all, and the null value, are
  the empty list.

  What the list reader accepts and what it returns follow from what is known of the items: the
  results stand in the order of the items (`readList_eq_ok_iff`), and a list is refused exactly
  if one of its items is (`exists_readList_iff`, `readList_eq_error_iff`).  Items that are read
  back make lists that are read back (`readList_map`).
-/

import GitTransport.Json.Basic
import Mathlib.Data.List.Forall2

namespace GitTransport.Json

variable {α : Type}

/-- The list that a value is, each of its items read by itself. -/
def readList (read : Json → Option α) : Option Json → Except Fault (List α)
  | none | some .null => .ok []
  | some (.array items) =>
    match items.mapM read with
    | some results => .ok results
    | none => .error .unexpected
  | some _ => .error .unexpected

/-- The value lists these results: `Denotes` says which one an item stands for. -/
inductive Lists (Denotes : Json → α → Prop) : Option Json → List α → Prop where
  | missing : Lists Denotes none []
  | null : Lists Denotes (some .null) []
  | items {items : List Json} {results : List α} (h : List.Forall₂ Denotes items results) :
      Lists Denotes (some (.array items)) results

/-- Nothing is listed that no item stands for. -/
theorem Lists.exists_item {Denotes : Json → α → Prop} {value : Option Json} {results : List α}
    {result : α} (h : Lists Denotes value results) (hmem : result ∈ results) :
    ∃ item, Denotes item result := by
  cases h with
  | missing => cases hmem
  | null => cases hmem
  | items hitems =>
    obtain ⟨i, hi, rfl⟩ := List.mem_iff_getElem.1 hmem
    exact ⟨_, hitems.get (hitems.length_eq ▸ hi) hi⟩

/-- The value is missing, null, or an array of items that have a shape. -/
def IsListOf (Shaped : Json → Prop) (value : Option Json) : Prop :=
  value = none ∨ value = some .null ∨
    ∃ items, value = some (.array items) ∧ ∀ item ∈ items, Shaped item

/-- A text is read from a text and from nothing else. -/
theorem asString_eq_some_iff {value : Json} {text : String} :
    value.asString? = some text ↔ value = .string text := by
  cases value with
  | string own => simp [asString?]
  | _ => simp [asString?]

/-! ## Items, one after the other -/

section Items

variable {β : Type} {read : β → Option α} {items : List β} {results : List α}

theorem mapM_eq_some_iff :
    items.mapM read = some results ↔
      List.Forall₂ (fun item result => read item = some result) items results := by
  induction items generalizing results with
  | nil =>
    rw [List.mapM_nil, List.forall₂_nil_left_iff]
    exact Option.some_inj.trans eq_comm
  | cons item items ih =>
    rw [List.mapM_cons, List.forall₂_cons_left_iff, Option.bind_eq_bind, Option.bind_eq_some_iff]
    constructor
    · rintro ⟨result, hitem, hrest⟩
      obtain ⟨rest, hitems, heq⟩ := Option.bind_eq_some_iff.1 hrest
      cases heq
      exact ⟨result, rest, hitem, ih.1 hitems, rfl⟩
    · rintro ⟨result, rest, hitem, hitems, rfl⟩
      exact ⟨result, hitem, Option.bind_eq_some_iff.2 ⟨rest, ih.2 hitems, rfl⟩⟩

/-- Each item of a list has a partner in a list that stands beside it. -/
theorem exists_of_forall₂ {R : β → α → Prop} (h : List.Forall₂ R items results) {item : β}
    (hitem : item ∈ items) : ∃ result ∈ results, R item result := by
  induction h with
  | nil => cases hitem
  | cons hhead _ ih =>
    rcases List.mem_cons.1 hitem with rfl | hitem
    · exact ⟨_, List.mem_cons_self, hhead⟩
    · obtain ⟨result, hresult, hR⟩ := ih hitem
      exact ⟨result, List.mem_cons_of_mem _ hresult, hR⟩

/-- One item that cannot be read is enough to have no results. -/
theorem exists_mapM_iff :
    (∃ results, items.mapM read = some results) ↔
      ∀ item ∈ items, ∃ result, read item = some result := by
  induction items with
  | nil => simp
  | cons item items ih =>
    rw [List.forall_mem_cons, ← ih]
    constructor
    · rintro ⟨results, h⟩
      obtain ⟨result, rest, hitem, hitems, -⟩ :=
        List.forall₂_cons_left_iff.1 (mapM_eq_some_iff.1 h)
      exact ⟨⟨result, hitem⟩, rest, mapM_eq_some_iff.2 hitems⟩
    · rintro ⟨⟨result, hitem⟩, rest, hitems⟩
      exact ⟨result :: rest, mapM_eq_some_iff.2 (.cons hitem (mapM_eq_some_iff.1 hitems))⟩

end Items

/-! ## Lists -/

variable {read : Json → Option α} {items : List Json} {results : List α} {value : Option Json}

theorem readList_array_eq_ok_iff :
    readList read (some (.array items)) = .ok results ↔ items.mapM read = some results := by
  rw [readList]
  cases items.mapM read <;> simp

/-- The results are those of the items, in their order. -/
theorem readList_eq_ok_iff {Denotes : Json → α → Prop}
    (h : ∀ item result, read item = some result ↔ Denotes item result) :
    readList read value = .ok results ↔ Lists Denotes value results := by
  constructor
  · intro hread
    cases value with
    | none =>
      cases hread
      exact .missing
    | some value =>
      cases value with
      | null =>
        cases hread
        exact .null
      | array items =>
        have hitems := mapM_eq_some_iff.1 (readList_array_eq_ok_iff.1 hread)
        exact .items (hitems.imp fun item result => (h item result).1)
      | _ => cases hread
  · intro hlists
    cases hlists with
    | missing => rfl
    | null => rfl
    | items hitems =>
      apply readList_array_eq_ok_iff.2
      exact mapM_eq_some_iff.2 (hitems.imp fun item result => (h item result).2)

/-- A list is accepted exactly if it is a list and all of its items are accepted. -/
theorem exists_readList_iff {Shaped : Json → Prop}
    (h : ∀ item, (∃ result, read item = some result) ↔ Shaped item) :
    (∃ results, readList read value = .ok results) ↔ IsListOf Shaped value := by
  cases value with
  | none => exact iff_of_true ⟨[], rfl⟩ (.inl rfl)
  | some value =>
    cases value with
    | null => exact iff_of_true ⟨[], rfl⟩ (.inr (.inl rfl))
    | array items =>
      simp only [readList_array_eq_ok_iff, exists_mapM_iff, h, IsListOf]
      simp
    | _ =>
      refine iff_of_false (fun hread => ?_) (by simp [IsListOf])
      obtain ⟨results, hread⟩ := hread
      cases hread

/-- There is one way to fail. -/
theorem readList_cases (read : Json → Option α) (value : Option Json) :
    (∃ results, readList read value = .ok results) ∨ readList read value = .error .unexpected := by
  unfold readList
  split
  · exact .inl ⟨[], rfl⟩
  · exact .inl ⟨[], rfl⟩
  · split
    · exact .inl ⟨_, rfl⟩
    · exact .inr rfl
  · exact .inr rfl

theorem readList_eq_error_iff {Shaped : Json → Prop}
    (h : ∀ item, (∃ result, read item = some result) ↔ Shaped item) {fault : Fault} :
    readList read value = .error fault ↔ fault = .unexpected ∧ ¬ IsListOf Shaped value := by
  rw [← exists_readList_iff h]
  rcases readList_cases read value with ⟨results, hok⟩ | herror
  · rw [hok]
    simp
  · rw [herror]
    simp [eq_comm]

/-- Items that are read back make a list that is read back. -/
theorem readList_map {write : α → Json} (h : ∀ a, read (write a) = some a) (list : List α) :
    readList read (some (.array (list.map write))) = .ok list := by
  apply readList_array_eq_ok_iff.2
  apply mapM_eq_some_iff.2
  induction list with
  | nil => exact .nil
  | cons a list ih => exact .cons (h a) ih

end GitTransport.Json
