/-
Commits, read and written.

  A commit has five texts.  An object gives them under their names (`memberNames`), an array
  one after the other; what is not given is empty (`Denotes`).  A text is the only thing that
  can stand in the place of one (`IsCommit`): here a null is refused.

  What is known of one commit carries over to the list of them, and a list that is written is
  read back (`listOfJson_map_toJson`).
-/

import GitTransport.Repository.History
import GitTransport.Proofs.Json.Items

namespace GitTransport.Commit

open Json

/-! ## Shapes -/

/-- The names of the members that give the texts of a commit. -/
def memberNames : List String := ["id", "author", "authorMail", "date", "message"]

/-- The texts of a commit, in the order of the names. -/
def texts (c : Commit) : List String := [c.id, c.author, c.authorMail, c.date, c.message]

/-- The text that a member gives, which may be missing. -/
inductive Gives : Option Json → String → Prop where
  | missing : Gives none ""
  | text (text : String) : Gives (some (.string text)) text

/-- The item stands for this commit. -/
inductive Denotes : Json → Commit → Prop where
  | object {members : Fields Json} {c : Commit}
      (h : List.Forall₂ (fun name text => Gives (Fields.get? members name) text)
        memberNames c.texts) : Denotes (.object members) c
  /-- The texts that the array lacks are those at the end. -/
  | array {given : List String} {c : Commit} (hlength : given.length ≤ 5)
      (h : c.texts = given.rightpad 5 "") : Denotes (.array (given.map .string)) c

/-- A member that is missing or a text. -/
def MayGive (member : Option Json) : Prop := member = none ∨ ∃ text, member = some (.string text)

/-- An object whose members of these names may be missing and are texts if not, or an array of
    at most five texts. -/
def IsCommit (item : Json) : Prop :=
  (∃ members, item = .object members ∧ ∀ name ∈ memberNames, MayGive (Fields.get? members name)) ∨
    ∃ items, item = .array items ∧ items.length ≤ 5 ∧ ∀ part ∈ items, ∃ text, part = .string text

variable {member : Option Json} {text : String} {members : Fields Json} {items : List Json}
  {given : List String} {item : Json} {value : Option Json} {c : Commit}

/-! ## Texts -/

/-- A text is read where one is given, and is the one that is given. -/
theorem textOf?_eq_some_iff : textOf? member = some text ↔ Gives member text := by
  constructor
  · intro h
    unfold textOf? at h
    split at h
    · cases h
      exact .missing
    · cases h
      exact .text _
    · cases h
  · intro h
    cases h <;> rfl

theorem exists_textOf?_iff : (∃ text, textOf? member = some text) ↔ MayGive member := by
  simp only [textOf?_eq_some_iff]
  constructor
  · rintro ⟨text, h⟩
    cases h with
    | missing => exact .inl rfl
    | text text => exact .inr ⟨text, rfl⟩
  · rintro (rfl | ⟨text, rfl⟩)
    · exact ⟨"", .missing⟩
    · exact ⟨text, .text text⟩

/-- Any five texts make a commit. -/
theorem exists_texts_eq (h : given.length = 5) : ∃ c : Commit, c.texts = given := by
  match given, h with
  | [id, author, authorMail, date, message], _ =>
    exact ⟨⟨id, author, authorMail, date, message⟩, rfl⟩

theorem mapM_asString?_eq_some_iff :
    items.mapM asString? = some given ↔ items = given.map .string := by
  rw [mapM_eq_some_iff]
  simp only [asString_eq_some_iff]
  rw [← List.forall₂_map_right_iff, List.forall₂_eq_eq_eq]

/-! ## One commit -/

/-- In an object the texts are looked for one by one. -/
theorem ofJson?_object_eq_some_iff :
    ofJson? (.object members) = some c ↔
      memberNames.mapM (fun name => textOf? (Fields.get? members name)) = some c.texts := by
  rw [mapM_eq_some_iff]
  simp only [ofJson?, Option.bind_eq_bind, Option.bind_eq_some_iff, memberNames, texts,
    List.forall₂_cons, List.Forall₂.nil, and_true]
  constructor
  · rintro ⟨id, hid, author, hauthor, authorMail, hmail, date, hdate, message, hmessage, heq⟩
    cases heq
    exact ⟨hid, hauthor, hmail, hdate, hmessage⟩
  · rintro ⟨hid, hauthor, hmail, hdate, hmessage⟩
    exact ⟨_, hid, _, hauthor, _, hmail, _, hdate, _, hmessage, rfl⟩

/-- The texts that are not there are empty ones at the end. -/
theorem texts_getD (h : given.length ≤ 5) :
    texts ⟨given.getD 0 "", given.getD 1 "", given.getD 2 "", given.getD 3 "", given.getD 4 ""⟩ =
      given.rightpad 5 "" := by
  match given, h with
  | [], _ => rfl
  | [_], _ => rfl
  | [_, _], _ => rfl
  | [_, _, _], _ => rfl
  | [_, _, _, _], _ => rfl
  | [_, _, _, _, _], _ => rfl

theorem texts_injective {d : Commit} (h : c.texts = d.texts) : c = d := by
  cases c
  cases d
  simpa [texts] using h

/-- In an array they are taken as they come. -/
theorem ofJson?_array_eq_some_iff :
    ofJson? (.array items) = some c ↔
      ∃ given : List String, items = given.map .string ∧ given.length ≤ 5 ∧
        c.texts = given.rightpad 5 "" := by
  rw [ofJson?]
  by_cases hlong : 5 < items.length
  · -- a sixth item is one too many, whatever it is
    rw [if_pos hlong]
    refine iff_of_false nofun ?_
    rintro ⟨given, rfl, hlength, -⟩
    rw [List.length_map] at hlong
    omega
  · rw [if_neg hlong]
    constructor
    · intro h
      obtain ⟨given, hgiven, heq⟩ := Option.bind_eq_some_iff.1 h
      obtain rfl := mapM_asString?_eq_some_iff.1 hgiven
      rw [List.length_map, Nat.not_lt] at hlong
      cases heq
      exact ⟨given, rfl, hlong, texts_getD hlong⟩
    · rintro ⟨given, rfl, hlength, htexts⟩
      obtain rfl := texts_injective (htexts.trans (texts_getD hlength).symm)
      exact Option.bind_eq_some_iff.2 ⟨given, mapM_asString?_eq_some_iff.2 rfl, rfl⟩

/-- What is read is what the item stands for. -/
theorem ofJson?_eq_some_iff : ofJson? item = some c ↔ Denotes item c := by
  cases item with
  | object members =>
    rw [ofJson?_object_eq_some_iff, mapM_eq_some_iff]
    simp only [textOf?_eq_some_iff]
    constructor
    · exact .object
    · intro h
      cases h with
      | object h => exact h
  | array items =>
    rw [ofJson?_array_eq_some_iff]
    constructor
    · rintro ⟨given, rfl, hlength, htexts⟩
      exact .array hlength htexts
    · intro h
      cases h with
      | array hlength htexts => exact ⟨_, rfl, hlength, htexts⟩
  | _ =>
    refine iff_of_false nofun fun h => ?_
    cases h

theorem exists_ofJson?_object_iff : (∃ c, ofJson? (.object members) = some c) ↔
    ∀ name ∈ memberNames, MayGive (Fields.get? members name) := by
  simp only [ofJson?_object_eq_some_iff, ← exists_textOf?_iff]
  rw [← exists_mapM_iff]
  constructor
  · rintro ⟨c, h⟩
    exact ⟨c.texts, h⟩
  · rintro ⟨texts, h⟩
    -- there is a text for each name, and so there are five
    have hlength : texts.length = 5 := (mapM_eq_some_iff.1 h).length_eq.symm
    obtain ⟨c, rfl⟩ := exists_texts_eq hlength
    exact ⟨c, h⟩

theorem exists_ofJson?_array_iff : (∃ c, ofJson? (.array items) = some c) ↔
    items.length ≤ 5 ∧ ∀ part ∈ items, ∃ text, part = .string text := by
  simp only [ofJson?_array_eq_some_iff]
  constructor
  · rintro ⟨c, given, rfl, hlength, -⟩
    refine ⟨by rwa [List.length_map], fun part hpart => ?_⟩
    obtain ⟨text, -, rfl⟩ := List.mem_map.1 hpart
    exact ⟨text, rfl⟩
  · rintro ⟨hlength, hparts⟩
    have hread : ∀ part ∈ items, ∃ text, part.asString? = some text := fun part hpart => by
      obtain ⟨text, rfl⟩ := hparts part hpart
      exact ⟨text, rfl⟩
    obtain ⟨given, hgiven⟩ := exists_mapM_iff.2 hread
    obtain rfl := mapM_asString?_eq_some_iff.1 hgiven
    rw [List.length_map] at hlength
    have hpadded : (given.rightpad 5 "").length = 5 := by
      rw [List.length_rightpad, Nat.max_eq_left hlength]
    obtain ⟨c, hc⟩ := exists_texts_eq hpadded
    exact ⟨c, given, rfl, hlength, hc⟩

/-- The shape alone decides, since no text is wrong. -/
theorem exists_ofJson?_iff : (∃ c, ofJson? item = some c) ↔ IsCommit item := by
  cases item with
  | object members => simp [exists_ofJson?_object_iff, IsCommit]
  | array items => simp [exists_ofJson?_array_iff, IsCommit]
  | _ =>
    refine iff_of_false (fun h => ?_) (by simp [IsCommit])
    obtain ⟨c, h⟩ := h
    cases h

theorem ofJson?_toJson (c : Commit) : ofJson? c.toJson = some c := rfl

/-! ## Lists of commits -/

theorem listOfJson_eq_readList : listOfJson = readList ofJson? := by
  funext value
  cases value with
  | none => rfl
  | some value =>
    cases value with
    | array items =>
      rw [listOfJson, readList]
      cases items.mapM ofJson? <;> rfl
    | _ => rfl

theorem listOfJson_eq_ok_iff {commits : List Commit} :
    listOfJson value = .ok commits ↔ Lists Denotes value commits := by
  rw [listOfJson_eq_readList]
  exact readList_eq_ok_iff fun _ _ => ofJson?_eq_some_iff

theorem exists_listOfJson_iff :
    (∃ commits, listOfJson value = .ok commits) ↔ IsListOf IsCommit value := by
  rw [listOfJson_eq_readList]
  exact exists_readList_iff fun _ => exists_ofJson?_iff

/-- All other values are refused as a whole. -/
theorem listOfJson_refused_iff {fault : Fault} :
    listOfJson value = .error fault ↔ fault = .unexpected ∧ ¬ IsListOf IsCommit value := by
  rw [listOfJson_eq_readList]
  exact readList_eq_error_iff fun _ => exists_ofJson?_iff

/-- What is written of a history is read back. -/
theorem listOfJson_map_toJson (commits : List Commit) :
    listOfJson (some (.array (commits.map toJson))) = .ok commits := by
  rw [listOfJson_eq_readList]
  exact readList_map ofJson?_toJson commits

end GitTransport.Commit
