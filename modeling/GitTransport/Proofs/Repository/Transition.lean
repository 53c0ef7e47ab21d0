/-
Transitions, read and written.

  A transition is told by an object.  Its two commits may be missing or null, and all other
  members are kept (`Tells`).  Nothing is lost on the way: what is written again is the object
  that was read, with a null where a commit was missing (`toJson_of_tells`).

  In the other direction, a transition is read back from what is written of it exactly if
  nothing else that it holds has the name of a commit (`ofJson_toJson_iff`).  Otherwise that
  would go over the commit.
-/

import GitTransport.Repository.History
import GitTransport.Proofs.Fields

namespace GitTransport.CommitTransition

/-! ## What an object tells -/

/-- The commit that a member names, which may be missing or null. -/
inductive Names : Option Json → Option String → Prop where
  | missing : Names none none
  | null : Names (some .null) none
  | text (commit : String) : Names (some (.string commit)) (some commit)

/-- The members but for the two commits. -/
def others (members : Fields Json) : Fields Json :=
  members.filter fun pair => pair.1 ≠ "fromCommit" ∧ pair.1 ≠ "toCommit"

/-- The members tell this transition. -/
structure Tells (members : Fields Json) (t : CommitTransition) : Prop where
  fromCommit : Names (Fields.get? members "fromCommit") t.fromCommit
  toCommit : Names (Fields.get? members "toCommit") t.toCommit
  extra : t.extra = others members

/-- A member that is missing, null or a text. -/
def MayName (member : Option Json) : Prop :=
  member = none ∨ member = some .null ∨ ∃ commit, member = some (.string commit)

/-- The members with a null under a name that is missing. -/
def filledIn (members : Fields Json) (name : String) : Fields Json :=
  match Fields.get? members name with
  | none => Fields.insert name .null members
  | some _ => members

variable {members : Fields Json} {t : CommitTransition} {member : Option Json}
  {commit : Option String}

theorem optionalText?_eq_some_iff : optionalText? member = some commit ↔ Names member commit := by
  constructor
  · intro h
    unfold optionalText? at h
    split at h
    · cases h
      exact .missing
    · cases h
      exact .null
    · cases h
      exact .text _
    · cases h
  · intro h
    cases h <;> rfl

theorem exists_names_iff : (∃ commit, Names member commit) ↔ MayName member := by
  constructor
  · rintro ⟨commit, h⟩
    cases h with
    | missing => exact .inl rfl
    | null => exact .inr (.inl rfl)
    | text commit => exact .inr (.inr ⟨commit, rfl⟩)
  · rintro (rfl | rfl | ⟨commit, rfl⟩)
    · exact ⟨none, .missing⟩
    · exact ⟨none, .null⟩
    · exact ⟨some commit, .text commit⟩

/-- A commit that is written is what its member was, or the null of a missing one. -/
theorem optionalJson_of_names (h : Names member commit) :
    optionalJson commit = member.getD .null := by
  cases h <;> rfl

theorem names_optionalJson (commit : Option String) :
    Names (some (optionalJson commit)) commit := by
  cases commit with
  | none => exact .null
  | some commit => exact .text commit

/-! ## Reading -/

theorem others_eq_erase (members : Fields Json) :
    others members = (members.erase "fromCommit").erase "toCommit" := by
  rw [others, Fields.erase, Fields.erase, List.filter_filter]
  congr 1
  funext pair
  simp [Bool.and_comm]

theorem get?_others (members : Fields Json) (name : String) :
    Fields.get? (others members) name =
      if "toCommit" = name ∨ "fromCommit" = name then none else Fields.get? members name := by
  rw [others_eq_erase, Fields.get?_erase, Fields.get?_erase]
  by_cases hto : "toCommit" = name
  · rw [if_pos hto, if_pos (.inl hto)]
  · simp only [hto, false_or, if_false]

theorem sorted_others (h : members.Sorted) : (others members).Sorted := h.filter _

theorem ofJson_object_eq_ok_iff : ofJson (.object members) = .ok t ↔ Tells members t := by
  obtain ⟨before, after, extra⟩ := t
  rw [ofJson, ← others_eq_erase]
  constructor
  · intro h
    split at h
    · next hbefore hafter =>
      cases h
      exact ⟨optionalText?_eq_some_iff.1 hbefore, optionalText?_eq_some_iff.1 hafter, rfl⟩
    · cases h
  · rintro ⟨hbefore, hafter, hextra⟩
    obtain rfl : extra = others members := hextra
    rw [optionalText?_eq_some_iff.2 hbefore, optionalText?_eq_some_iff.2 hafter]

/-- Only the two commits can be wrong in an object, and nothing else is a transition. -/
theorem exists_ofJson_iff {v : Json} : (∃ t, ofJson v = .ok t) ↔
    ∃ members, v = .object members ∧ MayName (Fields.get? members "fromCommit") ∧
      MayName (Fields.get? members "toCommit") := by
  cases v with
  | object members =>
    simp only [ofJson_object_eq_ok_iff]
    constructor
    · rintro ⟨t, ht⟩
      exact ⟨members, rfl, exists_names_iff.1 ⟨_, ht.fromCommit⟩,
        exists_names_iff.1 ⟨_, ht.toCommit⟩⟩
    · rintro ⟨_, heq, hbefore, hafter⟩
      cases heq
      obtain ⟨before, hbefore⟩ := exists_names_iff.2 hbefore
      obtain ⟨after, hafter⟩ := exists_names_iff.2 hafter
      exact ⟨⟨before, after, others members⟩, hbefore, hafter, rfl⟩
  | _ =>
    refine iff_of_false (fun h => ?_) (by simp)
    obtain ⟨t, h⟩ := h
    cases h

theorem ofJson_cases (v : Json) : (∃ t, ofJson v = .ok t) ∨ ofJson v = .error .unexpected := by
  unfold ofJson
  split
  · split
    · exact .inl ⟨_, rfl⟩
    · exact .inr rfl
  · exact .inr rfl

/-! ## Writing -/

/-- The two commits as members. -/
def commits (t : CommitTransition) : Fields Json :=
  [("fromCommit", optionalJson t.fromCommit), ("toCommit", optionalJson t.toCommit)]

theorem sorted_commits (t : CommitTransition) : t.commits.Sorted := by
  have hnames : ["fromCommit", "toCommit"].Pairwise (· < ·) := by decide
  exact List.pairwise_map.1 hnames

theorem toJson_eq (t : CommitTransition) : t.toJson = .object (t.commits.extend t.extra) := rfl

theorem get?_commits_of_ne {name : String} (h : ¬ ("toCommit" = name ∨ "fromCommit" = name)) :
    Fields.get? t.commits name = none := by
  obtain ⟨hto, hfrom⟩ := not_or.1 h
  rw [commits, Fields.get?_cons, if_neg hfrom, Fields.get?_cons, if_neg hto, Fields.get?_nil]

theorem get?_filledIn (members : Fields Json) (key name : String) :
    Fields.get? (filledIn members key) name =
      if key = name then some ((Fields.get? members key).getD .null)
      else Fields.get? members name := by
  unfold filledIn
  split
  · next hget => rw [Fields.get?_insert, hget, Option.getD_none]
  · next value hget =>
    split
    · next hname => rw [← hname, hget, Option.getD_some]
    · rfl

theorem sorted_filledIn (h : members.Sorted) (name : String) : (filledIn members name).Sorted := by
  unfold filledIn
  split
  · exact h.insert name _
  · exact h

/-- What is written of a transition is the object that told it, with nulls for the commits that
    it lacks. -/
theorem toJson_of_tells (hsorted : members.Sorted) (h : Tells members t) :
    t.toJson = .object (filledIn (filledIn members "fromCommit") "toCommit") := by
  rw [toJson_eq]
  congr 1
  have hextra : t.extra.Sorted := h.extra ▸ sorted_others hsorted
  refine (t.sorted_commits.extend t.extra).eq_of_get?
    (sorted_filledIn (sorted_filledIn hsorted _) _) fun name => ?_
  rw [hextra.get?_extend, h.extra, get?_others, get?_filledIn, get?_filledIn, get?_filledIn]
  by_cases hname : "toCommit" = name ∨ "fromCommit" = name
  · rw [if_pos hname, Option.none_or]
    rcases hname with rfl | rfl
    · simp [commits, Fields.get?_cons, optionalJson_of_names h.toCommit]
    · simp [commits, Fields.get?_cons, optionalJson_of_names h.fromCommit]
  · obtain ⟨hto, hfrom⟩ := not_or.1 hname
    rw [if_neg hname, get?_commits_of_ne hname, Option.or_none, if_neg hto, if_neg hfrom]

/-- A transition is read back exactly if its other members are in order and none of them has
    the name of a commit. -/
theorem ofJson_toJson_iff : ofJson t.toJson = .ok t ↔
    t.extra.Sorted ∧ Fields.get? t.extra "fromCommit" = none ∧
      Fields.get? t.extra "toCommit" = none := by
  rw [toJson_eq, ofJson_object_eq_ok_iff]
  constructor
  · intro h
    -- what is read has no other kind of members
    rw [h.extra]
    refine ⟨sorted_others (t.sorted_commits.extend t.extra), ?_, ?_⟩
    · rw [get?_others, if_pos (.inr rfl)]
    · rw [get?_others, if_pos (.inl rfl)]
  · rintro ⟨hsorted, hfrom, hto⟩
    have hget (name : String) : Fields.get? (t.commits.extend t.extra) name =
        (Fields.get? t.extra name).or (Fields.get? t.commits name) :=
      hsorted.get?_extend t.commits name
    refine ⟨?_, ?_, ?_⟩
    · rw [hget, hfrom]
      exact names_optionalJson t.fromCommit
    · rw [hget, hto]
      exact names_optionalJson t.toCommit
    · refine hsorted.eq_of_get? (sorted_others (t.sorted_commits.extend t.extra)) fun name => ?_
      rw [get?_others, hget]
      split
      · next hname => rcases hname with rfl | rfl <;> assumption
      · next hname => rw [get?_commits_of_ne hname, Option.or_none]

/-- Reading the value as a transition loses nothing. -/
structure Lossless (v : Json) : Prop where
  /-- It is read exactly if it is an object in which no commit is anything but a text. -/
  accepted : (∃ t, ofJson v = .ok t) ↔ ∃ members, v = .object members ∧
    MayName (Fields.get? members "fromCommit") ∧ MayName (Fields.get? members "toCommit")
  refused : (∀ t, ofJson v ≠ .ok t) → ofJson v = .error .unexpected
  /-- The two commits are what their members name, and all other members are kept. -/
  told : ∀ members t, v = .object members → ofJson v = .ok t → Tells members t
  /-- Written again, it is the same object with a null for a commit that is missing. -/
  written : ∀ members t, v = .object members → ofJson v = .ok t → v.WellFormed →
    t.toJson = .object (filledIn (filledIn members "fromCommit") "toCommit")

theorem lossless (v : Json) : Lossless v := by
  refine ⟨exists_ofJson_iff, fun hnone => ?_, ?_, ?_⟩
  · rcases ofJson_cases v with ⟨t, hok⟩ | herror
    · exact absurd hok (hnone t)
    · exact herror
  · rintro members t rfl hok
    exact ofJson_object_eq_ok_iff.1 hok
  · rintro members t rfl hok hwell
    rw [Json.WellFormed] at hwell
    exact toJson_of_tells hwell.1 (ofJson_object_eq_ok_iff.1 hok)

end GitTransport.CommitTransition
