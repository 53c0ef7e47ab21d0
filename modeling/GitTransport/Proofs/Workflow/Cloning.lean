/-
The requests of a clone.

  A clone begins with the registration.  An error of it ends the clone, unless the
  options tolerate it, and then the record is asked for.  The record that is known then,
  from the one reply or the other, decides whether the request to clone is sent
  (`Finish`).  These are all courses that a clone can take (`path_cloneNew_iff_course`),
  and what is sent, what comes out and which proxy is left is read off them
  (`requests_of_cloneNew`).
-/

import GitTransport.Proofs.Json.Printer
import GitTransport.Proofs.Workflow.Run

namespace GitTransport

open ProxyJob

/-! ## Records that say so -/

/-- A record that says that its repository is registered and has not been cloned. -/
def Uncloned (record : Fields Json) : Prop :=
  Fields.get? record "status" = some (.string Proxy.statusCreated)

instance (record : Fields Json) : Decidable (Uncloned record) :=
  inferInstanceAs (Decidable (Fields.get? record "status" = _))

/-- Only a text stands for itself; the JSON of no other value begins with a capital. -/
theorem textOf_eq_statusCreated_iff {value : Json} :
    Proxy.textOf value = some Proxy.statusCreated ↔ value = .string Proxy.statusCreated := by
  have hother (value : Json) : some value.compact ≠ some Proxy.statusCreated := by
    intro h
    exact Json.compact_ne_of_isUpper (c := 'C') (by decide) (by decide) value (Option.some.inj h)
  cases value with
  | null => simp [Proxy.textOf]
  | string text => simp [Proxy.textOf]
  | bool value => simpa [Proxy.textOf] using hother (.bool value)
  | number value => simpa [Proxy.textOf] using hother (.number value)
  | array items => simpa [Proxy.textOf] using hother (.array items)
  | object members => simpa [Proxy.textOf] using hother (.object members)

/-- Whether a repository has been cloned is read off its record. -/
theorem isCloned_eq_map_uncloned :
    Proxy.isCloned = (fun record => !decide (Uncloned record)) <$> Proxy.loaded := by
  rw [Proxy.isCloned_eq_map]
  congr 1
  funext record
  rw [← decide_not]
  refine decide_eq_decide.2 (not_congr ?_)
  unfold Uncloned
  cases Fields.get? record "status" with
  | none => simp
  | some value => simpa using textOf_eq_statusCreated_iff

namespace Workflow

variable {url name : String} {options : CloneOptions} {proxy after : Proxy}
  {asked : List (Request × Reply)}

/-! ## Registering -/

/-- Whether the options tolerate an error of the registration. -/
def CloneOptions.Tolerates (options : CloneOptions) : Error → Prop
  | .service problem => problem.kind = .alreadyExists ∧ options.failIfExists = false
  | _ => False

/-- What is done about an error of the registration. -/
def onError (options : CloneOptions) (error : Error) : ProxyJob Unit :=
  match error with
  | .service problem =>
    if problem.kind = .alreadyExists ∧ !options.failIfExists then do
      ProxyJob.note problem.message
      ProxyJob.wipe
    else throw error
  | _ => throw error

/-- A tolerated error is forgotten with what was known, and any other one stays. -/
theorem runs_onError_iff {error : Error} {outcome : Except Error Unit} :
    Runs (onError options error) proxy asked outcome after ↔
      asked = [] ∧ ((options.Tolerates error ∧ outcome = .ok () ∧ after = proxy.wiped) ∨
        (¬ options.Tolerates error ∧ outcome = .error error ∧ after = proxy)) := by
  have hpass (h : ¬ options.Tolerates error) :
      Runs (ofOutcome (.error error)) proxy asked outcome after ↔
        asked = [] ∧ ((options.Tolerates error ∧ outcome = .ok () ∧ after = proxy.wiped) ∨
          (¬ options.Tolerates error ∧ outcome = .error error ∧ after = proxy)) := by
    rw [runs_ofOutcome_iff]
    simp [h]
  cases error with
  | service problem =>
    by_cases htolerated : problem.kind = .alreadyExists ∧ !options.failIfExists
    · have htolerates : options.Tolerates (.service problem) := by
        simpa [CloneOptions.Tolerates] using htolerated
      have hjob : onError options (.service problem) =
          (note problem.message >>= fun _ => update Proxy.wiped) := if_pos htolerated
      rw [hjob, runs_bind_iff]
      constructor
      · rintro (⟨first, _, between, rest, rfl, hnote, hwipe⟩ | ⟨cause, -, hnote⟩)
        · obtain ⟨rfl, -, rfl⟩ := runs_note_iff.1 hnote
          obtain ⟨rfl, rfl, rfl⟩ := runs_update_iff.1 hwipe
          exact ⟨rfl, .inl ⟨htolerates, rfl, rfl⟩⟩
        · obtain ⟨-, heq, -⟩ := runs_note_iff.1 hnote
          cases heq
      · rintro ⟨rfl, ⟨-, rfl, rfl⟩ | ⟨hnot, -, -⟩⟩
        · exact .inl ⟨[], (), proxy, [], rfl, runs_note_iff.2 ⟨rfl, rfl, rfl⟩,
            runs_update_iff.2 ⟨rfl, rfl, rfl⟩⟩
        · exact absurd htolerates hnot
    · have hjob : onError options (.service problem) = ofOutcome (.error (.service problem)) :=
        if_neg htolerated
      rw [hjob]
      exact hpass fun h => htolerated (by simpa [CloneOptions.Tolerates] using h)
  | _ => exact hpass id

/-- Registering ends like the operation, unless it ends in an error that is
    tolerated. -/
theorem runs_register_iff {outcome : Except Error Unit} :
    Runs (register url options) proxy asked outcome after ↔
      (outcome = .ok () ∧
        Runs (Proxy.create (options.registration url)) proxy asked (.ok ()) after) ∨
      (∃ error left,
        Runs (Proxy.create (options.registration url)) proxy asked (.error error) left ∧
        ((options.Tolerates error ∧ outcome = .ok () ∧ after = left.wiped) ∨
          (¬ options.Tolerates error ∧ outcome = .error error ∧ after = left))) := by
  have hjob : register url options =
      tryCatch (Proxy.create (options.registration url)) (onError options) := rfl
  rw [hjob, runs_tryCatch_iff]
  constructor
  · rintro (⟨_, rfl, hcreate⟩ | ⟨first, error, left, rest, rfl, hcreate, herror⟩)
    · exact .inl ⟨rfl, hcreate⟩
    · obtain ⟨rfl, hafter⟩ := runs_onError_iff.1 herror
      exact .inr ⟨error, left, by rwa [List.append_nil], hafter⟩
  · rintro (⟨rfl, hcreate⟩ | ⟨error, left, hcreate, hafter⟩)
    · exact .inl ⟨(), rfl, hcreate⟩
    · exact .inr ⟨asked, error, left, [], (List.append_nil asked).symm, hcreate,
        runs_onError_iff.2 ⟨rfl, hafter⟩⟩

/-- The record of the registration of a new proxy can always be made. -/
theorem exists_record (url name : String) (options : CloneOptions) :
    ∃ data, (options.registration url).record (.new name) = .ok data := by
  have hnone : Fields.get? (Fields.extend [] ((options.registration url).fields name)) "config" =
      none := by
    simp [Fields.get?_extend, Registration.fields, Fields.get?_cons]
  show ∃ data, Registration.configured _
    (Fields.extend [] ((options.registration url).fields name)) = .ok data
  unfold Registration.configured
  split
  · exact ⟨_, rfl⟩
  · split
    · exact ⟨_, rfl⟩
    · rw [hnone]
      exact ⟨_, rfl⟩

/-! ## Cloning what has not been cloned -/

/-- What follows the registration. -/
def cloneOnce : ProxyJob Unit := do
  if ← Proxy.isCloned then
    let proxy ← ProxyJob.current
    ProxyJob.note ("Not cloning the repository \"" ++ proxy.name ++ "\": already performed")
  else
    let _ ← Proxy.clone

/-- What is done once the record is known: the clone, or a remark that there is one. -/
def cloneFor (record : Fields Json) : ProxyJob Unit :=
  if Uncloned record then (fun _ => ()) <$> Proxy.clone
  else current >>= fun proxy =>
    note ("Not cloning the repository \"" ++ proxy.name ++ "\": already performed")

/-- The record is used or read, and decides what is done. -/
theorem cloneOnce_eq : cloneOnce = Proxy.loaded >>= cloneFor := by
  have hjob : cloneOnce = Proxy.isCloned >>= fun cloned =>
      if cloned then current >>= fun proxy =>
        note ("Not cloning the repository \"" ++ proxy.name ++ "\": already performed")
      else (fun _ => ()) <$> Proxy.clone := by
    simp only [map_eq_pure_bind]
    rfl
  rw [hjob, isCloned_eq_map_uncloned, bind_map_left]
  congr 1
  funext record
  by_cases huncloned : Uncloned record
  · rw [decide_eq_true huncloned, Bool.not_true, if_neg Bool.false_ne_true, cloneFor,
      if_pos huncloned]
  · rw [decide_eq_false huncloned, Bool.not_false, if_pos rfl, cloneFor, if_neg huncloned]

theorem runs_cloneFor_iff {record : Fields Json} {outcome : Except Error Unit} :
    Runs (cloneFor record) proxy asked outcome after ↔
      (¬ Uncloned record ∧ asked = [] ∧ outcome = .ok () ∧ after = proxy) ∨
      (Uncloned record ∧ ∃ reply, asked = [(Proxy.cloneRequest proxy.name, reply)] ∧
        outcome = (proxy.answer (Proxy.cloneRequest proxy.name) reply).map (fun _ => ()) ∧
        after = proxy.wiped) := by
  by_cases huncloned : Uncloned record
  · rw [cloneFor, if_pos huncloned, runs_map_iff]
    constructor
    · rintro ⟨y, rfl, hclone⟩
      obtain ⟨reply, rfl, rfl, rfl⟩ := Proxy.runs_clone_iff.1 hclone
      exact .inr ⟨huncloned, reply, rfl, rfl, rfl⟩
    · rintro (⟨hcloned, -⟩ | ⟨-, reply, rfl, rfl, rfl⟩)
      · exact absurd huncloned hcloned
      · exact ⟨_, rfl, Proxy.runs_clone_iff.2 ⟨reply, rfl, rfl, rfl⟩⟩
  · rw [cloneFor, if_neg huncloned, runs_current_bind, runs_note_iff]
    simp [huncloned]

/-! ## The courses of a clone -/

/-- What can follow once the record is known. -/
inductive Finish (name : String) (record : Fields Json) :
    List (Request × Reply) → Except Error Proxy → Prop where
  | cloned (h : ¬ Uncloned record) :
      Finish name record [] (.ok ⟨name, .standard, some record, none⟩)
  | clone (h : Uncloned record) (reply : Reply) :
      Finish name record [(Proxy.cloneRequest name, reply)]
        (((Proxy.new name).answer (Proxy.cloneRequest name) reply).map fun _ => .new name)

/-- What can happen when a repository is cloned under a name, registered with `data`. -/
inductive Course (name : String) (options : CloneOptions) (data : Fields Json) :
    List (Request × Reply) → Except Error Proxy → Prop where
  /-- The registration fails for good. -/
  | refused {created : Reply} {error : Error}
      (herror : (Proxy.new name).createAnswer data created = .error error)
      (hnot : ¬ options.Tolerates error) :
      Course name options data [(Registration.request name data, created)] (.error error)
  /-- The reply to the registration holds the record. -/
  | registered {created : Reply} {record : Fields Json} {rest : List (Request × Reply)}
      {outcome : Except Error Proxy}
      (hrecord : (Proxy.new name).createAnswer data created = .ok record)
      (hfinish : Finish name record rest outcome) :
      Course name options data ((Registration.request name data, created) :: rest) outcome
  /-- The repository exists already, and its record cannot be read. -/
  | unread {created told : Reply} {error fault : Error}
      (herror : (Proxy.new name).createAnswer data created = .error error)
      (htolerates : options.Tolerates error)
      (hfault : (Proxy.new name).recordAnswer told = .error fault) :
      Course name options data
        [(Registration.request name data, created), (Proxy.recordRequest name, told)]
        (.error fault)
  /-- The repository exists already, and its record is read. -/
  | found {created told : Reply} {error : Error} {record : Fields Json}
      {rest : List (Request × Reply)} {outcome : Except Error Proxy}
      (herror : (Proxy.new name).createAnswer data created = .error error)
      (htolerates : options.Tolerates error)
      (hrecord : (Proxy.new name).recordAnswer told = .ok record)
      (hfinish : Finish name record rest outcome) :
      Course name options data
        ((Registration.request name data, created) :: (Proxy.recordRequest name, told) :: rest)
        outcome

/-- The outcome of a clone by that of the job on its proxy. -/
def returning (x : Except Error Unit) (proxy : Proxy) : Except Error Proxy := x.map fun _ => proxy

/-- A known record leads to its finish. -/
theorem exists_runs_cloneFor_iff {record : Fields Json} {outcome : Except Error Proxy} :
    (∃ x after, outcome = returning x after ∧
      Runs (cloneFor record) ⟨name, .standard, some record, none⟩ asked x after) ↔
      Finish name record asked outcome := by
  have hanswer (reply : Reply) :
      returning (((Proxy.new name).answer (Proxy.cloneRequest name) reply).map fun _ => ())
          (.new name) =
        ((Proxy.new name).answer (Proxy.cloneRequest name) reply).map fun _ => .new name := by
    cases (Proxy.new name).answer (Proxy.cloneRequest name) reply <;> rfl
  constructor
  · rintro ⟨x, after, rfl, h⟩
    rcases runs_cloneFor_iff.1 h with ⟨hcloned, rfl, rfl, rfl⟩ | ⟨huncloned, reply, rfl, rfl, rfl⟩
    · exact .cloned hcloned
    · have hfinish : Finish name record _ _ := .clone huncloned reply
      rw [← hanswer] at hfinish
      exact hfinish
  · intro h
    cases h with
    | cloned hcloned =>
      exact ⟨.ok (), _, rfl, runs_cloneFor_iff.2 (.inl ⟨hcloned, rfl, rfl, rfl⟩)⟩
    | clone huncloned reply =>
      exact ⟨_, _, (hanswer reply).symm,
        runs_cloneFor_iff.2 (.inr ⟨huncloned, reply, rfl, rfl, rfl⟩)⟩

/-- A proxy that knows the record goes by it. -/
theorem runs_cloneOnce_known_iff {record : Fields Json} {x : Except Error Unit} :
    Runs cloneOnce ⟨name, .standard, some record, none⟩ asked x after ↔
      Runs (cloneFor record) ⟨name, .standard, some record, none⟩ asked x after := by
  rw [cloneOnce_eq, runs_bind_iff]
  constructor
  · rintro (⟨first, told, between, rest, rfl, hrun, hrest⟩ | ⟨error, -, hrun⟩)
    · obtain ⟨rfl, heq, rfl⟩ := (Proxy.runs_loaded_of_snapshot rfl).1 hrun
      cases heq
      exact hrest
    · obtain ⟨-, heq, -⟩ := (Proxy.runs_loaded_of_snapshot rfl).1 hrun
      cases heq
  · intro h
    exact .inl ⟨[], record, _, asked, rfl,
      (Proxy.runs_loaded_of_snapshot rfl).2 ⟨rfl, rfl, rfl⟩, h⟩

/-- A new proxy asks for the record first. -/
theorem runs_cloneOnce_new_iff {x : Except Error Unit} :
    Runs cloneOnce (.new name) asked x after ↔
      ∃ told rest, asked = (Proxy.recordRequest name, told) :: rest ∧
        ((∃ fault, (Proxy.new name).recordAnswer told = .error fault ∧ rest = [] ∧
            x = .error fault ∧ after = .new name) ∨
          (∃ record, (Proxy.new name).recordAnswer told = .ok record ∧
            Runs (cloneFor record) ⟨name, .standard, some record, none⟩ rest x after)) := by
  rw [cloneOnce_eq, runs_bind_iff]
  constructor
  · rintro (⟨first, record, between, rest, rfl, hrun, hrest⟩ | ⟨fault, rfl, hrun⟩)
    · rcases Proxy.runs_loaded_iff.1 hrun with ⟨_, hsome, -⟩ | ⟨-, told, rfl, hrecord, rfl⟩
      · cases hsome
      · exact ⟨told, rest, rfl, .inr ⟨record, hrecord.symm, hrest⟩⟩
    · rcases Proxy.runs_loaded_iff.1 hrun with ⟨_, hsome, -⟩ | ⟨-, told, rfl, hfault, rfl⟩
      · cases hsome
      · exact ⟨told, [], rfl, .inl ⟨fault, hfault.symm, rfl, rfl, rfl⟩⟩
  · rintro ⟨told, rest, rfl, ⟨fault, hfault, rfl, rfl, rfl⟩ | ⟨record, hrecord, h⟩⟩
    · exact .inr ⟨fault, rfl, Proxy.runs_loaded_iff.2 (.inr ⟨rfl, told, rfl, hfault.symm, rfl⟩)⟩
    · exact .inl ⟨[(Proxy.recordRequest name, told)], record, _, rest, rfl,
        Proxy.runs_loaded_iff.2 (.inr ⟨rfl, told, rfl, hrecord.symm, rfl⟩), h⟩

/-- A new proxy registers with one request; its reply decides how that ends. -/
theorem runs_register_new_iff {data : Fields Json} {x : Except Error Unit}
    (hdata : (options.registration url).record (.new name) = .ok data) :
    Runs (register url options) (.new name) asked x after ↔
      ∃ created, asked = [(Registration.request name data, created)] ∧
        ((∃ record, (Proxy.new name).createAnswer data created = .ok record ∧ x = .ok () ∧
            after = ⟨name, .standard, some record, none⟩) ∨
          (∃ error, (Proxy.new name).createAnswer data created = .error error ∧
            ((options.Tolerates error ∧ x = .ok () ∧ after = .new name) ∨
              (¬ options.Tolerates error ∧ x = .error error ∧ after = .new name)))) := by
  have hcreate {y : Except Error Unit} {left : Proxy} :
      Runs (Proxy.create (options.registration url)) (.new name) asked y left ↔
        ∃ created, asked = [(Registration.request name data, created)] ∧
          ((∃ record, (Proxy.new name).createAnswer data created = .ok record ∧ y = .ok () ∧
              left = ⟨name, .standard, some record, none⟩) ∨
            (∃ error, (Proxy.new name).createAnswer data created = .error error ∧
              y = .error error ∧ left = .new name)) := by
    rw [Proxy.runs_create_iff, hdata]
    constructor
    · rintro (⟨_, heq, -⟩ | ⟨_, created, heq, rfl, h⟩)
      · cases heq
      · cases heq
        exact ⟨created, rfl, h⟩
    · rintro ⟨created, rfl, h⟩
      exact .inr ⟨data, created, rfl, rfl, h⟩
  rw [runs_register_iff]
  constructor
  · rintro (⟨rfl, hrun⟩ | ⟨error, left, hrun, hleft⟩)
    · obtain ⟨created, rfl, ⟨record, hrecord, -, rfl⟩ | ⟨_, -, heq, -⟩⟩ := hcreate.1 hrun
      · exact ⟨created, rfl, .inl ⟨record, hrecord, rfl, rfl⟩⟩
      · cases heq
    · obtain ⟨created, rfl, ⟨_, -, heq, -⟩ | ⟨cause, herror, heq, rfl⟩⟩ := hcreate.1 hrun
      · cases heq
      · cases heq
        exact ⟨created, rfl, .inr ⟨error, herror, hleft⟩⟩
  · rintro ⟨created, rfl, ⟨record, hrecord, rfl, rfl⟩ | ⟨error, herror, hleft⟩⟩
    · exact .inl ⟨rfl, hcreate.2 ⟨created, rfl, .inl ⟨record, hrecord, rfl, rfl⟩⟩⟩
    · exact .inr ⟨error, .new name,
        hcreate.2 ⟨created, rfl, .inr ⟨error, herror, rfl, rfl⟩⟩, hleft⟩

/-- These are the runs of a clone. -/
theorem path_cloneNew_iff_course {data : Fields Json} {outcome : Except Error Proxy}
    (hdata : (options.registration url).record (.new name) = .ok data) :
    Exchange.Path (cloneNew url name options).run asked outcome ↔
      Course name options data asked outcome := by
  have hjob : registerAndClone url options = register url options >>= fun _ => cloneOnce := rfl
  have hsteps : Exchange.Path (cloneNew url name options).run asked outcome ↔
      ∃ x after, outcome = returning x after ∧
        Runs (registerAndClone url options) (.new name) asked x after := path_cloneNew_iff
  rw [hsteps, hjob]
  constructor
  · rintro ⟨x, after, rfl, h⟩
    rcases runs_bind_iff.1 h with ⟨first, _, left, rest, rfl, hregister, hrest⟩ |
      ⟨error, rfl, hregister⟩
    · obtain ⟨created, rfl, ⟨record, hrecord, -, rfl⟩ |
        ⟨error, herror, ⟨htolerates, -, rfl⟩ | ⟨-, heq, -⟩⟩⟩ :=
          (runs_register_new_iff hdata).1 hregister
      · exact .registered hrecord
          (exists_runs_cloneFor_iff.1 ⟨x, after, rfl, runs_cloneOnce_known_iff.1 hrest⟩)
      · obtain ⟨told, rest, rfl, ⟨fault, hfault, rfl, rfl, rfl⟩ | ⟨record, hrecord, hknown⟩⟩ :=
          runs_cloneOnce_new_iff.1 hrest
        · exact .unread herror htolerates hfault
        · exact .found herror htolerates hrecord
            (exists_runs_cloneFor_iff.1 ⟨x, after, rfl, hknown⟩)
      · cases heq
    · obtain ⟨created, rfl, ⟨_, -, heq, -⟩ | ⟨cause, herror, ⟨-, heq, -⟩ | ⟨hnot, heq, rfl⟩⟩⟩ :=
        (runs_register_new_iff hdata).1 hregister
      · cases heq
      · cases heq
      · cases heq
        exact .refused herror hnot
  · -- each course is put together from the runs of the two parts
    intro h
    cases h with
    | refused herror hnot =>
      exact ⟨_, _, rfl, runs_bind_iff.2 (.inr ⟨_, rfl,
        (runs_register_new_iff hdata).2 ⟨_, rfl, .inr ⟨_, herror, .inr ⟨hnot, rfl, rfl⟩⟩⟩⟩)⟩
    | registered hrecord hfinish =>
      obtain ⟨x, after, rfl, hrest⟩ := exists_runs_cloneFor_iff.2 hfinish
      have hregister := (runs_register_new_iff hdata).2 ⟨_, rfl, .inl ⟨_, hrecord, rfl, rfl⟩⟩
      exact ⟨x, after, rfl, runs_bind_iff.2 (.inl ⟨_, (), _, _, rfl, hregister,
        runs_cloneOnce_known_iff.2 hrest⟩)⟩
    | unread herror htolerates hfault =>
      have hregister := (runs_register_new_iff hdata).2
        ⟨_, rfl, .inr ⟨_, herror, .inl ⟨htolerates, rfl, rfl⟩⟩⟩
      exact ⟨.error _, .new name, rfl, runs_bind_iff.2 (.inl ⟨_, (), _, [_], rfl, hregister,
        runs_cloneOnce_new_iff.2 ⟨_, [], rfl, .inl ⟨_, hfault, rfl, rfl, rfl⟩⟩⟩)⟩
    | found herror htolerates hrecord hfinish =>
      obtain ⟨x, after, rfl, hrest⟩ := exists_runs_cloneFor_iff.2 hfinish
      have hregister := (runs_register_new_iff hdata).2
        ⟨_, rfl, .inr ⟨_, herror, .inl ⟨htolerates, rfl, rfl⟩⟩⟩
      exact ⟨x, after, rfl, runs_bind_iff.2 (.inl ⟨_, (), _, _ :: _, rfl, hregister,
        runs_cloneOnce_new_iff.2 ⟨_, _, rfl, .inr ⟨_, hrecord, hrest⟩⟩⟩)⟩

/-! ## What is sent, what comes out and what is left -/

/-- The record that is known behind the registration, and behind the reading of the
    record if there was one. -/
def Known (name : String) (data : Fields Json) (created : Reply) (rest : List (Request × Reply))
    (record : Fields Json) : Prop :=
  (Proxy.new name).createAnswer data created = .ok record ∨
    ∃ told, (Proxy.recordRequest name, told) ∈ rest ∧
      (Proxy.new name).recordAnswer told = .ok record

/-- How a clone goes on behind the registration, and how it ends. -/
structure Follows (name : String) (options : CloneOptions) (data : Fields Json) (created : Reply)
    (rest : List (Request × Reply)) (outcome : Except Error Proxy) : Prop where
  /-- There are at most two requests more, in this order. -/
  order : (rest.map Prod.fst).Sublist [Proxy.recordRequest name, Proxy.cloneRequest name]
  /-- The record is asked for when the registration failed in a way that is tolerated. -/
  reads : (∃ told, (Proxy.recordRequest name, told) ∈ rest) ↔
    ∃ error, (Proxy.new name).createAnswer data created = .error error ∧ options.Tolerates error
  /-- The clone is asked for when the record that is known says that there is none. -/
  clones : (∃ reply, (Proxy.cloneRequest name, reply) ∈ rest) ↔
    ∃ record, Known name data created rest record ∧ Uncloned record
  /-- It succeeds when a record is known and the clone, if asked for, is accepted. -/
  succeeds : (∃ proxy, outcome = .ok proxy) ↔
    (∃ record, Known name data created rest record) ∧
      ∀ reply, (Proxy.cloneRequest name, reply) ∈ rest → Job.accepted reply = true
  /-- Any other error of the registration comes out, and nothing more is sent. -/
  refuses : ∀ error, (Proxy.new name).createAnswer data created = .error error →
    ¬ options.Tolerates error → rest = [] ∧ outcome = .error error
  /-- So does an error behind the registration. -/
  fails : (∀ told error, (Proxy.recordRequest name, told) ∈ rest →
      (Proxy.new name).recordAnswer told = .error error → outcome = .error error) ∧
    ∀ reply error, (Proxy.cloneRequest name, reply) ∈ rest →
      (Proxy.new name).answer (Proxy.cloneRequest name) reply = .error error →
        outcome = .error error
  /-- The proxy that is returned knows no record behind a clone, and the record that was
      known otherwise. -/
  leaves : ∀ proxy, outcome = .ok proxy →
    ((∃ reply, (Proxy.cloneRequest name, reply) ∈ rest) → proxy = .new name) ∧
      ((¬ ∃ reply, (Proxy.cloneRequest name, reply) ∈ rest) → ∃ record,
        Known name data created rest record ∧ proxy = ⟨name, .standard, some record, none⟩)

theorem recordRequest_ne_cloneRequest (name : String) :
    Proxy.recordRequest name ≠ Proxy.cloneRequest name := by
  intro h
  cases congrArg Request.method h

/-- A finish without a clone, with one that is accepted, and with one that is not. -/
theorem finish_cases {record : Fields Json} {rest : List (Request × Reply)}
    {outcome : Except Error Proxy} (h : Finish name record rest outcome) :
    (¬ Uncloned record ∧ rest = [] ∧ outcome = .ok ⟨name, .standard, some record, none⟩) ∨
    (Uncloned record ∧ ∃ reply, rest = [(Proxy.cloneRequest name, reply)] ∧
      ((∃ response, (Proxy.new name).answer (Proxy.cloneRequest name) reply = .ok response ∧
          Job.accepted reply = true ∧ outcome = .ok (.new name)) ∨
        (∃ error, (Proxy.new name).answer (Proxy.cloneRequest name) reply = .error error ∧
          Job.accepted reply = false ∧ outcome = .error error))) := by
  cases h with
  | cloned huncloned => exact .inl ⟨huncloned, rfl, rfl⟩
  | clone huncloned reply =>
    refine .inr ⟨huncloned, reply, rfl, ?_⟩
    cases hanswer : (Proxy.new name).answer (Proxy.cloneRequest name) reply with
    | ok response => exact .inl ⟨response, rfl, Proxy.accepted_of_answer hanswer, rfl⟩
    | error error => exact .inr ⟨error, rfl, Proxy.not_accepted_of_answer hanswer, rfl⟩

variable {data : Fields Json} {outcome : Except Error Proxy}

/-- A registration that fails for good is the end. -/
theorem follows_of_refused {created : Reply} {error : Error}
    (herror : (Proxy.new name).createAnswer data created = .error error)
    (hnot : ¬ options.Tolerates error) :
    Follows name options data created [] (.error error) := by
  have hunknown (record : Fields Json) : ¬ Known name data created [] record := by
    rintro (hrecord | ⟨told, hmem, -⟩)
    · rw [herror] at hrecord
      cases hrecord
    · cases hmem
  exact {
    order := List.nil_sublist _
    reads := by simp [herror, hnot]
    clones := by simp [hunknown]
    succeeds := by simp [hunknown]
    refuses := by
      intro cause hcause _
      rw [herror] at hcause
      cases hcause
      exact ⟨rfl, rfl⟩
    fails := by simp
    leaves := fun proxy hproxy => nomatch hproxy }

/-- A record that cannot be read is the end as well. -/
theorem follows_of_unread {created told : Reply} {error fault : Error}
    (herror : (Proxy.new name).createAnswer data created = .error error)
    (htolerates : options.Tolerates error)
    (hfault : (Proxy.new name).recordAnswer told = .error fault) :
    Follows name options data created [(Proxy.recordRequest name, told)] (.error fault) := by
  have hne := (recordRequest_ne_cloneRequest name).symm
  have hunknown (record : Fields Json) :
      ¬ Known name data created [(Proxy.recordRequest name, told)] record := by
    rintro (hrecord | ⟨told', hmem, hrecord⟩)
    · rw [herror] at hrecord
      cases hrecord
    · cases List.mem_singleton.1 hmem
      rw [hfault] at hrecord
      cases hrecord
  exact {
    order := by simp
    reads := by simp [herror, htolerates]
    clones := by simp [hunknown, hne]
    succeeds := by simp [hunknown]
    refuses := by
      intro cause hcause hnot
      rw [herror] at hcause
      cases hcause
      exact absurd htolerates hnot
    fails := by
      refine ⟨fun told' cause hmem hcause => ?_, by simp [hne]⟩
      cases List.mem_singleton.1 hmem
      rw [hfault] at hcause
      cases hcause
      rfl
    leaves := fun proxy hproxy => nomatch hproxy }

/-- A known record leads to one of the finishes. -/
theorem follows_of_finish {created : Reply} {record : Fields Json}
    {before rest : List (Request × Reply)}
    (hbefore : (before = [] ∧ (Proxy.new name).createAnswer data created = .ok record) ∨
      ∃ told error, before = [(Proxy.recordRequest name, told)] ∧
        (Proxy.new name).createAnswer data created = .error error ∧ options.Tolerates error ∧
        (Proxy.new name).recordAnswer told = .ok record)
    (hfinish : Finish name record rest outcome) :
    Follows name options data created (before ++ rest) outcome := by
  have hne := recordRequest_ne_cloneRequest name
  -- the first part holds at most the reading of the record, and the rest the clone
  have hread (told : Reply) : (Proxy.recordRequest name, told) ∈ before ++ rest ↔
      (Proxy.recordRequest name, told) ∈ before := by
    rcases finish_cases hfinish with ⟨-, rfl, -⟩ | ⟨-, reply, rfl, -⟩ <;> simp [hne]
  have hclone (reply : Reply) : (Proxy.cloneRequest name, reply) ∈ before ++ rest ↔
      (Proxy.cloneRequest name, reply) ∈ rest := by
    rcases hbefore with ⟨rfl, -⟩ | ⟨told, error, rfl, -⟩ <;> simp [hne.symm]
  have hknown (known : Fields Json) :
      Known name data created (before ++ rest) known ↔ known = record := by
    simp only [Known, hread]
    rcases hbefore with ⟨rfl, hrecord⟩ | ⟨told, error, rfl, herror, -, hrecord⟩
    · simp [hrecord, eq_comm]
    · simp [herror, hrecord, eq_comm]
  have hasked : (∃ reply, (Proxy.cloneRequest name, reply) ∈ rest) ↔ Uncloned record := by
    rcases finish_cases hfinish with ⟨huncloned, rfl, -⟩ | ⟨huncloned, reply, rfl, -⟩
    · simp [huncloned]
    · simp [huncloned]
  exact {
    order := by
      rcases hbefore with ⟨rfl, -⟩ | ⟨told, error, rfl, -⟩ <;>
        rcases finish_cases hfinish with ⟨-, rfl, -⟩ | ⟨-, reply, rfl, -⟩ <;> simp
    reads := by
      simp only [hread]
      rcases hbefore with ⟨rfl, hrecord⟩ | ⟨told, error, rfl, herror, htolerates, -⟩
      · simp [hrecord]
      · simp [herror, htolerates]
    clones := by simp [hclone, hknown, hasked]
    succeeds := by
      simp only [hclone, hknown]
      rcases finish_cases hfinish with ⟨-, rfl, rfl⟩ |
        ⟨-, reply, rfl, ⟨response, -, haccepted, rfl⟩ | ⟨error, -, haccepted, rfl⟩⟩
      · simp
      · simp [haccepted]
      · simp [haccepted]
    refuses := by
      intro cause hcause hnot
      rcases hbefore with ⟨-, hrecord⟩ | ⟨told, error, -, herror, htolerates, -⟩
      · rw [hrecord] at hcause
        cases hcause
      · rw [herror] at hcause
        cases hcause
        exact absurd htolerates hnot
    fails := by
      constructor
      · intro told cause hmem hcause
        rcases hbefore with ⟨rfl, -⟩ | ⟨told', error, rfl, -, -, hrecord⟩
        · cases (hread told).1 hmem
        · cases List.mem_singleton.1 ((hread told).1 hmem)
          rw [hrecord] at hcause
          cases hcause
      · intro reply cause hmem hcause
        rcases finish_cases hfinish with ⟨-, rfl, -⟩ |
          ⟨-, reply', rfl, ⟨response, hanswer, -⟩ | ⟨error, hanswer, -, rfl⟩⟩
        · cases (hclone reply).1 hmem
        · cases List.mem_singleton.1 ((hclone reply).1 hmem)
          rw [hanswer] at hcause
          cases hcause
        · cases List.mem_singleton.1 ((hclone reply).1 hmem)
          rw [hanswer] at hcause
          cases hcause
          rfl
    leaves := by
      intro proxy hproxy
      simp only [hclone, hknown]
      rcases finish_cases hfinish with ⟨-, rfl, rfl⟩ |
        ⟨-, reply, rfl, ⟨response, -, -, rfl⟩ | ⟨error, -, -, rfl⟩⟩
      · cases hproxy
        exact ⟨by simp, fun _ => ⟨record, rfl, rfl⟩⟩
      · cases hproxy
        exact ⟨fun _ => rfl, fun hnone => absurd ⟨reply, List.mem_singleton_self _⟩ hnone⟩
      · cases hproxy }

/-- Whatever the connection does, a clone begins with the registration of a record that
    can always be made, and goes on as the replies call for. -/
theorem requests_of_cloneNew (h : Exchange.Path (cloneNew url name options).run asked outcome) :
    ∃ data created rest, (options.registration url).record (.new name) = .ok data ∧
      asked = (Registration.request name data, created) :: rest ∧
      Follows name options data created rest outcome := by
  obtain ⟨data, hdata⟩ := exists_record url name options
  refine ⟨data, ?_⟩
  cases (path_cloneNew_iff_course hdata).1 h with
  | refused herror hnot => exact ⟨_, _, hdata, rfl, follows_of_refused herror hnot⟩
  | registered hrecord hfinish =>
    exact ⟨_, _, hdata, rfl, follows_of_finish (.inl ⟨rfl, hrecord⟩) hfinish⟩
  | unread herror htolerates hfault =>
    exact ⟨_, _, hdata, rfl, follows_of_unread herror htolerates hfault⟩
  | found herror htolerates hrecord hfinish =>
    exact ⟨_, _, hdata, rfl,
      follows_of_finish (.inr ⟨_, _, rfl, herror, htolerates, hrecord⟩) hfinish⟩

/-- A registration whose reply says that there is no clone yet is followed by one. -/
theorem requests_of_cloneNew_created :
    let created : Reply := .ok (Response.ofJson 201
      (.object [("repository", .object [("status", .string "CREATED")])]))
    let cloned : Reply := .ok ⟨200, [], ""⟩
    ∃ data rest, (({} : CloneOptions).registration "https://host/demo.git").record (.new "demo") =
        .ok data ∧
      Exchange.Path (cloneNew "https://host/demo.git" "demo" {}).run
        [(Registration.request "demo" data, created), (Proxy.cloneRequest "demo", cloned)]
        (.ok (.new "demo")) ∧
      rest = [(Proxy.cloneRequest "demo", cloned)] ∧
      Follows "demo" {} data created rest (.ok (.new "demo")) := by
  intro created cloned
  obtain ⟨data, hdata⟩ := exists_record "https://host/demo.git" "demo" {}
  have hrecord : (Proxy.new "demo").createAnswer data created =
      .ok [("status", .string "CREATED")] := rfl
  have huncloned : Uncloned [("status", .string "CREATED")] := rfl
  have hrun : Exchange.Path (cloneNew "https://host/demo.git" "demo" {}).run
      [(Registration.request "demo" data, created), (Proxy.cloneRequest "demo", cloned)]
      (.ok (.new "demo")) :=
    (path_cloneNew_iff_course hdata).2 (.registered hrecord (.clone huncloned cloned))
  obtain ⟨data', created', rest, hdata', heq, hfollows⟩ := requests_of_cloneNew hrun
  cases hdata.symm.trans hdata'
  cases heq
  exact ⟨data, _, hdata, hrun, rfl, hfollows⟩

end Workflow

end GitTransport
