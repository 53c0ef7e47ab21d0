/-
The runs of the jobs that read a repository.

  Whatever is read goes through the record: a known record is used as it is, and an
  unknown one is asked for with one request and remembered (`runs_loaded_iff`).  A
  reader of an attribute is `loaded` with its result changed, so its runs are the
  runs of `loaded`.  The configuration comes from the entries that are known, or from
  the record (`runs_configuration_iff`); a value that is missing there is asked for
  and then known (`runs_getConfig_iff`).
-/

import GitTransport.Repository.Attributes
import GitTransport.Proofs.Proxy.Run

namespace GitTransport

namespace Proxy

open ProxyJob

variable {proxy after : Proxy} {asked : List (Request × Reply)} {request : Request} {reply : Reply}

/-! ## The record -/

/-- The request for the record of a repository. -/
def recordRequest (name : String) : Request := jsonRequest (resource name none)

/-- The record in the reply to the request for it. -/
def recordAnswer (proxy : Proxy) (reply : Reply) : Except Error (Fields Json) :=
  (proxy.jsonAnswer (recordRequest proxy.name) reply).bind (recordOf proxy.name)

theorem recordOf_eq_ok_iff {name : String} {body : Json} {record : Fields Json} :
    recordOf name body = .ok record ↔
      (body.member? "result").bind Json.asObject? = some record := by
  unfold recordOf
  split <;> simp [*]

/-- The proxy behind the reading of a record: the record is remembered if it came. -/
def remembering (proxy : Proxy) : Except Error (Fields Json) → Proxy
  | .ok record => { proxy with snapshot := some record }
  | .error _ => proxy

@[simp] theorem remembering_name (proxy : Proxy) (x : Except Error (Fields Json)) :
    (proxy.remembering x).name = proxy.name := by
  cases x <;> rfl

@[simp] theorem remembering_classifier (proxy : Proxy) (x : Except Error (Fields Json)) :
    (proxy.remembering x).classifier = proxy.classifier := by
  cases x <;> rfl

@[simp] theorem remembering_config (proxy : Proxy) (x : Except Error (Fields Json)) :
    (proxy.remembering x).config = proxy.config := by
  cases x <;> rfl

/-- Reading the record sends one request and changes nothing. -/
theorem asks_readRecord (proxy : Proxy) :
    Asks readRecord proxy (recordRequest proxy.name) proxy.recordAnswer :=
  asks_current_bind ((asks_getJson proxy _).bind_ofOutcome (recordOf proxy.name))

/-- Fetching sends one request and remembers what came. -/
theorem runs_fetch_iff {outcome : Except Error Unit} :
    Runs fetch proxy asked outcome after ↔
      ∃ reply, asked = [(recordRequest proxy.name, reply)] ∧
        outcome = (proxy.recordAnswer reply).map (fun _ => ()) ∧
        after = proxy.remembering (proxy.recordAnswer reply) := by
  have hfetch : fetch =
      readRecord >>= fun record =>
        update (fun proxy => { proxy with snapshot := some record }) >>= fun _ => pure () := rfl
  rw [hfetch, (asks_readRecord proxy).runs_update_iff]
  constructor
  · rintro ⟨reply, rfl, ⟨record, hx, rfl, rfl⟩ | ⟨error, hx, rfl, rfl⟩⟩
    · exact ⟨reply, rfl, by rw [hx]; rfl, by rw [hx]; rfl⟩
    · exact ⟨reply, rfl, by rw [hx]; rfl, by rw [hx]; rfl⟩
  · rintro ⟨reply, rfl, rfl, rfl⟩
    refine ⟨reply, rfl, ?_⟩
    cases hx : proxy.recordAnswer reply with
    | ok record => exact .inl ⟨record, rfl, rfl, rfl⟩
    | error error => exact .inr ⟨error, rfl, rfl, rfl⟩

/-- A known record is used as it is; an unknown one is asked for and remembered. -/
theorem runs_loaded_iff {x : Except Error (Fields Json)} :
    Runs loaded proxy asked x after ↔
      (∃ record, proxy.snapshot = some record ∧ asked = [] ∧ x = .ok record ∧ after = proxy) ∨
      (proxy.snapshot = none ∧ ∃ reply, asked = [(recordRequest proxy.name, reply)] ∧
        x = proxy.recordAnswer reply ∧ after = proxy.remembering x) := by
  rw [loaded, runs_current_bind]
  cases hs : proxy.snapshot with
  | some record =>
    rw [runs_pure_iff]
    simp
  | none =>
    have hjob : (readRecord >>= fun record => remember record >>= fun _ => pure record) =
        readRecord >>= fun record =>
          update (fun proxy => { proxy with snapshot := some record }) >>= fun _ =>
            pure record := rfl
    simp only [hjob, (asks_readRecord proxy).runs_update_iff, reduceCtorEq, false_and,
      exists_false, false_or, true_and]
    constructor
    · rintro ⟨reply, rfl, ⟨record, hx, rfl, rfl⟩ | ⟨error, hx, rfl, rfl⟩⟩
      · exact ⟨reply, rfl, hx.symm, rfl⟩
      · exact ⟨reply, rfl, hx.symm, rfl⟩
    · rintro ⟨reply, rfl, rfl, rfl⟩
      refine ⟨reply, rfl, ?_⟩
      cases hx : proxy.recordAnswer reply with
      | ok record => exact .inl ⟨record, rfl, rfl, rfl⟩
      | error error => exact .inr ⟨error, rfl, rfl, rfl⟩

/-- A known record is used as it is. -/
theorem runs_loaded_of_snapshot {record : Fields Json} (hs : proxy.snapshot = some record)
    {x : Except Error (Fields Json)} :
    Runs loaded proxy asked x after ↔ asked = [] ∧ x = .ok record ∧ after = proxy := by
  rw [runs_loaded_iff]
  constructor
  · rintro (⟨known, hknown, rfl, rfl, rfl⟩ | ⟨hnone, -⟩)
    · rw [hs] at hknown
      cases hknown
      exact ⟨rfl, rfl, rfl⟩
    · rw [hs] at hnone
      cases hnone
  · rintro ⟨rfl, rfl, rfl⟩
    exact .inl ⟨record, hs, rfl, rfl, rfl⟩

/-- Using the record leaves the rest of the proxy as it is. -/
theorem loaded_keeps {x : Except Error (Fields Json)} (h : Runs loaded proxy asked x after) :
    after.name = proxy.name ∧ after.classifier = proxy.classifier ∧
      after.config = proxy.config := by
  rcases runs_loaded_iff.1 h with ⟨_, _, _, _, rfl⟩ | ⟨_, _, _, _, rfl⟩
  · exact ⟨rfl, rfl, rfl⟩
  · exact ⟨remembering_name _ _, remembering_classifier _ _, remembering_config _ _⟩

/-- What was read is forgotten with everything else. -/
theorem wiped_of_loaded {x : Except Error (Fields Json)} (h : Runs loaded proxy asked x after) :
    after.wiped = proxy.wiped := by
  rcases runs_loaded_iff.1 h with ⟨_, -, -, -, rfl⟩ | ⟨-, _, -, -, rfl⟩
  · rfl
  · cases x <;> rfl

/-- Whatever is read from the record, only the record is asked for. -/
theorem eq_of_mem_loaded {x : Except Error (Fields Json)} (h : Runs loaded proxy asked x after)
    (hmem : (request, reply) ∈ asked) : request = recordRequest proxy.name := by
  rcases runs_loaded_iff.1 h with ⟨_, -, rfl, -, -⟩ | ⟨-, _, rfl, -, -⟩
  · cases hmem
  · cases List.mem_singleton.1 hmem
    rfl

theorem eq_of_mem_map {α : Type} {f : Fields Json → α} {outcome : Except Error α}
    (h : Runs (f <$> loaded) proxy asked outcome after) (hmem : (request, reply) ∈ asked) :
    request = recordRequest proxy.name := by
  obtain ⟨x, -, hrun⟩ := runs_map_iff.1 h
  exact eq_of_mem_loaded hrun hmem

/-! ## The attributes -/

theorem item_eq_map (name : String) : item name = (Fields.get? · name) <$> loaded := by
  rw [item, map_eq_pure_bind]

theorem itemOr_eq_map (name : String) (default : Json) :
    itemOr name default = (fun record => (Fields.get? record name).getD default) <$> loaded := by
  rw [itemOr, item_eq_map, ← map_eq_pure_bind, Functor.map_map]

theorem textItem_eq_map (name : String) :
    textItem name = (fun record => (Fields.get? record name).bind textOf) <$> loaded := by
  rw [textItem, item_eq_map, ← map_eq_pure_bind, Functor.map_map]

theorem isCloned_eq_map :
    isCloned = (fun record =>
      decide ((Fields.get? record "status").bind textOf ≠ some statusCreated)) <$> loaded := by
  rw [isCloned, status, textItem_eq_map, ← map_eq_pure_bind, Functor.map_map]

/-! ## The configuration -/

/-- The entries in the outcome of a reading of the record. -/
def entriesIn (x : Except Error (Fields Json)) : Except Error (List Configuration.Entry) :=
  x.bind fun record => entriesOf (Fields.get? record "config")

/-- The proxy behind a reading of the entries: they are known if they could be read. -/
def knowing (proxy : Proxy) : Except Error (List Configuration.Entry) → Proxy
  | .ok entries => { proxy with config := some entries }
  | .error _ => proxy

@[simp] theorem knowing_name (proxy : Proxy) (x : Except Error (List Configuration.Entry)) :
    (proxy.knowing x).name = proxy.name := by
  cases x <;> rfl

@[simp] theorem knowing_classifier (proxy : Proxy)
    (x : Except Error (List Configuration.Entry)) :
    (proxy.knowing x).classifier = proxy.classifier := by
  cases x <;> rfl

/-- Known entries are used as they are; unknown ones are read from the record. -/
theorem runs_configuration_iff {outcome : Except Error (Dictionary String)} :
    Runs configuration proxy asked outcome after ↔
      (∃ entries, proxy.config = some entries ∧ asked = [] ∧
        outcome = .ok (Configuration.toDictionary entries) ∧ after = proxy) ∨
      (proxy.config = none ∧ ∃ x between, Runs loaded proxy asked x between ∧
        outcome = (entriesIn x).map Configuration.toDictionary ∧
        after = between.knowing (entriesIn x)) := by
  rw [configuration, runs_current_bind]
  cases hc : proxy.config with
  | some entries =>
    rw [runs_pure_iff]
    simp
  | none =>
    -- the reading and its check come first, and the change of the proxy behind them
    have hjob : (do
        let value ← item "config"
        let entries ← ProxyJob.ofOutcome (entriesOf value)
        ProxyJob.update fun proxy => { proxy with config := some entries }
        return Configuration.toDictionary entries : ProxyJob (Dictionary String)) =
        (loaded >>= fun record => ofOutcome (entriesOf (Fields.get? record "config"))) >>=
          fun entries => update (fun proxy => { proxy with config := some entries }) >>=
            fun _ => pure (Configuration.toDictionary entries) := by
      rw [item_eq_map, map_eq_pure_bind]
      simp only [bind_assoc, pure_bind]
    simp only [hjob, runs_bind_update_iff, runs_bind_ofOutcome_iff, reduceCtorEq, false_and,
      exists_false, false_or, true_and]
    constructor
    · rintro (⟨entries, between, ⟨x, hx, hrun⟩, rfl, rfl⟩ | ⟨error, ⟨x, hx, hrun⟩, rfl⟩)
      · have hin : entriesIn x = .ok entries := hx.symm
        exact ⟨x, between, hrun, by rw [hin]; rfl, by rw [hin]; rfl⟩
      · have hin : entriesIn x = .error error := hx.symm
        exact ⟨x, after, hrun, by rw [hin]; rfl, by rw [hin]; rfl⟩
    · rintro ⟨x, between, hrun, rfl, rfl⟩
      cases hx : entriesIn x with
      | ok entries => exact .inl ⟨entries, between, ⟨x, hx.symm, hrun⟩, rfl, rfl⟩
      | error error => exact .inr ⟨error, ⟨x, hx.symm, hrun⟩, rfl⟩

/-- Reading the configuration keeps what the proxy is. -/
theorem configuration_keeps {outcome : Except Error (Dictionary String)}
    (h : Runs configuration proxy asked outcome after) :
    after.name = proxy.name ∧ after.classifier = proxy.classifier := by
  rcases runs_configuration_iff.1 h with ⟨entries, -, -, -, rfl⟩ | ⟨-, x, between, hrun, -, rfl⟩
  · exact ⟨rfl, rfl⟩
  · rw [knowing_name, knowing_classifier]
    exact ⟨(loaded_keeps hrun).1, (loaded_keeps hrun).2.1⟩

theorem eq_of_mem_configuration {outcome : Except Error (Dictionary String)}
    (h : Runs configuration proxy asked outcome after) (hmem : (request, reply) ∈ asked) :
    request = recordRequest proxy.name := by
  rcases runs_configuration_iff.1 h with ⟨_, -, rfl, -, -⟩ | ⟨-, x, _, hrun, -, -⟩
  · cases hmem
  · exact eq_of_mem_loaded hrun hmem

theorem resource_below_ne (name below : String) :
    resource name (some below) ≠ resource name none := by
  intro h
  have hlength := congrArg String.length h
  have hslash : "/".length = 1 := rfl
  simp only [resource, String.length_append] at hlength
  omega

/-- The request for the value of a key. -/
def keyRequest (name key : String) : Request :=
  jsonRequest (resource name (some ("config/" ++ key)))

/-- The value in the reply to the request for it. -/
def valueAnswer (proxy : Proxy) (key : String) (reply : Reply) : Except Error String :=
  (proxy.jsonAnswer (keyRequest proxy.name key) reply).bind (valueOf key proxy.name)

/-- The proxy behind a request for a value: the value is known if it came. -/
def learning (proxy : Proxy) (key : String) : Except Error String → Proxy
  | .ok value => proxy.setKnown key value
  | .error _ => proxy

/-- The job that asks for a value and then knows it. -/
def askValue (key : String) : ProxyJob String := do
  let proxy ← ProxyJob.current
  let reply ← ProxyJob.request (Job.getJson (resource proxy.name (some ("config/" ++ key))))
  let value ← ProxyJob.ofOutcome (valueOf key proxy.name reply)
  ProxyJob.update (setKnown key value)
  return value

theorem getConfig_eq (key : String) :
    getConfig key = configuration >>= fun known =>
      match known.get? key with
      | some value => pure value
      | none => askValue key := rfl

/-- Asking for a value sends one request; the value is known if it came. -/
theorem runs_askValue_iff {key : String} {outcome : Except Error String} :
    Runs (askValue key) proxy asked outcome after ↔
      ∃ reply, asked = [(keyRequest proxy.name key, reply)] ∧
        outcome = proxy.valueAnswer key reply ∧
        after = proxy.learning key (proxy.valueAnswer key reply) := by
  have hjob : askValue key = current >>= fun proxy =>
      (request (Job.getJson (resource proxy.name (some ("config/" ++ key)))) >>= fun reply =>
        ofOutcome (valueOf key proxy.name reply)) >>= fun value =>
          update (setKnown key value) >>= fun _ => pure value := by
    simp only [askValue, bind_assoc]
  have hasks := (asks_getJson proxy (resource proxy.name (some ("config/" ++ key)))).bind_ofOutcome
    (valueOf key proxy.name)
  rw [hjob, runs_current_bind, hasks.runs_update_iff]
  constructor
  · rintro ⟨reply, rfl, ⟨value, hx, rfl, rfl⟩ | ⟨error, hx, rfl, rfl⟩⟩
    · have hvalue : proxy.valueAnswer key reply = .ok value := hx
      exact ⟨reply, rfl, hvalue.symm, by rw [hvalue]; rfl⟩
    · have hvalue : after.valueAnswer key reply = .error error := hx
      exact ⟨reply, rfl, hvalue.symm, by rw [hvalue]; rfl⟩
  · rintro ⟨reply, rfl, rfl, rfl⟩
    refine ⟨reply, rfl, ?_⟩
    cases hvalue : proxy.valueAnswer key reply with
    | ok value => exact .inl ⟨value, hvalue, rfl, rfl⟩
    | error error => exact .inr ⟨error, hvalue, rfl, rfl⟩

/-- A value is asked for only when the configuration could be read and lacks it. -/
theorem runs_getConfig_iff {key : String} {outcome : Except Error String} :
    Runs (getConfig key) proxy asked outcome after ↔
      (∃ error, outcome = .error error ∧ Runs configuration proxy asked (.error error) after) ∨
      (∃ known value, known.get? key = some value ∧ outcome = .ok value ∧
        Runs configuration proxy asked (.ok known) after) ∨
      (∃ known first between reply, known.get? key = none ∧
        asked = first ++ [(keyRequest between.name key, reply)] ∧
        Runs configuration proxy first (.ok known) between ∧
        outcome = between.valueAnswer key reply ∧
        after = between.learning key (between.valueAnswer key reply)) := by
  rw [getConfig_eq, runs_bind_iff]
  constructor
  · rintro (⟨first, known, between, rest, rfl, hknown, hrest⟩ | ⟨error, rfl, hknown⟩)
    · cases hget : known.get? key with
      | some value =>
        simp only [hget] at hrest
        obtain ⟨rfl, rfl, rfl⟩ := runs_pure_iff.1 hrest
        exact .inr (.inl ⟨known, value, hget, rfl, by rwa [List.append_nil]⟩)
      | none =>
        simp only [hget] at hrest
        obtain ⟨reply, rfl, rfl, rfl⟩ := runs_askValue_iff.1 hrest
        exact .inr (.inr ⟨known, first, between, reply, hget, rfl, hknown, rfl, rfl⟩)
    · exact .inl ⟨error, rfl, hknown⟩
  · rintro (⟨error, rfl, hknown⟩ | ⟨known, value, hget, rfl, hknown⟩ |
      ⟨known, first, between, reply, hget, rfl, hknown, rfl, rfl⟩)
    · exact .inr ⟨error, rfl, hknown⟩
    · refine .inl ⟨asked, known, after, [], (List.append_nil asked).symm, hknown, ?_⟩
      simp only [hget]
      exact runs_pure_iff.2 ⟨rfl, rfl, rfl⟩
    · refine .inl ⟨first, known, between, _, rfl, hknown, ?_⟩
      simp only [hget]
      exact runs_askValue_iff.2 ⟨reply, rfl, rfl, rfl⟩

end Proxy

end GitTransport
