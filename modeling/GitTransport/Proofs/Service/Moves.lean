/-
What an operation does to a proxy and to an honest service.

  Most operations make one `Quiet` move: they leave everything as it is, remember
  the record, forget everything, or register the repository.  The configuration is
  read from the record (`Knows`), a key is learned or set (`Learns`, `Writes`).

  These are all the moves there are.  A statement that each of them keeps is
  therefore kept by every operation, whichever honest service it talks to
  (`Operation.invariant`).
-/

import GitTransport.Proofs.Service.Honest

namespace GitTransport

open ProxyJob Proxy

/-! ## What an honest reply tells -/

theorem Proxy.valueOf_eq_ok_iff {key name : String} {body : Json} {value : String} :
    valueOf key name body = .ok value ↔
      ((body.member? "result").bind (·.member? "value")).bind textOf = some value := by
  unfold valueOf
  split <;> simp [*]

namespace Honest

variable {proxy : Proxy} {server later : Option Kept} {reply : Reply}

theorem eq_of_recordAnswer {record : Fields Json}
    (h : Honest proxy.name server (recordRequest proxy.name) reply later)
    (hrecord : proxy.recordAnswer reply = .ok record) :
    ∃ kept, server = some kept ∧ kept.record = record := by
  obtain ⟨body, hbody, hresult⟩ := bind_eq_ok_iff.1 hrecord
  exact (h.record rfl).2 body record (bodyOf_of_jsonAnswer hbody) (recordOf_eq_ok_iff.1 hresult)

theorem eq_of_valueAnswer {key value : String}
    (h : Honest proxy.name server (keyRequest proxy.name key) reply later)
    (hvalue : proxy.valueAnswer key reply = .ok value) :
    ∃ kept, server = some kept ∧ kept.settings.get? key = some value := by
  obtain ⟨body, hbody, hresult⟩ := bind_eq_ok_iff.1 hvalue
  exact (h.value key rfl).2 body value (bodyOf_of_jsonAnswer hbody) (valueOf_eq_ok_iff.1 hresult)

/-- A registration whose record came back was one, and the record is the one kept. -/
theorem eq_of_createAnswer {data record : Fields Json}
    (h : Honest proxy.name server (Registration.request proxy.name data) reply later)
    (hrecord : proxy.createAnswer data reply = .ok record) :
    server = none ∧ ∃ kept, later = some kept ∧ kept.record = record := by
  obtain ⟨haccepted, body, hbody, hresult⟩ := told_of_createAnswer hrecord
  rcases h.registration data rfl with ⟨-, hnone, kept, hkept, htold⟩ | ⟨hnot, -⟩
  · exact ⟨hnone, kept, hkept, htold body record hbody hresult⟩
  · rw [haccepted] at hnot
    cases hnot

end Honest

/-! ## Moves -/

/-- The moves that leave the known entries alone or forget them. -/
inductive Quiet : Proxy → Option Kept → Proxy → Option Kept → Prop where
  /-- Nothing happens. -/
  | stay (proxy : Proxy) (server : Option Kept) : Quiet proxy server proxy server
  /-- The record is told and remembered. -/
  | remember (proxy : Proxy) (kept : Kept) :
      Quiet proxy (some kept) { proxy with snapshot := some kept.record } (some kept)
  /-- Everything is forgotten, whatever the service has made of the repository. -/
  | forget (proxy : Proxy) (server later : Option Kept) : Quiet proxy server proxy.wiped later
  /-- The repository is registered, and its record is told. -/
  | register (proxy : Proxy) (kept : Kept) :
      Quiet proxy none (Registration.registered kept.record proxy) (some kept)
  /-- The repository is registered, and the reply is lost. -/
  | lose (proxy : Proxy) (kept : Kept) : Quiet proxy none proxy (some kept)

/-- The entries of a remembered record are known from now on. -/
def Knows (proxy after : Proxy) : Prop :=
  proxy.config = none ∧ ∃ record entries, proxy.snapshot = some record ∧
    entriesOf (Fields.get? record "config") = .ok entries ∧
    after = { proxy with config := some entries }

/-- The configuration is read: the record may be remembered for it, and its entries may
    become known. -/
def Reads (proxy : Proxy) (server : Option Kept) (after : Proxy) : Prop :=
  ∃ between, Quiet proxy server between server ∧ between.config = proxy.config ∧
    (after = between ∨ Knows between after)

/-- The value of a key is told and known from now on. -/
def Learns (key : String) (proxy : Proxy) (server : Option Kept) (after : Proxy) : Prop :=
  proxy.config ≠ none ∧ ∃ kept value, server = some kept ∧
    kept.settings.get? key = some value ∧ after = proxy.setKnown key value

/-- A key is set on both sides. -/
def Writes (key value : String) (proxy : Proxy) (server : Option Kept) (after : Proxy)
    (later : Option Kept) : Prop :=
  ∃ before kept, server = some before ∧ later = some kept ∧ before.Written key value kept ∧
    after = proxy.setKnown key value

/-! ## The moves of the operations -/

section

variable {proxy after : Proxy} {asked : List (Request × Reply)} {server later : Option Kept}

/-- To use the record is to do nothing or to remember it. -/
theorem quiet_of_loaded {x : Except Error (Fields Json)} (h : Runs loaded proxy asked x after)
    (hc : Exchange.Chain (Honest proxy.name) server asked later) :
    Quiet proxy server after later ∧ later = server := by
  rcases runs_loaded_iff.1 h with ⟨record, -, rfl, -, rfl⟩ | ⟨-, reply, rfl, rfl, rfl⟩
  · obtain rfl := Exchange.chain_nil_iff.1 hc
    exact ⟨.stay _ _, rfl⟩
  · have hstep := Exchange.chain_singleton_iff.1 hc
    obtain rfl := (hstep.record rfl).1
    cases hx : proxy.recordAnswer reply with
    | error error => exact ⟨.stay _ _, rfl⟩
    | ok record =>
      obtain ⟨kept, rfl, rfl⟩ := hstep.eq_of_recordAnswer hx
      exact ⟨.remember _ _, rfl⟩

/-- So it is to read something from the record. -/
theorem quiet_of_map {α : Type} {f : Fields Json → α} {outcome : Except Error α}
    (h : Runs (f <$> loaded) proxy asked outcome after)
    (hc : Exchange.Chain (Honest proxy.name) server asked later) :
    Quiet proxy server after later := by
  obtain ⟨x, -, hrun⟩ := runs_map_iff.1 h
  exact (quiet_of_loaded hrun hc).1

theorem quiet_of_fetch {outcome : Except Error Unit} (h : Runs fetch proxy asked outcome after)
    (hc : Exchange.Chain (Honest proxy.name) server asked later) :
    Quiet proxy server after later := by
  obtain ⟨reply, rfl, -, rfl⟩ := runs_fetch_iff.1 h
  have hstep := Exchange.chain_singleton_iff.1 hc
  obtain rfl := (hstep.record rfl).1
  cases hx : proxy.recordAnswer reply with
  | error error => exact .stay _ _
  | ok record =>
    obtain ⟨kept, rfl, rfl⟩ := hstep.eq_of_recordAnswer hx
    exact .remember _ _

theorem quiet_of_create {registration : Registration} {outcome : Except Error Unit}
    (h : Runs (create registration) proxy asked outcome after)
    (hc : Exchange.Chain (Honest proxy.name) server asked later) :
    Quiet proxy server after later := by
  rcases runs_create_iff.1 h with ⟨_, -, rfl, -, rfl⟩ | ⟨data, reply, -, rfl, hreply⟩
  · obtain rfl := Exchange.chain_nil_iff.1 hc
    exact .stay _ _
  · have hstep := Exchange.chain_singleton_iff.1 hc
    rcases hreply with ⟨record, hrecord, -, rfl⟩ | ⟨_, -, -, rfl⟩
    · obtain ⟨rfl, kept, rfl, rfl⟩ := hstep.eq_of_createAnswer hrecord
      exact .register _ _
    · -- the service may have registered the repository all the same
      rcases hstep.registration data rfl with ⟨-, rfl, kept, rfl, -⟩ | ⟨-, rfl | ⟨-, rfl⟩⟩
      · exact .lose _ _
      · exact .stay _ _
      · -- without a reply it may be either
        cases later with
        | none => exact .stay _ _
        | some kept => exact .lose _ _

theorem quiet_of_setUrl {url : String} {outcome : Except Error (Option Response)}
    (h : Runs (setUrl url) proxy asked outcome after)
    (hc : Exchange.Chain (Honest proxy.name) server asked later) :
    Quiet proxy server after later := by
  obtain ⟨reply, ⟨_, -, rfl, -, rfl⟩ | ⟨_, -, -, rfl, -, rfl⟩ | ⟨_, _, -, -, -, -, rfl⟩⟩ :=
    runs_setUrl_iff.1 h
  · -- only the record was read, and it is not kept
    have hstep := Exchange.chain_singleton_iff.1 hc
    obtain rfl := (hstep.record rfl).1
    exact .stay _ _
  · have hstep := Exchange.chain_singleton_iff.1 hc
    obtain rfl := (hstep.record rfl).1
    exact .stay _ _
  · exact .forget _ _ _

theorem quiet_of_checkout {target : String} {outcome : Except Error CommitTransition}
    (h : Runs (checkout target) proxy asked outcome after)
    (hc : Exchange.Chain (Honest proxy.name) server asked later) :
    Quiet proxy server after later := by
  obtain ⟨x, first, between, hrun, ⟨_, _, -, -, -, rfl⟩ | ⟨_, -, rfl, -, rfl⟩⟩ :=
    runs_checkout_iff.1 h
  · -- what was read for the switch is forgotten with everything else
    rw [wiped_of_loaded hrun]
    exact .forget _ _ _
  · exact (quiet_of_loaded hrun hc).1

theorem quiet_of_log {outcome : Except Error (List Commit)} (h : Runs log proxy asked outcome after)
    (hc : Exchange.Chain (Honest proxy.name) server asked later) :
    Quiet proxy server after later := by
  obtain ⟨reply, rfl, -, rfl⟩ := runs_log_iff.1 h
  have hstep := Exchange.chain_singleton_iff.1 hc
  obtain rfl := hstep.history rfl
  exact .stay _ _

/-- The operations that neither read nor set the configuration. -/
def Operation.isQuiet : Operation → Bool
  | .configuration => false
  | .getConfig _ => false
  | .setConfig _ _ => false
  | _ => true

/-- An operation that does not deal with the configuration makes one quiet move. -/
theorem Operation.quiet_of_runs {op : Operation} (hop : op.isQuiet = true)
    {outcome : Except Error op.Answer} (h : Runs op.job proxy asked outcome after)
    (hc : Exchange.Chain (Honest proxy.name) server asked later) :
    Quiet proxy server after later := by
  cases op with
  | read a =>
    rw [job_read] at h
    exact quiet_of_map h hc
  | isCloned =>
    rw [job_isCloned] at h
    exact quiet_of_map h hc
  | itemOr name default =>
    rw [job_itemOr] at h
    exact quiet_of_map h hc
  | fetch => exact quiet_of_fetch h hc
  | wipe =>
    obtain ⟨-, -, rfl⟩ := runs_update_iff.1 h
    exact .forget _ _ _
  | create registration => exact quiet_of_create h hc
  | clone =>
    obtain ⟨_, -, -, rfl⟩ := runs_clone_iff.1 h
    exact .forget _ _ _
  | checkout target => exact quiet_of_checkout h hc
  | pull =>
    obtain ⟨_, -, -, rfl⟩ := runs_pull_iff.1 h
    exact .forget _ _ _
  | delete =>
    obtain ⟨_, -, -, rfl⟩ := runs_delete_iff.1 h
    exact .forget _ _ _
  | commit transport message description =>
    obtain ⟨_, -, -, rfl⟩ := runs_commit_iff.1 h
    exact .forget _ _ _
  | setUrl url => exact quiet_of_setUrl h hc
  | log => exact quiet_of_log h hc
  | configuration => cases hop
  | getConfig key => cases hop
  | setConfig key value => cases hop

theorem reads_of_configuration {outcome : Except Error (Dictionary String)}
    (h : Runs configuration proxy asked outcome after)
    (hc : Exchange.Chain (Honest proxy.name) server asked later) :
    later = server ∧ Reads proxy server after := by
  rcases runs_configuration_iff.1 h with ⟨entries, -, rfl, -, rfl⟩ |
    ⟨hnone, x, between, hrun, -, rfl⟩
  · obtain rfl := Exchange.chain_nil_iff.1 hc
    exact ⟨rfl, _, .stay _ _, rfl, .inl rfl⟩
  · obtain ⟨hquiet, rfl⟩ := quiet_of_loaded hrun hc
    refine ⟨rfl, between, hquiet, (loaded_keeps hrun).2.2, ?_⟩
    cases x with
    | error error => exact .inl rfl
    | ok record =>
      have hin : entriesIn (.ok record) = entriesOf (Fields.get? record "config") := rfl
      rw [hin]
      cases hentries : entriesOf (Fields.get? record "config") with
      | error error => exact .inl rfl
      | ok entries =>
        exact .inr ⟨(loaded_keeps hrun).2.2.trans hnone, record, entries,
          snapshot_of_loaded hrun, hentries, rfl⟩

/-- To ask for the value of a key is to read the configuration, and to learn the value
    if it was not there. -/
theorem moves_of_getConfig {key : String} {outcome : Except Error String}
    (h : Runs (getConfig key) proxy asked outcome after)
    (hc : Exchange.Chain (Honest proxy.name) server asked later) :
    later = server ∧ ∃ between, Reads proxy server between ∧
      (after = between ∨ (Learns key between server after ∧ ∃ value, outcome = .ok value)) := by
  rcases runs_getConfig_iff.1 h with ⟨error, rfl, hrun⟩ | ⟨known, value, -, -, hrun⟩ |
    ⟨known, first, between, reply, -, rfl, hrun, rfl, rfl⟩
  · obtain ⟨hlater, hreads⟩ := reads_of_configuration hrun hc
    exact ⟨hlater, after, hreads, .inl rfl⟩
  · obtain ⟨hlater, hreads⟩ := reads_of_configuration hrun hc
    exact ⟨hlater, after, hreads, .inl rfl⟩
  · obtain ⟨middle, hfirst, hlast⟩ := Exchange.chain_append_iff.1 hc
    obtain ⟨rfl, hreads⟩ := reads_of_configuration hrun hfirst
    have hstep := Exchange.chain_singleton_iff.1 hlast
    -- the value is asked for under the name that the proxy still has
    rw [← (configuration_keeps hrun).1] at hstep
    obtain rfl := (hstep.value key rfl).1
    refine ⟨rfl, between, hreads, ?_⟩
    cases hvalue : between.valueAnswer key reply with
    | error error => exact .inl rfl
    | ok value =>
      obtain ⟨entries, hentries, -⟩ := config_of_configuration hrun
      obtain ⟨kept, hkept, hget⟩ := hstep.eq_of_valueAnswer hvalue
      have hknown : between.config ≠ none := by
        rw [hentries]
        exact Option.some_ne_none entries
      exact .inr ⟨⟨hknown, kept, value, hkept, hget, rfl⟩, value, rfl⟩

/-- Setting a key sets it on both sides when it succeeds, and does nothing else. -/
theorem moves_of_setConfig {key value : String} {outcome : Except Error Unit}
    (h : Runs (setConfig key value) proxy asked outcome after)
    (hc : Exchange.Chain (Honest proxy.name) server asked later) :
    (outcome = .ok () ∧ Writes key value proxy server after later) ∨
      ((∃ error, outcome = .error error) ∧ after = proxy ∧ later = server) := by
  obtain ⟨reply, rfl, hreply⟩ := runs_setConfig_iff.1 h
  have hstep := Exchange.chain_singleton_iff.1 hc
  rcases hreply with ⟨response, hanswer, rfl, rfl⟩ | ⟨error, hanswer, rfl, rfl⟩
  · rcases hstep.setting key value rfl with ⟨-, before, kept, rfl, rfl, hwritten⟩ | ⟨hnot, -⟩
    · exact .inl ⟨rfl, before, kept, rfl, rfl, hwritten, rfl⟩
    · rw [accepted_of_answer hanswer] at hnot
      cases hnot
  · rcases hstep.setting key value rfl with ⟨haccepted, -⟩ | ⟨-, rfl⟩
    · rw [not_accepted_of_answer hanswer] at haccepted
      cases haccepted
    · exact .inr ⟨⟨error, rfl⟩, rfl, rfl⟩

/-- What every move keeps is kept by every operation. -/
theorem Operation.invariant {Inv : Proxy → Option Kept → Prop}
    (hquiet : ∀ {p s q t}, Quiet p s q t → Inv p s → Inv q t)
    (hknows : ∀ {p s q}, Knows p q → Inv p s → Inv q s)
    (hlearns : ∀ {key p s q}, Learns key p s q → Inv p s → Inv q s)
    (hwrites : ∀ {key value p s q t}, Writes key value p s q t → Inv p s → Inv q t)
    {op : Operation} {outcome : Except Error op.Answer}
    (h : Runs op.job proxy asked outcome after)
    (hc : Exchange.Chain (Honest proxy.name) server asked later) (hinv : Inv proxy server) :
    Inv after later := by
  have hreads {between : Proxy} (hreads : Reads proxy server between) : Inv between server := by
    obtain ⟨first, hfirst, -, rfl | hknown⟩ := hreads
    · exact hquiet hfirst hinv
    · exact hknows hknown (hquiet hfirst hinv)
  cases hop : op.isQuiet with
  | true => exact hquiet (op.quiet_of_runs hop h hc) hinv
  | false =>
    cases op with
    | configuration =>
      obtain ⟨rfl, hread⟩ := reads_of_configuration h hc
      exact hreads hread
    | getConfig key =>
      obtain ⟨rfl, between, hread, rfl | ⟨hlearned, -⟩⟩ := moves_of_getConfig h hc
      · exact hreads hread
      · exact hlearns hlearned (hreads hread)
    | setConfig key value =>
      rcases moves_of_setConfig h hc with ⟨-, hwritten⟩ | ⟨-, rfl, rfl⟩
      · exact hwrites hwritten hinv
      · exact hinv
    | _ => cases hop

end

end GitTransport
