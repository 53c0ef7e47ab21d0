/-
What a proxy has set, it knows.

  A key that was set has an entry among those that the proxy knows, and the entry tells
  the value that it was given (`Proxy.Tells`).  Calls that neither give the key another
  value nor forget everything keep it so (`Call.Spares`, `tells_of_trace`), whatever else
  they do and however they end.  As long as it is so the value is had without a request
  (`Proxy.own_writes`).
-/

import GitTransport.Proofs.Proxy.Operation
import GitTransport.Proofs.Proxy.Invalidation

namespace GitTransport

open ProxyJob Proxy

/-- The entries that are known give the key its value. -/
def Proxy.Tells (key value : String) (proxy : Proxy) : Prop :=
  ∃ entries, proxy.config = some entries ∧
    (Configuration.toDictionary entries).get? key = some value

/-- A call for the repository `name` that leaves a key alone: it reads, or it sets another
    key, or its request for a change is refused or is not sent at all. -/
def Call.Spares (name key : String) (call : Call) : Prop :=
  match call.op with
  | .read _ => True
  | .isCloned => True
  | .itemOr _ _ => True
  | .fetch => True
  | .configuration => True
  | .getConfig _ => True
  | .log => True
  | .setConfig other _ => other ≠ key ∨ call.Failed
  | .setUrl _ => ∀ exchange ∈ call.asked, exchange.1.method ≠ .post
  | .checkout branch => ∀ exchange ∈ call.asked, ∀ current,
      exchange.1 ≠ switchRequest name current branch
  | _ => False

namespace Proxy

variable {proxy after : Proxy} {asked : List (Request × Reply)} {key value : String}

/-! ## Known entries -/

/-- A key that is set is known. -/
theorem tells_setKnown (proxy : Proxy) (key value : String) :
    (proxy.setKnown key value).Tells key value :=
  ⟨_, rfl, by rw [Configuration.get?_toDictionary_setKey, if_pos rfl]⟩

/-- It stays known when another key is set. -/
theorem Tells.setKnown (h : proxy.Tells key value) {other : String} (hne : other ≠ key)
    (text : String) : (proxy.setKnown other text).Tells key value := by
  obtain ⟨entries, hconfig, hget⟩ := h
  refine ⟨_, rfl, ?_⟩
  rw [Configuration.get?_toDictionary_setKey, if_neg hne, knownEntries, hconfig]
  exact hget

theorem Tells.of_config_eq (h : proxy.Tells key value) (hconfig : after.config = proxy.config) :
    after.Tells key value := by
  obtain ⟨entries, hentries, hget⟩ := h
  exact ⟨entries, hconfig.trans hentries, hget⟩

/-- Known entries are the configuration. -/
theorem runs_configuration_of_config {entries : List Configuration.Entry}
    (hconfig : proxy.config = some entries) {outcome : Except Error (Dictionary String)} :
    Runs configuration proxy asked outcome after ↔
      asked = [] ∧ outcome = .ok (Configuration.toDictionary entries) ∧ after = proxy := by
  rw [runs_configuration_iff]
  constructor
  · rintro (⟨known, hknown, rfl, rfl, rfl⟩ | ⟨hnone, -⟩)
    · rw [hconfig] at hknown
      cases hknown
      exact ⟨rfl, rfl, rfl⟩
    · rw [hconfig] at hnone
      cases hnone
  · rintro ⟨rfl, rfl, rfl⟩
    exact .inl ⟨entries, hconfig, rfl, rfl, rfl⟩

/-- A value that is known is had without a request. -/
theorem runs_getConfig_of_tells (h : proxy.Tells key value) {outcome : Except Error String} :
    Runs (getConfig key) proxy asked outcome after ↔
      asked = [] ∧ outcome = .ok value ∧ after = proxy := by
  obtain ⟨entries, hconfig, hget⟩ := h
  rw [runs_getConfig_iff]
  simp only [runs_configuration_of_config hconfig]
  constructor
  · rintro (⟨error, -, -, hx, -⟩ | ⟨known, found, hfound, rfl, rfl, hx, rfl⟩ |
      ⟨known, first, between, reply, hnone, -, ⟨-, hx, -⟩, -⟩)
    · cases hx
    · cases hx
      rw [hget] at hfound
      cases hfound
      exact ⟨rfl, rfl, rfl⟩
    · cases hx
      rw [hget] at hnone
      cases hnone
  · rintro ⟨rfl, rfl, rfl⟩
    exact .inr (.inl ⟨_, value, hget, rfl, rfl, rfl, rfl⟩)

/-! ## Calls that leave a key alone -/

/-- What is asked for one key leaves the others as they are. -/
theorem tells_of_getConfig (h : proxy.Tells key value) {other : String}
    {outcome : Except Error String} (hrun : Runs (getConfig other) proxy asked outcome after) :
    after.Tells key value ∧ after.name = proxy.name := by
  obtain ⟨entries, hconfig, hget⟩ := id h
  rcases runs_getConfig_iff.1 hrun with ⟨error, -, hread⟩ | ⟨known, found, -, -, hread⟩ |
    ⟨known, first, between, reply, hnone, -, hread, -, rfl⟩
  · obtain ⟨-, -, rfl⟩ := (runs_configuration_of_config hconfig).1 hread
    exact ⟨h, rfl⟩
  · obtain ⟨-, -, rfl⟩ := (runs_configuration_of_config hconfig).1 hread
    exact ⟨h, rfl⟩
  · obtain ⟨-, hknown, rfl⟩ := (runs_configuration_of_config hconfig).1 hread
    cases hknown
    -- a key that is asked for has no entry, so it is not the one that was set
    have hne : other ≠ key := by
      rintro rfl
      rw [hget] at hnone
      cases hnone
    cases between.valueAnswer other reply with
    | error error => exact ⟨h, rfl⟩
    | ok text => exact ⟨h.setKnown hne text, rfl⟩

theorem tells_of_map (h : proxy.Tells key value) {α : Type} {f : Fields Json → α}
    {outcome : Except Error α} (hrun : Runs (f <$> loaded) proxy asked outcome after) :
    after.Tells key value ∧ after.name = proxy.name := by
  obtain ⟨x, -, hloaded⟩ := runs_map_iff.1 hrun
  obtain ⟨hname, -, hconfig⟩ := loaded_keeps hloaded
  exact ⟨h.of_config_eq hconfig, hname⟩

/-- One call that leaves the key alone. -/
theorem tells_of_runs (h : proxy.Tells key value) {op : Operation}
    {outcome : Except Error op.Answer} (hspares : Call.Spares proxy.name key ⟨op, asked, outcome⟩)
    (hrun : Runs op.job proxy asked outcome after) :
    after.Tells key value ∧ after.name = proxy.name := by
  cases op with
  | read a =>
    rw [Operation.job_read] at hrun
    exact tells_of_map h hrun
  | isCloned =>
    rw [Operation.job_isCloned] at hrun
    exact tells_of_map h hrun
  | itemOr name default =>
    rw [Operation.job_itemOr] at hrun
    exact tells_of_map h hrun
  | fetch =>
    obtain ⟨reply, -, -, rfl⟩ := runs_fetch_iff.1 hrun
    exact ⟨h.of_config_eq (remembering_config _ _), remembering_name _ _⟩
  | configuration =>
    obtain ⟨entries, hconfig, -⟩ := id h
    obtain ⟨-, -, rfl⟩ := (runs_configuration_of_config hconfig).1 hrun
    exact ⟨h, rfl⟩
  | getConfig other => exact tells_of_getConfig h hrun
  | setConfig other text =>
    obtain ⟨reply, -, ⟨response, -, rfl, rfl⟩ | ⟨error, -, -, rfl⟩⟩ := runs_setConfig_iff.1 hrun
    · rcases hspares with hne | ⟨error, hfailed⟩
      · exact ⟨h.setKnown hne text, rfl⟩
      · cases hfailed
    · exact ⟨h, rfl⟩
  | setUrl url =>
    obtain ⟨reply, ⟨error, -, -, -, rfl⟩ | ⟨record, -, -, -, -, rfl⟩ |
      ⟨record, posted, -, -, rfl, -, -⟩⟩ := runs_setUrl_iff.1 hrun
    · exact ⟨h, rfl⟩
    · exact ⟨h, rfl⟩
    · exact absurd rfl (hspares _ (List.mem_cons_of_mem _ (List.mem_singleton_self _)))
  | checkout branch =>
    obtain ⟨x, first, between, hloaded, ⟨current, reply, -, rfl, -, -⟩ |
      ⟨error, -, -, -, rfl⟩⟩ := runs_checkout_iff.1 hrun
    · exact absurd rfl (hspares _ (List.mem_append_right _ (List.mem_singleton_self _)) current)
    · obtain ⟨hname, -, hconfig⟩ := loaded_keeps hloaded
      exact ⟨h.of_config_eq hconfig, hname⟩
  | log =>
    obtain ⟨reply, -, -, rfl⟩ := runs_log_iff.1 hrun
    exact ⟨h, rfl⟩
  | _ => exact absurd hspares id

/-- Any number of them. -/
theorem tells_of_trace {calls : List Call} (htrace : Trace proxy calls after)
    (hspares : ∀ call ∈ calls, call.Spares proxy.name key) (h : proxy.Tells key value) :
    after.Tells key value := by
  induction htrace with
  | nil proxy => exact h
  | cons hrun hrest ih =>
    obtain ⟨hcall, hcalls⟩ := List.forall_mem_cons.1 hspares
    obtain ⟨hbetween, hname⟩ := tells_of_runs h hcall hrun
    rw [← hname] at hcalls
    exact ih hcalls hbetween

/-! ## Requests that fail -/

/-- Known entries stay as they are when the value of a key could not be had. -/
theorem config_of_getConfig_failed {error : Error} {entries : List Configuration.Entry}
    (h : Runs (getConfig key) proxy asked (.error error) after)
    (hconfig : proxy.config = some entries) : after.config = some entries := by
  rcases runs_getConfig_iff.1 h with ⟨_, -, hread⟩ | ⟨known, found, -, hok, -⟩ |
    ⟨known, first, between, reply, -, -, hread, hx, rfl⟩
  · obtain ⟨-, -, rfl⟩ := (runs_configuration_of_config hconfig).1 hread
    exact hconfig
  · cases hok
  · obtain ⟨-, -, rfl⟩ := (runs_configuration_of_config hconfig).1 hread
    rw [← hx]
    exact hconfig

/-- A request for a value that fails changes nothing behind the reading of the
    configuration. -/
theorem exists_of_getConfig_failed {error : Error} {reply : Reply}
    (h : Runs (getConfig key) proxy asked (.error error) after)
    (hmem : (keyRequest proxy.name key, reply) ∈ asked) :
    ∃ known first, asked = first ++ [(keyRequest proxy.name key, reply)] ∧
      Runs configuration proxy first (.ok known) after := by
  have hother {first : List (Request × Reply)} {outcome : Except Error (Dictionary String)}
      {between : Proxy} (hread : Runs configuration proxy first outcome between) :
      (keyRequest proxy.name key, reply) ∉ first := fun hmem =>
    resource_below_ne _ _ (congrArg Request.path (eq_of_mem_configuration hread hmem))
  rcases runs_getConfig_iff.1 h with ⟨_, -, hread⟩ | ⟨known, found, -, hok, -⟩ |
    ⟨known, first, between, answer, -, rfl, hread, hx, rfl⟩
  · exact absurd hmem (hother hread)
  · cases hok
  · rcases List.mem_append.1 hmem with hmem | hmem
    · exact absurd hmem (hother hread)
    · rw [(configuration_keeps hread).1] at hmem ⊢
      cases List.mem_singleton.1 hmem
      refine ⟨known, first, rfl, ?_⟩
      rw [← hx]
      exact hread

/-! ## Reading back -/

/-- A key that was set can be read back without a request for as long as only calls follow
    that leave it alone.  A refused setting changes nothing, and the reading of a key whose
    request fails changes no entry: what it leaves is what reading the configuration, which
    comes first, has left. -/
theorem own_writes (proxy : Proxy) (key : String) :
    (∀ value asked written calls last,
      Runs (setConfig key value) proxy asked (.ok ()) written → Trace written calls last →
      (∀ call ∈ calls, call.Spares proxy.name key) →
      (∀ asked outcome after, Runs (getConfig key) last asked outcome after ↔
        asked = [] ∧ outcome = .ok value ∧ after = last) ∧
      ∃ known, known.get? key = some value ∧
        ∀ asked outcome after, Runs configuration last asked outcome after ↔
          asked = [] ∧ outcome = .ok known ∧ after = last) ∧
    (∀ value asked error after, Runs (setConfig key value) proxy asked (.error error) after →
      after = proxy) ∧
    (∀ asked error reply after, Runs (getConfig key) proxy asked (.error error) after →
      (keyRequest proxy.name key, reply) ∈ asked →
      (∀ entries, proxy.config = some entries → after.config = some entries) ∧
        ∃ known first, asked = first ++ [(keyRequest proxy.name key, reply)] ∧
          Runs configuration proxy first (.ok known) after) := by
  refine ⟨?_, ?_, ?_⟩
  · intro value asked written calls last hset htrace hspares
    obtain ⟨reply, -, ⟨response, -, -, rfl⟩ | ⟨error, -, hfailed, -⟩⟩ := runs_setConfig_iff.1 hset
    · have htells : last.Tells key value :=
        tells_of_trace htrace hspares (tells_setKnown proxy key value)
      obtain ⟨entries, hconfig, hget⟩ := id htells
      exact ⟨fun _ _ _ => runs_getConfig_of_tells htells, _, hget,
        fun _ _ _ => runs_configuration_of_config hconfig⟩
    · cases hfailed
  · intro value asked error after hset
    obtain ⟨reply, -, ⟨response, -, hok, -⟩ | ⟨_, -, -, hafter⟩⟩ := runs_setConfig_iff.1 hset
    · cases hok
    · exact hafter
  · intro asked error reply after hget hmem
    exact ⟨fun _ hconfig => config_of_getConfig_failed hget hconfig,
      exists_of_getConfig_failed hget hmem⟩

end Proxy

/-! A key is set on a proxy that knows nothing; then another one is set, the first one is
refused another value, and a switch does not get as far as its request. -/

namespace Proxy.KeySet

/-- The proxy behind the setting of the first key. -/
def written : Proxy := setKnown "B" "2" (.new "demo")

/-- The proxy behind the setting of both keys. -/
def last : Proxy := written.setKnown "C" "3"

/-- The calls behind the setting of the first key. -/
def calls : List Call :=
  [⟨.setConfig "C" "3", [(setKeyRequest "demo" "C" "3", .ok ⟨200, [], ""⟩)], .ok ()⟩,
    ⟨.setConfig "B" "9", [(setKeyRequest "demo" "B" "9", .error (.network "config" "down"))],
      .error (.network "config" "down")⟩,
    ⟨.checkout "next", [(recordRequest "demo", .error (.network "record" "down"))],
      .error (.network "record" "down")⟩]

theorem runs_refused : Runs (setConfig "B" "9") last
    [(setKeyRequest "demo" "B" "9", .error (.network "config" "down"))]
    (.error (.network "config" "down")) last :=
  runs_setConfig_iff.2 ⟨_, rfl, .inr ⟨_, rfl, rfl, rfl⟩⟩

/-- A third key has no entry, and the request for its value gets no reply. -/
theorem runs_getConfig : Runs (getConfig "D") last
    [(keyRequest "demo" "D", .error (.network "config" "down"))]
    (.error (.network "config" "down")) last := by
  have hread : Runs configuration last [] _ last :=
    (runs_configuration_of_config rfl).2 ⟨rfl, rfl, rfl⟩
  exact runs_getConfig_iff.2 (.inr (.inr ⟨_, [], last, _, rfl, rfl, hread, rfl, rfl⟩))

theorem trace : Trace written calls last := by
  have hother : Runs (setConfig "C" "3") written _ (.ok ()) last :=
    runs_setConfig_iff.2 ⟨.ok ⟨200, [], ""⟩, rfl, .inl ⟨_, rfl, rfl, rfl⟩⟩
  have hheld : Runs (checkout "next") last _ (.error (.network "record" "down")) last :=
    runs_checkout_iff.2 ⟨_, _, _,
      runs_loaded_iff.2 (.inr ⟨rfl, .error (.network "record" "down"), rfl, rfl, rfl⟩),
      .inr ⟨_, rfl, rfl, rfl, rfl⟩⟩
  exact .cons hother (.cons runs_refused (.cons hheld (.nil _)))

theorem spares : ∀ call ∈ calls, call.Spares "demo" "B" := by
  refine List.forall_mem_cons.2 ⟨.inl (by decide), List.forall_mem_cons.2 ⟨.inr ⟨_, rfl⟩,
    List.forall_mem_cons.2 ⟨?_, List.forall_mem_nil _⟩⟩⟩
  intro exchange hmem current
  cases List.mem_singleton.1 hmem
  exact Operation.recordRequest_ne_switchRequest "demo" current "next"

end Proxy.KeySet

namespace Proxy

theorem own_writes_keySet :
    (∀ asked outcome after, Runs (getConfig "B") KeySet.last asked outcome after ↔
      asked = [] ∧ outcome = .ok "2" ∧ after = KeySet.last) ∧
    (∃ known, known.get? "B" = some "2" ∧
      ∀ asked outcome after, Runs configuration KeySet.last asked outcome after ↔
        asked = [] ∧ outcome = .ok known ∧ after = KeySet.last) ∧
    KeySet.last.config = some [⟨"B", "2"⟩, ⟨"C", "3"⟩] := by
  have hset : Runs (setConfig "B" "2") (.new "demo") _ (.ok ()) KeySet.written :=
    runs_setConfig_iff.2 ⟨.ok ⟨200, [], ""⟩, rfl, .inl ⟨_, rfl, rfl, rfl⟩⟩
  obtain ⟨hget, hconfiguration⟩ :=
    (own_writes (.new "demo") "B").1 "2" _ _ _ _ hset KeySet.trace KeySet.spares
  obtain ⟨hconfig, -⟩ := (own_writes KeySet.last "D").2.2 _ _ _ _ KeySet.runs_getConfig
    List.mem_cons_self
  exact ⟨hget, hconfiguration, hconfig _ rfl⟩

end Proxy

end GitTransport
