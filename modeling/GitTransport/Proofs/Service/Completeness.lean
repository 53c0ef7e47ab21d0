/-
Which keys a configuration speaks of.

  The entries that a proxy knows are true of an honest service, but there may be keys
  of which they say nothing.  A `Coverage` tells of which keys they speak: of all of
  them when they come from the record, and only of the keys that were set and asked
  for since when they were begun by setting a key on a proxy that knew nothing.  It
  follows from what was done (`Coverage.step`) and not from the entries.

  `Covered` says that the entries are exactly the service's configuration on these
  keys.  Every operation keeps it (`covered_of_runs`), so a configuration that is
  returned is the whole one exactly when no stored key is left out
  (`Conversation.configuration_of_coverage`).
-/

import GitTransport.Proofs.Service.Coherence

namespace GitTransport

open ProxyJob Proxy

/-! ## Coverage -/

/-- The keys that the known entries speak of. -/
inductive Coverage where
  | whole
  | only (keys : List String)

namespace Coverage

/-- The known entries speak of `key`. -/
def Covers : Coverage → String → Prop
  | .whole, _ => True
  | .only keys, key => key ∈ keys

instance (coverage : Coverage) (key : String) : Decidable (coverage.Covers key) :=
  match coverage with
  | .whole => inferInstanceAs (Decidable True)
  | .only keys => inferInstanceAs (Decidable (key ∈ keys))

/-- One more key. -/
def adding (key : String) : Coverage → Coverage
  | .whole => .whole
  | .only keys => .only (key :: keys)

theorem covers_adding (coverage : Coverage) (key name : String) :
    (coverage.adding key).Covers name ↔ key = name ∨ coverage.Covers name := by
  cases coverage with
  | whole => simp [adding, Covers]
  | only keys => simp [adding, Covers, eq_comm]

/-- The coverage behind an operation that succeeds, by the proxy before it. -/
def grown (coverage : Coverage) (before : Proxy) : Operation → Coverage
  | .setConfig key _ =>
    if before.snapshot = none ∧ before.config = none then .only [key] else coverage.adding key
  | .getConfig key => coverage.adding key
  | _ => coverage

/-- The coverage behind an operation.  When no entries are known behind it, the next
    ones come from the record. -/
def step (coverage : Coverage) (before : Proxy) (op : Operation) (succeeded : Bool)
    (after : Proxy) : Coverage :=
  if after.config = none then .whole
  else if succeeded then coverage.grown before op
  else coverage

/-- The coverage behind a list of operations. -/
def along {name : String} {service : Service name} (coverage : Coverage)
    (talk : Conversation service) : List Operation → Coverage
  | [] => coverage
  | op :: ops =>
    along (coverage.step talk.proxy op (talk.perform op).1.isOk (talk.perform op).2.proxy)
      (talk.perform op).2 ops

end Coverage

/-! ## The invariant -/

/-- The values that a coverage leaves of all the values of a service. -/
def Coverage.restrict (coverage : Coverage) (kept : Kept) (key : String) : Option String :=
  if coverage.Covers key then kept.settings.get? key else none

/-- Values that are right on the covered keys, and none on others, are all there are
    exactly when every stored key is covered. -/
theorem Coverage.eq_settings_iff {coverage : Coverage} {kept : Kept} {known : Dictionary String}
    (h : ∀ key, known.get? key = coverage.restrict kept key) :
    known = kept.settings ↔ ∀ key, kept.settings.get? key ≠ none → coverage.Covers key := by
  constructor
  · intro heq key hstored
    by_contra hnot
    have hkey := h key
    rw [restrict, if_neg hnot, heq] at hkey
    exact hstored hkey
  · intro hall
    refine Dictionary.eq_of_get? fun key => ?_
    rw [h key, restrict]
    by_cases hcovers : coverage.Covers key
    · rw [if_pos hcovers]
    · rw [if_neg hcovers]
      by_contra hne
      exact hcovers (hall key fun hnone => hne hnone.symm)

/-- What the known entries say is what the service keeps, on the covered keys. -/
structure Covered (coverage : Coverage) (proxy : Proxy) (server : Option Kept) : Prop where
  fresh : proxy.config = none → coverage = .whole
  known : ∀ entries kept, proxy.config = some entries → server = some kept →
    ∀ key, (Configuration.toDictionary entries).get? key = coverage.restrict kept key

section

variable {name key value : String} {coverage : Coverage} {proxy after : Proxy}
  {server later : Option Kept}

theorem Coverage.restrict_whole (kept : Kept) (key : String) :
    Coverage.whole.restrict kept key = kept.settings.get? key :=
  if_pos trivial

theorem Coverage.restrict_adding (coverage : Coverage) (kept : Kept) (key name : String) :
    (coverage.adding key).restrict kept name =
      if key = name then kept.settings.get? name else coverage.restrict kept name := by
  simp only [restrict, covers_adding]
  by_cases hname : key = name
  · simp [hname]
  · simp [hname]

theorem covered_of_unknown (hc : proxy.config = none) : Covered .whole proxy server where
  fresh _ := rfl
  known entries _ h := by
    rw [hc] at h
    cases h

/-- Coverage is about the known entries only. -/
theorem Covered.of_config_eq (h : Covered coverage proxy server)
    (hconfig : after.config = proxy.config) : Covered coverage after server where
  fresh hc := h.fresh (hconfig ▸ hc)
  known entries kept hc := h.known entries kept (hconfig ▸ hc)

/-- A covered key more is no harm when the entries have its value. -/
theorem Covered.adding (h : Covered coverage proxy server)
    (hkey : ∀ entries kept, proxy.config = some entries → server = some kept →
      (Configuration.toDictionary entries).get? key = kept.settings.get? key) :
    Covered (coverage.adding key) proxy server where
  fresh hc := by rw [h.fresh hc]; rfl
  known entries kept hc hkept name := by
    rw [Coverage.restrict_adding]
    by_cases hname : key = name
    · subst hname
      rw [if_pos rfl]
      exact hkey entries kept hc hkept
    · rw [if_neg hname]
      exact h.known entries kept hc hkept name

/-! ## What the moves keep -/

/-- The entries of a record that agrees with the service are all there is. -/
theorem Coherent.get?_of_entriesOf {kept : Kept} {record : Fields Json}
    {entries : List Configuration.Entry} (hcoh : Coherent name proxy (some kept))
    (hfull : kept.Full) (hc : proxy.config = none) (hs : proxy.snapshot = some record)
    (hentries : entriesOf (Fields.get? record "config") = .ok entries) :
    Configuration.toDictionary entries = kept.settings := by
  obtain ⟨all, hall, hsettings⟩ := hfull
  rw [← hcoh.derived record kept hc hs rfl, hentries] at hall
  cases hall
  exact hsettings

/-- A quiet move keeps the known entries, or nothing is known behind it. -/
theorem Quiet.config_eq (hmove : Quiet proxy server after later)
    (hcoh : Coherent name proxy server) (hsome : after.config ≠ none) :
    after.config = proxy.config ∧ later = server := by
  cases hmove with
  | stay => exact ⟨rfl, rfl⟩
  | remember => exact ⟨rfl, rfl⟩
  | forget => exact absurd rfl hsome
  | register => exact absurd rfl hsome
  | lose => exact absurd hcoh.unknown.2 hsome

theorem covered_of_reads (hmove : Reads proxy server after)
    (hfull : ∀ kept, server = some kept → kept.Full) (hcoh : Coherent name proxy server)
    (h : Covered coverage proxy server) : Covered coverage after server := by
  obtain ⟨between, hquiet, hconfig, rfl | hknows⟩ := hmove
  · exact h.of_config_eq hconfig
  · have hbetween := coherent_of_quiet hquiet hcoh
    obtain ⟨hnone, record, entries, hs, hentries, rfl⟩ := hknows
    have hwhole : coverage = .whole := h.fresh (hconfig ▸ hnone)
    refine ⟨fun _ => hwhole, fun known kept hknown hkept name => ?_⟩
    cases hknown
    subst hkept
    rw [hwhole, Coverage.restrict_whole,
      hbetween.get?_of_entriesOf (hfull kept rfl) hnone hs hentries]

/-- What a change of the configuration starts from, on a proxy that knows something. -/
theorem Covered.get?_knownEntries {kept : Kept} (h : Covered coverage proxy (some kept))
    (hcoh : Coherent name proxy (some kept)) (hfull : kept.Full)
    (hknown : ¬ (proxy.snapshot = none ∧ proxy.config = none)) (key : String) :
    (Configuration.toDictionary proxy.knownEntries).get? key = coverage.restrict kept key := by
  unfold knownEntries
  split
  · next entries hc => exact h.known entries kept hc rfl key
  · next record hc hs =>
    -- the remembered record lists every key, as no entries have been known since
    have hfull' := hfull
    obtain ⟨entries, hall, -⟩ := hfull'
    rw [← hcoh.derived record kept hc hs rfl] at hall
    rw [getD_configOfRecord hall, hcoh.get?_of_entriesOf hfull hc hs hall, h.fresh hc,
      Coverage.restrict_whole]
  · next hc hs => exact absurd ⟨hs, hc⟩ hknown

theorem covered_of_writes (hmove : Writes key value proxy server after later)
    (hfull : ∀ kept, server = some kept → kept.Full) (hcoh : Coherent name proxy server)
    (h : Covered coverage proxy server) :
    Covered (if proxy.snapshot = none ∧ proxy.config = none then .only [key]
      else coverage.adding key) after later := by
  obtain ⟨before, kept, rfl, rfl, ⟨hsettings, -⟩, rfl⟩ := hmove
  refine ⟨fun hnone => ?_, fun known kept' hknown hkept name' => ?_⟩
  · cases hnone
  · cases hknown
    cases hkept
    rw [Configuration.get?_toDictionary_setKey]
    by_cases hunknown : proxy.snapshot = none ∧ proxy.config = none
    · -- the list begins with this key, whatever the service has besides
      have hempty : proxy.knownEntries = [] := by
        rw [knownEntries, hunknown.1, hunknown.2]
      rw [if_pos hunknown, hempty, Configuration.get?_toDictionary_nil, Coverage.restrict,
        hsettings, Dictionary.get?_insert]
      by_cases hname : key = name'
      · simp [Coverage.Covers, hname]
      · simp [Coverage.Covers, hname, Ne.symm hname]
    · rw [if_neg hunknown, Coverage.restrict_adding, hsettings, Dictionary.get?_insert,
        h.get?_knownEntries hcoh (hfull before rfl) hunknown]
      by_cases hname : key = name'
      · rw [if_pos hname, if_pos hname, if_pos hname]
      · rw [if_neg hname, if_neg hname, Coverage.restrict, Coverage.restrict, hsettings,
          Dictionary.get?_insert, if_neg hname]

theorem covered_of_learns (hmove : Learns key proxy server after)
    (h : Covered coverage proxy server) : Covered (coverage.adding key) after server := by
  obtain ⟨hsome, kept, value, rfl, hvalue, rfl⟩ := hmove
  obtain ⟨entries, hc⟩ := Option.ne_none_iff_exists'.1 hsome
  have hentries : proxy.knownEntries = entries := by rw [knownEntries, hc]
  refine ⟨fun hnone => ?_, fun known kept' hknown hkept name' => ?_⟩
  · cases hnone
  · cases hknown
    cases hkept
    rw [Configuration.get?_toDictionary_setKey, hentries, Coverage.restrict_adding]
    by_cases hname : key = name'
    · rw [if_pos hname, if_pos hname, ← hname, hvalue]
    · rw [if_neg hname, if_neg hname]
      exact h.known entries kept hc rfl name'

/-- The value of a key that was asked for is known behind it. -/
theorem covered_of_getConfig {outcome : Except Error String} {asked : List (Request × Reply)}
    (hrun : Runs (getConfig key) proxy asked outcome after)
    (hc : Exchange.Chain (Honest name) server asked later)
    (hfull : ∀ kept, server = some kept → kept.Full) (hcoh : Coherent name proxy server)
    (h : Covered coverage proxy server) :
    Covered (if outcome.isOk then coverage.adding key else coverage) after later := by
  have hop : Runs (Operation.getConfig key).job proxy asked outcome after := hrun
  have hafter := coherent_of_runs hop hc hcoh
  rw [← hcoh.name_eq] at hc
  obtain ⟨rfl, between, hreads, hmove⟩ := moves_of_getConfig hrun hc
  have hbetween := covered_of_reads hreads hfull hcoh h
  rcases hmove with rfl | ⟨hlearns, value, rfl⟩
  · cases outcome with
    | error error => exact hbetween
    | ok value =>
      -- a value that was found among the entries is the one kept
      refine hbetween.adding fun entries kept hentries hkept => ?_
      obtain ⟨_, hknown, hget⟩ := config_of_getConfig hrun
      rw [hentries] at hknown
      cases hknown
      obtain ⟨_, hserver, htrue⟩ := hafter.config entries hentries
      rw [hkept] at hserver
      cases hserver
      rw [hget, htrue key value hget]
  · exact covered_of_learns hlearns hbetween

/-- Every operation keeps the known entries exact on the keys that they cover. -/
theorem covered_of_runs {op : Operation} {outcome : Except Error op.Answer}
    {asked : List (Request × Reply)} (hrun : Runs op.job proxy asked outcome after)
    (hc : Exchange.Chain (Honest name) server asked later)
    (hfull : ∀ kept, server = some kept → kept.Full) (hcoh : Coherent name proxy server)
    (h : Covered coverage proxy server) :
    Covered (coverage.step proxy op outcome.isOk after) after later := by
  have hc' : Exchange.Chain (Honest proxy.name) server asked later := by
    rw [hcoh.name_eq]
    exact hc
  by_cases hnone : after.config = none
  · rw [Coverage.step, if_pos hnone]
    exact covered_of_unknown hnone
  · rw [Coverage.step, if_neg hnone]
    cases hop : op.isQuiet with
    | true =>
      -- entries that are still known have not been touched
      have hgrown : coverage.grown proxy op = coverage := by
        cases op <;> first | rfl | cases hop
      obtain ⟨hconfig, rfl⟩ := (op.quiet_of_runs hop hrun hc').config_eq hcoh hnone
      rw [hgrown, ite_self]
      exact h.of_config_eq hconfig
    | false =>
      cases op with
      | configuration =>
        obtain ⟨rfl, hreads⟩ := reads_of_configuration hrun hc'
        have hgrown : coverage.grown proxy .configuration = coverage := rfl
        rw [hgrown, ite_self]
        exact covered_of_reads hreads hfull hcoh h
      | getConfig key => exact covered_of_getConfig hrun hc hfull hcoh h
      | setConfig key value =>
        rcases moves_of_setConfig hrun hc' with ⟨rfl, hwrites⟩ | ⟨⟨error, rfl⟩, rfl, rfl⟩
        · exact covered_of_writes hwrites hfull hcoh h
        · exact h
      | _ => cases hop

end

/-! ## Conversations -/

theorem Beginning.covered {name : String} {server : Option Kept} {proxy : Proxy}
    (h : Beginning name server proxy) (hfull : ∀ kept, server = some kept → kept.Full) :
    Covered .whole proxy server := by
  refine ⟨fun _ => rfl, fun entries kept hc hkept key => ?_⟩
  cases h with
  | new classifier => cases hc
  | withRecord classifier kept' hserver =>
    rw [hserver] at hkept
    cases hkept
    obtain ⟨all, hall, hsettings⟩ := hfull _ hserver
    rw [entriesOf_of_configOfRecord hc] at hall
    cases hall
    rw [hsettings, Coverage.restrict_whole]

namespace Conversation

variable {name : String} {service : Service name}

theorem covered_perform (hfull : ∀ state kept, service.kept state = some kept → kept.Full)
    (coverage : Coverage) (talk : Conversation service) (op : Operation)
    (hcoh : Coherent name talk.proxy talk.kept) (h : Covered coverage talk.proxy talk.kept) :
    Covered (coverage.step talk.proxy op (talk.perform op).1.isOk (talk.perform op).2.proxy)
      (talk.perform op).2.proxy (talk.perform op).2.kept := by
  obtain ⟨asked, hrun, hc⟩ := talk.runs_perform op
  exact covered_of_runs hrun hc (hfull talk.state) hcoh h

theorem covered_run (hfull : ∀ state kept, service.kept state = some kept → kept.Full)
    (coverage : Coverage) (talk : Conversation service) (ops : List Operation)
    (hcoh : Coherent name talk.proxy talk.kept) (h : Covered coverage talk.proxy talk.kept) :
    Covered (coverage.along talk ops) (talk.run ops).proxy (talk.run ops).kept := by
  induction ops generalizing coverage talk with
  | nil => exact h
  | cons op ops ih =>
    exact ih _ _ (talk.coherent_perform op hcoh) (covered_perform hfull coverage talk op hcoh h)

/-- Reading the configuration does not change of which keys the entries speak. -/
theorem known_of_configuration
    (hfull : ∀ state kept, service.kept state = some kept → kept.Full) {coverage : Coverage}
    {talk : Conversation service} (hcoh : Coherent name talk.proxy talk.kept)
    (h : Covered coverage talk.proxy talk.kept) {known : Dictionary String}
    (hknown : (talk.perform .configuration).1 = .ok known) :
    ∃ kept, (talk.perform .configuration).2.kept = some kept ∧
      ∀ key, known.get? key = coverage.restrict kept key := by
  have hcoh' := talk.coherent_perform .configuration hcoh
  have hcov' := covered_perform hfull coverage talk .configuration hcoh h
  obtain ⟨asked, hrun, -⟩ := talk.runs_perform .configuration
  rw [hknown] at hrun
  obtain ⟨entries, hentries, rfl⟩ := config_of_configuration hrun
  obtain ⟨kept, hkept, -⟩ := hcoh'.config entries hentries
  have hsome : (talk.perform .configuration).2.proxy.config ≠ none := by
    rw [hentries]
    exact Option.some_ne_none entries
  have hstep : coverage.step talk.proxy .configuration (talk.perform .configuration).1.isOk
      (talk.perform .configuration).2.proxy = coverage := by
    rw [Coverage.step, if_neg hsome]
    exact ite_self _
  rw [hstep] at hcov'
  exact ⟨kept, hkept, hcov'.known entries kept hentries hkept⟩

/-- A configuration that is returned is the service's configuration on the covered
    keys, and all of it exactly when every stored key is covered. -/
theorem configuration_of_coverage
    (hfull : ∀ state kept, service.kept state = some kept → kept.Full)
    {talk : Conversation service} (hstart : Beginning name talk.kept talk.proxy)
    (ops : List Operation) {known : Dictionary String}
    (h : ((talk.run ops).perform .configuration).1 = .ok known) :
    ∃ kept, ((talk.run ops).perform .configuration).2.kept = some kept ∧
      (∀ key, known.get? key = if (Coverage.whole.along talk ops).Covers key
        then kept.settings.get? key else none) ∧
      (known = kept.settings ↔ ∀ key, kept.settings.get? key ≠ none →
        (Coverage.whole.along talk ops).Covers key) := by
  have hcoh := talk.coherent_run ops hstart.coherent
  have hcov := covered_run hfull .whole talk ops hstart.coherent (hstart.covered (hfull talk.state))
  obtain ⟨kept, hkept, hget⟩ := known_of_configuration hfull hcoh hcov h
  exact ⟨kept, hkept, hget, Coverage.eq_settings_iff hget⟩

/-- Setting a key on a proxy that knows nothing hides the other one. -/
theorem configuration_of_coverage_twoKeys :
    ∃ talk : Conversation Service.twoKeys,
      ((talk.run [.setConfig "B" "2"]).perform .configuration).1 =
        .ok (Dictionary.ofList [("B", "2")]) ∧
      ∃ kept, ((talk.run [.setConfig "B" "2"]).perform .configuration).2.kept = some kept ∧
        (∀ key, (Dictionary.ofList [("B", "2")]).get? key =
          if (Coverage.whole.along talk [.setConfig "B" "2"]).Covers key
            then kept.settings.get? key else none) ∧
        (Dictionary.ofList [("B", "2")] = kept.settings ↔
          ∀ key, kept.settings.get? key ≠ none →
            (Coverage.whole.along talk [.setConfig "B" "2"]).Covers key) := by
  refine ⟨⟨.new "demo", false⟩, ?_⟩
  have h : ((run ⟨.new "demo", false⟩ [.setConfig "B" "2"]).perform
      .configuration : _ × Conversation Service.twoKeys).1 =
        .ok (Dictionary.ofList [("B", "2")]) := rfl
  exact ⟨h, configuration_of_coverage TwoKeys.full_kept (.new .standard) _ h⟩

/-- So a configuration that is returned is not always the whole one, though the service
    lists every key in its record. -/
theorem configuration_incomplete :
    ¬ ∀ (name : String) (service : Service name),
      (∀ state kept, service.kept state = some kept → kept.Full) →
      ∀ (state : service.State) (ops : List Operation) (known : Dictionary String) (kept : Kept),
        (∀ op ∈ ops, ∃ key value, op = .setConfig key value) →
        ((run ⟨.new name, state⟩ ops).perform .configuration).1 = .ok known →
        ((run ⟨.new name, state⟩ ops).perform .configuration).2.kept = some kept →
        known = kept.settings := by
  intro h
  have hall := h "demo" Service.twoKeys TwoKeys.full_kept false [.setConfig "B" "2"]
    (Dictionary.ofList [("B", "2")]) (TwoKeys.kept true) (by simp) rfl rfl
  exact absurd hall (by decide)

end Conversation

end GitTransport
