/-
A proxy never says anything that an honest service does not.

  `Coherent` is what holds between a proxy and what the service keeps: a remembered
  record agrees with the one that is kept, but for its configuration, which is passed
  over as soon as entries are known; what the known entries say of a key is its value
  at the service, though they need not speak of every key; and as long as no entries
  are known, the configuration of the remembered record is the one of the service.

  Every move keeps this (`coherent_of_quiet`, `coherent_of_knows`, ...), hence every
  operation and every list of operations.  Since an answer is what the proxy
  remembers, it is true of what the service keeps (`Conversation.truthful_answers`).
-/

import GitTransport.Proofs.Service.Moves

namespace GitTransport

open ProxyJob Proxy

/-! ## The invariant -/

/-- What a proxy remembers agrees with what the service keeps. -/
structure Coherent (name : String) (proxy : Proxy) (server : Option Kept) : Prop where
  name_eq : proxy.name = name
  snapshot : ∀ record, proxy.snapshot = some record → ∃ kept, server = some kept ∧
    ∀ member, member ≠ "config" → Fields.get? record member = Fields.get? kept.record member
  config : ∀ entries, proxy.config = some entries → ∃ kept, server = some kept ∧
    ∀ key value, (Configuration.toDictionary entries).get? key = some value →
      kept.settings.get? key = some value
  derived : ∀ record kept, proxy.config = none → proxy.snapshot = some record →
    server = some kept → Fields.get? record "config" = Fields.get? kept.record "config"

section

variable {name key value : String} {proxy after : Proxy} {server later : Option Kept}

theorem coherent_of_unknown (hname : proxy.name = name) (hs : proxy.snapshot = none)
    (hc : proxy.config = none) : Coherent name proxy server where
  name_eq := hname
  snapshot record h := by
    rw [hs] at h
    cases h
  config entries h := by
    rw [hc] at h
    cases h
  derived record kept _ h := by
    rw [hs] at h
    cases h

/-- Nothing is remembered of a repository that is not registered. -/
theorem Coherent.unknown (h : Coherent name proxy none) :
    proxy.snapshot = none ∧ proxy.config = none := by
  constructor
  · cases hs : proxy.snapshot with
    | none => rfl
    | some record =>
      obtain ⟨_, hnone, -⟩ := h.snapshot record hs
      cases hnone
  · cases hc : proxy.config with
    | none => rfl
    | some entries =>
      obtain ⟨_, hnone, -⟩ := h.config entries hc
      cases hnone

/-! ## Entries -/

/-- The entries that a record gives a change to start from. -/
theorem getD_configOfRecord {record : Fields Json} {entries : List Configuration.Entry}
    (h : entriesOf (Fields.get? record "config") = .ok entries) :
    (configOfRecord record).getD [] = entries := by
  have hof : Configuration.ofJson (Fields.get? record "config") = .ok entries :=
    mapError_eq_ok_iff.1 h
  unfold configOfRecord
  split
  · next hnone =>
    rw [hnone] at hof
    exact Except.ok.inj hof
  · next hnull =>
    rw [hnull] at hof
    exact Except.ok.inj hof
  · next value _ hvalue =>
    rw [hvalue] at hof
    rw [hof]
    rfl

/-- Entries that come with a record are those in it. -/
theorem entriesOf_of_configOfRecord {record : Fields Json} {entries : List Configuration.Entry}
    (h : configOfRecord record = some entries) :
    entriesOf (Fields.get? record "config") = .ok entries := by
  unfold configOfRecord at h
  split at h
  · cases h
  · cases h
  · next value _ hvalue =>
    rw [hvalue, entriesOf]
    cases hof : Configuration.ofJson (some value) with
    | error fault =>
      rw [hof] at h
      cases h
    | ok found =>
      rw [hof] at h
      cases h
      rfl

/-- What a change of the configuration starts from is true. -/
theorem Coherent.get?_knownEntries {kept : Kept} (h : Coherent name proxy (some kept))
    (hget : (Configuration.toDictionary proxy.knownEntries).get? key = some value) :
    kept.settings.get? key = some value := by
  unfold knownEntries at hget
  split at hget
  · next entries hc =>
    obtain ⟨_, hkept, htrue⟩ := h.config entries hc
    cases hkept
    exact htrue key value hget
  · next record hc hs =>
    -- a record without a readable configuration gives no entries
    cases hof : configOfRecord record with
    | none =>
      rw [hof] at hget
      cases hget
    | some entries =>
      rw [hof] at hget
      refine kept.listed entries ?_ key value hget
      rw [← h.derived record kept hc hs rfl]
      exact entriesOf_of_configOfRecord hof
  · cases hget

/-! ## What the moves keep -/

theorem coherent_of_quiet (hmove : Quiet proxy server after later)
    (h : Coherent name proxy server) : Coherent name after later := by
  cases hmove with
  | stay => exact h
  | remember kept =>
    refine ⟨h.name_eq, fun record hs => ?_, h.config, fun record kept' _ hs hkept => ?_⟩
    · cases hs
      exact ⟨kept, rfl, fun _ _ => rfl⟩
    · cases hs
      cases hkept
      rfl
  | forget => exact coherent_of_unknown h.name_eq rfl rfl
  | register kept =>
    -- nothing was remembered, so the new record is all there is
    have hrecord : (Registration.registered kept.record proxy).snapshot = some kept.record := by
      simp [Registration.registered, h.unknown.1]
    refine ⟨h.name_eq, fun record hs => ?_, fun entries hc => ?_, fun record kept' _ hs hkept => ?_⟩
    · rw [hrecord] at hs
      cases hs
      exact ⟨kept, rfl, fun _ _ => rfl⟩
    · cases hc
    · rw [hrecord] at hs
      cases hs
      cases hkept
      rfl
  | lose => exact coherent_of_unknown h.name_eq h.unknown.1 h.unknown.2

theorem coherent_of_knows (hmove : Knows proxy after) (h : Coherent name proxy server) :
    Coherent name after server := by
  obtain ⟨hc, record, entries, hs, hentries, rfl⟩ := hmove
  obtain ⟨kept, rfl, hrecord⟩ := h.snapshot record hs
  refine ⟨h.name_eq, h.snapshot, fun known hknown => ⟨kept, rfl, ?_⟩, fun _ _ hnone => ?_⟩
  · -- no entries were known, so the remembered record is up to date in this member too
    cases hknown
    rw [h.derived record kept hc hs rfl] at hentries
    exact kept.listed entries hentries
  · cases hnone

theorem coherent_of_learns (hmove : Learns key proxy server after)
    (h : Coherent name proxy server) : Coherent name after server := by
  obtain ⟨-, kept, value, rfl, hvalue, rfl⟩ := hmove
  refine ⟨h.name_eq, h.snapshot, fun known hknown => ⟨kept, rfl, ?_⟩, fun _ _ hnone => ?_⟩
  · cases hknown
    intro name' value' hget
    rw [Configuration.get?_toDictionary_setKey] at hget
    by_cases hname : key = name'
    · subst hname
      rw [if_pos rfl] at hget
      rw [← hget, hvalue]
    · rw [if_neg hname] at hget
      exact h.get?_knownEntries hget
  · cases hnone

theorem coherent_of_writes (hmove : Writes key value proxy server after later)
    (h : Coherent name proxy server) : Coherent name after later := by
  obtain ⟨before, kept, rfl, rfl, ⟨hsettings, hmembers⟩, rfl⟩ := hmove
  refine ⟨h.name_eq, fun record hs => ⟨kept, rfl, fun member hmember => ?_⟩,
    fun known hknown => ⟨kept, rfl, ?_⟩, fun _ _ hnone => ?_⟩
  · -- the remembered record lacks the key from now on, but in its configuration only
    obtain ⟨_, hbefore, hrecord⟩ := h.snapshot record hs
    cases hbefore
    rw [hmembers member hmember]
    exact hrecord member hmember
  · cases hknown
    intro name' value' hget
    rw [Configuration.get?_toDictionary_setKey] at hget
    rw [hsettings, Dictionary.get?_insert]
    by_cases hname : key = name'
    · rw [if_pos hname] at hget ⊢
      exact hget
    · rw [if_neg hname] at hget ⊢
      exact h.get?_knownEntries hget
  · cases hnone

/-- Every operation keeps a proxy coherent with an honest service. -/
theorem coherent_of_runs {op : Operation} {outcome : Except Error op.Answer}
    {asked : List (Request × Reply)} (hrun : Runs op.job proxy asked outcome after)
    (hc : Exchange.Chain (Honest name) server asked later) (h : Coherent name proxy server) :
    Coherent name after later := by
  refine Operation.invariant coherent_of_quiet coherent_of_knows coherent_of_learns
    coherent_of_writes hrun ?_ h
  rw [h.name_eq]
  exact hc

end

/-! ## Conversations -/

/-- A proxy at the beginning of a conversation: it knows nothing, or the record that
    the service keeps. -/
inductive Beginning (name : String) (server : Option Kept) : Proxy → Prop where
  | new (classifier : Classifier) :
      Beginning name server ((Proxy.new name).withClassifier classifier)
  | withRecord (classifier : Classifier) (kept : Kept) : server = some kept →
      Beginning name server ((Proxy.withRecord name kept.record).withClassifier classifier)

theorem Beginning.coherent {name : String} {server : Option Kept} {proxy : Proxy}
    (h : Beginning name server proxy) : Coherent name proxy server := by
  cases h with
  | new classifier => exact coherent_of_unknown rfl rfl rfl
  | withRecord classifier kept hserver =>
    refine ⟨rfl, fun record hs => ?_, fun entries hc => ⟨kept, hserver, ?_⟩,
      fun record kept' _ hs hkept => ?_⟩
    · cases hs
      exact ⟨kept, hserver, fun _ _ => rfl⟩
    · exact kept.listed entries (entriesOf_of_configOfRecord hc)
    · cases hs
      rw [hserver] at hkept
      cases hkept
      rfl

namespace Conversation

variable {name : String} {service : Service name}

theorem coherent_perform (talk : Conversation service) (op : Operation)
    (h : Coherent name talk.proxy talk.kept) :
    Coherent name (talk.perform op).2.proxy (talk.perform op).2.kept := by
  obtain ⟨asked, hrun, hc⟩ := talk.runs_perform op
  exact coherent_of_runs hrun hc h

/-- A proxy stays coherent through any list of operations. -/
theorem coherent_run (talk : Conversation service) (ops : List Operation)
    (h : Coherent name talk.proxy talk.kept) :
    Coherent name (talk.run ops).proxy (talk.run ops).kept := by
  induction ops generalizing talk with
  | nil => exact h
  | cons op ops ih => exact ih (talk.perform op).2 (talk.coherent_perform op h)

end Conversation

/-! ## Answers -/

/-- An answer is true of what the service keeps. -/
def Operation.Truthful : (op : Operation) → Option Kept → op.Answer → Prop
  | .read a, server, text => ∃ kept, server = some kept ∧ text = a.valueIn kept.record
  | .isCloned, server, cloned => ∃ kept, server = some kept ∧
      cloned = decide (Attribute.status.valueIn kept.record ≠ some Proxy.statusCreated)
  | .itemOr name default, server, value => name ≠ "config" → ∃ kept, server = some kept ∧
      value = (Fields.get? kept.record name).getD default
  | .configuration, server, known => ∃ kept, server = some kept ∧
      ∀ key value, Dictionary.get? known key = some value → kept.settings.get? key = some value
  | .getConfig key, server, value => ∃ kept, server = some kept ∧
      kept.settings.get? key = some value
  | _, _, _ => True

theorem Coherent.valueIn {name : String} {proxy : Proxy} {server : Option Kept}
    {record : Fields Json} (h : Coherent name proxy server) (hs : proxy.snapshot = some record)
    (a : Attribute) : ∃ kept, server = some kept ∧ a.valueIn record = a.valueIn kept.record := by
  obtain ⟨kept, hkept, hrecord⟩ := h.snapshot record hs
  exact ⟨kept, hkept, by rw [Attribute.valueIn, hrecord _ a.member_ne_config, Attribute.valueIn]⟩

/-- What a coherent proxy remembers is true. -/
theorem Operation.truthful_of_remembered {name : String} {proxy : Proxy} {server : Option Kept}
    {op : Operation} {answer : op.Answer} (h : Coherent name proxy server)
    (hanswer : op.Remembered proxy answer) : op.Truthful server answer := by
  cases op with
  | read a =>
    obtain ⟨record, hs, rfl⟩ := hanswer
    exact h.valueIn hs a
  | isCloned =>
    obtain ⟨record, hs, rfl⟩ := hanswer
    obtain ⟨kept, hkept, hvalue⟩ := h.valueIn hs .status
    exact ⟨kept, hkept, by rw [hvalue]⟩
  | itemOr member default =>
    obtain ⟨record, hs, rfl⟩ := hanswer
    intro hmember
    obtain ⟨kept, hkept, hrecord⟩ := h.snapshot record hs
    exact ⟨kept, hkept, by rw [hrecord member hmember]⟩
  | configuration =>
    obtain ⟨entries, hc, rfl⟩ := hanswer
    exact h.config entries hc
  | getConfig key =>
    obtain ⟨entries, hc, hget⟩ := hanswer
    obtain ⟨kept, hkept, htrue⟩ := h.config entries hc
    exact ⟨kept, hkept, htrue key answer hget⟩
  | _ => trivial

/-- Whatever was done before, with whatever outcomes: what a proxy says of a repository
    is true of what the service keeps then. -/
theorem Conversation.truthful_answers {name : String} {service : Service name}
    {talk : Conversation service} (hstart : Beginning name talk.kept talk.proxy)
    (ops : List Operation) {op : Operation} {answer : op.Answer}
    (h : ((talk.run ops).perform op).1 = .ok answer) :
    op.Truthful ((talk.run ops).perform op).2.kept answer := by
  have hrun := talk.coherent_run ops hstart.coherent
  have hafter := (talk.run ops).coherent_perform op hrun
  -- the answer was read off the proxy that is left, and that one is coherent
  obtain ⟨asked, hruns, -⟩ := (talk.run ops).runs_perform op
  rw [h] at hruns
  exact Operation.truthful_of_remembered hafter (Operation.remembered_of_runs hruns)

/-- The key that was set is seen, though the remembered record lacks it. -/
theorem Conversation.truthful_answers_twoKeys :
    ∃ talk : Conversation Service.twoKeys,
      ((talk.run [.read .status, .setConfig "B" "2"]).perform .configuration).1 =
        .ok (Dictionary.ofList [("A", "1"), ("B", "2")]) ∧
      Operation.configuration.Truthful
        ((talk.run [.read .status, .setConfig "B" "2"]).perform .configuration).2.kept
        (Dictionary.ofList [("A", "1"), ("B", "2")]) := by
  refine ⟨⟨.new "demo", false⟩, ?_⟩
  have h : ((run ⟨.new "demo", false⟩ [.read .status, .setConfig "B" "2"]).perform
      .configuration : _ × Conversation Service.twoKeys).1 =
        .ok (Dictionary.ofList [("A", "1"), ("B", "2")]) := rfl
  exact ⟨h, truthful_answers (.new .standard) _ h⟩

end GitTransport
