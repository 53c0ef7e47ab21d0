/-
Records whose configuration is none.

  A proxy can be made of any record.  If the record has something under `config` that is no
  list of entries, the proxy is made without entries (`withRecord_of_malformed`), and the first
  job that needs the entries fails.  It fails at once: the record is known, so nothing is asked
  for, and nothing is changed (`configuration_failsAtOnce`, `getConfig_failsAtOnce`).

  What is a list of entries is said by shapes alone, without the reader
  (`configuration_lists`).
-/

import GitTransport.Proofs.Configuration.Reading
import GitTransport.Proofs.Proxy.Reading

namespace GitTransport

open ProxyJob Json

/-- The job fails with this error before it asks for anything, and leaves the proxy as it is. -/
def ProxyJob.FailsAtOnce {α : Type} (job : ProxyJob α) (proxy : Proxy) (error : Error) : Prop :=
  ∀ asked outcome after, Runs job proxy asked outcome after ↔
    asked = [] ∧ outcome = .error error ∧ after = proxy

namespace Proxy

variable {proxy : Proxy} {record : Fields Json}

/-- A configuration that is none is passed over when a proxy is made. -/
theorem withRecord_of_malformed (name : String)
    (hbad : ¬ IsListOf Configuration.IsEntry (Fields.get? record "config")) :
    withRecord name record = ⟨name, .standard, some record, none⟩ := by
  have hrefused := Configuration.ofJson_refused_iff.2 ⟨rfl, hbad⟩
  have hconfig : configOfRecord record = none := by
    rw [configOfRecord]
    split
    · rfl
    · rfl
    · next value _ hget =>
      rw [hget] at hrefused
      rw [hrefused]
      rfl
  rw [withRecord, hconfig]

theorem configuration_failsAtOnce (hs : proxy.snapshot = some record) (hc : proxy.config = none)
    (hbad : ¬ IsListOf Configuration.IsEntry (Fields.get? record "config")) :
    configuration.FailsAtOnce proxy (.json .unexpected) := by
  intro asked outcome after
  have hentries : entriesIn (.ok record) = .error (.json .unexpected) := by
    have hrefused := Configuration.ofJson_refused_iff.2 ⟨rfl, hbad⟩
    rw [entriesIn, Except.bind, entriesOf, hrefused]
    rfl
  rw [runs_configuration_iff]
  constructor
  · rintro (⟨known, hknown, -⟩ | ⟨-, x, between, hrun, rfl, rfl⟩)
    · rw [hc] at hknown
      cases hknown
    · obtain ⟨rfl, rfl, rfl⟩ := (runs_loaded_of_snapshot hs).1 hrun
      rw [hentries]
      exact ⟨rfl, rfl, rfl⟩
  · rintro ⟨rfl, rfl, rfl⟩
    have hrun := (runs_loaded_of_snapshot hs).2 ⟨rfl, rfl, rfl⟩
    exact .inr ⟨hc, .ok record, after, hrun, by rw [hentries]; rfl, by rw [hentries]; rfl⟩

/-- A key is looked for in the configuration first, so it is not asked for either. -/
theorem getConfig_failsAtOnce {error : Error} (h : configuration.FailsAtOnce proxy error)
    (key : String) : (getConfig key).FailsAtOnce proxy error := by
  intro asked outcome after
  rw [runs_getConfig_iff]
  constructor
  · rintro (⟨found, rfl, hread⟩ | ⟨known, value, -, -, hread⟩ |
      ⟨known, first, between, reply, -, -, hread, -⟩)
    · obtain ⟨rfl, heq, rfl⟩ := (h _ _ _).1 hread
      cases heq
      exact ⟨rfl, rfl, rfl⟩
    -- the configuration is not read, so it neither has the key nor lacks it
    · obtain ⟨-, heq, -⟩ := (h _ _ _).1 hread
      cases heq
    · obtain ⟨-, heq, -⟩ := (h _ _ _).1 hread
      cases heq
  · rintro ⟨rfl, rfl, rfl⟩
    exact .inl ⟨error, rfl, (h _ _ _).2 ⟨rfl, rfl, rfl⟩⟩

/-- The configurations among all JSON values, entry by entry, and what becomes of a record with
    something else in its place: a proxy is made of it all the same, and whoever needs the
    configuration then is told the fault. -/
theorem configuration_lists (value : Option Json) (entries : List Configuration.Entry)
    (name : String) (record : Fields Json) (classifier : Classifier) :
    (Configuration.ofJson value = .ok entries ↔ Lists Configuration.Denotes value entries) ∧
      ((∃ entries, Configuration.ofJson value = .ok entries) ↔
        IsListOf Configuration.IsEntry value) ∧
      (¬ IsListOf Configuration.IsEntry value →
        Configuration.ofJson value = .error .unexpected) ∧
      (¬ IsListOf Configuration.IsEntry (Fields.get? record "config") →
        let proxy := (withRecord name record).withClassifier classifier
        proxy = ⟨name, classifier, some record, none⟩ ∧
          configuration.FailsAtOnce proxy (.json .unexpected) ∧
          ∀ key, (getConfig key).FailsAtOnce proxy (.json .unexpected)) := by
  refine ⟨Configuration.ofJson_eq_ok_iff, Configuration.exists_ofJson_iff, fun hbad => ?_,
    fun hbad => ?_⟩
  · exact Configuration.ofJson_refused_iff.2 ⟨rfl, hbad⟩
  · have hproxy : (withRecord name record).withClassifier classifier =
        ⟨name, classifier, some record, none⟩ := by
      rw [withRecord_of_malformed name hbad, withClassifier]
    rw [hproxy]
    have hconfiguration : configuration.FailsAtOnce ⟨name, classifier, some record, none⟩
        (.json .unexpected) := configuration_failsAtOnce rfl rfl hbad
    exact ⟨rfl, hconfiguration, getConfig_failsAtOnce hconfiguration⟩

/-- One item that is no entry is enough, here a truth value behind an entry of each form. -/
theorem configuration_lists_brokenItem :
    let record : Fields Json := [("config", .array [.object [("key", .string "A")],
      .array [.string "B", .number (.integer 7)], .bool true])]
    ¬ IsListOf Configuration.IsEntry (Fields.get? record "config") ∧
      Configuration.ofJson (Fields.get? record "config") = .error .unexpected ∧
      withRecord "demo" record = ⟨"demo", .standard, some record, none⟩ ∧
      (getConfig "A").FailsAtOnce (withRecord "demo" record) (.json .unexpected) := by
  intro record
  have hbad : ¬ IsListOf Configuration.IsEntry (Fields.get? record "config") :=
    (Configuration.ofJson_refused_iff.1 rfl).2
  obtain ⟨-, -, hrefused, hproxy⟩ :=
    configuration_lists (Fields.get? record "config") [] "demo" record .standard
  obtain ⟨heq, -, hget⟩ := hproxy hbad
  exact ⟨hbad, hrefused hbad, heq, hget "A"⟩

end Proxy

end GitTransport
