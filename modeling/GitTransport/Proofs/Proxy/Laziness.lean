/-
Reading as little as possible.

  The readers of a proxy use the record that it knows and ask for it when it knows none.
  What a reply tells of the record is read off the reply alone (`Job.recordIn?`).

  However many readers are called and whatever comes back, a known record is never asked
  for (`Proxy.Holds`), and an unknown one only until a reply tells it, which is then the
  last reply (`Proxy.Loading`).  From there on every reader is answered from that record,
  with one exception: where a proxy knows entries of the configuration from elsewhere, a
  record does not replace them (`Proxy.readers_lazy`, `Proxy.not_from_record`).
-/

import GitTransport.Proofs.Proxy.Operation

namespace GitTransport

open ProxyJob Proxy

/-! ## Readers and their answers -/

/-- The record that a reply tells: the object under `result` in the JSON of a reply that
    reports success. -/
def Job.recordIn? (reply : Reply) : Option (Fields Json) :=
  (Job.bodyOf? reply).bind fun body => (body.member? "result").bind Json.asObject?

/-- The operations that only read what the service knows of the repository. -/
def Operation.isReader : Operation → Bool
  | .read _ => true
  | .isCloned => true
  | .itemOr _ _ => true
  | .configuration => true
  | _ => false

/-- A configuration has known entries, maybe among others. -/
def Configuration.Keeps (entries : List Entry) (values : Dictionary String) : Prop :=
  ∀ key value, (toDictionary entries).get? key = some value → values.get? key = some value

/-- What `configuration` answers when the record is `record` and the entries `known` came
    from elsewhere: what the record has, or something that keeps these entries. -/
def Proxy.ConfiguredFrom (record : Fields Json) (known : Option (List Configuration.Entry))
    (outcome : Except Error (Dictionary String)) : Prop :=
  match known with
  | none => outcome = (entriesOf (Fields.get? record "config")).map Configuration.toDictionary
  | some entries => ∃ values, outcome = .ok values ∧ Configuration.Keeps entries values

/-- What a reader answers when the record is `record` and the entries `known` came from
    elsewhere. -/
def Operation.AnsweredFrom (record : Fields Json) (known : Option (List Configuration.Entry)) :
    (op : Operation) → Except Error op.Answer → Prop
  | .read a, outcome => outcome = .ok (a.valueIn record)
  | .isCloned, outcome =>
    outcome = .ok (decide (Attribute.status.valueIn record ≠ some Proxy.statusCreated))
  | .itemOr name default, outcome => outcome = .ok ((Fields.get? record name).getD default)
  | .configuration, outcome => Proxy.ConfiguredFrom record known outcome
  | _, _ => False

/-- Whether a reader has to ask. -/
def Proxy.Needs (proxy : Proxy) (op : Operation) : Prop :=
  op.isReader = true ∧ proxy.snapshot = none ∧ (op = .configuration → proxy.config = none)

namespace Proxy

variable {proxy between after : Proxy} {op : Operation} {asked : List (Request × Reply)}
  {record : Fields Json}

theorem recordAnswer_eq_ok_iff {reply : Reply} :
    proxy.recordAnswer reply = .ok record ↔ Job.recordIn? reply = some record := by
  rw [recordAnswer, bind_eq_ok_iff, Job.recordIn?, Option.bind_eq_some_iff]
  simp only [jsonAnswer_eq_ok_iff, recordOf_eq_ok_iff]

/-- The record comes from a reply that tells one, and there is an error for all others. -/
theorem recordAnswer_cases (proxy : Proxy) (reply : Reply) :
    (∃ record, Job.recordIn? reply = some record ∧ proxy.recordAnswer reply = .ok record) ∨
      (Job.recordIn? reply = none ∧ ∃ error, proxy.recordAnswer reply = .error error) := by
  cases hx : proxy.recordAnswer reply with
  | ok record => exact .inl ⟨record, recordAnswer_eq_ok_iff.1 hx, rfl⟩
  | error error =>
    refine .inr ⟨?_, error, rfl⟩
    rw [Option.eq_none_iff_forall_ne_some]
    intro record hrecord
    rw [recordAnswer_eq_ok_iff.2 hrecord] at hx
    cases hx

end Proxy

/-! ## One reader -/

namespace Operation

variable {proxy after : Proxy} {asked : List (Request × Reply)} {record : Fields Json}
  {known : Option (List Configuration.Entry)}

/-- All readers but one use the record and nothing else. -/
theorem exists_eq_map {op : Operation} (hop : op.isReader = true) (hne : op ≠ .configuration) :
    ∃ f : Fields Json → op.Answer, op.job = f <$> loaded ∧
      ∀ record known outcome, op.AnsweredFrom record known outcome ↔ outcome = .ok (f record) := by
  cases op with
  | read a => exact ⟨_, job_read a, fun _ _ _ => Iff.rfl⟩
  | isCloned => exact ⟨_, job_isCloned, fun _ _ _ => Iff.rfl⟩
  | itemOr name default => exact ⟨_, job_itemOr name default, fun _ _ _ => Iff.rfl⟩
  | configuration => exact absurd rfl hne
  | _ => cases hop

theorem runs_read {a : Attribute} {x : Except Error (Fields Json)}
    (h : Runs loaded proxy asked x after) :
    Runs (read a).job proxy asked (x.map a.valueIn) after := by
  rw [job_read]
  exact runs_map_iff.2 ⟨x, rfl, h⟩

end Operation

namespace Proxy

variable {proxy after : Proxy} {asked : List (Request × Reply)} {record : Fields Json}
  {known : Option (List Configuration.Entry)} {calls : List Call}

/-- The entries of a configuration: the known ones, or those of the record. -/
def entriesFrom (record : Fields Json) (known : Option (List Configuration.Entry)) :
    Except Error (List Configuration.Entry) :=
  match known with
  | some entries => .ok entries
  | none => entriesOf (Fields.get? record "config")

theorem configuredFrom_entries (record : Fields Json)
    (known : Option (List Configuration.Entry)) :
    ConfiguredFrom record known ((entriesFrom record known).map Configuration.toDictionary) := by
  cases known with
  | none => exact rfl
  | some entries => exact ⟨_, rfl, fun _ _ h => h⟩

/-- The proxy knows the record, and its entries are those `known` from elsewhere or those
    of the record. -/
structure Holds (record : Fields Json) (known : Option (List Configuration.Entry))
    (proxy : Proxy) : Prop where
  snapshot : proxy.snapshot = some record
  entries : entriesFrom record proxy.config = entriesFrom record known

/-- Entries read from the record are entries of the record. -/
theorem Holds.knowing (h : Holds record known proxy) (hconfig : proxy.config = none) :
    Holds record known (proxy.knowing (entriesOf (Fields.get? record "config"))) := by
  have hentries : entriesOf (Fields.get? record "config") = entriesFrom record known := by
    rw [← h.entries, hconfig]
    rfl
  rw [hentries]
  cases hknown : entriesFrom record known with
  | error error => exact h
  | ok entries => exact ⟨h.snapshot, hknown.symm⟩

theorem Holds.configuredFrom (h : Holds record known proxy) :
    ConfiguredFrom record known
      ((entriesFrom record proxy.config).map Configuration.toDictionary) := by
  rw [h.entries]
  exact configuredFrom_entries record known

/-- A known record is used, and nothing is asked. -/
theorem holds_of_runs {op : Operation} (hop : op.isReader = true) {outcome : Except Error op.Answer}
    (hholds : Holds record known proxy) (h : Runs op.job proxy asked outcome after) :
    asked = [] ∧ op.AnsweredFrom record known outcome ∧ Holds record known after := by
  by_cases hne : op = .configuration
  · subst hne
    rcases runs_configuration_iff.1 h with ⟨entries, hconfig, rfl, rfl, rfl⟩ |
      ⟨hconfig, x, between, hrun, rfl, rfl⟩
    · have hanswer := hholds.configuredFrom
      rw [hconfig] at hanswer
      exact ⟨rfl, hanswer, hholds⟩
    · obtain ⟨rfl, rfl, rfl⟩ := (runs_loaded_of_snapshot hholds.snapshot).1 hrun
      have hanswer := hholds.configuredFrom
      rw [hconfig] at hanswer
      exact ⟨rfl, hanswer, hholds.knowing hconfig⟩
  · obtain ⟨f, hjob, hanswer⟩ := Operation.exists_eq_map hop hne
    rw [hjob] at h
    obtain ⟨x, rfl, hrun⟩ := runs_map_iff.1 h
    obtain ⟨rfl, rfl, rfl⟩ := (runs_loaded_of_snapshot hholds.snapshot).1 hrun
    exact ⟨rfl, (hanswer record known _).2 rfl, hholds⟩

end Proxy

/-- A call that got no record: it asked for it in vain and failed, or it made do with the
    known entries. -/
inductive Call.Unread (proxy : Proxy) : Call → Prop where
  | vain {call : Call} {reply : Reply} (hasked : call.asked = [(recordRequest proxy.name, reply)])
      (hreply : Job.recordIn? reply = none) (hfailed : call.Failed) : Unread proxy call
  | known {entries : List Configuration.Entry} {values : Dictionary String}
      (hconfig : proxy.config = some entries) (hkeeps : Configuration.Keeps entries values) :
      Unread proxy ⟨.configuration, [], .ok values⟩

/-- A call that got the record from the reply to its only request. -/
structure Call.Reads (proxy : Proxy) (call : Call) (record : Fields Json) (after : Proxy) :
    Prop where
  asked : ∃ reply, call.asked = [(recordRequest proxy.name, reply)] ∧
    Job.recordIn? reply = some record
  answer : call.op.AnsweredFrom record proxy.config call.outcome
  holds : Holds record proxy.config after

namespace Proxy

variable {proxy after : Proxy} {asked : List (Request × Reply)} {record : Fields Json}
  {known : Option (List Configuration.Entry)} {calls : List Call}

/-- An unknown record is asked for, once, by every reader that cannot do without it. -/
theorem unread_or_reads {op : Operation} (hop : op.isReader = true) (hs : proxy.snapshot = none)
    {outcome : Except Error op.Answer} (h : Runs op.job proxy asked outcome after) :
    (Call.Unread proxy ⟨op, asked, outcome⟩ ∧ after = proxy) ∨
      ∃ record, Call.Reads proxy ⟨op, asked, outcome⟩ record after := by
  have hloaded {asked : List (Request × Reply)} {x : Except Error (Fields Json)} {after : Proxy}
      (hrun : Runs loaded proxy asked x after) :
      ∃ reply, asked = [(recordRequest proxy.name, reply)] ∧
        ((∃ record, Job.recordIn? reply = some record ∧ x = .ok record ∧
            Holds record proxy.config after ∧ after.config = proxy.config) ∨
          (Job.recordIn? reply = none ∧ (∃ error, x = .error error) ∧ after = proxy)) := by
    rcases runs_loaded_iff.1 hrun with ⟨_, hsome, -, -, -⟩ | ⟨-, reply, rfl, rfl, rfl⟩
    · rw [hs] at hsome
      cases hsome
    · refine ⟨reply, rfl, ?_⟩
      rcases proxy.recordAnswer_cases reply with ⟨record, hrecord, hx⟩ | ⟨hrecord, error, hx⟩
      · rw [hx]
        exact .inl ⟨record, hrecord, rfl, ⟨rfl, rfl⟩, rfl⟩
      · rw [hx]
        exact .inr ⟨hrecord, ⟨error, rfl⟩, rfl⟩
  by_cases hne : op = .configuration
  · subst hne
    rcases runs_configuration_iff.1 h with ⟨entries, hconfig, rfl, rfl, rfl⟩ |
      ⟨hconfig, x, between, hrun, rfl, rfl⟩
    · exact .inl ⟨.known hconfig fun _ _ h => h, rfl⟩
    · obtain ⟨reply, rfl, ⟨record, hrecord, rfl, hholds, hsame⟩ |
        ⟨hrecord, ⟨error, rfl⟩, rfl⟩⟩ := hloaded hrun
      · rw [hconfig] at hsame
        have hanswer := hholds.configuredFrom
        rw [hsame] at hanswer
        exact .inr ⟨record, ⟨reply, rfl, hrecord⟩, hanswer, hholds.knowing hsame⟩
      · exact .inl ⟨.vain rfl hrecord ⟨error, rfl⟩, rfl⟩
  · obtain ⟨f, hjob, hanswer⟩ := Operation.exists_eq_map hop hne
    rw [hjob] at h
    obtain ⟨x, rfl, hrun⟩ := runs_map_iff.1 h
    obtain ⟨reply, rfl, ⟨record, hrecord, rfl, hholds, -⟩ | ⟨hrecord, ⟨error, rfl⟩, rfl⟩⟩ :=
      hloaded hrun
    · exact .inr ⟨record, ⟨reply, rfl, hrecord⟩, (hanswer _ _ _).2 rfl, hholds⟩
    · exact .inl ⟨.vain rfl hrecord ⟨error, rfl⟩, rfl⟩

/-- A reader that has to ask asks for the record, once, and any reply is possible. -/
theorem asked_iff_of_needs {op : Operation} (hneeds : proxy.Needs op) :
    (∃ outcome after, Runs op.job proxy asked outcome after) ↔
      ∃ reply, asked = [(recordRequest proxy.name, reply)] := by
  obtain ⟨hop, hs, hconfig⟩ := hneeds
  constructor
  · rintro ⟨outcome, after, h⟩
    rcases unread_or_reads hop hs h with ⟨hunread, -⟩ | ⟨record, ⟨reply, hasked, -⟩, -, -⟩
    · cases hunread with
      | vain hasked hreply hfailed => exact ⟨_, hasked⟩
      | known hknown hkeeps =>
        rw [hconfig rfl] at hknown
        cases hknown
    · exact ⟨reply, hasked⟩
  · rintro ⟨reply, rfl⟩
    have hloaded := runs_loaded_iff.2 (.inr ⟨hs, reply, rfl, rfl, rfl⟩)
    by_cases hne : op = .configuration
    · subst hne
      exact ⟨_, _, runs_configuration_iff.2 (.inr ⟨hconfig rfl, _, _, hloaded, rfl, rfl⟩)⟩
    · obtain ⟨f, hjob, -⟩ := Operation.exists_eq_map hop hne
      rw [hjob]
      exact ⟨_, _, runs_map_iff.2 ⟨_, rfl, hloaded⟩⟩

/-- Whoever asks for the record and is not told it changes nothing. -/
theorem kept_of_not_told {op : Operation} (hop : op.isReader = true ∨ op = .fetch)
    {outcome : Except Error op.Answer} (h : Runs op.job proxy asked outcome after)
    {exchange : Request × Reply} (hmem : exchange ∈ asked)
    (hlost : Job.recordIn? exchange.2 = none) :
    after = proxy ∧ ∃ error, outcome = .error error := by
  rcases hop with hop | rfl
  · cases hs : proxy.snapshot with
    | some record =>
      obtain ⟨rfl, -, -⟩ := holds_of_runs hop ⟨hs, rfl⟩ h
      cases hmem
    | none =>
      rcases unread_or_reads hop hs h with ⟨hunread, hafter⟩ |
        ⟨record, ⟨reply, hasked, hrecord⟩, -, -⟩
      · cases hunread with
        | vain hasked hreply hfailed => exact ⟨hafter, hfailed⟩
        | known hknown hkeeps => cases hmem
      · have hasked : asked = [(recordRequest proxy.name, reply)] := hasked
        rw [hasked] at hmem
        rw [List.mem_singleton.1 hmem, hrecord] at hlost
        cases hlost
  · obtain ⟨reply, rfl, rfl, rfl⟩ := runs_fetch_iff.1 h
    rw [List.mem_singleton.1 hmem] at hlost
    rcases proxy.recordAnswer_cases reply with ⟨record, hrecord, -⟩ | ⟨-, error, hx⟩
    · rw [hrecord] at hlost
      cases hlost
    · rw [hx]
      exact ⟨rfl, error, rfl⟩

/-! ## Any number of readers -/

/-- With a known record, readers ask for nothing. -/
theorem holds_of_trace (htrace : Trace proxy calls after)
    (hreaders : ∀ call ∈ calls, call.op.isReader = true) (hholds : Holds record known proxy) :
    Call.allAsked calls = [] ∧
      (∀ call ∈ calls, call.op.AnsweredFrom record known call.outcome) ∧
      Holds record known after := by
  induction htrace with
  | nil proxy => exact ⟨rfl, by simp, hholds⟩
  | cons hrun hrest ih =>
    obtain ⟨hop, hreaders⟩ := List.forall_mem_cons.1 hreaders
    obtain ⟨hnothing, hanswer, hbetween⟩ := holds_of_runs hop hholds hrun
    obtain ⟨hlater, hanswers, hafter⟩ := ih hreaders hbetween
    refine ⟨?_, List.forall_mem_cons.2 ⟨hanswer, hanswers⟩, hafter⟩
    rw [Call.allAsked_cons, hnothing, hlater, List.append_nil]

/-- How readers get on with an unknown record: none of them got it, or one of them got it
    from the last reply of all, and from there on they all used it. -/
inductive Loading (proxy : Proxy) : List Call → Proxy → Prop where
  | missing {calls : List Call} (h : ∀ call ∈ calls, call.Unread proxy) :
      Loading proxy calls proxy
  | told {before later : List Call} {call : Call} {record : Fields Json} {between after : Proxy}
      (hbefore : ∀ call ∈ before, call.Unread proxy) (hreads : call.Reads proxy record between)
      (hlater : Call.allAsked later = [])
      (hanswers : ∀ call ∈ later, call.op.AnsweredFrom record proxy.config call.outcome)
      (hsnapshot : after.snapshot = some record) :
      Loading proxy (before ++ call :: later) after

theorem loading_of_trace (htrace : Trace proxy calls after)
    (hreaders : ∀ call ∈ calls, call.op.isReader = true) (hs : proxy.snapshot = none) :
    proxy.Loading calls after := by
  induction htrace with
  | nil proxy => exact .missing (by simp)
  | cons hrun hrest ih =>
    obtain ⟨hop, hreaders⟩ := List.forall_mem_cons.1 hreaders
    rcases unread_or_reads hop hs hrun with ⟨hunread, rfl⟩ | ⟨record, hreads⟩
    · -- nothing has changed, so it goes on as from the beginning
      cases ih hreaders hs with
      | missing h => exact .missing (List.forall_mem_cons.2 ⟨hunread, h⟩)
      | told hbefore hreads hlater hanswers hsnapshot =>
        exact .told (List.forall_mem_cons.2 ⟨hunread, hbefore⟩) hreads hlater hanswers hsnapshot
    · obtain ⟨hlater, hanswers, hafter⟩ := holds_of_trace hrest hreaders hreads.holds
      exact .told (List.forall_mem_nil _) hreads hlater hanswers hafter.snapshot

/-- Readers ask for the record and for nothing else. -/
theorem Loading.request_eq (h : proxy.Loading calls after) :
    ∀ exchange ∈ Call.allAsked calls, exchange.1 = recordRequest proxy.name := by
  have hunread {calls : List Call} (h : ∀ call ∈ calls, call.Unread proxy) :
      ∀ exchange ∈ Call.allAsked calls, exchange.1 = recordRequest proxy.name := by
    intro exchange hmem
    obtain ⟨call, hcall, hmem⟩ := List.mem_flatMap.1 hmem
    cases h call hcall with
    | vain hasked hreply hfailed =>
      rw [hasked] at hmem
      rw [List.mem_singleton.1 hmem]
    | known hconfig hkeeps => cases hmem
  cases h with
  | missing h => exact hunread h
  | told hbefore hreads hlater hanswers hsnapshot =>
    intro exchange hmem
    rw [Call.allAsked_append, Call.allAsked_cons, hlater, List.append_nil] at hmem
    rcases List.mem_append.1 hmem with hmem | hmem
    · exact hunread hbefore exchange hmem
    · obtain ⟨reply, hasked, -⟩ := hreads.asked
      rw [hasked] at hmem
      rw [List.mem_singleton.1 hmem]

/-- Readers of a known record ask for nothing and leave it as it is.  Readers of an unknown
    one ask for it until they are told it, and then no more; what they are told is what is
    known from there on, and what they are answered from, save that entries of the
    configuration that were known before are kept.  Who is not told the record, a reader or `fetch`,
    leaves everything as it was, and the next reader that needs it asks again. -/
theorem readers_lazy (proxy : Proxy) :
    (∀ calls after, Trace proxy calls after → (∀ call ∈ calls, call.op.isReader = true) →
      (∀ record, proxy.snapshot = some record →
        Call.allAsked calls = [] ∧ after.snapshot = some record ∧
          ∀ call ∈ calls, call.op.AnsweredFrom record proxy.config call.outcome) ∧
      (proxy.snapshot = none →
        (∀ exchange ∈ Call.allAsked calls, exchange.1 = recordRequest proxy.name) ∧
          proxy.Loading calls after)) ∧
    (∀ (op : Operation) asked outcome after, (op.isReader = true ∨ op = .fetch) →
      Runs op.job proxy asked outcome after →
      (∃ exchange ∈ asked, Job.recordIn? exchange.2 = none) →
      after = proxy ∧ (∃ error, outcome = .error error) ∧
        ∀ next, after.Needs next → ∀ asked,
          (∃ outcome last, Runs next.job after asked outcome last) ↔
            ∃ reply, asked = [(recordRequest after.name, reply)]) := by
  constructor
  · intro calls after htrace hreaders
    constructor
    · intro record hs
      obtain ⟨hasked, hanswers, hafter⟩ := holds_of_trace htrace hreaders ⟨hs, rfl⟩
      exact ⟨hasked, hafter.snapshot, hanswers⟩
    · intro hs
      have hloading := loading_of_trace htrace hreaders hs
      exact ⟨hloading.request_eq, hloading⟩
  · rintro op asked outcome after hop h ⟨exchange, hmem, hlost⟩
    obtain ⟨hafter, herror⟩ := kept_of_not_told hop h hmem hlost
    exact ⟨hafter, herror, fun next hneeds asked => asked_iff_of_needs hneeds⟩

end Proxy

/-! A proxy that has set a key knows its entry, and is then told a record with another
value of the key. -/

namespace Proxy.SetFirst

/-- The proxy behind the setting of the key. -/
def proxy : Proxy := setKnown "B" "2" (.new "demo")

/-- The record that is told then. -/
def record : Fields Json :=
  [("config", Configuration.toJson [⟨"B", "1"⟩]), ("status", .string "READY")]

/-- The proxy that has been told the record. -/
def informed : Proxy := { proxy with snapshot := some record }

/-- An attempt to read that gets no reply. -/
def attempt : Call :=
  ⟨.read .status, [(recordRequest "demo", .error (.network "repository/demo" "down"))],
    .error (.network "repository/demo" "down")⟩

/-- A reading that gets the record. -/
def reading : Call :=
  ⟨.read .status, [(recordRequest "demo",
    .ok (Response.ofJson 200 (.object [("result", .object record)])))], .ok (some "READY")⟩

/-- The configuration, read last. -/
def configuring : Call := ⟨.configuration, [], .ok (Dictionary.ofList [("B", "2")])⟩

theorem runs_setConfig : Runs (setConfig "B" "2") (.new "demo")
    [(setKeyRequest "demo" "B" "2", .ok ⟨200, [], ""⟩)] (.ok ()) proxy :=
  runs_setConfig_iff.2 ⟨_, rfl, .inl ⟨_, rfl, rfl, rfl⟩⟩

theorem runs_attempt : Runs attempt.op.job proxy attempt.asked attempt.outcome proxy :=
  Operation.runs_read (runs_loaded_iff.2 (.inr ⟨rfl, _, rfl, rfl, rfl⟩))

theorem runs_reading : Runs reading.op.job proxy reading.asked reading.outcome informed :=
  Operation.runs_read (runs_loaded_iff.2 (.inr ⟨rfl, _, rfl, rfl, rfl⟩))

theorem trace : Trace proxy [attempt, reading, configuring] informed := by
  have hconfiguring :
      Runs configuring.op.job informed configuring.asked configuring.outcome informed :=
    runs_configuration_iff.2 (.inl ⟨_, rfl, rfl, rfl, rfl⟩)
  exact .cons runs_attempt (.cons runs_reading (.cons hconfiguring (.nil _)))

end Proxy.SetFirst

namespace Proxy

theorem readers_lazy_setFirst :
    SetFirst.proxy.snapshot = none ∧
      SetFirst.proxy.Loading [SetFirst.attempt, SetFirst.reading, SetFirst.configuring]
        SetFirst.informed ∧
      ∀ asked, (∃ outcome last, Runs Operation.isCloned.job SetFirst.proxy asked outcome last) ↔
        ∃ reply, asked = [(recordRequest "demo", reply)] := by
  obtain ⟨hsequence, hlost⟩ := readers_lazy SetFirst.proxy
  obtain ⟨-, -, hagain⟩ := hlost _ _ _ _ (.inl rfl) SetFirst.runs_attempt
    ⟨_, List.mem_cons_self, rfl⟩
  obtain ⟨-, hunknown⟩ := hsequence _ _ SetFirst.trace (by decide)
  exact ⟨rfl, (hunknown rfl).2, hagain .isCloned ⟨rfl, rfl, by simp⟩⟩

/-- So the readers behind the telling reply are not all answered from the record that it
    tells: what was set before is kept. -/
theorem not_from_record :
    Runs (setConfig "B" "2") (.new "demo") [(setKeyRequest "demo" "B" "2", .ok ⟨200, [], ""⟩)]
        (.ok ()) SetFirst.proxy ∧
      ¬ ∀ calls after, Trace SetFirst.proxy calls after →
        (∀ call ∈ calls, call.op.isReader = true) → SetFirst.proxy.snapshot = none →
        ∀ before call later record reply, calls = before ++ call :: later →
          call.asked = [(recordRequest "demo", reply)] → Job.recordIn? reply = some record →
          ∀ call ∈ later, call.op.AnsweredFrom record none call.outcome := by
  refine ⟨SetFirst.runs_setConfig, fun h => ?_⟩
  have hanswer := h _ _ SetFirst.trace (by decide) rfl [SetFirst.attempt] SetFirst.reading
    [SetFirst.configuring] SetFirst.record _ rfl rfl rfl SetFirst.configuring
    List.mem_cons_self
  have hentries : Except.ok (Dictionary.ofList [("B", "2")]) =
      (entriesOf (Fields.get? SetFirst.record "config")).map Configuration.toDictionary := hanswer
  exact absurd (Except.ok.inj hentries) (by decide)

end Proxy

end GitTransport
