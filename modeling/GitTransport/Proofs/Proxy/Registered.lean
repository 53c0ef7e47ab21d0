/-
What is known behind a registration.

  A registration that succeeds lays the record of its reply over the one that was known
  before (`Proxy.merged`), and the record that it sent is not looked at again.  From then on
  everything is read from there without a request (`Proxy.AnswersFrom`).

  So of a member that was sent the new value is known exactly when the reply tells the
  member, or the value was known before, and with the configuration it is the same
  (`Proxy.registered_of_create`).
-/

import GitTransport.Proofs.Json.Parser
import GitTransport.Proofs.Proxy.Laziness
import GitTransport.Proofs.Proxy.Payload

namespace GitTransport

open ProxyJob

/-- The record that the reply to a registration tells: the object under `repository` in the
    JSON of a reply that reports success. -/
def Job.createdIn? (reply : Reply) : Option (Fields Json) :=
  (Job.bodyOf? reply).bind fun body => (body.member? "repository").bind Json.asObject?

/-- What a reply tells has its members in order. -/
theorem Job.sorted_of_createdIn {reply : Reply} {record : Fields Json}
    (h : Job.createdIn? reply = some record) : record.Sorted := by
  obtain ⟨body, hbody, htold⟩ := Option.bind_eq_some_iff.1 h
  obtain ⟨response, -, -, hjson⟩ := Job.bodyOf_eq_some_iff.1 hbody
  obtain ⟨member, hmember, hobject⟩ := Option.bind_eq_some_iff.1 htold
  have hordered := Json.wellFormed_member (Json.wellFormed_of_parse hjson) hmember
  cases member with
  | object members =>
    cases hobject
    exact (Json.wellFormed_object_iff.1 hordered).1
  | _ => cases hobject

namespace Proxy

variable {r : Registration} {proxy after : Proxy} {data record : Fields Json} {reply : Reply}
  {asked : List (Request × Reply)}

/-! ## The record that is known then -/

/-- The record that is known behind a registration: that of the reply over the one before. -/
def merged (proxy : Proxy) (record : Fields Json) : Fields Json :=
  (proxy.snapshot.map (Fields.extend · record)).getD record

theorem get?_merged (proxy : Proxy) (h : record.Sorted) (member : String) :
    Fields.get? (proxy.merged record) member =
      (Fields.get? record member).or (Fields.get? (proxy.snapshot.getD []) member) := by
  rw [merged]
  cases proxy.snapshot with
  | none => exact (Option.or_none).symm
  | some before => exact h.get?_extend before member

/-- Readers of the proxy ask for nothing and answer from `record`. -/
structure AnswersFrom (record : Fields Json) (proxy : Proxy) : Prop where
  /-- Each of them can be carried out without a request. -/
  ready : ∀ op : Operation, op.isReader = true → ∃ outcome last, Runs op.job proxy [] outcome last
  /-- However many are called, nothing is asked and each is answered from the record. -/
  answers : ∀ calls last, Trace proxy calls last →
    (∀ call ∈ calls, call.op.isReader = true) →
    Call.allAsked calls = [] ∧ ∀ call ∈ calls, call.op.AnsweredFrom record none call.outcome

theorem answersFrom_of_holds (h : Holds record none proxy) : proxy.AnswersFrom record := by
  refine ⟨fun op hop => ?_, fun calls last htrace hreaders => ?_⟩
  · apply exists_runs_of_silent
    intro asked outcome after hrun
    exact (holds_of_runs hop h hrun).1
  · obtain ⟨hnothing, hanswers, -⟩ := holds_of_trace htrace hreaders h
    exact ⟨hnothing, hanswers⟩

/-! ## What was sent -/

/-- The configuration that is sent is the one that was known before exactly when the given
    values were in it. -/
theorem configuration_eq_sent_iff (h : r.Describes proxy data) :
    (entriesOf (Fields.get? (proxy.snapshot.getD []) "config")).map Configuration.toDictionary =
        (entriesOf (Fields.get? data "config")).map Configuration.toDictionary ↔
      ∀ key value, r.supplied.get? key = some value → ∃ entries,
        Configuration.ofJson (Fields.get? (proxy.snapshot.getD []) "config") = .ok entries ∧
          (Configuration.toDictionary entries).get? key = some value := by
  by_cases hempty : r.supplied = .empty
  · -- nothing was given, so the configuration from before was sent
    rw [h.kept hempty]
    refine iff_of_true rfl fun key value hgiven => ?_
    rw [hempty] at hgiven
    cases hgiven
  · obtain ⟨entries, posted, hentries, hposted, -, hmem⟩ := h.merged hempty
    have hget := Configuration.get?_toDictionary_of_mem_iff hmem
    rw [hposted, entriesOf, entriesOf, hentries, Configuration.ofJson_toJson]
    -- the two are compared key by key
    constructor
    · intro heq key value hgiven
      refine ⟨entries, rfl, ?_⟩
      rw [Except.ok.inj heq, hget, Registration.valueOver, hgiven, Option.some_or]
    · intro hgiven
      have heq : Configuration.toDictionary entries = Configuration.toDictionary posted := by
        apply Dictionary.eq_of_get?
        intro key
        rw [hget, Registration.valueOver, ← Configuration.get?_toDictionary_eq_find?]
        cases hkey : r.supplied.get? key with
        | none => rfl
        | some value =>
          obtain ⟨_, hsame, hvalue⟩ := hgiven key value hkey
          cases hsame
          rw [hvalue, Option.some_or]
      exact congrArg Except.ok heq

/-- What a successful registration leaves known, when it sent `data` and was told `record`. -/
structure Registered (r : Registration) (proxy : Proxy) (data record : Fields Json)
    (after : Proxy) : Prop where
  /-- All is read from the merged record. -/
  answers : after.AnswersFrom (proxy.merged record)
  /-- A member that the reply tells has its value from there, and each other one has the
      value from before. -/
  members : ∀ member, Fields.get? (proxy.merged record) member =
    (Fields.get? record member).or (Fields.get? (proxy.snapshot.getD []) member)
  /-- A member that was sent has what the reply tells of it, or else the value that was sent,
      exactly when the reply tells it or that value was known before. -/
  sent : ∀ pair ∈ r.texts proxy.name,
    (Fields.get? (proxy.merged record) pair.1 =
        (Fields.get? record pair.1).or (some (.string pair.2)) ↔
      Fields.get? record pair.1 ≠ none ∨
        Fields.get? (proxy.snapshot.getD []) pair.1 = some (.string pair.2))
  /-- The configuration is that of the reply, or else the one that was sent, exactly when the
      reply has one or the given values were in the one from before. -/
  configuration :
    (entriesOf (Fields.get? (proxy.merged record) "config")).map Configuration.toDictionary =
        (entriesOf ((Fields.get? record "config").or (Fields.get? data "config"))).map
          Configuration.toDictionary ↔
      Fields.get? record "config" ≠ none ∨
        ∀ key value, r.supplied.get? key = some value → ∃ entries,
          Configuration.ofJson (Fields.get? (proxy.snapshot.getD []) "config") = .ok entries ∧
            (Configuration.toDictionary entries).get? key = some value

/-- Behind a registration that succeeds the cache has what the reply tells laid over what was
    known before, and nothing of what was sent. -/
theorem registered_of_create (h : Runs (create r) proxy asked (.ok ()) after) :
    ∃ data reply record, asked = [(Registration.request proxy.name data, reply)] ∧
      r.Describes proxy data ∧ Job.createdIn? reply = some record ∧
      Registered r proxy data record after := by
  rcases runs_create_iff.1 h with ⟨error, -, -, hok, -⟩ |
    ⟨data, reply, hdata, rfl, ⟨record, hanswer, -, rfl⟩ | ⟨error, -, hok, -⟩⟩
  · cases hok
  · have hdescribes := Registration.describes_of_record hdata
    obtain ⟨-, body, hbody, htold⟩ := told_of_createAnswer hanswer
    have hcreated : Job.createdIn? reply = some record :=
      Option.bind_eq_some_iff.2 ⟨body, hbody, htold⟩
    have hmembers := proxy.get?_merged (Job.sorted_of_createdIn hcreated)
    refine ⟨data, reply, record, rfl, hdescribes, hcreated, answersFrom_of_holds ⟨rfl, rfl⟩,
      hmembers, fun pair _ => ?_, ?_⟩
    · rw [hmembers]
      cases Fields.get? record pair.1 <;> simp
    · rw [hmembers]
      cases Fields.get? record "config" with
      | none => simpa using configuration_eq_sent_iff hdescribes
      | some value => simp
  · cases hok

end Proxy

/-! A repository is registered with another address and a key by a proxy that knows a record
of it, and the reply tells its role and status only. -/

namespace Proxy.PartialReply

/-- The registration. -/
def registration : Registration :=
  ⟨"https://host/new.git", "6IT", some (Dictionary.ofList [("A", "1")]), .source, .github⟩

/-- The record that is known before. -/
def known : Fields Json :=
  [("config", .array []), ("url", .string "https://host/old.git"), ("vsid", .string "6IT")]

/-- The proxy that knows it. -/
def proxy : Proxy := ⟨"demo", .standard, some known, none⟩

/-- The record that is sent. -/
def data : Fields Json :=
  [("config", Configuration.toJson [⟨"A", "1"⟩]), ("connection", .string "ssl"),
    ("name", .string "demo"), ("rid", .string "demo"), ("role", .string "SOURCE"),
    ("type", .string "GITHUB"), ("url", .string "https://host/new.git"), ("vsid", .string "6IT")]

/-- The record that is told. -/
def told : Fields Json := [("role", .string "SOURCE"), ("status", .string "CREATED")]

/-- The reply that tells it. -/
def reply : Reply := .ok (Response.ofJson 201 (.object [("repository", .object told)]))

/-- The proxy behind the registration. -/
def after : Proxy := Registration.registered told proxy

theorem createdIn_reply : Job.createdIn? reply = some told := rfl

theorem runs_create :
    Runs (create registration) proxy [(Registration.request "demo" data, reply)] (.ok ()) after :=
  runs_create_iff.2 (.inr ⟨data, reply, rfl, rfl, .inl ⟨told, rfl, rfl, rfl⟩⟩)

theorem runs_url : Runs (itemOr "url" .null) after [] (.ok (.string "https://host/old.git"))
    after := by
  rw [itemOr_eq_map]
  exact runs_map_iff.2 ⟨_, rfl, runs_loaded_iff.2 (.inl ⟨_, rfl, rfl, rfl, rfl⟩)⟩

end Proxy.PartialReply

namespace Proxy

open PartialReply in
theorem registered_of_create_partialReply :
    after.AnswersFrom (proxy.merged told) ∧
      Fields.get? (proxy.merged told) "vsid" = some (.string "6IT") ∧
      Fields.get? (proxy.merged told) "role" = some (.string "SOURCE") ∧
      Fields.get? (proxy.merged told) "url" = some (.string "https://host/old.git") := by
  obtain ⟨sent, answer, record, hasked, -, hcreated, hregistered⟩ :=
    registered_of_create runs_create
  cases hasked
  cases createdIn_reply.symm.trans hcreated
  have hvsid := (hregistered.sent ("vsid", "6IT") (by simp [Registration.texts, registration])).2
    (.inr rfl)
  have hrole := (hregistered.sent ("role", "SOURCE") (by simp [Registration.texts, registration,
    Role.text])).2 (.inl (by decide))
  exact ⟨hregistered.answers, hvsid, hrole, hregistered.members "url"⟩

open PartialReply in
/-- So the value that was sent is not always known behind the registration. -/
theorem not_sent_of_create :
    ¬ ∀ (r : Registration) (proxy after last : Proxy) (data record : Fields Json) (reply : Reply)
      (pair : String × String) (read : Json),
      Runs (create r) proxy [(Registration.request proxy.name data, reply)] (.ok ()) after →
      Job.createdIn? reply = some record → pair ∈ r.texts proxy.name →
      Runs (itemOr pair.1 .null) after [] (.ok read) last →
      read = (Fields.get? record pair.1).getD (.string pair.2) := by
  intro h
  have hread := h _ _ _ _ _ _ _ ("url", "https://host/new.git") _ runs_create createdIn_reply
    (by simp [Registration.texts, registration]) runs_url
  -- the reply does not tell the address, and the one from before is read
  exact absurd hread (by decide)

end Proxy

end GitTransport
