/-
Giving a repository another address.

  `setUrl` reads the record, whether one is known or not, and sends it back with the new
  address if it has another one (`Relocation`).  So nothing that is known has a part in
  what is sent (`asked_setUrl_iff`, `asked_setUrl_eq`).

  A service that keeps what is sent, or none of it (`StoresWhole`), then has the record as
  it was, but for its address.  Once the record has the address, which it has behind every
  attempt that succeeds, no attempt sends it back again; so of any number of attempts at
  most one sends a record that is accepted (`fresh_setUrl`).
-/

import GitTransport.Proofs.Proxy.Freshness

namespace GitTransport

open ProxyJob Proxy

variable {name url : String} {proxy after : Proxy} {asked : List (Request × Reply)}
  {before served : Fields Json}

/-! ## What is sent -/

/-- What is asked to give the repository `name` the address `url`: the record, and behind a
    reply that tells one with another address, that it be kept with the new one. -/
inductive Relocation (name url : String) : List (Request × Reply) → Prop where
  | read {reply : Reply}
      (h : ∀ record, Job.recordIn? reply = some record →
        Fields.get? record "url" = some (.string url)) :
      Relocation name url [(recordRequest name, reply)]
  | move {reply : Reply} {record : Fields Json} (posted : Reply)
      (h : Job.recordIn? reply = some record)
      (hurl : Fields.get? record "url" ≠ some (.string url)) :
      Relocation name url [(recordRequest name, reply), (moveRequest name url record, posted)]

/-- The cache has no part in what is sent. -/
theorem asked_setUrl_iff :
    (∃ outcome after, Runs (setUrl url) proxy asked outcome after) ↔
      Relocation proxy.name url asked := by
  simp only [runs_setUrl_iff]
  constructor
  · rintro ⟨outcome, after, reply, ⟨error, hx, rfl, -, -⟩ | ⟨record, hx, hurl, rfl, -, -⟩ |
      ⟨record, posted, hx, hurl, rfl, -, -⟩⟩
    · refine .read fun record hrecord => ?_
      rw [recordAnswer_eq_ok_iff.2 hrecord] at hx
      cases hx
    · refine .read fun told htold => ?_
      rw [recordAnswer_eq_ok_iff.1 hx] at htold
      cases htold
      exact hurl
    · exact .move posted (recordAnswer_eq_ok_iff.1 hx) hurl
  · rintro (@⟨reply, h⟩ | @⟨reply, record, posted, h, hurl⟩)
    · rcases recordAnswer_cases proxy reply with ⟨record, hrecord, hx⟩ | ⟨-, error, hx⟩
      · exact ⟨_, _, reply, .inr (.inl ⟨record, hx, h record hrecord, rfl, rfl, rfl⟩)⟩
      · exact ⟨_, _, reply, .inl ⟨error, hx, rfl, rfl, rfl⟩⟩
    · exact ⟨_, _, reply, .inr (.inr ⟨record, posted, recordAnswer_eq_ok_iff.2 h, hurl, rfl, rfl,
        rfl⟩)⟩

/-- What is asked of a peer is settled by the peer. -/
theorem Relocation.unique {σ : Type} {peer : σ → Request → Reply × σ} {s t t' : σ}
    {asked' : List (Request × Reply)} (h : Relocation name url asked)
    (h' : Relocation name url asked')
    (hc : Exchange.Chain (fun s request reply t => peer s request = (reply, t)) s asked t)
    (hc' : Exchange.Chain (fun s request reply t => peer s request = (reply, t)) s asked' t') :
    asked = asked' := by
  -- the first reply is the same, and it decides whether there is a second request
  cases h with
  | read h =>
    have hreply := Exchange.chain_singleton_iff.1 hc
    cases h' with
    | read h' =>
      have hreply' := Exchange.chain_singleton_iff.1 hc'
      cases hreply.symm.trans hreply'
      rfl
    | move posted h' hurl =>
      obtain ⟨u, hreply', -⟩ := Exchange.chain_cons_iff.1 hc'
      cases hreply.symm.trans hreply'
      exact absurd (h _ h') hurl
  | move posted h hurl =>
    obtain ⟨u, hreply, hposted⟩ := Exchange.chain_cons_iff.1 hc
    cases h' with
    | read h' =>
      have hreply' := Exchange.chain_singleton_iff.1 hc'
      cases hreply.symm.trans hreply'
      exact absurd (h' _ h) hurl
    | move posted' h' hurl' =>
      obtain ⟨u', hreply', hposted'⟩ := Exchange.chain_cons_iff.1 hc'
      cases hreply.symm.trans hreply'
      cases h.symm.trans h'
      cases (Exchange.chain_singleton_iff.1 hposted).symm.trans
        (Exchange.chain_singleton_iff.1 hposted')
      rfl

/-- Two proxies of one repository ask the same of every peer. -/
theorem asked_setUrl_eq {proxy' : Proxy} (hname : proxy'.name = proxy.name) {σ : Type}
    (peer : σ → Request → Reply × σ) (s : σ) :
    (((setUrl url).runOn proxy).play peer s).1.asked =
      (((setUrl url).runOn proxy').play peer s).1.asked := by
  have hasked (proxy : Proxy) :
      Relocation proxy.name url (((setUrl url).runOn proxy).play peer s).1.asked :=
    asked_setUrl_iff.1 ⟨_, _, Exchange.path_play peer ((setUrl url).runOn proxy) s⟩
  have hchain (proxy : Proxy) :
      Exchange.Chain (fun s request reply t => peer s request = (reply, t)) s
        (((setUrl url).runOn proxy).play peer s).1.asked
        (((setUrl url).runOn proxy).play peer s).2 :=
    @Exchange.chain_play Request Reply _ σ σ _ peer id (fun _ _ => rfl) _ s
  have hasked' := hasked proxy'
  rw [hname] at hasked'
  exact (hasked proxy).unique hasked' (hchain proxy) (hchain proxy')

/-! ## What the service keeps -/

/-- A service that keeps the record of the repository `name`, and keeps the whole of a record
    that is sent, or none of it when it does not accept it. -/
structure StoresWhole (name : String) (before : Fields Json) (request : Request) (reply : Reply)
    (after : Fields Json) : Prop extends Stores name before request reply after where
  whole : ∀ record, request.method = .post → request.path = resource name none →
    request.body = some (.object record) → after = before ∨ after = record

/-- A request for a change that is accepted. -/
def acceptedPost (exchange : Request × Reply) : Bool :=
  decide (exchange.1.method = .post) && Job.accepted exchange.2

/-- What an attempt to set the address does at the service. -/
structure Relocates (url : String) (before served : Fields Json)
    (asked : List (Request × Reply)) (outcome : Except Error (Option Response)) : Prop where
  /-- All but the address stays. -/
  members : ∀ member, member ≠ "url" → Fields.get? served member = Fields.get? before member
  /-- A record that has the address is not sent back. -/
  settled : Fields.get? before "url" = some (.string url) → served = before ∧
    (∀ exchange ∈ asked, exchange.1.method ≠ .post) ∧
      ∀ posted, outcome = .ok posted → posted = none
  /-- Behind a success the record has the address. -/
  reached : ∀ posted, outcome = .ok posted → Fields.get? served "url" = some (.string url)
  /-- A record is accepted at most once, and then it has the address. -/
  accepted : asked.countP acceptedPost = 0 ∨
    asked.countP acceptedPost = 1 ∧ Fields.get? served "url" = some (.string url)

/-- An attempt that only reads the record. -/
theorem relocates_of_read {reply : Reply} {outcome : Except Error (Option Response)}
    (hserver : Exchange.Chain (StoresWhole name) before [(recordRequest name, reply)] served)
    (hok : ∀ posted, outcome = .ok posted → posted = none ∧
      ∃ record, Job.recordIn? reply = some record ∧
        Fields.get? record "url" = some (.string url)) :
    Relocates url before served [(recordRequest name, reply)] outcome := by
  -- a reading changes nothing at the service, so all there is to see is how it ended
  obtain ⟨rfl, htold⟩ := (Exchange.chain_singleton_iff.1 hserver).told rfl
  have hget : ∀ exchange ∈ [(recordRequest name, reply)], exchange.1.method ≠ .post := by
    intro exchange hmem
    rw [List.mem_singleton.1 hmem]
    exact Method.noConfusion
  refine ⟨fun _ _ => rfl, fun _ => ⟨rfl, hget, fun posted hposted => (hok posted hposted).1⟩,
    fun posted hposted => ?_, .inl rfl⟩
  obtain ⟨-, record, hrecord, hurl⟩ := hok posted hposted
  rw [← htold record hrecord]
  exact hurl

theorem relocates_of_runs {outcome : Except Error (Option Response)}
    (h : Runs (setUrl url) proxy asked outcome after)
    (hserver : Exchange.Chain (StoresWhole proxy.name) before asked served) :
    Relocates url before served asked outcome := by
  obtain ⟨reply, ⟨error, -, rfl, rfl, -⟩ | ⟨record, hx, hurl, rfl, rfl, -⟩ |
    ⟨record, post, hx, hurl, rfl, rfl, -⟩⟩ := runs_setUrl_iff.1 h
  · exact relocates_of_read hserver fun posted hok => by cases hok
  · refine relocates_of_read hserver fun posted hok => ?_
    cases hok
    exact ⟨rfl, record, recordAnswer_eq_ok_iff.1 hx, hurl⟩
  · -- the record that is sent back is the one that is kept, with the new address
    obtain ⟨between, hread, hpost⟩ := Exchange.chain_cons_iff.1 hserver
    obtain ⟨rfl, htold⟩ := hread.told rfl
    obtain rfl := htold record (recordAnswer_eq_ok_iff.1 hx)
    have hstore := Exchange.chain_singleton_iff.1 hpost
    have hmoved : Fields.get? (Fields.insert "url" (.string url) record) "url" =
        some (.string url) := by
      rw [Fields.get?_insert, if_pos rfl]
    have hkept (haccepted : Job.accepted post = true) :
        Fields.get? served "url" = some (.string url) := by
      rw [hstore.kept _ rfl rfl rfl haccepted]
      exact hmoved
    refine ⟨fun member hmember => ?_, fun hsettled => absurd hsettled hurl,
      fun posted hok => ?_, ?_⟩
    · -- also a record whose reply is lost may have been kept
      rcases hstore.whole _ rfl rfl rfl with rfl | rfl
      · rfl
      · rw [Fields.get?_insert, if_neg (Ne.symm hmember)]
    · cases hanswer : proxy.answer (moveRequest proxy.name url record) post with
      | error error =>
        rw [hanswer] at hok
        cases hok
      | ok response => exact hkept (accepted_of_answer hanswer)
    · rw [List.countP_cons_of_neg Bool.false_ne_true]
      cases haccepted : Job.accepted post with
      | false => exact .inl (List.countP_cons_of_neg (Bool.eq_false_iff.1 haccepted))
      | true => exact .inr ⟨List.countP_cons_of_pos haccepted, hkept haccepted⟩

/-! ## Attempt after attempt -/

/-- A call that sets the address without a change: nothing is sent back, and it ends with an
    error or without a response. -/
structure Call.Idle (url : String) (call : Call) : Prop where
  reads : ∀ exchange ∈ call.asked, exchange.1.method ≠ .post
  ends : call.Failed ∨ call = ⟨.setUrl url, call.asked, .ok none⟩

/-- A call behind which the address is set: it succeeded, or sent a record that was
    accepted. -/
def Call.Settling (call : Call) : Prop :=
  ¬ call.Failed ∨ ∃ exchange ∈ call.asked, acceptedPost exchange = true

/-- What attempts to set the address do at the service, one after the other. -/
structure Settles (url : String) (before served : Fields Json) (calls : List Call) : Prop where
  /-- All but the address stays. -/
  members : ∀ member, member ≠ "url" → Fields.get? served member = Fields.get? before member
  /-- At most one record is accepted. -/
  once : (Call.allAsked calls).countP acceptedPost ≤ 1
  /-- Once the address is set, no attempt changes anything. -/
  idle : ∀ earlier call later, calls = earlier ++ call :: later → call.Settling →
    ∀ next ∈ later, next.Idle url

theorem name_of_setUrl {outcome : Except Error (Option Response)}
    (h : Runs (setUrl url) proxy asked outcome after) : after.name = proxy.name := by
  obtain ⟨reply, ⟨_, -, -, -, rfl⟩ | ⟨_, -, -, -, -, rfl⟩ | ⟨_, _, -, -, -, -, rfl⟩⟩ :=
    runs_setUrl_iff.1 h <;> rfl

/-- What was not posted was not accepted as a change. -/
theorem countP_acceptedPost (h : ∀ exchange ∈ asked, exchange.1.method ≠ .post) :
    asked.countP acceptedPost = 0 := by
  refine List.countP_eq_zero.2 fun exchange hmem haccepted => ?_
  rw [acceptedPost, Bool.and_eq_true, decide_eq_true_eq] at haccepted
  exact h exchange hmem haccepted.1

/-- While the record has the address, the attempts change nothing. -/
theorem idle_of_trace {calls : List Call} (htrace : Trace proxy calls after)
    (hcalls : ∀ call ∈ calls, call.op = .setUrl url)
    (hserver : Exchange.Chain (StoresWhole proxy.name) before (Call.allAsked calls) served)
    (hurl : Fields.get? before "url" = some (.string url)) :
    served = before ∧ ∀ call ∈ calls, call.Idle url := by
  induction htrace generalizing before with
  | nil proxy => exact ⟨Exchange.chain_nil_iff.1 hserver, fun call hmem => nomatch hmem⟩
  | @cons proxy middle after call calls hrun hrest ih =>
    obtain ⟨op, asked, outcome⟩ := call
    obtain ⟨rfl, hothers⟩ := List.forall_mem_cons.1 hcalls
    rw [Call.allAsked_cons] at hserver
    obtain ⟨between, hfirst, hlater⟩ := Exchange.chain_append_iff.1 hserver
    obtain ⟨rfl, hreads, hnone⟩ := (relocates_of_runs hrun hfirst).settled hurl
    rw [← name_of_setUrl hrun] at hlater
    obtain ⟨rfl, hidle⟩ := ih hothers hlater hurl
    refine ⟨rfl, List.forall_mem_cons.2 ⟨⟨hreads, ?_⟩, hidle⟩⟩
    cases outcome with
    | error error => exact .inl ⟨error, rfl⟩
    | ok posted => exact .inr (by rw [hnone posted rfl])

theorem settles_of_trace {calls : List Call} (htrace : Trace proxy calls after)
    (hcalls : ∀ call ∈ calls, call.op = .setUrl url)
    (hserver : Exchange.Chain (StoresWhole proxy.name) before (Call.allAsked calls) served) :
    Settles url before served calls := by
  induction htrace generalizing before with
  | nil proxy =>
    obtain rfl := Exchange.chain_nil_iff.1 hserver
    exact ⟨fun _ _ => rfl, Nat.zero_le 1, fun earlier call later h => by simp at h⟩
  | @cons proxy middle after call calls hrun hrest ih =>
    obtain ⟨op, asked, outcome⟩ := call
    obtain ⟨rfl, hothers⟩ := List.forall_mem_cons.1 hcalls
    rw [Call.allAsked_cons] at hserver
    obtain ⟨between, hfirst, hlater⟩ := Exchange.chain_append_iff.1 hserver
    have hhead := relocates_of_runs hrun hfirst
    rw [← name_of_setUrl hrun] at hlater
    have htail := ih hothers hlater
    refine ⟨fun member hne => (htail.members member hne).trans (hhead.members member hne), ?_, ?_⟩
    · rw [Call.allAsked_cons, List.countP_append]
      -- behind a record that was accepted no other one is sent
      rcases hhead.accepted with hnone | ⟨hone, hurl⟩
      · rw [hnone, Nat.zero_add]
        exact htail.once
      · obtain ⟨-, hidle⟩ := idle_of_trace hrest hothers hlater hurl
        have hreads : ∀ exchange ∈ Call.allAsked calls, exchange.1.method ≠ .post := by
          intro exchange hmem
          obtain ⟨call, hcall, hmem⟩ := List.mem_flatMap.1 hmem
          exact (hidle call hcall).reads exchange hmem
        have hnone := countP_acceptedPost hreads
        omega
    · intro earlier call later hsplit hsettling
      rcases List.cons_eq_append_iff.1 hsplit with ⟨rfl, hhere⟩ | ⟨rest, rfl, hbehind⟩
      · -- the first call set the address
        obtain ⟨rfl, rfl⟩ := List.cons.inj hhere
        refine (idle_of_trace hrest hothers hlater ?_).2
        rcases hsettling with hended | ⟨exchange, hmem, haccepted⟩
        · cases outcome with
          | error error => exact absurd ⟨error, rfl⟩ hended
          | ok posted => exact hhead.reached posted rfl
        · rcases hhead.accepted with hnone | ⟨-, hurl⟩
          · exact absurd haccepted (List.countP_eq_zero.1 hnone exchange hmem)
          · exact hurl
      · exact htail.idle rest call later hbehind hsettling

/-- Setting the address reads the record and sends it back with the new address if it has
    another one; what is known has no part in it.  At a service that keeps what it accepts,
    all else stays, at most one of any number of attempts changes the record, and those
    behind it neither send it back nor return a response. -/
theorem Proxy.fresh_setUrl (url : String) :
    (∀ proxy asked, (∃ outcome after, Runs (setUrl url) proxy asked outcome after) ↔
      Relocation proxy.name url asked) ∧
    (∀ name, recordRequest name =
      { method := .get, path := "repository/" ++ name, accept := some "application/json" }) ∧
    (∀ name record, ∃ data, moveRequest name url record =
        { method := .post, path := "repository/" ++ name, body := some (.object data) } ∧
      ∀ member, Fields.get? data member =
        if "url" = member then some (.string url) else Fields.get? record member) ∧
    (∀ proxy proxy' : Proxy, proxy'.name = proxy.name →
      ∀ (σ : Type) (peer : σ → Request → Reply × σ) (s : σ),
        (((setUrl url).runOn proxy).play peer s).1.asked =
          (((setUrl url).runOn proxy').play peer s).1.asked) ∧
    (∀ proxy calls after before served, Trace proxy calls after →
      (∀ call ∈ calls, call.op = .setUrl url) →
      Exchange.Chain (StoresWhole proxy.name) before (Call.allAsked calls) served →
      Settles url before served calls) := by
  refine ⟨fun proxy asked => asked_setUrl_iff, fun name => rfl,
    fun name record => ⟨_, rfl, fun member => Fields.get?_insert _ _ _ _⟩,
    fun proxy proxy' hname σ peer s => asked_setUrl_eq hname peer s,
    fun proxy calls after before served htrace hcalls hserver => ?_⟩
  exact settles_of_trace htrace hcalls hserver

/-! The address is set three times: the record is refused, then accepted, and then it has the
address already. -/

namespace Proxy.TwoAddresses

/-- The reply to a record that is not accepted. -/
def refused : Reply := .ok ⟨403, [], ""⟩

/-- The three attempts. -/
def attempts : List Call :=
  [⟨.setUrl (address true), [(recordRequest "demo", reply false), (move, refused)],
      (stale.answer move refused).map some⟩,
    ⟨.setUrl (address true), [(recordRequest "demo", reply false), (move, .ok accepted)],
      .ok (some accepted)⟩,
    ⟨.setUrl (address true), [(recordRequest "demo", reply true)], .ok none⟩]

theorem runs_setUrl_refused : Runs (setUrl (address true)) stale
    [(recordRequest "demo", reply false), (move, refused)]
    ((stale.answer move refused).map some) (.new "demo") :=
  runs_setUrl_iff.2 ⟨reply false, .inr (.inr ⟨record false, refused, rfl, by decide, rfl, rfl,
    rfl⟩)⟩

theorem runs_setUrl_idle : Runs (setUrl (address true)) (.new "demo")
    [(recordRequest "demo", reply true)] (.ok none) (.new "demo") :=
  runs_setUrl_iff.2 ⟨reply true, .inr (.inl ⟨record true, rfl, rfl, rfl, rfl, rfl⟩)⟩

theorem trace_attempts : Trace stale attempts (.new "demo") :=
  .cons runs_setUrl_refused (.cons runs_setUrl (.cons runs_setUrl_idle (.nil _)))

theorem storesWhole_told (moved : Bool) :
    StoresWhole "demo" (record moved) (recordRequest "demo") (reply moved) (record moved) where
  toStores := stores_told moved
  whole _ hmethod := by cases hmethod

theorem storesWhole_moved :
    StoresWhole "demo" (record false) move (.ok accepted) (record true) where
  toStores := stores_moved
  whole _ _ _ hbody := .inr (stores_moved.kept _ rfl rfl hbody rfl)

theorem storesWhole_refused :
    StoresWhole "demo" (record false) move refused (record false) where
  told h := absurd h.symm (Operation.recordRequest_ne_moveRequest _ _ _)
  kept _ _ _ _ haccepted := by cases haccepted
  whole _ _ _ _ := .inl rfl

theorem chain_attempts :
    Exchange.Chain (StoresWhole "demo") (record false) (Call.allAsked attempts) (record true) := by
  have hasked : Call.allAsked attempts = [(recordRequest "demo", reply false), (move, refused),
      (recordRequest "demo", reply false), (move, .ok accepted),
      (recordRequest "demo", reply true)] := rfl
  rw [hasked]
  exact .cons (storesWhole_told false) (.cons storesWhole_refused (.cons (storesWhole_told false)
    (.cons storesWhole_moved (.cons (storesWhole_told true) (.nil _)))))

end Proxy.TwoAddresses

open Proxy.TwoAddresses in
theorem Proxy.fresh_setUrl_attempts :
    Settles (address true) (record false) (record true) attempts ∧
      ∀ reply : Reply,
        (((setUrl (address true)).runOn stale).play (fun (_ : Unit) _ => (reply, ())) ()).1.asked =
          (((setUrl (address true)).runOn (.new "demo")).play
            (fun (_ : Unit) _ => (reply, ())) ()).1.asked := by
  obtain ⟨-, -, -, heq, hsettles⟩ := fresh_setUrl (address true)
  have hcalls : ∀ call ∈ attempts, call.op = .setUrl (address true) := by
    simp [attempts]
  exact ⟨hsettles _ _ _ _ _ trace_attempts hcalls chain_attempts,
    fun reply => heq stale (.new "demo") rfl Unit _ ()⟩

end GitTransport
