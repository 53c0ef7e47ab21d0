/-
What is forgotten when the service is asked for a change.

  Six operations have a request with which they ask for a change
  (`Operation.Modifies`).  Once that request has been sent the proxy has forgotten
  its record and its entries, whatever the reply is, and reads the record again when
  it is next asked for an attribute.  When it has not been sent, the proxy is as it
  was, but for the record that a switch of branches may have read
  (`Operation.forgets_of_sent`).

  Registering does not follow this rule: a registration that fails leaves the proxy
  as it was, so what was known before is still taken for the truth
  (`Proxy.create_failed_keeps`).
-/

import GitTransport.Proofs.Proxy.Operation

namespace GitTransport

open ProxyJob Proxy

/-! ## Reading after a change -/

/-- A reader asks for the record exactly when it is not known. -/
theorem Attribute.asked_read_iff {a : Attribute} {proxy : Proxy}
    {asked : List (Request × Reply)} :
    (∃ outcome after, Runs a.read proxy asked outcome after) ↔
      (proxy.snapshot ≠ none ∧ asked = []) ∨
      (proxy.snapshot = none ∧ ∃ reply, asked = [(recordRequest proxy.name, reply)]) := by
  rw [a.read_eq_map]
  simp only [runs_map_iff, runs_loaded_iff]
  constructor
  · rintro ⟨_, _, _, _, ⟨record, hs, rfl, -, -⟩ | ⟨hs, reply, rfl, -, -⟩⟩
    · exact .inl ⟨by rw [hs]; exact Option.some_ne_none record, rfl⟩
    · exact .inr ⟨hs, reply, rfl⟩
  · rintro (⟨hs, rfl⟩ | ⟨hs, reply, rfl⟩)
    · obtain ⟨record, hs⟩ := Option.ne_none_iff_exists'.1 hs
      exact ⟨_, _, _, rfl, .inl ⟨record, hs, rfl, rfl, rfl⟩⟩
    · exact ⟨_, _, _, rfl, .inr ⟨hs, reply, rfl, rfl, rfl⟩⟩

namespace Proxy

/-- A proxy of the repository `name` that knows nothing of it: whichever attribute is
    read next, the record is asked for once. -/
structure Forgotten (name : String) (proxy : Proxy) : Prop where
  snapshot : proxy.snapshot = none
  config : proxy.config = none
  asks : ∀ (a : Attribute) (asked : List (Request × Reply)),
    (∃ outcome after, Runs a.read proxy asked outcome after) ↔
      ∃ reply, asked = [(recordRequest name, reply)]

/-- Whoever knows no record asks for it. -/
theorem forgotten_of_none {proxy : Proxy} (hs : proxy.snapshot = none)
    (hc : proxy.config = none) : Forgotten proxy.name proxy where
  snapshot := hs
  config := hc
  asks a asked := by
    rw [a.asked_read_iff]
    constructor
    · rintro (⟨hne, -⟩ | ⟨-, hasked⟩)
      · exact absurd hs hne
      · exact hasked
    · exact fun hasked => .inr ⟨hs, hasked⟩

theorem forgotten_wiped (proxy : Proxy) : Forgotten proxy.name proxy.wiped := by
  have h : Forgotten proxy.wiped.name proxy.wiped := forgotten_of_none rfl rfl
  exact h

end Proxy

namespace Operation

/-! ## Requests for a change -/

/-- The requests with which an operation asks for a change of the repository. -/
inductive Modifies (name : String) : Operation → Request → Prop where
  | clone : Modifies name .clone (cloneRequest name)
  | delete : Modifies name .delete (deleteRequest name)
  | pull : Modifies name .pull (pullRequest name)
  | commit (transport message : String) (description : Option String) :
      Modifies name (.commit transport message description)
        (commitRequest name transport message description)
  | checkout (current target : String) :
      Modifies name (.checkout target) (switchRequest name current target)
  | setUrl (url : String) (record : Fields Json) :
      Modifies name (.setUrl url) (moveRequest name url record)

/-- The operation has sent its request for a change. -/
def Sent (op : Operation) (name : String) (asked : List (Request × Reply)) : Prop :=
  ∃ exchange ∈ asked, Modifies name op exchange.1

theorem recordRequest_ne_switchRequest (name current target : String) :
    recordRequest name ≠ switchRequest name current target := by
  intro h
  cases congrArg Request.params h

theorem recordRequest_ne_moveRequest (name url : String) (record : Fields Json) :
    recordRequest name ≠ moveRequest name url record := by
  intro h
  cases congrArg Request.method h

/-- To read the record is not to ask for a change by another request. -/
theorem not_sent_record {op : Operation} {name : String} {reply : Reply}
    (hne : ∀ request, Modifies name op request → recordRequest name ≠ request) :
    ¬ Sent op name [(recordRequest name, reply)] := by
  rintro ⟨exchange, hmem, hmod⟩
  rw [List.mem_singleton.1 hmem] at hmod
  exact hne _ hmod rfl

theorem not_sent_checkout (name target : String) (reply : Reply) :
    ¬ Sent (.checkout target) name [(recordRequest name, reply)] := by
  apply not_sent_record
  intro request hmod
  cases hmod with
  | checkout current => exact recordRequest_ne_switchRequest name current target

theorem not_sent_setUrl (name url : String) (reply : Reply) :
    ¬ Sent (.setUrl url) name [(recordRequest name, reply)] := by
  apply not_sent_record
  intro request hmod
  cases hmod with
  | setUrl _ record => exact recordRequest_ne_moveRequest name url record

/-- What a run of an operation that asks for changes leaves when it has not asked for
    one, and why it has not. -/
def Held : (op : Operation) → Proxy → List (Request × Reply) → Except Error op.Answer →
    Proxy → Prop
  | .setUrl url, proxy, asked, outcome, after =>
    after = proxy ∧ ∃ reply, asked = [(recordRequest proxy.name, reply)] ∧
      ((∃ error, proxy.recordAnswer reply = .error error ∧ outcome = .error error) ∨
        (∃ record, proxy.recordAnswer reply = .ok record ∧
          Fields.get? record "url" = some (.string url) ∧ outcome = .ok none))
  | .checkout _, proxy, asked, outcome, after =>
    (after = proxy ∨ (proxy.snapshot = none ∧ ∃ record reply,
      asked = [(recordRequest proxy.name, reply)] ∧ proxy.recordAnswer reply = .ok record ∧
        after = { proxy with snapshot := some record })) ∧
      ∃ x error, Runs loaded proxy asked x after ∧ branchIn proxy.name x = .error error ∧
        outcome = .error error
  | .clone, _, _, _, _ => False
  | .delete, _, _, _, _ => False
  | .pull, _, _, _, _ => False
  | .commit _ _ _, _, _, _, _ => False
  | _, _, _, _, _ => True

/-- A run among whose requests is one for a change. -/
theorem sent_of_mem {op : Operation} {name : String} {request : Request} {reply : Reply}
    {asked : List (Request × Reply)} (hmem : (request, reply) ∈ asked)
    (hmod : Modifies name op request) : Sent op name asked :=
  ⟨(request, reply), hmem, hmod⟩

/-- A switch that was not sent leaves the proxy with the record that was read. -/
theorem held_checkout {target : String} {proxy after : Proxy} {asked : List (Request × Reply)}
    {x : Except Error (Fields Json)} {error : Error} (hrun : Runs loaded proxy asked x after)
    (hx : branchIn proxy.name x = .error error) :
    Held (.checkout target) proxy asked (.error error) after := by
  refine ⟨?_, x, error, hrun, hx, rfl⟩
  rcases runs_loaded_iff.1 hrun with ⟨record, -, -, -, hafter⟩ | ⟨hs, reply, hasked, hreply, hafter⟩
  · exact .inl hafter
  · cases x with
    | error error => exact .inl hafter
    | ok record => exact .inr ⟨hs, record, reply, hasked, hreply.symm, hafter⟩

/-- A proxy that is wiped behind a request for a change has forgotten what it has to. -/
theorem forgets_wiped {op : Operation} {proxy left : Proxy} {asked : List (Request × Reply)}
    {held : Prop} (hsent : Sent op proxy.name asked) (hname : left.name = proxy.name) :
    (Sent op proxy.name asked → Forgotten proxy.name left.wiped) ∧
      (¬ Sent op proxy.name asked → held) := by
  refine ⟨fun _ => ?_, fun hnot => absurd hsent hnot⟩
  rw [← hname]
  exact forgotten_wiped left

/-- What was known is forgotten when a change has been asked for, and kept otherwise. -/
theorem forgets_of_sent {op : Operation} {proxy after : Proxy} {asked : List (Request × Reply)}
    {outcome : Except Error op.Answer} (h : Runs op.job proxy asked outcome after) :
    (Sent op proxy.name asked → Forgotten proxy.name after) ∧
      (¬ Sent op proxy.name asked → Held op proxy asked outcome after) := by
  cases op with
  | clone =>
    obtain ⟨reply, rfl, -, rfl⟩ := runs_clone_iff.1 h
    exact forgets_wiped (sent_of_mem List.mem_cons_self .clone) rfl
  | delete =>
    obtain ⟨reply, rfl, -, rfl⟩ := runs_delete_iff.1 h
    exact forgets_wiped (sent_of_mem List.mem_cons_self .delete) rfl
  | pull =>
    obtain ⟨reply, rfl, -, rfl⟩ := runs_pull_iff.1 h
    exact forgets_wiped (sent_of_mem List.mem_cons_self .pull) rfl
  | commit transport message description =>
    obtain ⟨reply, rfl, -, rfl⟩ := runs_commit_iff.1 h
    exact forgets_wiped
      (sent_of_mem List.mem_cons_self (.commit transport message description)) rfl
  | checkout target =>
    obtain ⟨x, first, between, hrun, ⟨current, reply, hx, rfl, -, rfl⟩ |
      ⟨error, hx, rfl, rfl, rfl⟩⟩ := runs_checkout_iff.1 h
    · have hmem := List.mem_append_right first
        (List.mem_singleton_self (switchRequest proxy.name current target, reply))
      exact forgets_wiped (sent_of_mem hmem (.checkout current target)) (loaded_keeps hrun).1
    · refine ⟨fun hsent => ?_, fun _ => held_checkout hrun hx⟩
      -- the record is all that was asked for
      rcases runs_loaded_iff.1 hrun with ⟨_, -, rfl, -, -⟩ | ⟨-, reply, rfl, -, -⟩
      · obtain ⟨_, hmem, -⟩ := hsent
        cases hmem
      · exact absurd hsent (not_sent_checkout _ _ _)
  | setUrl url =>
    obtain ⟨reply, ⟨error, hx, rfl, rfl, rfl⟩ | ⟨record, hx, hurl, rfl, rfl, rfl⟩ |
      ⟨record, posted, -, -, rfl, -, rfl⟩⟩ := runs_setUrl_iff.1 h
    · exact ⟨fun hsent => absurd hsent (not_sent_setUrl _ _ _),
        fun _ => ⟨rfl, reply, rfl, .inl ⟨error, hx, rfl⟩⟩⟩
    · exact ⟨fun hsent => absurd hsent (not_sent_setUrl _ _ _),
        fun _ => ⟨rfl, reply, rfl, .inr ⟨record, hx, hurl, rfl⟩⟩⟩
    · have hmem := List.mem_cons_of_mem (recordRequest proxy.name, reply)
        (List.mem_singleton_self (moveRequest proxy.name url record, posted))
      exact forgets_wiped (sent_of_mem hmem (.setUrl url record)) rfl
  | _ =>
    -- no other operation has a request for a change
    refine ⟨fun hsent => ?_, fun _ => trivial⟩
    obtain ⟨_, -, hmod⟩ := hsent
    cases hmod

/-- A switch that has been sent is one also when its reply is no JSON. -/
theorem forgets_of_sent_unreadable :
    let proxy : Proxy := ⟨"demo", .standard, some [("branch", .string "main")], some []⟩
    let reply : Reply := .ok ⟨200, [], "switched"⟩
    let asked := [(switchRequest "demo" "main" "next", reply)]
    Runs (checkout "next").job proxy asked (.error (.json .malformed)) proxy.wiped ∧
      Sent (.checkout "next") "demo" asked ∧ Forgotten "demo" proxy.wiped := by
  intro proxy reply asked
  have hloaded : Runs loaded proxy [] (.ok [("branch", .string "main")]) proxy :=
    runs_loaded_iff.2 (.inl ⟨_, rfl, rfl, rfl, rfl⟩)
  have hrun : Runs (checkout "next").job proxy asked (.error (.json .malformed)) proxy.wiped :=
    runs_checkout_iff.2
      ⟨_, [], proxy, hloaded, .inl ⟨"main", reply, rfl, rfl, rfl, rfl⟩⟩
  have hsent : Sent (.checkout "next") "demo" asked :=
    sent_of_mem List.mem_cons_self (.checkout "main" "next")
  exact ⟨hrun, hsent, (forgets_of_sent hrun).1 hsent⟩

end Operation

/-! ## A registration that fails -/

namespace Proxy

/-- A registration that fails leaves the proxy as it was, whether its request was sent
    or not.  So nothing is known behind it exactly when nothing was known before. -/
theorem create_failed_keeps {registration : Registration} {proxy after : Proxy}
    {asked : List (Request × Reply)} {error : Error}
    (h : Runs (create registration) proxy asked (.error error) after) :
    after = proxy ∧
      (Forgotten proxy.name after ↔ proxy.snapshot = none ∧ proxy.config = none) := by
  have hafter : after = proxy := by
    rcases runs_create_iff.1 h with ⟨_, -, -, -, hafter⟩ | ⟨data, reply, -, -, ⟨_, -, hok, -⟩ |
      ⟨_, -, -, hafter⟩⟩
    · exact hafter
    · cases hok
    · exact hafter
  subst hafter
  refine ⟨rfl, ?_⟩
  constructor
  · intro hforgotten
    exact ⟨hforgotten.snapshot, hforgotten.config⟩
  · rintro ⟨hs, hc⟩
    exact forgotten_of_none hs hc

/-- A registration that the service has accepted in words that cannot be read. -/
theorem runs_create_unreadable :
    let registration : Registration := { url := "https://host/demo.git", vsid := "6IT" }
    let proxy : Proxy := ⟨"demo", .standard, some [("status", .string "READY")], none⟩
    ∃ data, Runs (create registration) proxy
      [(Registration.request "demo" data, .ok ⟨201, [], "[]"⟩)]
      (.error (.invalidResponse (.repositoryObject "demo"))) proxy := by
  intro registration proxy
  refine ⟨_, runs_create_iff.2 (.inr ⟨_, .ok ⟨201, [], "[]"⟩, rfl, rfl, .inr ⟨_, ?_, rfl, rfl⟩⟩)⟩
  rfl

/-- Behind such a registration the record from before it is still known. -/
theorem create_failed_keeps_ready :
    ∃ data, Runs (create { url := "https://host/demo.git", vsid := "6IT" })
        ⟨"demo", .standard, some [("status", .string "READY")], none⟩
        [(Registration.request "demo" data, .ok ⟨201, [], "[]"⟩)]
        (.error (.invalidResponse (.repositoryObject "demo")))
        ⟨"demo", .standard, some [("status", .string "READY")], none⟩ ∧
      ¬ Forgotten "demo" ⟨"demo", .standard, some [("status", .string "READY")], none⟩ := by
  obtain ⟨data, hrun⟩ := runs_create_unreadable
  refine ⟨data, hrun, fun hforgotten => ?_⟩
  cases ((create_failed_keeps hrun).2.1 hforgotten).1

/-- So a registration that was sent and failed does not always leave a proxy that
    asks again. -/
theorem not_forgotten_of_create_failed :
    ¬ ∀ (registration : Registration) (proxy after : Proxy) (asked : List (Request × Reply))
      (error : Error), Runs (create registration) proxy asked (.error error) after →
        asked ≠ [] → after.snapshot = none ∧ after.config = none := by
  intro h
  obtain ⟨data, hrun⟩ := runs_create_unreadable
  cases (h _ _ _ _ _ hrun (List.cons_ne_nil _ _)).1

end Proxy

end GitTransport
