/-
The branch that a switch goes from.

  A proxy is switched in two steps.  The record is asked for when it is not known, and the
  switch is asked for at the branch in the record that the proxy then has; without a record
  or a branch in it no switch is asked for (`Proxy.exists_runs_checkout_iff`).

  The command for a switch reads the branch before it calls for the switch, with one proxy
  for both.  So the second reading is no asking, and the branch that is printed is the one
  that the switch was asked for at, whatever the service would have said the second time
  (`CommandLine.path_switched_iff`).
-/

import GitTransport.Proofs.CommandLine.Listing
import GitTransport.Proofs.Proxy.Addressing

namespace GitTransport

open Exchange ProxyJob

/-! ## The requests of a switch -/

namespace Attribute

/-- An attribute has no text if its member is missing or null, and only then: every other
    value has one. -/
theorem valueIn_eq_none_iff {a : Attribute} {record : Fields Json} :
    a.valueIn record = none ↔
      Fields.get? record a.member = none ∨ Fields.get? record a.member = some .null := by
  rw [valueIn, Option.bind_eq_none_iff]
  cases Fields.get? record a.member with
  | none => simp
  | some value =>
    cases value with
    | null => simp [Proxy.textOf]
    | _ => simp [Proxy.textOf]

end Attribute

namespace Proxy

/-- What is asked for to switch from the branch in a record: nothing if there is none. -/
inductive Switches (name target : String) (record : Fields Json) :
    List (Request × Reply) → Prop where
  | unknown (h : Fields.get? record "branch" = none ∨ Fields.get? record "branch" = some .null) :
      Switches name target record []
  | asked {current : String} (reply : Reply)
      (h : Attribute.branch.valueIn record = some current) :
      Switches name target record [(switchRequest name current target, reply)]

/-- What is asked for to switch a proxy to another branch.  A record that is known is used;
    an unknown one is asked for first. -/
inductive Routed (proxy : Proxy) (target : String) : List (Request × Reply) → Prop where
  | known {record : Fields Json} {asked : List (Request × Reply)}
      (h : proxy.snapshot = some record) (hswitch : Switches proxy.name target record asked) :
      Routed proxy target asked
  | unread {reply : Reply} {error : Error} (h : proxy.snapshot = none)
      (hread : proxy.recordAnswer reply = .error error) :
      Routed proxy target [(recordRequest proxy.name, reply)]
  | read {reply : Reply} {record : Fields Json} {asked : List (Request × Reply)}
      (h : proxy.snapshot = none) (hread : proxy.recordAnswer reply = .ok record)
      (hswitch : Switches proxy.name target record asked) :
      Routed proxy target ((recordRequest proxy.name, reply) :: asked)

variable {proxy : Proxy} {target : String} {asked : List (Request × Reply)}

/-- The branch in a record that is there is its text in the record. -/
theorem branchIn_ok_iff {name current : String} {record : Fields Json} :
    branchIn name (.ok record) = .ok current ↔ Attribute.branch.valueIn record = some current := by
  constructor
  · exact Operation.valueIn_of_branchIn
  · intro h
    have hbranch : (Fields.get? record "branch").bind textOf = some current := h
    simp only [branchIn, Except.bind, hbranch]

/-- A switch is asked for exactly if the branch is there. -/
theorem switches_iff {name : String} {record : Fields Json} :
    Switches name target record asked ↔
      (∃ current reply, branchIn name (.ok record) = .ok current ∧
        asked = [(switchRequest name current target, reply)]) ∨
      (∃ error, branchIn name (.ok record) = .error error ∧ asked = []) := by
  constructor
  · rintro (h | ⟨reply, h⟩)
    · have hnone : Attribute.branch.valueIn record = none := Attribute.valueIn_eq_none_iff.2 h
      cases hbranch : branchIn name (.ok record) with
      | error error => exact .inr ⟨error, rfl, rfl⟩
      | ok current =>
        rw [branchIn_ok_iff.1 hbranch] at hnone
        cases hnone
    · exact .inl ⟨_, reply, branchIn_ok_iff.2 h, rfl⟩
  · rintro (⟨current, reply, h, rfl⟩ | ⟨error, h, rfl⟩)
    · exact .asked reply (branchIn_ok_iff.1 h)
    · cases hvalue : Attribute.branch.valueIn record with
      | none => exact .unknown (Attribute.valueIn_eq_none_iff.1 hvalue)
      | some current =>
        rw [branchIn_ok_iff.2 hvalue] at h
        cases h

/-- What is asked for in a run of the switch, whatever the proxy knows and whatever the
    replies are. -/
theorem exists_runs_checkout_iff :
    (∃ outcome after, Runs (checkout target) proxy asked outcome after) ↔
      Routed proxy target asked := by
  simp only [runs_checkout_iff, runs_loaded_iff]
  constructor
  · -- the record is the known one, or what is read in the reply to the first request
    rintro ⟨_, _, x, first, _, ⟨record, hs, rfl, rfl, rfl⟩ | ⟨hs, reply, rfl, rfl, rfl⟩, hend⟩
    · refine .known hs (switches_iff.2 ?_)
      rcases hend with ⟨current, reply, hx, rfl, -⟩ | ⟨error, hx, rfl, -⟩
      · exact .inl ⟨current, reply, hx, rfl⟩
      · exact .inr ⟨error, hx, rfl⟩
    · cases hread : proxy.recordAnswer reply with
      | error error =>
        rw [hread] at hend
        rcases hend with ⟨_, _, hx, -⟩ | ⟨_, -, rfl, -⟩
        · cases hx
        · exact .unread hs hread
      | ok record =>
        rw [hread] at hend
        rcases hend with ⟨current, answer, hx, rfl, -⟩ | ⟨error, hx, rfl, -⟩
        · exact .read hs hread (switches_iff.2 (.inl ⟨current, answer, hx, rfl⟩))
        · exact .read hs hread (switches_iff.2 (.inr ⟨error, hx, rfl⟩))
  · rintro (⟨hs, hswitch⟩ | ⟨hs, hread⟩ | ⟨hs, hread, hswitch⟩)
    · rcases switches_iff.1 hswitch with ⟨current, reply, hx, rfl⟩ | ⟨error, hx, rfl⟩
      · exact ⟨_, _, _, [], _, .inl ⟨_, hs, rfl, rfl, rfl⟩,
          .inl ⟨current, reply, hx, rfl, rfl, rfl⟩⟩
      · exact ⟨_, _, _, [], _, .inl ⟨_, hs, rfl, rfl, rfl⟩, .inr ⟨error, hx, rfl, rfl, rfl⟩⟩
    · refine ⟨_, _, _, _, _, .inr ⟨hs, _, rfl, hread.symm, rfl⟩, .inr ⟨_, rfl, rfl, rfl, rfl⟩⟩
    · rcases switches_iff.1 hswitch with ⟨current, reply, hx, rfl⟩ | ⟨error, hx, rfl⟩
      · exact ⟨_, _, _, _, _, .inr ⟨hs, _, rfl, hread.symm, rfl⟩,
          .inl ⟨current, reply, hx, rfl, rfl, rfl⟩⟩
      · exact ⟨_, _, _, _, _, .inr ⟨hs, _, rfl, hread.symm, rfl⟩, .inr ⟨error, hx, rfl, rfl, rfl⟩⟩

/-- With a known record a switch succeeds by one request, at the branch in that record. -/
theorem runs_checkout_iff_of_snapshot {record : Fields Json} (hs : proxy.snapshot = some record)
    {transition : CommitTransition} {after : Proxy} :
    Runs (checkout target) proxy asked (.ok transition) after ↔
      ∃ current reply, Attribute.branch.valueIn record = some current ∧
        asked = [(switchRequest proxy.name current target, reply)] ∧
        proxy.switchAnswer current target reply = .ok transition ∧ after = proxy.wiped := by
  rw [runs_checkout_iff]
  simp only [runs_loaded_of_snapshot hs]
  constructor
  · rintro ⟨_, _, _, ⟨rfl, rfl, rfl⟩, ⟨current, reply, hx, rfl, hanswer, rfl⟩ | ⟨_, -, -, ⟨⟩, -⟩⟩
    exact ⟨current, reply, branchIn_ok_iff.1 hx, rfl, hanswer.symm, rfl⟩
  · rintro ⟨current, reply, hbranch, rfl, hanswer, rfl⟩
    exact ⟨_, [], proxy, ⟨rfl, rfl, rfl⟩,
      .inl ⟨current, reply, branchIn_ok_iff.2 hbranch, rfl, hanswer.symm, rfl⟩⟩

/-- Remembering a record does not change how the reply to a switch is read. -/
theorem switchAnswer_remembering (proxy : Proxy) (x : Except Error (Fields Json))
    (current target : String) :
    (proxy.remembering x).switchAnswer current target = proxy.switchAnswer current target := by
  funext reply
  rw [switchAnswer, switchAnswer, answer, answer, remembering_name, remembering_classifier]

end Proxy

namespace CommandLine

/-! ## The lines of a switch -/

namespace Routine

variable {α β : Type} {asked : List (Request × Reply)} {lines : List String}

/-- A routine that succeeds has a result of its first job on a proxy, and goes on with the
    proxy that is left. -/
theorem path_onProxy_bind_iff {proxy : Proxy} {job : ProxyJob α} {f : α × Proxy → Routine β}
    {b : β} :
    Path (onProxy proxy job >>= f).run asked (.ok b, lines) ↔
      ∃ first a after rest, asked = first ++ rest ∧ Runs job proxy first (.ok a) after ∧
        Path (f (a, after)).run rest (.ok b, lines) := by
  have hcall : onProxy proxy job >>= f =
      .call (ExceptT.mk (job.runOn proxy >>= fun x => .done (x.1.map fun a => (a, x.2)))) f := rfl
  rw [hcall, Routine.run, path_bind_iff, ExceptT.run_mk]
  constructor
  · rintro ⟨first, outcome, rest, rfl, hfirst, hrest⟩
    obtain ⟨first, ⟨x, after⟩, nothing, rfl, hrun, hdone⟩ := path_bind_iff.1 hfirst
    obtain ⟨rfl, rfl⟩ := path_done_iff.1 hdone
    cases x with
    | ok a => exact ⟨first, a, after, rest, by rw [List.append_nil], hrun, hrest⟩
    | error error =>
      obtain ⟨-, heq⟩ := path_done_iff.1 hrest
      cases heq
  · rintro ⟨first, a, after, rest, rfl, hrun, hrest⟩
    refine ⟨first, .ok (a, after), rest, rfl, ?_, hrest⟩
    exact path_bind_iff.2 ⟨first, (.ok a, after), [], (List.append_nil _).symm, hrun, .done _⟩

end Routine

open Routine

/-- The lines for a switch from one branch to another. -/
def switchLines (package current target : String) (transition : CommitTransition) : List String :=
  ["The repository " ++ quoted package ++ " has been set to the branch " ++ quoted target,
    "(" ++ current ++ ":" ++ transition.fromCommit.getD "" ++ ")" ++ " -> " ++
      ("(" ++ target ++ ":" ++ transition.toCommit.getD "" ++ ")")]

/-- Two requests, for the record and for the switch at the branch in it, with replies that are
    accepted; and the lines for this branch. -/
def Switched (package target : String) (asked : List (Request × Reply)) (lines : List String) :
    Prop :=
  ∃ reply record current answer transition,
    (Proxy.new package).recordAnswer reply = .ok record ∧
      Attribute.branch.valueIn record = some current ∧
      (Proxy.new package).switchAnswer current target answer = .ok transition ∧
      asked = [(Proxy.recordRequest package, reply),
        (Proxy.switchRequest package current target, answer)] ∧
      lines = switchLines package current target transition

/-- Both requests only read, and both were answered. -/
theorem Switched.reads {package target : String} {asked : List (Request × Reply)}
    {lines : List String} (h : Switched package target asked lines) :
    ∀ exchange ∈ asked, exchange.1.method = .get ∧ ∃ response, exchange.2 = .ok response := by
  obtain ⟨reply, record, current, answer, transition, hrecord, -, hanswer, rfl, -⟩ := h
  obtain ⟨body, hbody, -⟩ := bind_eq_ok_iff.1 hrecord
  obtain ⟨first, hfirst, -⟩ := Job.bodyOf_eq_some_iff.1 (Proxy.jsonAnswer_eq_ok_iff.1 hbody)
  obtain ⟨_, hjson, -⟩ := bind_eq_ok_iff.1 hanswer
  obtain ⟨second, hsecond, -⟩ := bind_eq_ok_iff.1 hjson
  rw [List.forall_mem_cons, List.forall_mem_singleton]
  exact ⟨⟨rfl, first, hfirst⟩, rfl, second, (Proxy.answer_eq_ok_iff.1 hsecond).1⟩

theorem Switched.length_eq {package target : String} {asked : List (Request × Reply)}
    {lines : List String} (h : Switched package target asked lines) : asked.length = 2 := by
  obtain ⟨_, _, _, _, _, -, -, -, rfl, -⟩ := h
  rfl

/-- The command succeeds in this way and in no other. -/
theorem path_switched_iff {package target : String} {asked : List (Request × Reply)}
    {lines : List String} :
    Path (switched package target).run asked (.ok (), lines) ↔
      Switched package target asked lines := by
  have hread : Proxy.branch = Attribute.branch.valueIn <$> Proxy.loaded :=
    Attribute.branch.read_eq_map
  rw [switched, path_onProxy_bind_iff]
  simp only [path_onProxy_bind_iff, path_sayAll_iff, hread, runs_map_iff]
  constructor
  · rintro ⟨first, before, between, _, rfl, ⟨x, hx, hloaded⟩, switch, transition, after, _, rfl,
      hswitch, rfl, -, rfl⟩
    cases x with
    | error error => cases hx
    | ok record =>
      -- the record was unknown and is known behind the first job
      obtain ⟨_, ⟨⟩, -⟩ | ⟨-, reply, rfl, hrecord, rfl⟩ := Proxy.runs_loaded_iff.1 hloaded
      obtain ⟨current, answer, hbranch, rfl, hanswer, -⟩ :=
        (Proxy.runs_checkout_iff_of_snapshot rfl).1 hswitch
      rw [Proxy.switchAnswer_remembering] at hanswer
      have hbefore : before = some current := (Except.ok.inj hx).trans hbranch
      subst hbefore
      exact ⟨reply, record, current, answer, transition, hrecord.symm, hbranch, hanswer, rfl, rfl⟩
  · rintro ⟨reply, record, current, answer, transition, hrecord, hbranch, hanswer, rfl, rfl⟩
    -- both jobs are on one proxy, so that the second one finds the record of the first
    have hloaded : Runs Proxy.loaded (.new package) [(Proxy.recordRequest package, reply)]
        (.ok record) ((Proxy.new package).remembering (.ok record)) :=
      Proxy.runs_loaded_iff.2 (.inr ⟨rfl, reply, rfl, hrecord.symm, rfl⟩)
    rw [← Proxy.switchAnswer_remembering _ (.ok record)] at hanswer
    have hswitch := (Proxy.runs_checkout_iff_of_snapshot rfl).2
      ⟨current, answer, hbranch, rfl, hanswer, rfl⟩
    refine ⟨_, _, _, _, rfl, ⟨.ok record, rfl, hloaded⟩, _, _, _, [], rfl, hswitch, rfl,
      trivial, ?_⟩
    rw [hbranch]
    rfl

/-! ## On the wire -/

/-- A request of a session is one message on the wire, and its reply is made of the answer to
    that message. -/
def SentAs (session : Session) (exchange : Request × Reply)
    (message : WireRequest × WireReply) : Prop :=
  ∃ url, session.urlFor exchange.1.path exchange.1.params = .ok url ∧
    Session.Carries url exchange.1 none [message] exchange.2

/-- A request that only reads and is answered is one message. -/
theorem exists_sentAs_of_serve {s t : Session} {request : Request}
    {inner : List (WireRequest × WireReply)} {response : Response} (hget : request.method = .get)
    (h : Path (s.serve request) inner (.ok response, t)) :
    (∃ message, inner = [message] ∧ SentAs s (request, .ok response) message) ∧
      ∃ cookies, t = s.later s.token cookies := by
  obtain ⟨hserved, hlater⟩ := Session.carries_of_serve_get hget h
  refine ⟨?_, hlater⟩
  obtain ⟨fault, -, ⟨⟩⟩ | ⟨url, hurl, hcarries⟩ := hserved
  generalize hreply : (Except.ok response : Reply) = reply at hcarries
  cases hcarries with
  | unsendable hplace => cases hreply
  | sent answer hplace hmethod hmessage htokens hbody =>
    exact ⟨_, rfl, url, hurl, .sent answer hplace hmethod hmessage htokens hbody⟩

/-- So is each of the requests of a session that are of this kind. -/
theorem forall₂_sentAs_of_turns {s t : Session}
    {turns : List (Turn Request Reply WireRequest WireReply)} (h : Turns Session.serve s turns t)
    (hread : ∀ exchange ∈ turns.map Turn.outer,
      exchange.1.method = .get ∧ ∃ response, exchange.2 = .ok response) :
    List.Forall₂ (SentAs s) (turns.map Turn.outer) (Turn.allInner turns) := by
  -- the cookies that come with the answers change no address
  induction turns generalizing s with
  | nil => exact .nil
  | cons turn turns ih =>
    obtain ⟨u, hturn, hturns⟩ := turns_cons_iff.1 h
    rw [List.map_cons, List.forall_mem_cons] at hread
    obtain ⟨⟨hget, response, hresponse⟩, hrest⟩ := hread
    obtain ⟨question, answer, inner⟩ := turn
    obtain rfl : answer = .ok response := hresponse
    obtain ⟨⟨message, rfl, hsent⟩, cookies, rfl⟩ := exists_sentAs_of_serve hget hturn
    have hlater := ih hturns hrest
    exact .cons hsent hlater

variable {env : Environment} {capable : Bool} {i : Invocation} {package target : String}
  {wire : List (WireRequest × WireReply)} {outcome : Outcome}

/-- A command line for a switch that succeeds has sent two messages, one for each request. -/
theorem execute_checkout (hcommand : i.command = .service (.checkout package target))
    (h : Path (execute env capable i) wire outcome) (hstatus : outcome.status = 0) :
    ∃ session asked lines, SetUp env i.connection session ∧
      Switched package target asked lines ∧ wire.length = 2 ∧
      List.Forall₂ (SentAs session) asked wire ∧ outcome = .printed lines := by
  rw [execute, hcommand] at h
  dsimp only at h
  rcases prepare_cases env i.connection (.checkout package target) with
    ⟨settings, session, hprepare, -, hsetup⟩ | ⟨ending, hprepare, hending, -⟩
  · rw [hprepare] at h
    obtain ⟨calls, result, lines, ⟨turns, last, rfl, hturns, hcourse⟩, rfl⟩ :=
      path_perform_iff.1 h
    cases result with
    | error failure => cases status_eq_zero_iff.1 hstatus
    | ok _ =>
      have hswitched := path_switched_iff.1 (path_run_iff.2 ⟨calls, hcourse⟩)
      -- each request is answered, so none of them is sent twice or not at all
      have hread := hswitched.reads
      have hsent := forall₂_sentAs_of_turns hturns hread
      refine ⟨session, _, lines, hsetup, hswitched, ?_, hsent, rfl⟩
      rw [← hsent.length_eq, hswitched.length_eq]
  · rw [hprepare] at h
    obtain ⟨rfl, rfl⟩ := path_done_iff.1 h
    exact absurd (status_eq_zero_iff.1 hstatus) hending

/-! ## The whole way -/

/-- A switch goes from the branch in the record that the proxy has or is told: the record is
    asked for only if it is not known, and the switch only if there is a branch in the record.
    A command for a switch that succeeds has sent the two requests and nothing else, and the
    branch that it prints first is the one that the switch was asked for at. -/
theorem switch_from_printed_branch :
    (∀ proxy target asked,
      (∃ outcome after, Runs (Proxy.checkout target) proxy asked outcome after) ↔
        Proxy.Routed proxy target asked) ∧
    (∀ package target asked lines,
      Path (switched package target).run asked (.ok (), lines) ↔
        Switched package target asked lines) ∧
    ∀ env capable i package target wire outcome, i.command = .service (.checkout package target) →
      Path (execute env capable i) wire outcome → outcome.status = 0 →
      ∃ session asked lines, SetUp env i.connection session ∧
        Switched package target asked lines ∧ wire.length = 2 ∧
        List.Forall₂ (SentAs session) asked wire ∧ outcome = .printed lines := by
  refine ⟨fun proxy target asked => Proxy.exists_runs_checkout_iff,
    fun package target asked lines => path_switched_iff, ?_⟩
  intro env capable i package target wire outcome hcommand h hstatus
  exact execute_checkout hcommand h hstatus

/-- A service that answers the reading and the switch. -/
theorem switch_from_printed_branch_answered :
    (switchRun 2).result.status = 0 ∧
      (switchRun 2).asked.map (fun exchange => exchange.1.url.text) =
        ["http://localhost:8000/sap/bc/cts_abapvcs/repository/demo",
          "http://localhost:8000/sap/bc/cts_abapvcs/repository/demo/branches/main/switch" ++
            "?branch=dev"] ∧
      ∃ session asked, Switched "demo" "dev" asked (switchRun 2).result.output ∧
        List.Forall₂ (SentAs session) asked (switchRun 2).asked := by
  obtain ⟨-, -, hexecute⟩ := switch_from_printed_branch
  have hpath : Path (execute (Dictionary.ofList []) false switchLine) (switchRun 2).asked
      (switchRun 2).result := by
    rw [switchRun]
    exact path_play (refusesFrom 2) (execute (Dictionary.ofList []) false switchLine) 0
  have hstatus : (switchRun 2).result.status = 0 := by decide +kernel
  obtain ⟨session, asked, lines, -, hswitched, -, hsent, houtcome⟩ :=
    hexecute _ _ _ _ _ _ _ rfl hpath hstatus
  refine ⟨hstatus, by decide +kernel, session, asked, ?_, hsent⟩
  rw [houtcome]
  exact hswitched

end CommandLine

end GitTransport
