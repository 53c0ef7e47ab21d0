/-
What a command leaves on the output.

  A `Course` is one run of a routine: what is asked and replied, how each call of the
  library ends, the result, and the lines that are printed.  Every run of a routine has a
  course (`Routine.path_run_iff`), and the course follows from what is asked and replied
  (`Routine.Course.unique`).

  A routine is orderly when it prints at its end only: no call stands behind a line, and
  nothing is refused.  Then the lines are there exactly if every call has succeeded
  (`Routine.Course.of_orderly`).  All commands are orderly once their options are right
  (`Action.orderly_of_fault`).  So a command that fails has printed nothing, and it fails
  exactly if its options, the connection or one of its calls does
  (`all_or_nothing`).
-/

import GitTransport.CommandLine.Execution
import GitTransport.Proofs.Exchange
import Mathlib.Logic.ExistsUnique

namespace GitTransport.CommandLine

open Exchange

namespace Routine

variable {α β : Type}

/-! ## One run of a routine -/

/-- `Course x asked calls result lines`: a run of `x` in which `asked` is asked and
    replied, the calls of the library end as `calls` says, and `lines` are printed before
    the routine ends in `result`. -/
inductive Course : Routine α → List (Request × Reply) → List (Except Error Unit) →
    Except Failure α → List String → Prop where
  | done (a : α) : Course (.done a) [] [] (.ok a) []
  | say {line : String} {next : Routine α} {asked : List (Request × Reply)}
      {calls : List (Except Error Unit)} {result : Except Failure α} {lines : List String} :
      Course next asked calls result lines →
      Course (.say line next) asked calls result (line :: lines)
  | answered {β : Type} {job : Job β} {next : β → Routine α} {b : β}
      {first rest : List (Request × Reply)} {calls : List (Except Error Unit)}
      {result : Except Failure α} {lines : List String} :
      Path job.run first (.ok b) → Course (next b) rest calls result lines →
      Course (.call job next) (first ++ rest) (.ok () :: calls) result lines
  | broken {β : Type} {job : Job β} {next : β → Routine α} {error : Error}
      {asked : List (Request × Reply)} :
      Path job.run asked (.error error) →
      Course (.call job next) asked [.error error] (.error (.operation error)) []
  | refused (failure : Failure) : Course (.refuse failure) [] [] (.error failure) []

variable {x : Routine α} {asked : List (Request × Reply)} {calls : List (Except Error Unit)}
  {result : Except Failure α} {lines : List String}

/-- The paths of a routine that is run are its courses. -/
theorem path_run_iff :
    Path x.run asked (result, lines) ↔ ∃ calls, Course x asked calls result lines := by
  induction x generalizing asked result lines with
  | done a =>
    rw [run, path_done_iff, Prod.mk.injEq]
    constructor
    · rintro ⟨rfl, rfl, rfl⟩
      exact ⟨[], .done a⟩
    · rintro ⟨calls, h⟩
      cases h
      exact ⟨rfl, rfl, rfl⟩
  | say line next ih =>
    rw [run, path_bind_iff]
    constructor
    · rintro ⟨first, ⟨result, lines⟩, rest, rfl, hnext, hdone⟩
      obtain ⟨rfl, heq⟩ := path_done_iff.1 hdone
      obtain ⟨rfl, rfl⟩ := Prod.mk.inj heq
      obtain ⟨calls, h⟩ := ih.1 hnext
      exact ⟨calls, by rw [List.append_nil]; exact .say h⟩
    · rintro ⟨calls, h⟩
      cases h with
      | say h => exact ⟨asked, (result, _), [], (List.append_nil _).symm, ih.2 ⟨calls, h⟩, .done _⟩
  | call job next ih =>
    rw [run, path_bind_iff]
    constructor
    · rintro ⟨first, outcome, rest, rfl, hjob, hrest⟩
      cases outcome with
      | ok b =>
        obtain ⟨calls, h⟩ := (ih b).1 hrest
        exact ⟨.ok () :: calls, .answered hjob h⟩
      | error error =>
        obtain ⟨rfl, heq⟩ := path_done_iff.1 hrest
        obtain ⟨rfl, rfl⟩ := Prod.mk.inj heq
        exact ⟨[.error error], by rw [List.append_nil]; exact .broken hjob⟩
    · rintro ⟨calls, h⟩
      cases h with
      | answered hjob h => exact ⟨_, .ok _, _, rfl, hjob, (ih _).2 ⟨_, h⟩⟩
      | broken hjob => exact ⟨asked, .error _, [], (List.append_nil _).symm, hjob, .done _⟩
  | refuse failure =>
    rw [run, path_done_iff, Prod.mk.injEq]
    constructor
    · rintro ⟨rfl, rfl, rfl⟩
      exact ⟨[], .refused failure⟩
    · rintro ⟨calls, h⟩
      cases h
      exact ⟨rfl, rfl, rfl⟩

/-- What is asked and replied tells the course. -/
theorem Course.unique {calls' : List (Except Error Unit)} {result' : Except Failure α}
    {lines' : List String} (h : Course x asked calls result lines)
    (h' : Course x asked calls' result' lines') :
    calls = calls' ∧ result = result' ∧ lines = lines' := by
  -- a call that is answered and one that is not differ in the result of its job
  induction h generalizing calls' result' lines' with
  | done a =>
    cases h'
    exact ⟨rfl, rfl, rfl⟩
  | say _ ih =>
    cases h' with
    | say h' =>
      obtain ⟨hcalls, hresult, hlines⟩ := ih h'
      exact ⟨hcalls, hresult, congrArg _ hlines⟩
  | @answered _ job next b first rest _ _ _ hjob _ ih =>
    generalize hasked : first ++ rest = asked at h'
    cases h' with
    | answered hjob' h' =>
      obtain ⟨rfl, rfl, heq⟩ := hjob.unique hjob' hasked
      cases heq
      obtain ⟨hcalls, hresult, hlines⟩ := ih h'
      exact ⟨congrArg _ hcalls, hresult, hlines⟩
    | broken hjob' =>
      obtain ⟨-, -, heq⟩ := hjob.unique hjob' (hasked.trans (List.append_nil _).symm)
      cases heq
  | @broken _ job next error asked hjob =>
    generalize hasked : asked = asked' at h'
    cases h' with
    | answered hjob' h' =>
      obtain ⟨-, -, heq⟩ := hjob.unique hjob' ((List.append_nil _).trans hasked)
      cases heq
    | broken hjob' =>
      obtain ⟨-, -, heq⟩ := hjob.unique hjob' (congrArg (· ++ []) hasked)
      cases heq
      exact ⟨rfl, rfl, rfl⟩
  | refused failure =>
    cases h'
    exact ⟨rfl, rfl, rfl⟩

/-! ## Orderly routines -/

/-- All that is left is to print. -/
def Final : Routine α → Prop
  | .done _ => True
  | .say _ next => next.Final
  | .call _ _ => False
  | .refuse _ => False

/-- The routine calls the library only: it prints nothing and refuses nothing. -/
def Quiet : Routine α → Prop
  | .done _ => True
  | .say _ _ => False
  | .call _ next => ∀ b, (next b).Quiet
  | .refuse _ => False

/-- All calls of the library come before the first line, and nothing is refused. -/
def Orderly : Routine α → Prop
  | .done _ => True
  | .say _ next => next.Final
  | .call _ next => ∀ b, (next b).Orderly
  | .refuse _ => False

theorem Course.of_final (h : Course x asked calls result lines) (hx : x.Final) :
    calls = [] ∧ ∃ a, result = .ok a := by
  induction h with
  | done a => exact ⟨rfl, a, rfl⟩
  | say _ ih => exact ih hx
  | answered _ _ _ => exact hx.elim
  | broken _ => exact hx.elim
  | refused failure => exact hx.elim

/-- An orderly routine succeeds exactly if all its calls do, and prints nothing when it
    fails. -/
theorem Course.of_orderly (h : Course x asked calls result lines) (hx : x.Orderly) :
    ((∃ a, result = .ok a) ↔ ∀ call ∈ calls, call = .ok ()) ∧
      ∀ failure, result = .error failure → lines = [] := by
  induction h with
  | done a =>
    refine ⟨iff_of_true ⟨a, rfl⟩ (by simp), ?_⟩
    rintro failure ⟨⟩
  | say h _ =>
    -- behind the first line nothing can fail any more
    obtain ⟨rfl, a, rfl⟩ := h.of_final hx
    refine ⟨iff_of_true ⟨a, rfl⟩ (by simp), ?_⟩
    rintro failure ⟨⟩
  | answered _ _ ih =>
    obtain ⟨hcalls, hlines⟩ := ih (hx _)
    exact ⟨by rw [hcalls, List.forall_mem_cons, and_iff_right rfl], hlines⟩
  | broken _ => exact ⟨iff_of_false (by rintro ⟨a, ⟨⟩⟩) (by simp), fun _ _ => rfl⟩
  | refused failure => exact hx.elim

/-! ## Putting routines together -/

theorem quiet_ofJob (job : Job α) : (ofJob job).Quiet := fun _ => trivial

theorem quiet_onProxy (proxy : Proxy) (job : ProxyJob α) : (onProxy proxy job).Quiet :=
  quiet_ofJob _

theorem quiet_bind {f : α → Routine β} (hx : x.Quiet) (hf : ∀ a, (f a).Quiet) :
    (x >>= f).Quiet := by
  induction x with
  | done a => exact hf a
  | say line next ih => exact hx.elim
  | call job next ih => exact fun b => ih b (hx b)
  | refuse failure => exact hx.elim

theorem quiet_mapM {f : α → Routine β} (hf : ∀ a, (f a).Quiet) (items : List α) :
    (items.mapM f).Quiet := by
  -- the induction needs whatever results have been collected before
  have hloop (done : List β) : (List.mapM.loop f items done).Quiet := by
    induction items generalizing done with
    | nil => trivial
    | cons item items ih => exact quiet_bind (hf item) fun b => ih (b :: done)
  exact hloop []

/-- Calls first, and then an orderly rest. -/
theorem orderly_bind {f : α → Routine β} (hx : x.Quiet) (hf : ∀ a, (f a).Orderly) :
    (x >>= f).Orderly := by
  induction x with
  | done a => exact hf a
  | say line next ih => exact hx.elim
  | call job next ih => exact fun b => ih b (hx b)
  | refuse failure => exact hx.elim

theorem final_sayAll (lines : List String) : (sayAll lines).Final := by
  induction lines with
  | nil => trivial
  | cons line lines ih => exact ih

theorem orderly_sayAll (lines : List String) : (sayAll lines).Orderly := by
  cases lines with
  | nil => trivial
  | cons line lines => exact final_sayAll lines

/-- Printing asks for nothing and does not fail. -/
theorem course_sayAll_iff {calls : List (Except Error Unit)} {printed : List String}
    {result : Except Failure Unit} :
    Course (sayAll printed) asked calls result lines ↔
      asked = [] ∧ calls = [] ∧ result = .ok () ∧ lines = printed := by
  constructor
  · intro h
    induction printed generalizing lines with
    | nil =>
      cases h
      exact ⟨rfl, rfl, rfl, rfl⟩
    | cons line printed ih =>
      cases h with
      | say h =>
        obtain ⟨hasked, hcalls, hresult, rfl⟩ := ih h
        exact ⟨hasked, hcalls, hresult, rfl⟩
  · rintro ⟨rfl, rfl, rfl, rfl⟩
    induction lines with
    | nil => exact .done ()
    | cons line lines ih => exact .say ih

theorem path_sayAll_iff {printed : List String} {result : Except Failure Unit} :
    Path (sayAll printed).run asked (result, lines) ↔
      asked = [] ∧ result = .ok () ∧ lines = printed := by
  simp only [path_run_iff, course_sayAll_iff]
  constructor
  · rintro ⟨calls, rfl, -, rfl, rfl⟩
    exact ⟨rfl, rfl, rfl⟩
  · rintro ⟨rfl, rfl, rfl⟩
    exact ⟨[], rfl, rfl, rfl, rfl⟩

/-- One call of the library, and then lines. -/
theorem orderly_ofJob_sayAll (job : Job α) (lines : α → List String) :
    (ofJob job >>= fun a => sayAll (lines a)).Orderly :=
  orderly_bind (quiet_ofJob job) fun a => orderly_sayAll (lines a)

end Routine

open Routine

/-! ## The commands -/

theorem quiet_listRow (proxy : Proxy) : (listRow proxy).Quiet := by
  refine quiet_bind (quiet_onProxy _ _) fun _ => ?_
  refine quiet_bind (quiet_onProxy _ _) fun _ => ?_
  refine quiet_bind (quiet_onProxy _ _) fun _ => ?_
  refine quiet_bind (quiet_onProxy _ _) fun _ => ?_
  exact quiet_bind (quiet_onProxy _ _) fun _ => trivial

theorem orderly_listed : listed.Orderly := by
  refine orderly_bind (quiet_ofJob _) fun _ => ?_
  exact orderly_bind (quiet_mapM quiet_listRow _) fun _ => orderly_sayAll _

theorem orderly_cloned (url : String) (package : Option String)
    (options : Workflow.CloneOptions) : (cloned url package options).Orderly := by
  refine orderly_bind (quiet_ofJob _) fun _ => ?_
  refine orderly_bind (quiet_onProxy _ _) fun _ => ?_
  refine orderly_bind (quiet_onProxy _ _) fun _ => ?_
  exact orderly_bind (quiet_onProxy _ _) fun _ => orderly_sayAll _

theorem orderly_configured (package : String) : (configured true package).Orderly :=
  orderly_bind (quiet_ofJob _) fun _ => orderly_sayAll _

theorem orderly_switched (package branch : String) : (switched package branch).Orderly := by
  refine orderly_bind (quiet_onProxy _ _) fun _ => ?_
  exact orderly_bind (quiet_onProxy _ _) fun _ => orderly_sayAll _

theorem orderly_retargeted (package url : String) : (retargeted package url).Orderly := by
  refine orderly_bind (quiet_ofJob _) fun response => ?_
  cases response with
  | some response => exact orderly_sayAll _
  | none => exact orderly_sayAll _

/-- A command whose options are right is orderly. -/
theorem Action.orderly_of_fault {action : Action} (h : action.fault? = none) :
    action.routine.Orderly := by
  cases action with
  | repolist => exact orderly_listed
  | clone url package options => exact orderly_cloned url package options
  | config list package =>
    cases list with
    | true => exact orderly_configured package
    | false => cases h
  | delete package => exact orderly_ofJob_sayAll _ _
  | checkout package branch => exact orderly_switched package branch
  | log package => exact orderly_ofJob_sayAll _ _
  | pull package => exact orderly_ofJob_sayAll _ _
  | commit package transport message description => exact orderly_ofJob_sayAll _ _
  | setCredentials apiUrl token => exact fun _ => trivial
  | setUrl package url => exact orderly_retargeted package url

/-! ## Command lines -/

/-- The connection of a command is set up: the timeout can be read, and the settings lead to
    a session. -/
def SetUp (env : Environment) (c : ConnectionArguments) (session : Session) : Prop :=
  ∃ timeout, Timeout.ofVariable (env.get? Timeout.variableName) = .ok timeout ∧
    (c.settings timeout).connect = .ok session

/-- The course of a command in a session, with what goes over the wire. -/
def Action.Carried (action : Action) (session : Session)
    (wire : List (WireRequest × WireReply)) (calls : List (Except Error Unit))
    (result : Except Failure Unit) (lines : List String) : Prop :=
  ∃ turns last, wire = Turn.allInner turns ∧ Turns Session.serve session turns last ∧
    Course action.routine (turns.map Turn.outer) calls result lines

/-- How the calls of the library end that a command makes in a session, when `wire` is what
    goes over the wire. -/
def Action.Makes (action : Action) (session : Session) (wire : List (WireRequest × WireReply))
    (calls : List (Except Error Unit)) : Prop :=
  ∃ result lines, action.Carried session wire calls result lines

variable {env : Environment} {capable : Bool} {i : Invocation} {c : ConnectionArguments}
  {action : Action} {session : Session} {style : Terminal.Style}
  {wire : List (WireRequest × WireReply)} {outcome : Outcome}
  {calls : List (Except Error Unit)} {result : Except Failure Unit} {lines : List String}

/-- What goes over the wire tells the course of a command. -/
theorem Action.Carried.unique {calls' : List (Except Error Unit)}
    {result' : Except Failure Unit} {lines' : List String}
    (h : action.Carried session wire calls result lines)
    (h' : action.Carried session wire calls' result' lines') :
    calls = calls' ∧ result = result' ∧ lines = lines' := by
  obtain ⟨turns, last, hwire, hturns, hcourse⟩ := h
  obtain ⟨turns', last', hwire', hturns', hcourse'⟩ := h'
  obtain rfl : turns = turns' :=
    hturns.unique (path_run_iff.2 ⟨_, hcourse⟩) hturns' (path_run_iff.2 ⟨_, hcourse'⟩)
      (hwire.symm.trans hwire')
  exact hcourse.unique hcourse'

theorem path_perform_iff : Path (perform style session action) wire outcome ↔
    ∃ calls result lines, action.Carried session wire calls result lines ∧
      outcome = .ofResult style result lines := by
  rw [perform, path_bind_iff]
  constructor
  · rintro ⟨first, ⟨⟨result, lines⟩, last⟩, rest, rfl, hrun, hdone⟩
    obtain ⟨rfl, rfl⟩ := path_done_iff.1 hdone
    obtain ⟨turns, rfl, hturns, hpath⟩ := path_through_iff.1 hrun
    obtain ⟨calls, hcourse⟩ := path_run_iff.1 hpath
    exact ⟨calls, result, lines, ⟨turns, last, List.append_nil _, hturns, hcourse⟩, rfl⟩
  · rintro ⟨calls, result, lines, ⟨turns, last, rfl, hturns, hcourse⟩, rfl⟩
    exact ⟨_, ((result, lines), last), [], (List.append_nil _).symm,
      path_through_iff.2 ⟨turns, rfl, hturns, path_run_iff.2 ⟨calls, hcourse⟩⟩, .done _⟩

/-- A connection is set up in one way. -/
theorem SetUp.unique {session' : Session} (h : SetUp env c session) (h' : SetUp env c session') :
    session = session' := by
  obtain ⟨timeout, htimeout, hsession⟩ := h
  obtain ⟨timeout', htimeout', hsession'⟩ := h'
  cases htimeout.symm.trans htimeout'
  cases hsession.symm.trans hsession'
  rfl

/-- Either the options are right and there is a session, or the command has ended. -/
theorem prepare_cases (env : Environment) (c : ConnectionArguments) (action : Action) :
    (∃ settings session, prepare env c action = .ok (settings, session) ∧
      action.fault? = none ∧ SetUp env c session) ∨
    (∃ ending, prepare env c action = .error ending ∧ ending ≠ .success ∧
      ¬(action.fault? = none ∧ ∃ session, SetUp env c session)) := by
  unfold prepare
  cases hfault : action.fault? with
  | some fault => exact .inr ⟨_, rfl, by simp, by simp⟩
  | none =>
    cases htimeout : Timeout.ofVariable (env.get? Timeout.variableName) with
    | error fault =>
      have hnot : ¬(none = (none : Option Failure) ∧ ∃ session, SetUp env c session) := by
        rintro ⟨-, session, timeout, hok, -⟩
        cases htimeout.symm.trans hok
      dsimp only
      cases Settings.timeoutError? fault with
      | some error => exact .inr ⟨_, rfl, by simp, hnot⟩
      | none => exact .inr ⟨_, rfl, by simp, hnot⟩
    | ok timeout =>
      dsimp only
      cases hsession : (c.settings timeout).connect with
      | ok session => exact .inl ⟨_, session, rfl, rfl, timeout, htimeout, hsession⟩
      | error error =>
        refine .inr ⟨_, rfl, by simp, ?_⟩
        rintro ⟨-, session, timeout', hok, hsession'⟩
        cases htimeout.symm.trans hok
        cases hsession.symm.trans hsession'

theorem status_eq_zero_iff : outcome.status = 0 ↔ outcome.ending = .success := by
  unfold Outcome.status
  cases outcome.ending <;> simp

/-- The outcome of an orderly routine. -/
theorem Action.Carried.ends (h : action.Carried session wire calls result lines)
    (hfault : action.fault? = none) (style : Terminal.Style) :
    ((Outcome.ofResult style result lines).status = 0 ↔ ∀ call ∈ calls, call = .ok ()) ∧
      ((Outcome.ofResult style result lines).status ≠ 0 →
        (Outcome.ofResult style result lines).output = []) := by
  obtain ⟨turns, last, -, -, hcourse⟩ := h
  obtain ⟨hcalls, hlines⟩ := hcourse.of_orderly (orderly_of_fault hfault)
  rw [← hcalls, status_eq_zero_iff]
  cases result with
  | ok a => exact ⟨iff_of_true rfl ⟨a, rfl⟩, fun hstatus => absurd rfl hstatus⟩
  | error failure =>
    refine ⟨iff_of_false (by rintro ⟨⟩) (by rintro ⟨a, ⟨⟩⟩), fun _ => ?_⟩
    exact hlines failure rfl

/-- A command of any kind, in any environment and with any service behind it: a command
    that fails has printed nothing, and it succeeds exactly if its options are right, its
    connection is set up and all calls of the library that it makes succeed.  The command
    for the configuration fails without a connection unless it is to list. -/
theorem all_or_nothing (hcommand : i.command = .service action)
    (h : Path (execute env capable i) wire outcome) :
    (outcome.status ≠ 0 → outcome.output = []) ∧
      (outcome.status = 0 ↔ action.fault? = none ∧ ∃ session, SetUp env i.connection session ∧
        ∃ calls, action.Makes session wire calls ∧ ∀ call ∈ calls, call = .ok ()) ∧
      (∀ session, action.fault? = none → SetUp env i.connection session →
        ∃! calls, action.Makes session wire calls) ∧
      (∀ package, action = .config false package →
        wire = [] ∧ outcome = .failed (.options "sapcli gcts config")) := by
  have hconfig : ∀ package, action = .config false package →
      wire = [] ∧ outcome = .failed (.options "sapcli gcts config") := by
    rintro package rfl
    rw [execute, hcommand] at h
    exact path_done_iff.1 h
  rw [execute, hcommand] at h
  -- with a session, the routine is run and the wire tells its course; else there is no wire
  rcases prepare_cases env i.connection action with
    ⟨settings, session, hprepare, hfault, hsetup⟩ | ⟨ending, hprepare, hending, hnot⟩
  · dsimp only at h
    rw [hprepare] at h
    obtain ⟨calls, result, lines, hcarried, rfl⟩ := path_perform_iff.1 h
    obtain ⟨hstatus, houtput⟩ := hcarried.ends hfault (.ofFlag i.color env capable)
    have hmakes : action.Makes session wire calls := ⟨result, lines, hcarried⟩
    have hunique : ∀ calls', action.Makes session wire calls' → calls' = calls := by
      rintro calls' ⟨result', lines', hcarried'⟩
      exact (hcarried'.unique hcarried).1
    refine ⟨houtput, hstatus.trans ?_, ?_, hconfig⟩
    · constructor
      · intro hcalls
        exact ⟨hfault, session, hsetup, calls, hmakes, hcalls⟩
      · rintro ⟨-, session', hsetup', calls', hmakes', hcalls⟩
        obtain rfl := hsetup'.unique hsetup
        rwa [← hunique calls' hmakes']
    · intro session' _ hsetup'
      obtain rfl := hsetup'.unique hsetup
      exact ⟨calls, hmakes, hunique⟩
  · dsimp only at h
    rw [hprepare] at h
    obtain ⟨rfl, rfl⟩ := path_done_iff.1 h
    refine ⟨fun _ => rfl, ?_, ?_, hconfig⟩
    · rw [status_eq_zero_iff]
      refine iff_of_false hending ?_
      rintro ⟨hfault, session, hsetup, -⟩
      exact hnot ⟨hfault, session, hsetup⟩
    · intro session hfault hsetup
      exact absurd ⟨hfault, session, hsetup⟩ hnot

/-! The service of the following runs answers each message as if it were the switch to
another branch, and refuses everything from one message on. -/

/-- A command line for a switch to another branch. -/
def switchLine : Invocation :=
  ⟨⟨some "localhost", 8000, none, some "DEVELOPER", none, false, true⟩, "never", "warn",
    .service (.checkout "demo" "dev")⟩

/-- The answer to a message when the first `limit` messages are answered, by the number of
    messages before it. -/
def refusesFrom (limit count : Nat) (_ : WireRequest) : WireReply × Nat :=
  let answer : Json := .object [("result", .object [("branch", .string "main"),
    ("fromCommit", .string "c1"), ("toCommit", .string "c2")])]
  (.ok (if count < limit then ⟨200, [], some (Text.utf8 answer.chars)⟩ else ⟨500, [], some []⟩),
    count + 1)

/-- The command line carried out with such a service. -/
def switchRun (limit : Nat) : Transcript WireRequest WireReply Outcome :=
  ((execute (Dictionary.ofList []) false switchLine).play (refusesFrom limit) 0).1

theorem all_or_nothing_switch :
    (switchRun 2).result.status = 0 ∧
      (switchRun 2).result.output =
        ["The repository \"demo\" has been set to the branch \"dev\"", "(main:c1) -> (dev:c2)"] ∧
      (switchRun 1).result.status = 1 ∧ (switchRun 1).asked.length = 2 ∧
      (switchRun 1).result.output = [] := by
  have hpath : Path (execute (Dictionary.ofList []) false switchLine) (switchRun 1).asked
      (switchRun 1).result := by
    rw [switchRun]
    exact path_play (refusesFrom 1) (execute (Dictionary.ofList []) false switchLine) 0
  have hstatus : (switchRun 1).result.status = 1 := by decide +kernel
  refine ⟨by decide +kernel, by decide +kernel, hstatus, by decide +kernel, ?_⟩
  exact (all_or_nothing rfl hpath).1 (by rw [hstatus]; decide)

end GitTransport.CommandLine
