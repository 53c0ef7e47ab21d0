/-
The list of repositories, from one reply to the lines of the command.

  The command asks for the list and reads the cells of each repository from its proxy.  The
  proxies know their records, so this reading is no asking (`yields_listRow`): the routine
  goes on with the cells as if they had been there (`Routine.Yields`).  So one request is
  sent, and the reply tells all lines (`path_listed_iff`).
-/

import GitTransport.Proofs.CommandLine.Output
import GitTransport.Proofs.Http.Handshake
import GitTransport.Proofs.Terminal.Table
import GitTransport.Proofs.Workflow.Listing

namespace GitTransport

open Exchange

/-! ## Reading what is known -/

namespace Attribute

/-- An attribute of a known record is there at once. -/
theorem runOn_read (a : Attribute) {proxy : Proxy} {record : Fields Json}
    (h : proxy.snapshot = some record) :
    a.read.runOn proxy = .done (.ok (a.valueIn record), proxy) := by
  have hloaded : Proxy.loaded.runOn proxy = .done (.ok record, proxy) := by
    obtain ⟨name, classifier, snapshot, config⟩ := proxy
    obtain rfl : snapshot = some record := h
    rfl
  rw [read_eq_map, map_eq_pure_bind, ProxyJob.runOn_bind, hloaded]
  rfl

end Attribute

namespace CommandLine

namespace Routine

variable {α β : Type}

theorem bind_done (x : Routine α) : (x >>= .done) = x := by
  induction x with
  | done a => rfl
  | say line next ih => exact congrArg (Routine.say line) ih
  | call job next ih => exact congrArg (Routine.call job) (funext ih)
  | refuse failure => rfl

theorem bind_assoc {γ : Type} (x : Routine α) (f : α → Routine β) (g : β → Routine γ) :
    (x >>= f >>= g) = (x >>= fun a => f a >>= g) := by
  induction x with
  | done a => rfl
  | say line next ih => exact congrArg (Routine.say line) ih
  | call job next ih => exact congrArg (Routine.call job) (funext ih)
  | refuse failure => rfl

instance : LawfulMonad Routine :=
  LawfulMonad.mk' Routine bind_done (fun _ _ => rfl) bind_assoc

/-- The routine comes to a result without asking and without printing: a run goes on behind
    it as if the result had been there. -/
structure Yields (x : Routine α) (a : α) : Prop where
  run_bind : ∀ {β : Type} (f : α → Routine β), (x >>= f).run = (f a).run

theorem yields_pure (a : α) : Yields (pure a) a := ⟨fun _ => rfl⟩

theorem Yields.bind {x : Routine α} {a : α} {f : α → Routine β} {b : β} (hx : Yields x a)
    (hf : Yields (f a) b) : Yields (x >>= f) b := by
  constructor
  intro γ g
  rw [bind_assoc, hx.run_bind, hf.run_bind]

/-- One by one, in the order of the items. -/
theorem yields_mapM {f : α → Routine β} {g : α → β} {items : List α}
    (h : ∀ item ∈ items, Yields (f item) (g item)) : Yields (items.mapM f) (items.map g) := by
  induction items with
  | nil => exact yields_pure []
  | cons item items ih =>
    obtain ⟨hitem, hitems⟩ := List.forall_mem_cons.1 h
    rw [List.mapM_cons]
    exact hitem.bind ((ih hitems).bind (yields_pure _))

/-- A job on a proxy that asks for nothing yields its result and the proxy. -/
theorem yields_onProxy {proxy after : Proxy} {job : ProxyJob α} {a : α}
    (h : job.runOn proxy = .done (.ok a, after)) : Yields (onProxy proxy job) (a, after) := by
  constructor
  intro β f
  rw [onProxy, h]
  show Routine.run (.call (ExceptT.mk (.done (.ok (a, after)))) f) = _
  rw [Routine.run]
  rfl

end Routine

open Routine Workflow

/-! ## The rows -/

/-- The cells of a repository: its name, and the texts in its record. -/
def cellsOf (proxy : Proxy) : List String :=
  proxy.name :: [Attribute.branch, .head, .status, .vsid, .url].map fun a =>
    (proxy.snapshot.bind a.valueIn).getD ""

theorem yields_listRow {proxy : Proxy} {record : Fields Json} (h : proxy.snapshot = some record) :
    Yields (listRow proxy) (cellsOf proxy) := by
  have hcells : cellsOf proxy = proxy.name ::
      [Attribute.branch, .head, .status, .vsid, .url].map fun a => (a.valueIn record).getD "" := by
    rw [cellsOf, h]
    rfl
  rw [hcells]
  refine (yields_onProxy (Attribute.branch.runOn_read h)).bind ?_
  refine (yields_onProxy (Attribute.head.runOn_read h)).bind ?_
  refine (yields_onProxy (Attribute.status.runOn_read h)).bind ?_
  refine (yields_onProxy (Attribute.vsid.runOn_read h)).bind ?_
  refine (yields_onProxy (Attribute.url.runOn_read h)).bind ?_
  exact yields_pure _

/-- The lines for some rows. -/
def linesFor (rows : List (List String)) : List String :=
  ((Terminal.Table.ofRows listHeaders rows).lines " | ").map Text.trimEnd

section

variable {asked : List (Request × Reply)} {result : Except Failure Unit} {lines : List String}
  {proxies : List Proxy}

/-- The rows of known records are there at once. -/
theorem yields_rows (h : ∀ proxy ∈ proxies, ∃ record, proxy.snapshot = some record) :
    Yields (proxies.mapM listRow) (proxies.map cellsOf) := by
  apply yields_mapM
  intro proxy hmem
  obtain ⟨record, hrecord⟩ := h proxy hmem
  exact yields_listRow hrecord

/-- The command sends one request, and prints the lines for all repositories or nothing. -/
theorem path_listed_iff :
    Path listed.run asked (result, lines) ↔ ∃ reply, asked = [(listRequest, reply)] ∧
      ((∃ proxies, listAnswer reply = .ok proxies ∧ result = .ok () ∧
          lines = linesFor (proxies.map cellsOf)) ∨
        ∃ error, listAnswer reply = .error error ∧ result = .error (.operation error) ∧
          lines = []) := by
  -- behind an answered request only the printing is left
  have hprint {reply : Reply} {proxies : List Proxy} (h : listAnswer reply = .ok proxies) :
      (proxies.mapM listRow >>= fun rows => sayAll (linesFor rows)).run =
        (sayAll (linesFor (proxies.map cellsOf))).run :=
    (yields_rows fun proxy hmem => exists_record_of_listAnswer h hmem).run_bind _
  have hcall : listed = .call listAll fun proxies =>
      proxies.mapM listRow >>= fun rows => sayAll (linesFor rows) := rfl
  rw [hcall, Routine.run, path_bind_iff]
  constructor
  · rintro ⟨first, outcome, rest, rfl, hlist, hrest⟩
    obtain ⟨reply, rfl, rfl⟩ := path_listAll_iff.1 hlist
    cases hanswer : listAnswer reply with
    | ok proxies =>
      rw [hanswer] at hrest
      dsimp only at hrest
      rw [hprint hanswer] at hrest
      obtain ⟨rfl, rfl, rfl⟩ := path_sayAll_iff.1 hrest
      exact ⟨reply, rfl, .inl ⟨proxies, hanswer, rfl, rfl⟩⟩
    | error error =>
      rw [hanswer] at hrest
      obtain ⟨rfl, heq⟩ := path_done_iff.1 hrest
      obtain ⟨rfl, rfl⟩ := Prod.mk.inj heq
      exact ⟨reply, rfl, .inr ⟨error, hanswer, rfl, rfl⟩⟩
  · rintro ⟨reply, rfl, hanswer⟩
    refine ⟨[(listRequest, reply)], listAnswer reply, [], rfl,
      path_listAll_iff.2 ⟨reply, rfl, rfl⟩, ?_⟩
    rcases hanswer with ⟨proxies, hanswer, rfl, rfl⟩ | ⟨error, hanswer, rfl, rfl⟩
    · rw [hanswer]
      dsimp only
      rw [hprint hanswer]
      exact path_sayAll_iff.2 ⟨rfl, rfl, rfl⟩
    · rw [hanswer]
      exact .done _

end

/-! ## On the wire -/

section

variable {s t : Session} {request : Request} {inner wire : List (WireRequest × WireReply)}
  {reply : Reply}

/-- A request that only reads is one message, or none when it cannot be sent. -/
theorem eq_of_serve_get (hget : request.method = .get)
    (h : Path (s.serve request) inner (reply, t)) :
    (∃ exchange, inner = [exchange]) ∨ inner = [] ∧ ∃ reason, reply = .error reason := by
  obtain ⟨fault, rfl, rfl⟩ | ⟨url, -, hcarries⟩ := (Session.carries_of_serve_get hget h).1
  · exact .inr ⟨rfl, _, rfl⟩
  · cases hcarries with
    | unsendable hplace => exact .inr ⟨rfl, _, rfl⟩
    | sent answer hplace hmethod hurl htokens hbody => exact .inl ⟨_, rfl⟩

/-- The command line for the list sends at most one message.  It succeeds only if the message
    is answered with a list, and then has printed the lines for it. -/
theorem execute_repolist {env : Environment} {capable : Bool} {i : Invocation} {outcome : Outcome}
    (hcommand : i.command = .service .repolist) (h : Path (execute env capable i) wire outcome) :
    wire.length ≤ 1 ∧ (outcome.status = 0 → wire.length = 1 ∧ ∃ reply proxies,
      listAnswer reply = .ok proxies ∧ outcome = .printed (linesFor (proxies.map cellsOf))) := by
  rw [execute, hcommand] at h
  dsimp only at h
  rcases prepare_cases env i.connection .repolist with
    ⟨settings, session, hprepare, -, -⟩ | ⟨ending, hprepare, hending, -⟩
  · rw [hprepare] at h
    obtain ⟨calls, result, lines, ⟨turns, last, rfl, hturns, hcourse⟩, rfl⟩ :=
      path_perform_iff.1 h
    obtain ⟨reply, hasked, hresult⟩ := path_listed_iff.1 (path_run_iff.2 ⟨calls, hcourse⟩)
    -- the request is served in one turn
    obtain ⟨turn, rfl, hturn⟩ : ∃ turn, turns = [turn] ∧ turn.outer = (listRequest, reply) := by
      obtain ⟨turn, rest, rfl, hturn, hrest⟩ := List.map_eq_cons_iff.1 hasked
      rw [List.map_eq_nil_iff.1 hrest]
      exact ⟨turn, rfl, hturn⟩
    obtain ⟨question, answer, inner⟩ := turn
    cases hturn
    obtain ⟨u, hserve, -⟩ := turns_cons_iff.1 hturns
    have hget : listRequest.method = .get := rfl
    rw [Turn.allInner_cons, Turn.allInner_nil, List.append_nil]
    have hmessages := eq_of_serve_get hget hserve
    constructor
    · rcases hmessages with ⟨exchange, rfl⟩ | ⟨rfl, -⟩
      · exact Nat.le_refl 1
      · exact Nat.zero_le 1
    · intro hstatus
      rcases hresult with ⟨proxies, hanswer, rfl, rfl⟩ | ⟨error, -, rfl, rfl⟩
      · refine ⟨?_, answer, proxies, hanswer, rfl⟩
        rcases hmessages with ⟨exchange, rfl⟩ | ⟨-, reason, rfl⟩
        · rfl
        · obtain ⟨body, hbody, -⟩ := listAnswer_eq_ok_iff.1 hanswer
          cases hbody
      · cases status_eq_zero_iff.1 hstatus
  · rw [hprepare] at h
    obtain ⟨rfl, rfl⟩ := path_done_iff.1 h
    refine ⟨Nat.zero_le 1, fun hstatus => ?_⟩
    exact absurd (status_eq_zero_iff.1 hstatus) hending

end

/-! ## The whole way -/

/-- The list of repositories is told by one reply, all of it or nothing.  An accepted list has
    a proxy for each item, in order, with the name in the item and the item as its record.
    These proxies know all that they are asked for, so the command for the list sends one
    request, and prints its headers, a rule and a row for each item, whatever is in the items. -/
theorem list_from_one_reply :
    (∀ asked outcome, Path listAll.run asked outcome ↔
      ∃ reply, asked = [(listRequest, reply)] ∧ outcome = listAnswer reply) ∧
    (∀ reply, (∃ proxies, listAnswer reply = .ok proxies) ↔
      ∃ body, Job.bodyOf? reply = some body ∧ Json.IsListOf IsItem (body.member? "result")) ∧
    (∀ reply proxies, listAnswer reply = .ok proxies →
      (∃ body, Job.bodyOf? reply = some body ∧
        Json.Lists Stands (body.member? "result") proxies) ∧
      Proxy.SelfSufficient proxies) ∧
    (∀ asked result lines, Path listed.run asked (result, lines) ↔
      ∃ reply, asked = [(listRequest, reply)] ∧
        ((∃ proxies, listAnswer reply = .ok proxies ∧ result = .ok () ∧
            lines = linesFor (proxies.map cellsOf)) ∨
          ∃ error, listAnswer reply = .error error ∧ result = .error (.operation error) ∧
            lines = [])) ∧
    (∀ rows, ∃ header k body,
      linesFor rows = (header :: String.ofList (List.replicate k '-') :: body).map Text.trimEnd ∧
        Terminal.Table.InColumns listHeaders.length
          (Terminal.Table.columnWidth listHeaders rows) " | " listHeaders header ∧
        List.Forall₂ (Terminal.Table.InColumns listHeaders.length
          (Terminal.Table.columnWidth listHeaders rows) " | ") rows body) ∧
    ∀ env capable i wire outcome, i.command = .service .repolist →
      Path (execute env capable i) wire outcome →
      wire.length ≤ 1 ∧ (outcome.status = 0 → wire.length = 1 ∧ ∃ reply proxies,
        listAnswer reply = .ok proxies ∧
          outcome = .printed (linesFor (proxies.map cellsOf))) := by
  refine ⟨fun asked outcome => path_listAll_iff, fun reply => exists_listAnswer_iff,
    fun reply proxies hanswer => ?_, fun asked result lines => path_listed_iff, fun rows => ?_,
    fun env capable i wire outcome hcommand h => execute_repolist hcommand h⟩
  · obtain ⟨body, hbody, hlists⟩ := listAnswer_eq_ok_iff.1 hanswer
    exact ⟨⟨body, hbody, hlists⟩, selfSufficient_of_lists hlists⟩
  · obtain ⟨header, k, body, hlines, hheader, hrows⟩ :=
      Terminal.Table.exists_lines_eq listHeaders rows " | "
    exact ⟨header, k, body, by rw [linesFor, hlines], hheader, hrows⟩

/-! The list of the following run has two items: the configuration of the first one is none,
and its branch is a number; the second one has a key. -/

namespace TwoItems

/-- The first item. -/
def one : Fields Json :=
  [("branch", .number (.integer 7)), ("config", .bool true), ("name", .string "one")]

/-- The second item. -/
def two : Fields Json :=
  [("config", .array [.object [("key", .string "A"), ("value", .string "1")]]),
    ("name", .string "two"), ("status", .null), ("url", .string "https://host/two.git")]

/-- A body that lists some items. -/
def told (items : List Json) : Json := .object [("result", .array items)]

/-- A reply that lists some items. -/
def reply (items : List Json) : Reply := .ok (Response.ofJson 200 (told items))

/-- The proxies for the two items. -/
def proxies : List Proxy := [.withRecord "one" one, .withRecord "two" two]

/-- A command line for the list. -/
def commandLine : Invocation :=
  ⟨⟨some "localhost", 8000, none, some "DEVELOPER", none, false, true⟩, "never", "warn",
    .service .repolist⟩

/-- The command line carried out with a service that answers each message with the list. -/
def run : Transcript WireRequest WireReply Outcome :=
  ((execute (Dictionary.ofList []) false commandLine).play
    (fun (_ : Unit) _ =>
      (.ok ⟨200, [], some (Text.utf8 (told [.object one, .object two]).chars)⟩, ())) ()).1

/-- What is printed. -/
def printed : List String :=
  ["Name | Branch | Commit | Status | vSID | URL",
    "-------------------------------------------------------------",
    "one  | 7      |        |        |      |",
    "two  |        |        |        |      | https://host/two.git"]

end TwoItems

theorem list_from_one_reply_twoItems :
    listAnswer (TwoItems.reply [.object TwoItems.one, .object TwoItems.two]) =
        .ok TwoItems.proxies ∧
      Proxy.SelfSufficient TwoItems.proxies ∧
      Path listed.run
        [(listRequest, TwoItems.reply [.object TwoItems.one, .object TwoItems.two])]
        (.ok (), TwoItems.printed) ∧
      TwoItems.run.asked.length = 1 ∧ TwoItems.run.result = .printed TwoItems.printed ∧
      ¬ ∃ proxies, listAnswer (TwoItems.reply [.object TwoItems.one, .object []]) =
        .ok proxies := by
  obtain ⟨-, hlists, hproxies, hlisted, -, hexecute⟩ := list_from_one_reply
  have hanswer : listAnswer (TwoItems.reply [.object TwoItems.one, .object TwoItems.two]) =
      .ok TwoItems.proxies := by decide +kernel
  have hprinted : TwoItems.printed = linesFor (TwoItems.proxies.map cellsOf) := by decide +kernel
  have hpath : Path (execute (Dictionary.ofList []) false TwoItems.commandLine)
      TwoItems.run.asked TwoItems.run.result := by
    rw [TwoItems.run]
    exact path_play _ (execute (Dictionary.ofList []) false TwoItems.commandLine) ()
  have hresult : TwoItems.run.result = .printed TwoItems.printed := by decide +kernel
  have hstatus : TwoItems.run.result.status = 0 := by rw [hresult]; rfl
  have hbroken : listAnswer (TwoItems.reply [.object TwoItems.one, .object []]) =
      .error (.invalidResponse .listedName) := by decide +kernel
  refine ⟨hanswer, (hproxies _ _ hanswer).2, ?_, ?_, hresult, ?_⟩
  · exact (hlisted _ _ _).2 ⟨_, rfl, .inl ⟨_, hanswer, rfl, hprinted⟩⟩
  · exact ((hexecute _ _ _ _ _ rfl hpath).2 hstatus).1
  · rintro ⟨proxies, h⟩
    rw [hbroken] at h
    cases h

end CommandLine

end GitTransport
