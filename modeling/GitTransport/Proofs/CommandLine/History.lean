/-
The history, from a reply to the lines of the command.

  A reply tells the whole history or none: all commits are read, in the order in which they
  are told, or the reading fails.  The command prints the commits in this order, each on five
  lines, with one empty line from one to the next (`blocks_historyLines`), and prints nothing
  if the reading fails (`path_logged_iff_of_body`).
-/

import GitTransport.Proofs.CommandLine.Output
import GitTransport.Proofs.Repository.Commits
import GitTransport.Proofs.Workflow.Run

namespace GitTransport

open Exchange

/-! ## Reading -/

namespace Proxy

open ProxyJob

variable {proxy after : Proxy} {reply : Reply} {body : Json}

/-- The history is what the reply has under `commits`. -/
theorem runs_log_iff_of_body {outcome : Except Error (List Commit)}
    (hbody : Job.bodyOf? reply = some body) :
    Runs log proxy [(logRequest proxy.name, reply)] outcome after ↔
      outcome = (Commit.listOfJson (body.member? "commits")).mapError .json ∧ after = proxy := by
  have hanswer : proxy.logAnswer reply =
      (Commit.listOfJson (body.member? "commits")).mapError .json := by
    rw [logAnswer, jsonAnswer_eq_ok_iff.2 hbody]
    rfl
  rw [runs_log_iff, exists_reply_iff, hanswer]

end Proxy

namespace CommandLine

open Routine

variable {α : Type} {asked : List (Request × Reply)} {reply : Reply} {body : Json}
  {result : Except Failure Unit} {lines : List String}

/-! ## Printing the result of a call -/

/-- The lines are those for the result of the call, or there are none. -/
theorem path_ofJob_sayAll_iff {job : Job α} {linesOf : α → List String} :
    Path (ofJob job >>= fun a => sayAll (linesOf a)).run asked (result, lines) ↔
      (∃ a, Path job.run asked (.ok a) ∧ result = .ok () ∧ lines = linesOf a) ∨
        ∃ error, Path job.run asked (.error error) ∧ result = .error (.operation error) ∧
          lines = [] := by
  have hcall : (ofJob job >>= fun a => sayAll (linesOf a)) =
      .call job fun a => sayAll (linesOf a) := rfl
  rw [hcall, path_run_iff]
  constructor
  · rintro ⟨calls, h⟩
    cases h with
    | answered hjob hrest =>
      obtain ⟨rfl, -, rfl, rfl⟩ := course_sayAll_iff.1 hrest
      exact .inl ⟨_, by rwa [List.append_nil], rfl, rfl⟩
    | broken hjob => exact .inr ⟨_, hjob, rfl, rfl⟩
  · rintro (⟨a, hjob, rfl, rfl⟩ | ⟨error, hjob, rfl, rfl⟩)
    · have hrest : Course (sayAll (linesOf a)) [] [] (.ok ()) (linesOf a) :=
        course_sayAll_iff.2 ⟨rfl, rfl, rfl, rfl⟩
      refine ⟨[.ok ()], ?_⟩
      rw [← List.append_nil asked]
      exact .answered hjob hrest
    · exact ⟨_, .broken hjob⟩

/-- The command prints the history that the reply tells, and nothing if it tells none. -/
theorem path_logged_iff_of_body {package : String} (hbody : Job.bodyOf? reply = some body) :
    Path (logged package).run [(Proxy.logRequest package, reply)] (result, lines) ↔
      (∃ commits, Commit.listOfJson (body.member? "commits") = .ok commits ∧ result = .ok () ∧
        lines = historyLines commits) ∨
      ∃ fault, Commit.listOfJson (body.member? "commits") = .error fault ∧
        result = .error (.operation (.json fault)) ∧ lines = [] := by
  have hread : ∀ outcome, Path (ProxyJob.onName package Proxy.log).run
      [(Proxy.logRequest package, reply)] outcome ↔
        outcome = (Commit.listOfJson (body.member? "commits")).mapError .json := by
    intro outcome
    have hruns (after : Proxy) : ProxyJob.Runs Proxy.log (.new package)
        [(Proxy.logRequest package, reply)] outcome after ↔
          outcome = (Commit.listOfJson (body.member? "commits")).mapError .json ∧
            after = .new package := Proxy.runs_log_iff_of_body hbody
    rw [ProxyJob.onName, ProxyJob.path_startingFrom_iff]
    constructor
    · rintro ⟨after, h⟩
      exact ((hruns after).1 h).1
    · intro h
      exact ⟨_, (hruns _).2 ⟨h, rfl⟩⟩
  rw [logged, path_ofJob_sayAll_iff]
  simp only [hread]
  cases Commit.listOfJson (body.member? "commits") with
  | ok commits => simp [Except.mapError]
  | error fault => simp [Except.mapError]

/-! ## The layout of the lines -/

/-- The lines are one block of five for each commit, in the order of the commits, and one empty
    line stands between a block and the next. -/
structure Blocks (commits : List Commit) (lines : List String) : Prop where
  length : lines.length = 6 * commits.length - 1
  block : ∀ i c, commits[i]? = some c → (commitLines c).length = 5 ∧
    ∀ j, j < 5 → lines[6 * i + j]? = (commitLines c)[j]?
  gap : ∀ i, i + 1 < commits.length → lines[6 * i + 5]? = some ""

theorem historyLines_cons_cons (c d : Commit) (rest : List Commit) :
    historyLines (c :: d :: rest) = commitLines c ++ "" :: historyLines (d :: rest) := by
  rw [historyLines, List.map_cons, List.map_cons, List.intercalate_cons_cons]
  rfl

theorem length_commitLines (c : Commit) : (commitLines c).length = 5 := rfl

/-- Behind a block and the empty line the other lines follow. -/
theorem getElem?_behind (c : Commit) (lines : List String) (i j : Nat) :
    (commitLines c ++ "" :: lines)[6 * (i + 1) + j]? = lines[6 * i + j]? := by
  have hindex : 6 * (i + 1) + j = 6 * i + j + 6 := by omega
  rw [hindex]
  rfl

theorem blocks_singleton (c : Commit) : Blocks [c] (commitLines c) := by
  refine ⟨rfl, fun i d hd => ?_, fun i hi => ?_⟩
  · cases i with
    | zero =>
      cases hd
      refine ⟨length_commitLines c, fun j _ => ?_⟩
      rw [Nat.mul_zero, Nat.zero_add]
    | succ i => cases hd
  · rw [List.length_singleton] at hi
    omega

/-- A block in front of the blocks of some commits. -/
theorem Blocks.cons {c : Commit} {commits : List Commit} (h : Blocks commits lines)
    (hne : commits ≠ []) : Blocks (c :: commits) (commitLines c ++ "" :: lines) := by
  refine ⟨?_, fun i d hd => ?_, fun i hi => ?_⟩
  · -- there are other blocks, so the empty line in front of them is one of the lines between
    have hpos := List.length_pos_of_ne_nil hne
    have hlength := h.length
    rw [List.length_append, List.length_cons, List.length_cons, length_commitLines]
    omega
  · cases i with
    | zero =>
      cases hd
      refine ⟨length_commitLines c, fun j hj => ?_⟩
      rw [Nat.mul_zero, Nat.zero_add]
      exact List.getElem?_append_left hj
    | succ i =>
      obtain ⟨hfive, hblock⟩ := h.block i d hd
      exact ⟨hfive, fun j hj => (getElem?_behind c lines i j).trans (hblock j hj)⟩
  · cases i with
    | zero => rfl
    | succ i => exact (getElem?_behind c lines i 5).trans (h.gap i (Nat.lt_of_succ_lt_succ hi))

/-- The command prints a history in blocks. -/
theorem blocks_historyLines (commits : List Commit) : Blocks commits (historyLines commits) := by
  -- a commit in front adds its block and an empty line, unless there is none behind it
  induction commits with
  | nil => exact ⟨rfl, nofun, nofun⟩
  | cons c rest ih =>
    cases rest with
    | nil => exact blocks_singleton c
    | cons d rest =>
      rw [historyLines_cons_cons]
      exact ih.cons (List.cons_ne_nil d rest)

/-! ## The whole way -/

/-- A history is read in full, in the order in which it is told, or not at all, and the command
    prints all of it or nothing. -/
theorem history_in_full (value : Option Json) (commits : List Commit) :
    (Commit.listOfJson value = .ok commits ↔ Json.Lists Commit.Denotes value commits) ∧
      ((∃ commits, Commit.listOfJson value = .ok commits) ↔
        Json.IsListOf Commit.IsCommit value) ∧
      (¬ Json.IsListOf Commit.IsCommit value → Commit.listOfJson value = .error .unexpected) ∧
      Commit.listOfJson (some (.array (commits.map Commit.toJson))) = .ok commits ∧
      Blocks commits (historyLines commits) ∧
      ∀ reply body, Job.bodyOf? reply = some body →
        (∀ proxy outcome after,
          ProxyJob.Runs Proxy.log proxy [(Proxy.logRequest proxy.name, reply)] outcome after ↔
            outcome = (Commit.listOfJson (body.member? "commits")).mapError .json ∧
              after = proxy) ∧
        ∀ package result lines,
          Path (logged package).run [(Proxy.logRequest package, reply)] (result, lines) ↔
            (∃ commits, Commit.listOfJson (body.member? "commits") = .ok commits ∧
              result = .ok () ∧ lines = historyLines commits) ∨
            ∃ fault, Commit.listOfJson (body.member? "commits") = .error fault ∧
              result = .error (.operation (.json fault)) ∧ lines = [] := by
  refine ⟨Commit.listOfJson_eq_ok_iff, Commit.exists_listOfJson_iff, fun hbad => ?_,
    Commit.listOfJson_map_toJson commits, blocks_historyLines commits, fun reply body hbody => ?_⟩
  · exact Commit.listOfJson_refused_iff.2 ⟨rfl, hbad⟩
  · exact ⟨fun _ _ _ => Proxy.runs_log_iff_of_body hbody,
      fun _ _ _ => path_logged_iff_of_body hbody⟩

/-- A commit of each form, both with less than there can be. -/
theorem history_in_full_shortForms :
    let told : Json := .array [.object [("date", .string "2024-01-02"), ("id", .string "b2"),
      ("rank", .null)], .array [.string "a1", .string "Jane"]]
    let reply : Reply := .ok (Response.ofJson 200 (.object [("commits", told)]))
    Job.bodyOf? reply = some (.object [("commits", told)]) ∧
      Json.IsListOf Commit.IsCommit (some told) ∧
      ¬ Json.IsListOf Commit.IsCommit (some (.array [.object [("id", .null)]])) ∧
      Commit.listOfJson (some (.array [.object [("id", .null)]])) = .error .unexpected ∧
      Path (logged "demo").run [(Proxy.logRequest "demo", reply)]
        (.ok (), ["commit b2", "Author:  <>", "Date:   2024-01-02", "", "    ", "",
          "commit a1", "Author: Jane <>", "Date:   ", "", "    "]) := by
  intro told reply
  have hbody : Job.bodyOf? reply = some (.object [("commits", told)]) := by decide +kernel
  have hbad : ¬ Json.IsListOf Commit.IsCommit (some (.array [.object [("id", .null)]])) :=
    (Commit.listOfJson_refused_iff.1 rfl).2
  obtain ⟨-, hshape, -, -, -, hruns⟩ := history_in_full (some told) []
  obtain ⟨-, -, hrefused, -⟩ :=
    history_in_full (some (.array [.object [("id", .null)]])) []
  obtain ⟨-, hprinted⟩ := hruns reply _ hbody
  refine ⟨hbody, hshape.1 ⟨_, rfl⟩, hbad, hrefused hbad, ?_⟩
  refine (hprinted "demo" (.ok ()) _).2 (.inl ⟨_, rfl, rfl, ?_⟩)
  decide

end CommandLine

end GitTransport
