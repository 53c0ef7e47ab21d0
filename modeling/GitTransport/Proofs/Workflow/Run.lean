/-
Runs of work in several steps.

  An error that is caught hands the proxy, as it is then, to the handler
  (`runs_tryCatch_iff`); a remark for the log changes nothing (`runs_note_iff`).  A job
  that is given a name runs like its operation on a proxy of that name, and gives the
  proxy up or returns it (`path_startingFrom_iff`, `path_cloneNew_iff`).
-/

import GitTransport.Workflow
import GitTransport.Proofs.Proxy.Operation

namespace GitTransport

namespace ProxyJob

variable {α : Type} {proxy after : Proxy} {asked : List (Request × Reply)}

theorem runs_note_iff {text : String} {outcome : Except Error Unit} :
    Runs (note text) proxy asked outcome after ↔
      asked = [] ∧ outcome = .ok () ∧ after = proxy := by
  show Exchange.Path (.note text (.done (Except.ok (), proxy))) _ _ ↔ _
  rw [Exchange.path_note_iff, Exchange.path_done_iff, Prod.mk.injEq]

/-- What a job does whose errors are handled. -/
def handled (handler : Error → ProxyJob α) :
    Except Error α × Proxy → Client (Except Error α × Proxy)
  | (.ok a, proxy) => .done (.ok a, proxy)
  | (.error error, proxy) => (handler error).runOn proxy

theorem runOn_tryCatch (job : ProxyJob α) (handler : Error → ProxyJob α) (proxy : Proxy) :
    (tryCatch job handler).runOn proxy = (job.runOn proxy >>= handled handler) := by
  show (job.run proxy >>= _) = _
  congr 1
  funext ⟨outcome, after⟩
  cases outcome <;> rfl

/-- A job whose errors are caught runs like the job, and like the handler behind an
    error. -/
theorem runs_tryCatch_iff {job : ProxyJob α} {handler : Error → ProxyJob α}
    {outcome : Except Error α} :
    Runs (tryCatch job handler) proxy asked outcome after ↔
      (∃ a, outcome = .ok a ∧ Runs job proxy asked (.ok a) after) ∨
      (∃ first error between rest, asked = first ++ rest ∧
        Runs job proxy first (.error error) between ∧
        Runs (handler error) between rest outcome after) := by
  unfold Runs
  rw [runOn_tryCatch, Exchange.path_bind_iff]
  constructor
  · rintro ⟨first, ⟨x, between⟩, rest, rfl, hjob, hrest⟩
    cases x with
    | ok a =>
      obtain ⟨rfl, heq⟩ := Exchange.path_done_iff.1 hrest
      obtain ⟨rfl, rfl⟩ := Prod.mk.inj heq
      exact .inl ⟨a, rfl, by rwa [List.append_nil]⟩
    | error error => exact .inr ⟨first, error, between, rest, rfl, hjob, hrest⟩
  · rintro (⟨a, rfl, hjob⟩ | ⟨first, error, between, rest, rfl, hjob, hrest⟩)
    · exact ⟨asked, (.ok a, after), [], (List.append_nil asked).symm, hjob, .done _⟩
    · exact ⟨first, (.error error, between), rest, rfl, hjob, hrest⟩

/-- The proxy is given up at the end. -/
theorem path_startingFrom_iff {job : ProxyJob α} {outcome : Except Error α} :
    Exchange.Path (job.startingFrom proxy).run asked outcome ↔
      ∃ after, Runs job proxy asked outcome after := by
  show Exchange.Path (job.runOn proxy >>= fun x => .done x.1) _ _ ↔ _
  rw [Exchange.path_bind_iff]
  constructor
  · rintro ⟨first, ⟨x, after⟩, rest, rfl, hjob, hdone⟩
    obtain ⟨rfl, rfl⟩ := Exchange.path_done_iff.1 hdone
    exact ⟨after, by rwa [List.append_nil]⟩
  · rintro ⟨after, hjob⟩
    exact ⟨asked, (outcome, after), [], (List.append_nil asked).symm, hjob, .done _⟩

end ProxyJob

namespace Workflow

open ProxyJob

/-- The proxy of a clone is returned. -/
theorem path_cloneNew_iff {url name : String} {options : CloneOptions}
    {asked : List (Request × Reply)} {outcome : Except Error Proxy} :
    Exchange.Path (cloneNew url name options).run asked outcome ↔
      ∃ x after, outcome = x.map (fun _ => after) ∧
        Runs (registerAndClone url options) (.new name) asked x after := by
  show Exchange.Path ((registerAndClone url options).runOn (.new name) >>= fun x =>
    .done (x.1.map fun _ => x.2)) _ _ ↔ _
  rw [Exchange.path_bind_iff]
  constructor
  · rintro ⟨first, ⟨x, after⟩, rest, rfl, hjob, hdone⟩
    obtain ⟨rfl, rfl⟩ := Exchange.path_done_iff.1 hdone
    exact ⟨x, after, rfl, by rwa [List.append_nil]⟩
  · rintro ⟨x, after, rfl, hjob⟩
    exact ⟨asked, (x, after), [], (List.append_nil asked).symm, hjob, .done _⟩

/-- A job goes on with its result, and stops with its error. -/
theorem path_jobBind_iff {α β : Type} {job : Job α} {next : α → Job β}
    {asked : List (Request × Reply)} {outcome : Except Error β} :
    Exchange.Path (job >>= next).run asked outcome ↔
      (∃ first a rest, asked = first ++ rest ∧ Exchange.Path job.run first (.ok a) ∧
        Exchange.Path (next a).run rest outcome) ∨
      (∃ error, outcome = .error error ∧ Exchange.Path job.run asked (.error error)) := by
  show Exchange.Path (job.run >>= ExceptT.bindCont next) _ _ ↔ _
  rw [Exchange.path_bind_iff]
  constructor
  · rintro ⟨first, x, rest, rfl, hjob, hrest⟩
    cases x with
    | ok a => exact .inl ⟨first, a, rest, rfl, hjob, hrest⟩
    | error error =>
      obtain ⟨rfl, rfl⟩ := Exchange.path_done_iff.1 hrest
      exact .inr ⟨error, rfl, by rwa [List.append_nil]⟩
  · rintro (⟨first, a, rest, rfl, hjob, hrest⟩ | ⟨error, rfl, hjob⟩)
    · exact ⟨first, .ok a, rest, rfl, hjob, hrest⟩
    · exact ⟨asked, .error error, [], (List.append_nil asked).symm, hjob, .done _⟩

end Workflow

end GitTransport
