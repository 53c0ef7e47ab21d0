/-
What the errors of the workflows say.

  The workflows, as data (`Call`), end with errors that are explained by the last
  request under the standard classifier (`Call.settles`), like the operations that
  they are made of.  For cloning the classification has to come first: only so can an
  error that the options tolerate be told from the others (`normalizes_register`).
-/

import GitTransport.Proofs.Proxy.Failures
import GitTransport.Proofs.Workflow.Run

namespace GitTransport.Workflow

open ProxyJob

/-! ## Calls -/

/-- A call of a workflow.  One that is given a proxy instead of a name is the operation
    on that proxy. -/
inductive Call where
  | listAll
  | cloneNew (url name : String) (options : CloneOptions)
  | checkout (name branch : String)
  | pull (name : String)
  | log (name : String)
  | delete (name : String)
  | setUserApiToken (apiUrl token : String)

namespace Call

/-- What a call returns. -/
def Answer : Call → Type
  | .listAll => List Proxy
  | .cloneNew _ _ _ => Proxy
  | .checkout _ _ => CommitTransition
  | .pull _ => CommitTransition
  | .log _ => List Commit
  | .delete _ => Unit
  | .setUserApiToken _ _ => Unit

/-- The job behind a call. -/
def job : (call : Call) → Job call.Answer
  | .listAll => Workflow.listAll
  | .cloneNew url name options => Workflow.cloneNew url name options
  | .checkout name branch => onName name (Proxy.checkout branch)
  | .pull name => onName name Proxy.pull
  | .log name => onName name Proxy.log
  | .delete name => Workflow.delete name
  | .setUserApiToken apiUrl token => Workflow.setUserApiToken apiUrl token

end Call

/-! ## Jobs without a proxy -/

/-- Every error of the job is explained under the standard classifier. -/
def Settles {α : Type} (job : Job α) : Prop :=
  ∀ (asked : List (Request × Reply)) (error : Error),
    Exchange.Path job.run asked (.error error) → error.Explained .standard asked

theorem settles_bind {α β : Type} {job : Job α} {next : α → Job β} (hjob : Settles job)
    (hnext : ∀ a, Settles (next a)) : Settles (job >>= next) := by
  intro asked error h
  rcases path_jobBind_iff.1 h with ⟨first, a, rest, rfl, -, hrest⟩ | ⟨cause, heq, hrun⟩
  · exact (hnext a rest error hrest).append first
  · cases heq
    exact hjob asked _ hrun

theorem settles_done {α : Type} {x : Except Error α}
    (h : ∀ error, x = .error error → error.OfShape) :
    Settles (ExceptT.mk (.done x) : Job α) := by
  intro asked error hrun
  obtain ⟨-, heq⟩ := Exchange.path_done_iff.1 hrun
  exact (h error heq.symm).explained asked

/-- A job that runs on a new proxy settles its errors if it normalizes them. -/
theorem settles_onName {α : Type} {job : ProxyJob α} (h : Normalizes job) (name : String) :
    Settles (onName name job) := by
  intro asked error hrun
  obtain ⟨after, hjob⟩ := path_startingFrom_iff.1 hrun
  exact h.explained hjob

/-- The classification of a job that looks at no proxy is that of a new proxy. -/
theorem settles_classified {α : Type} {job : Job α} (h : Normalizes (ProxyJob.request job)) :
    Settles (job.classified .standard) := by
  intro asked error hrun
  have hproxy : Runs (ProxyJob.request job) (.new "") asked (.error error) (.new "") := by
    show Exchange.Path ((job.classified .standard).run >>= fun outcome =>
      .done (outcome, Proxy.new "")) _ _
    rw [Exchange.path_bind_iff]
    exact ⟨asked, .error error, [], (List.append_nil asked).symm, hrun, .done _⟩
  exact h.explained hproxy

/-! ## The workflows -/

theorem ofShape_of_mapError_part {α : Type} {x : Except MissingPart α} {error : Error}
    (h : x.mapError .invalidResponse = .error error) : error.OfShape := by
  obtain ⟨part, -, rfl⟩ := mapError_eq_error_iff.1 h
  trivial

theorem settles_listAll : Settles listAll :=
  settles_bind (settles_classified (normalizes_getJson _)) fun _ =>
    settles_done fun _ h => ofShape_of_mapError_part h

theorem settles_setUserApiToken (apiUrl token : String) :
    Settles (setUserApiToken apiUrl token) :=
  settles_bind (settles_classified (normalizes_sendChecked _)) fun _ =>
    settles_done fun _ h => by cases h

theorem settles_delete (name : String) : Settles (delete name) :=
  settles_bind (settles_onName Proxy.normalizes_delete name) fun _ =>
    settles_done fun _ h => by cases h

/-! ### Cloning -/

theorem normalizes_note (text : String) : Normalizes (note text) where
  explained hrun := by
    obtain ⟨-, hx, -⟩ := runs_note_iff.1 hrun
    cases hx
  keeps hrun := by
    obtain ⟨-, -, rfl⟩ := runs_note_iff.1 hrun
    rfl

/-- A handler that passes on what it does not handle keeps every error explained. -/
theorem normalizes_tryCatch {α : Type} {job : ProxyJob α} {handler : Error → ProxyJob α}
    (hjob : Normalizes job)
    (hhandler : ∀ error, Normalizes (handler error) ∨ handler error = ofOutcome (.error error)) :
    Normalizes (tryCatch job handler) where
  explained h := by
    rcases runs_tryCatch_iff.1 h with
      ⟨a, heq, -⟩ | ⟨first, cause, between, rest, rfl, hfirst, hrest⟩
    · cases heq
    · rcases hhandler cause with hnormal | hthrow
      · -- the handler works under the classifier that the job was begun with
        have hexplained := hnormal.explained hrest
        rw [hjob.keeps hfirst] at hexplained
        exact hexplained.append first
      · rw [hthrow] at hrest
        obtain ⟨rfl, heq, -⟩ := runs_ofOutcome_iff.1 hrest
        cases heq
        rw [List.append_nil]
        exact hjob.explained hfirst
  keeps h := by
    rcases runs_tryCatch_iff.1 h with
      ⟨a, -, hrun⟩ | ⟨first, cause, between, rest, rfl, hfirst, hrest⟩
    · exact hjob.keeps hrun
    · rw [← hjob.keeps hfirst]
      rcases hhandler cause with hnormal | hthrow
      · exact hnormal.keeps hrest
      · rw [hthrow] at hrest
        obtain ⟨-, -, rfl⟩ := runs_ofOutcome_iff.1 hrest
        rfl

/-- The error that is tolerated is handled, and every other one is passed on. -/
theorem normalizes_register (url : String) (options : CloneOptions) :
    Normalizes (register url options) := by
  refine normalizes_tryCatch (Proxy.normalizes_create _) fun error => ?_
  cases error with
  | service problem =>
    by_cases htolerated : problem.kind = .alreadyExists ∧ !options.failIfExists
    · refine .inl ?_
      simp only [if_pos htolerated]
      exact normalizes_bind (normalizes_note _) fun _ => normalizes_update fun _ => rfl
    · refine .inr ?_
      simp only [if_neg htolerated]
      rfl
  | _ => exact .inr rfl

theorem normalizes_registerAndClone (url : String) (options : CloneOptions) :
    Normalizes (registerAndClone url options) := by
  refine normalizes_bind (normalizes_register url options) fun _ => ?_
  refine normalizes_bind Operation.isCloned.normalizes fun cloned => ?_
  split
  · exact normalizes_current_bind fun _ => normalizes_note _
  · exact normalizes_bind Proxy.normalizes_clone fun _ => normalizes_pure _

theorem settles_cloneNew (url name : String) (options : CloneOptions) :
    Settles (cloneNew url name options) := by
  intro asked error h
  obtain ⟨x, after, heq, hrun⟩ := path_cloneNew_iff.1 h
  cases x with
  | ok a => cases heq
  | error cause =>
    cases heq
    exact (normalizes_registerAndClone url options).explained hrun

/-- Every workflow settles its errors. -/
theorem Call.settles (call : Call) : Settles call.job := by
  cases call with
  | listAll => exact settles_listAll
  | cloneNew url name options => exact settles_cloneNew url name options
  | checkout name branch => exact settles_onName (Proxy.normalizes_checkout branch) name
  | pull name => exact settles_onName Proxy.normalizes_pull name
  | log name => exact settles_onName Proxy.normalizes_log name
  | delete name => exact settles_delete name
  | setUserApiToken apiUrl token => exact settles_setUserApiToken apiUrl token

/-! ## All errors -/

/-- Whatever is called, a failed request comes out whole or as the error of the service
    that its body reports, under the classifier of the proxy or the standard one.  The
    classification leaves every other error as it is, and what it has made as well. -/
theorem explained_errors :
    (∀ (op : Operation) (proxy after : Proxy) (asked : List (Request × Reply)) (error : Error),
      Runs op.job proxy asked (.error error) after → error.Explained proxy.classifier asked) ∧
    (∀ (call : Call) (asked : List (Request × Reply)) (error : Error),
      Exchange.Path call.job.run asked (.error error) → error.Explained .standard asked) ∧
    (∀ (classifier : Classifier) (error : Error), (∀ failure, error ≠ .http failure) →
      classifier.refine error = error) ∧
    (∀ (classifier : Classifier) (error : Error),
      classifier.refine (classifier.refine error) = classifier.refine error) :=
  ⟨fun op _ _ _ _ h => op.normalizes.explained h,
    fun call asked error h => call.settles asked error h,
    fun _ _ h => Classifier.refine_of_ne_http h, fun _ error => Classifier.refine_refine error⟩

/-- A refusal in plain text comes out whole, with its request. -/
theorem explained_errors_plain :
    let reply : Reply := .ok ⟨404, [], "no such repository"⟩
    let failure : HttpFailure := ⟨.delete, "repository/demo", ⟨404, [], "no such repository"⟩⟩
    Exchange.Path (Call.delete "demo").job.run [(Proxy.deleteRequest "demo", reply)]
        (.error (.http failure)) ∧
      (Error.http failure).Explained .standard [(Proxy.deleteRequest "demo", reply)] ∧
      Classifier.standard.refine (.network "u" "down") = .network "u" "down" := by
  intro reply failure
  have hdelete : Runs Proxy.delete (.new "demo") [(Proxy.deleteRequest "demo", reply)]
      (.error (.http failure)) (Proxy.new "demo").wiped :=
    Proxy.runs_delete_iff.2 ⟨reply, rfl, rfl, rfl⟩
  have hrun : Exchange.Path (Call.delete "demo").job.run [(Proxy.deleteRequest "demo", reply)]
      (.error (.http failure)) :=
    path_jobBind_iff.2 (.inr ⟨_, rfl, path_startingFrom_iff.2 ⟨_, hdelete⟩⟩)
  exact ⟨hrun, explained_errors.2.1 _ _ _ hrun, explained_errors.2.2.1 _ _ nofun⟩

end GitTransport.Workflow
