/-
What the errors of jobs say.

  An error comes from the last request that was sent, or from the shape of a reply that
  reports success.  A failed request is kept whole when its body is no JSON, and is the
  error that the proxy's classifier finds in the body otherwise (`Error.Explained`).

  A job that ends with such errors only, and leaves the classifier as it is,
  `Normalizes`.  That is so of a request, and of whatever is built of jobs that do, so
  it is so of every operation (`Operation.normalizes`).
-/

import GitTransport.Proofs.Classifier.Decision
import GitTransport.Proofs.Proxy.Operation

namespace GitTransport

open ProxyJob

/-! ## Errors and the requests behind them -/

namespace Error

/-- The error is about the shape of a reply. -/
def OfShape : Error → Prop
  | .json _ => True
  | .invalidResponse _ => True
  | _ => False

/-- What an error says of the last request and of the reply to it. -/
def Explained (classifier : Classifier) (asked : List (Request × Reply)) : Error → Prop
  | .http failure => ∃ request, asked.getLast? = some (request, .ok failure.response) ∧
      failure.method = request.method ∧ failure.path = request.path ∧
      failure.response.isSuccess = false ∧
      (failure.response.isJson = false ∨ ∃ fault, failure.response.json = .error fault)
  | .service problem => ∃ request response messages,
      asked.getLast? = some (request, .ok response) ∧ response.isSuccess = false ∧
      response.isJson = true ∧ response.json = .ok messages ∧
      problem = classifier.classifyMessages messages
  | .network url message =>
    ∃ request, asked.getLast? = some (request, .error (.network url message))
  | .address fault => ∃ request, asked.getLast? = some (request, .error (.address fault))
  | .settings _ => False
  | .json _ => True
  | .invalidResponse _ => True

variable {classifier : Classifier} {error : Error}

theorem OfShape.explained (h : error.OfShape) (asked : List (Request × Reply)) :
    error.Explained classifier asked := by
  cases error with
  | json fault => trivial
  | invalidResponse part => trivial
  | _ => exact h.elim

/-- What was asked before does not matter. -/
theorem Explained.append {rest : List (Request × Reply)} (h : error.Explained classifier rest)
    (first : List (Request × Reply)) : error.Explained classifier (first ++ rest) := by
  have hlast {exchange : Request × Reply} (hrest : rest.getLast? = some exchange) :
      (first ++ rest).getLast? = some exchange := by
    rw [List.getLast?_append, hrest, Option.some_or]
  cases error with
  | http failure =>
    obtain ⟨request, hrest, hfailure⟩ := h
    exact ⟨request, hlast hrest, hfailure⟩
  | service problem =>
    obtain ⟨request, response, messages, hrest, hproblem⟩ := h
    exact ⟨request, response, messages, hlast hrest, hproblem⟩
  | network url message =>
    obtain ⟨request, hrest⟩ := h
    exact ⟨request, hlast hrest⟩
  | address fault =>
    obtain ⟨request, hrest⟩ := h
    exact ⟨request, hlast hrest⟩
  | settings fault => exact h
  | json fault => trivial
  | invalidResponse part => trivial

end Error

namespace Classifier

variable {classifier : Classifier}

/-- The error of a checked request is explained by the reply to it. -/
theorem explained_of_checkedOutcome {request : Request} {reply : Reply} {error : Error}
    (h : Job.checkedOutcome request reply = .error error) :
    (classifier.refine error).Explained classifier [(request, reply)] := by
  cases reply with
  | error reason =>
    cases h
    cases reason with
    | network url message => exact ⟨request, rfl⟩
    | address fault => exact ⟨request, rfl⟩
  | ok response =>
    have hfailure : response.isSuccess = false ∧
        error = .http ⟨request.method, request.path, response⟩ := by
      simp only [Job.checkedOutcome, Job.outcome] at h
      split at h
      · cases h
      · next hsuccess => exact ⟨Bool.eq_false_iff.2 hsuccess, (Except.error.inj h).symm⟩
    obtain ⟨hsuccess, rfl⟩ := hfailure
    show (classifier.classify _).Explained _ _
    rcases classify_cases classifier ⟨request.method, request.path, response⟩ with
      ⟨hsame, hbody⟩ | ⟨messages, hkind, hbody, hservice⟩
    · rw [hsame]
      exact ⟨request, rfl, rfl, rfl, hsuccess, hbody⟩
    · rw [hservice]
      exact ⟨request, response, messages, rfl, hsuccess, hkind, hbody, rfl⟩

end Classifier

/-! ## Jobs on proxies -/

theorem mapError_eq_error_iff {ε ε' α : Type} {x : Except ε α} {f : ε → ε'} {e : ε'} :
    x.mapError f = .error e ↔ ∃ cause, x = .error cause ∧ f cause = e := by
  cases x <;> simp [Except.mapError]

namespace ProxyJob

variable {α β : Type}

/-- Every error of the job is explained by what it asked, and the classifier stays. -/
structure Normalizes (job : ProxyJob α) : Prop where
  explained : ∀ {proxy after : Proxy} {asked : List (Request × Reply)} {error : Error},
    Runs job proxy asked (.error error) after → error.Explained proxy.classifier asked
  keeps : ∀ {proxy after : Proxy} {asked : List (Request × Reply)} {outcome : Except Error α},
    Runs job proxy asked outcome after → after.classifier = proxy.classifier

theorem normalizes_bind {job : ProxyJob α} {next : α → ProxyJob β} (hjob : Normalizes job)
    (hnext : ∀ a, Normalizes (next a)) : Normalizes (job >>= next) where
  explained h := by
    rcases runs_bind_iff.1 h with ⟨first, a, between, rest, rfl, hfirst, hrest⟩ | ⟨error, heq, hrun⟩
    · have hexplained := (hnext a).explained hrest
      rw [hjob.keeps hfirst] at hexplained
      exact hexplained.append first
    · cases heq
      exact hjob.explained hrun
  keeps h := by
    rcases runs_bind_iff.1 h with ⟨first, a, between, rest, rfl, hfirst, hrest⟩ | ⟨error, -, hrun⟩
    · rw [(hnext a).keeps hrest, hjob.keeps hfirst]
    · exact hjob.keeps hrun

theorem normalizes_current_bind {next : Proxy → ProxyJob β} (h : ∀ proxy, Normalizes (next proxy)) :
    Normalizes (current >>= next) where
  explained hrun := (h _).explained (runs_current_bind.1 hrun)
  keeps hrun := (h _).keeps (runs_current_bind.1 hrun)

/-- A result of its own is no error, or one of the shape of a reply. -/
theorem normalizes_ofOutcome {x : Except Error α} (h : ∀ error, x = .error error → error.OfShape) :
    Normalizes (ofOutcome x) where
  explained hrun := by
    obtain ⟨-, hx, -⟩ := runs_ofOutcome_iff.1 hrun
    exact (h _ hx.symm).explained _
  keeps hrun := by
    obtain ⟨-, -, rfl⟩ := runs_ofOutcome_iff.1 hrun
    rfl

theorem normalizes_pure (a : α) : Normalizes (pure a : ProxyJob α) :=
  normalizes_ofOutcome (x := .ok a) fun _ h => by cases h

theorem normalizes_map {job : ProxyJob α} (h : Normalizes job) (f : α → β) :
    Normalizes (f <$> job) := by
  rw [map_eq_pure_bind]
  exact normalizes_bind h fun a => normalizes_pure (f a)

theorem normalizes_update {change : Proxy → Proxy}
    (h : ∀ proxy, (change proxy).classifier = proxy.classifier) : Normalizes (update change) where
  explained hrun := by
    obtain ⟨-, hx, -⟩ := runs_update_iff.1 hrun
    cases hx
  keeps hrun := by
    obtain ⟨-, -, rfl⟩ := runs_update_iff.1 hrun
    exact h _

theorem normalizes_thenWipe {job : ProxyJob α} (h : Normalizes job) :
    Normalizes (thenWipe job) where
  explained hrun := by
    obtain ⟨left, -, hleft⟩ := runs_thenWipe_iff.1 hrun
    exact h.explained hleft
  keeps hrun := by
    obtain ⟨left, rfl, hleft⟩ := runs_thenWipe_iff.1 hrun
    show left.classifier = _
    exact h.keeps hleft

/-- A job that sends one request normalizes if its answers do. -/
theorem normalizes_of_asks {job : ProxyJob α} {request : Request}
    {answer : Proxy → Reply → Except Error α} (h : ∀ proxy, Asks job proxy request (answer proxy))
    (hanswer : ∀ proxy reply error, answer proxy reply = .error error →
      error.Explained proxy.classifier [(request, reply)]) : Normalizes job where
  explained hrun := by
    obtain ⟨reply, rfl, hx, -⟩ := (h _).runs_iff.1 hrun
    exact hanswer _ reply _ hx.symm
  keeps hrun := by
    obtain ⟨reply, -, -, rfl⟩ := (h _).runs_iff.1 hrun
    rfl

/-- A checked request normalizes its failures. -/
theorem normalizes_sendChecked (request : Request) :
    Normalizes (ProxyJob.request (Job.sendChecked request)) := by
  refine normalizes_of_asks (fun proxy => asks_sendChecked proxy request) ?_
  intro proxy reply error h
  obtain ⟨cause, hcause, rfl⟩ := mapError_eq_error_iff.1 h
  exact Classifier.explained_of_checkedOutcome hcause

/-- So does a request for JSON; a body that is no JSON is an error of its shape. -/
theorem normalizes_getJson (path : String) :
    Normalizes (ProxyJob.request (Job.getJson path)) := by
  refine normalizes_of_asks (fun proxy => asks_getJson proxy path) ?_
  intro proxy reply error h
  obtain ⟨cause, hcause, rfl⟩ := mapError_eq_error_iff.1 h
  cases hreply : Job.checkedOutcome (jsonRequest path) reply with
  | error cause' =>
    rw [hreply] at hcause
    cases hcause
    exact Classifier.explained_of_checkedOutcome hreply
  | ok response =>
    rw [hreply] at hcause
    obtain ⟨fault, -, rfl⟩ := mapError_eq_error_iff.1 hcause
    trivial

end ProxyJob

/-! ## The errors of what is read -/

namespace Proxy

/-- A fault of JSON is an error of the shape of a reply. -/
theorem ofShape_of_mapError {α : Type} {x : Except Json.Fault α} {error : Error}
    (h : x.mapError .json = .error error) : error.OfShape := by
  obtain ⟨fault, -, rfl⟩ := mapError_eq_error_iff.1 h
  trivial

theorem ofShape_of_recordOf {name : String} {reply : Json} {error : Error}
    (h : recordOf name reply = .error error) : error.OfShape := by
  unfold recordOf at h
  split at h
  · cases h
  · cases h
    trivial

theorem ofShape_of_valueOf {key name : String} {reply : Json} {error : Error}
    (h : valueOf key name reply = .error error) : error.OfShape := by
  unfold valueOf at h
  split at h
  · cases h
  · cases h
    trivial

theorem ofShape_of_switchOf {name : String} {reply : Json} {error : Error}
    (h : switchOf name reply = .error error) : error.OfShape := by
  unfold switchOf at h
  split at h
  · exact ofShape_of_mapError h
  · cases h
    trivial

theorem ofShape_of_branch {name : String} {branch : Option String} {error : Error}
    (h : (match branch with
      | some branch => Except.ok branch
      | none => Except.error (Error.invalidResponse (.currentBranch name))) = .error error) :
    error.OfShape := by
  split at h
  · cases h
  · cases h
    trivial

theorem ofShape_of_registrationRecordOf {name : String} {reply : Json} {error : Error}
    (h : Registration.recordOf name reply = .error error) : error.OfShape := by
  unfold Registration.recordOf at h
  split at h
  · cases h
  · cases h
    trivial

theorem ofShape_of_record {registration : Registration} {proxy : Proxy} {error : Error}
    (h : registration.record proxy = .error error) : error.OfShape := by
  unfold Registration.record Registration.configured at h
  split at h
  · cases h
  · split at h
    · cases h
    · cases hentries : entriesOf (Fields.get? _ "config") with
      | ok entries =>
        rw [hentries] at h
        cases h
      | error cause =>
        rw [hentries] at h
        cases h
        exact ofShape_of_mapError hentries

/-! ## Operations -/

theorem normalizes_readRecord : Normalizes readRecord :=
  normalizes_current_bind fun _ => normalizes_bind (normalizes_getJson _) fun _ =>
    normalizes_ofOutcome fun _ h => ofShape_of_recordOf h

theorem normalizes_fetch : Normalizes fetch :=
  normalizes_bind normalizes_readRecord fun _ => normalizes_update fun _ => rfl

theorem normalizes_loaded : Normalizes loaded := by
  refine normalizes_current_bind fun proxy => ?_
  split
  · exact normalizes_pure _
  · exact normalizes_bind normalizes_readRecord fun _ =>
      normalizes_bind (normalizes_update fun _ => rfl) fun _ => normalizes_pure _

theorem normalizes_configuration : Normalizes configuration := by
  refine normalizes_current_bind fun proxy => ?_
  split
  · exact normalizes_pure _
  · refine normalizes_bind ?_ fun _ => normalizes_bind
      (normalizes_ofOutcome fun _ h => ofShape_of_mapError h) fun _ =>
        normalizes_bind (normalizes_update fun _ => rfl) fun _ => normalizes_pure _
    rw [item_eq_map]
    exact normalizes_map normalizes_loaded _

theorem normalizes_getConfig (key : String) : Normalizes (getConfig key) := by
  refine normalizes_bind normalizes_configuration fun known => ?_
  split
  · exact normalizes_pure _
  · exact normalizes_current_bind fun _ => normalizes_bind (normalizes_getJson _) fun _ =>
      normalizes_bind (normalizes_ofOutcome fun _ h => ofShape_of_valueOf h) fun _ =>
        normalizes_bind (normalizes_update fun _ => rfl) fun _ => normalizes_pure _

theorem normalizes_setConfig (key value : String) : Normalizes (setConfig key value) :=
  normalizes_current_bind fun _ => normalizes_bind (normalizes_sendChecked _) fun _ =>
    normalizes_update fun _ => rfl

theorem normalizes_create (registration : Registration) : Normalizes (create registration) :=
  normalizes_current_bind fun _ =>
    normalizes_bind (normalizes_ofOutcome fun _ h => ofShape_of_record h) fun _ =>
      normalizes_bind (normalizes_sendChecked _) fun _ =>
        normalizes_bind (normalizes_ofOutcome fun _ h => ofShape_of_mapError h) fun _ =>
          normalizes_bind (normalizes_ofOutcome fun _ h => ofShape_of_registrationRecordOf h)
            fun _ => normalizes_update fun _ => rfl

/-- A checked request behind which everything is forgotten. -/
theorem normalizes_wiping (request : Proxy → Request) : Normalizes (current >>= fun proxy =>
    thenWipe (ProxyJob.request (Job.sendChecked (request proxy)))) :=
  normalizes_current_bind fun _ => normalizes_thenWipe (normalizes_sendChecked _)

theorem normalizes_clone : Normalizes clone :=
  normalizes_wiping fun proxy => cloneRequest proxy.name

theorem normalizes_delete : Normalizes delete :=
  normalizes_wiping fun proxy => deleteRequest proxy.name

theorem normalizes_commit (transport message : String) (description : Option String) :
    Normalizes (commit transport message description) :=
  normalizes_wiping fun proxy => commitRequest proxy.name transport message description

theorem normalizes_pull : Normalizes pull :=
  normalizes_current_bind fun _ =>
    normalizes_bind (normalizes_thenWipe (normalizes_getJson _)) fun _ =>
      normalizes_ofOutcome fun _ h => ofShape_of_mapError h

theorem normalizes_log : Normalizes log :=
  normalizes_current_bind fun _ => normalizes_bind (normalizes_getJson _) fun _ =>
    normalizes_ofOutcome fun _ h => ofShape_of_mapError h

theorem normalizes_currentBranch : Normalizes currentBranch := by
  refine normalizes_bind ?_ fun _ => normalizes_current_bind fun _ =>
    normalizes_ofOutcome fun _ h => ofShape_of_branch h
  rw [branch, textItem_eq_map]
  exact normalizes_map normalizes_loaded _

theorem normalizes_checkout (target : String) : Normalizes (checkout target) :=
  normalizes_bind normalizes_currentBranch fun _ => normalizes_current_bind fun _ =>
    normalizes_bind (normalizes_thenWipe (normalizes_sendChecked _)) fun _ =>
      normalizes_bind (normalizes_ofOutcome fun _ h => ofShape_of_mapError h) fun _ =>
        normalizes_ofOutcome fun _ h => ofShape_of_switchOf h

theorem normalizes_setUrl (url : String) : Normalizes (setUrl url) := by
  refine normalizes_bind normalizes_readRecord fun record => ?_
  split
  · exact normalizes_pure _
  · exact normalizes_current_bind fun _ =>
      normalizes_bind (normalizes_thenWipe (normalizes_sendChecked _)) fun _ => normalizes_pure _

end Proxy

/-- Every operation normalizes its failures. -/
theorem Operation.normalizes (op : Operation) : Normalizes op.job := by
  cases op with
  | read a =>
    rw [job_read]
    exact normalizes_map Proxy.normalizes_loaded _
  | isCloned =>
    rw [job_isCloned]
    exact normalizes_map Proxy.normalizes_loaded _
  | itemOr name default =>
    rw [job_itemOr]
    exact normalizes_map Proxy.normalizes_loaded _
  | fetch => exact Proxy.normalizes_fetch
  | wipe => exact normalizes_update fun _ => rfl
  | configuration => exact Proxy.normalizes_configuration
  | getConfig key => exact Proxy.normalizes_getConfig key
  | setConfig key value => exact Proxy.normalizes_setConfig key value
  | create registration => exact Proxy.normalizes_create registration
  | clone => exact Proxy.normalizes_clone
  | checkout target => exact Proxy.normalizes_checkout target
  | pull => exact Proxy.normalizes_pull
  | delete => exact Proxy.normalizes_delete
  | commit transport message description =>
    exact Proxy.normalizes_commit transport message description
  | setUrl url => exact Proxy.normalizes_setUrl url
  | log => exact Proxy.normalizes_log

end GitTransport
