/-
Runs of jobs on proxies.

  `job.Runs proxy asked outcome after` says that the job, begun with `proxy`, can
  send the requests of `asked`, get the replies that stand beside them, and end with
  `outcome` and the proxy `after`.  Nothing is assumed of the replies: a statement
  about all runs of a job is a statement about every service and every fault of the
  network.

  There is one equivalence for each way of building a job; the runs of an operation
  are read off its text with them.  Most operations come down to a job that sends one
  request and leaves the proxy alone (`Asks`), followed by a change of the proxy or
  by forgetting what it knew.
-/

import GitTransport.Repository.Basic
import GitTransport.Proofs.Exchange

namespace GitTransport

/-! ## What a reply says -/

namespace Job

/-- Whether a reply reports success. -/
def accepted : Reply → Bool
  | .ok response => response.isSuccess
  | .error _ => false

/-- The JSON in a reply that reports success. -/
def bodyOf? : Reply → Option Json
  | .ok response => if response.isSuccess then response.json.toOption else none
  | .error _ => none

theorem checkedOutcome_eq_ok_iff {request : Request} {reply : Reply} {response : Response} :
    checkedOutcome request reply = .ok response ↔
      reply = .ok response ∧ response.isSuccess = true := by
  cases reply with
  | error reason => simp [checkedOutcome, outcome]
  | ok r =>
    simp only [checkedOutcome, outcome]
    split
    · next h =>
      constructor
      · intro heq
        cases heq
        exact ⟨rfl, h⟩
      · rintro ⟨heq, -⟩
        rw [Except.ok.inj heq]
    · next h =>
      constructor
      · intro heq
        cases heq
      · rintro ⟨heq, hs⟩
        rw [Except.ok.inj heq] at h
        exact absurd hs h

end Job

theorem mapError_eq_ok_iff {ε ε' α : Type} {x : Except ε α} {f : ε → ε'} {a : α} :
    x.mapError f = .ok a ↔ x = .ok a := by
  constructor
  · intro h
    cases x with
    | error e => cases h
    | ok b =>
      cases h
      rfl
  · rintro rfl
    rfl

theorem bind_eq_ok_iff {ε α β : Type} {x : Except ε α} {f : α → Except ε β} {b : β} :
    x.bind f = .ok b ↔ ∃ a, x = .ok a ∧ f a = .ok b := by
  cases x <;> simp [Except.bind]

namespace Job

theorem bodyOf_eq_some_iff {reply : Reply} {body : Json} :
    bodyOf? reply = some body ↔
      ∃ response, reply = .ok response ∧ response.isSuccess = true ∧ response.json = .ok body := by
  cases reply with
  | error reason => simp [bodyOf?]
  | ok response =>
    rw [bodyOf?]
    by_cases hs : response.isSuccess = true
    · rw [if_pos hs]
      cases hjson : response.json <;> simp [Except.toOption, hs, hjson]
    · rw [if_neg hs]
      simp [hs]

/-- A reply from which JSON was read has that JSON as its body. -/
theorem bodyOf_of_readJson {request : Request} {reply : Reply} {response : Response} {body : Json}
    (hreply : checkedOutcome request reply = .ok response) (hbody : readJson response = .ok body) :
    bodyOf? reply = some body := by
  obtain ⟨rfl, hs⟩ := checkedOutcome_eq_ok_iff.1 hreply
  exact bodyOf_eq_some_iff.2 ⟨response, rfl, hs, mapError_eq_ok_iff.1 hbody⟩

end Job

namespace Proxy

/-- The outcome of a request of the proxy, by the reply to it. -/
def answer (proxy : Proxy) (request : Request) (reply : Reply) : Except Error Response :=
  (Job.checkedOutcome request reply).mapError proxy.classifier.refine

/-- The outcome of a request for JSON, by the reply to it. -/
def jsonAnswer (proxy : Proxy) (request : Request) (reply : Reply) : Except Error Json :=
  ((Job.checkedOutcome request reply).bind Job.readJson).mapError proxy.classifier.refine

theorem answer_eq_ok_iff {proxy : Proxy} {request : Request} {reply : Reply}
    {response : Response} :
    proxy.answer request reply = .ok response ↔
      reply = .ok response ∧ response.isSuccess = true := by
  rw [answer, mapError_eq_ok_iff, Job.checkedOutcome_eq_ok_iff]

theorem accepted_of_answer {proxy : Proxy} {request : Request} {reply : Reply}
    {response : Response} (h : proxy.answer request reply = .ok response) :
    Job.accepted reply = true := by
  obtain ⟨rfl, hs⟩ := answer_eq_ok_iff.1 h
  exact hs

theorem not_accepted_of_answer {proxy : Proxy} {request : Request} {reply : Reply}
    {error : Error} (h : proxy.answer request reply = .error error) :
    Job.accepted reply = false := by
  cases reply with
  | error reason => rfl
  | ok response =>
    by_cases hs : response.isSuccess = true
    · rw [answer_eq_ok_iff.2 ⟨rfl, hs⟩] at h
      cases h
    · simpa [Job.accepted] using hs

theorem bodyOf_of_jsonAnswer {proxy : Proxy} {request : Request} {reply : Reply} {body : Json}
    (h : proxy.jsonAnswer request reply = .ok body) : Job.bodyOf? reply = some body := by
  rw [jsonAnswer, mapError_eq_ok_iff, bind_eq_ok_iff] at h
  obtain ⟨response, hreply, hbody⟩ := h
  exact Job.bodyOf_of_readJson hreply hbody

/-- A request for JSON gives the JSON in its reply. -/
theorem jsonAnswer_eq_ok_iff {proxy : Proxy} {request : Request} {reply : Reply} {body : Json} :
    proxy.jsonAnswer request reply = .ok body ↔ Job.bodyOf? reply = some body := by
  refine ⟨bodyOf_of_jsonAnswer, fun hbody => ?_⟩
  obtain ⟨response, rfl, hsuccess, hjson⟩ := Job.bodyOf_eq_some_iff.1 hbody
  rw [jsonAnswer, mapError_eq_ok_iff, bind_eq_ok_iff]
  exact ⟨response, Job.checkedOutcome_eq_ok_iff.2 ⟨rfl, hsuccess⟩, mapError_eq_ok_iff.2 hjson⟩

end Proxy

/-- Where one request is named with its reply, the reply is that one. -/
theorem exists_reply_iff {request : Request} {reply : Reply} {p : Reply → Prop} :
    (∃ sent, [(request, reply)] = [(request, sent)] ∧ p sent) ↔ p reply := by
  constructor
  · rintro ⟨sent, hasked, h⟩
    cases hasked
    exact h
  · intro h
    exact ⟨reply, rfl, h⟩

/-! ## Runs -/

namespace ProxyJob

variable {α β : Type} {proxy after : Proxy} {asked : List (Request × Reply)}

/-- The job can ask the questions of `asked`, be given the answers there, and end
    with `outcome` and the proxy `after`. -/
def Runs (job : ProxyJob α) (proxy : Proxy) (asked : List (Request × Reply))
    (outcome : Except Error α) (after : Proxy) : Prop :=
  Exchange.Path (job.runOn proxy) asked (outcome, after)

/-- What a sequence of jobs does when its first job is over. -/
def continued (next : α → ProxyJob β) :
    Except Error α × Proxy → Client (Except Error β × Proxy)
  | (.ok a, proxy) => (next a).runOn proxy
  | (.error error, proxy) => .done (.error error, proxy)

theorem runOn_bind (job : ProxyJob α) (next : α → ProxyJob β) (proxy : Proxy) :
    (job >>= next).runOn proxy = (job.runOn proxy >>= continued next) := by
  show (job.run proxy >>= _) = _
  congr 1
  funext ⟨outcome, after⟩
  cases outcome <;> rfl

/-- A sequence runs like its first job, and then like the rest if there was no error. -/
theorem runs_bind_iff {job : ProxyJob α} {next : α → ProxyJob β} {outcome : Except Error β} :
    Runs (job >>= next) proxy asked outcome after ↔
      (∃ first a between rest, asked = first ++ rest ∧
        Runs job proxy first (.ok a) between ∧ Runs (next a) between rest outcome after) ∨
      (∃ error, outcome = .error error ∧ Runs job proxy asked (.error error) after) := by
  unfold Runs
  rw [runOn_bind, Exchange.path_bind_iff]
  constructor
  · rintro ⟨first, ⟨x, between⟩, rest, rfl, hjob, hnext⟩
    -- an error of the first job is the end of the sequence
    cases x with
    | ok a => exact .inl ⟨first, a, between, rest, rfl, hjob, hnext⟩
    | error error =>
      obtain ⟨rfl, heq⟩ := Exchange.path_done_iff.1 hnext
      obtain ⟨rfl, rfl⟩ := Prod.mk.inj heq
      exact .inr ⟨error, rfl, by rwa [List.append_nil]⟩
  · rintro (⟨first, a, between, rest, rfl, hjob, hnext⟩ | ⟨error, rfl, hjob⟩)
    · exact ⟨first, (.ok a, between), rest, rfl, hjob, hnext⟩
    · exact ⟨asked, (.error error, after), [], (List.append_nil asked).symm, hjob, .done _⟩

theorem runs_pure_iff {a : α} {outcome : Except Error α} :
    Runs (pure a) proxy asked outcome after ↔ asked = [] ∧ outcome = .ok a ∧ after = proxy := by
  show Exchange.Path (.done (Except.ok a, proxy)) _ _ ↔ _
  rw [Exchange.path_done_iff, Prod.mk.injEq]

/-- A change of the result leaves everything else of a run as it is. -/
theorem runs_map_iff {job : ProxyJob α} {f : α → β} {outcome : Except Error β} :
    Runs (f <$> job) proxy asked outcome after ↔
      ∃ x, outcome = x.map f ∧ Runs job proxy asked x after := by
  rw [map_eq_pure_bind, runs_bind_iff]
  constructor
  · rintro (⟨first, a, between, rest, rfl, hjob, hpure⟩ | ⟨error, rfl, hjob⟩)
    · obtain ⟨rfl, rfl, rfl⟩ := runs_pure_iff.1 hpure
      exact ⟨.ok a, rfl, by rwa [List.append_nil]⟩
    · exact ⟨.error error, rfl, hjob⟩
  · rintro ⟨x, rfl, hjob⟩
    cases x with
    | ok a => exact .inl ⟨asked, a, after, [], (List.append_nil asked).symm, hjob,
        runs_pure_iff.2 ⟨rfl, rfl, rfl⟩⟩
    | error error => exact .inr ⟨error, rfl, hjob⟩

@[simp] theorem runs_current_bind {next : Proxy → ProxyJob β} {outcome : Except Error β} :
    Runs (current >>= next) proxy asked outcome after ↔
      Runs (next proxy) proxy asked outcome after :=
  Iff.rfl

theorem runs_update_iff {change : Proxy → Proxy} {outcome : Except Error Unit} :
    Runs (update change) proxy asked outcome after ↔
      asked = [] ∧ outcome = .ok () ∧ after = change proxy := by
  show Exchange.Path (.done (Except.ok (), change proxy)) _ _ ↔ _
  rw [Exchange.path_done_iff, Prod.mk.injEq]

theorem runs_ofOutcome_iff {x outcome : Except Error α} :
    Runs (ofOutcome x) proxy asked outcome after ↔
      asked = [] ∧ outcome = x ∧ after = proxy := by
  show Exchange.Path (.done (x, proxy)) _ _ ↔ _
  rw [Exchange.path_done_iff, Prod.mk.injEq]

/-- Wiping behind a job changes nothing of the run but the proxy that is left. -/
theorem runs_thenWipe_iff {job : ProxyJob α} {outcome : Except Error α} :
    Runs (thenWipe job) proxy asked outcome after ↔
      ∃ left, after = left.wiped ∧ Runs job proxy asked outcome left := by
  show Exchange.Path (job.runOn proxy >>= fun x => .done (x.1, x.2.wiped)) _ _ ↔ _
  rw [Exchange.path_bind_iff]
  constructor
  · rintro ⟨first, ⟨x, left⟩, rest, rfl, hjob, hdone⟩
    obtain ⟨rfl, heq⟩ := Exchange.path_done_iff.1 hdone
    obtain ⟨rfl, rfl⟩ := Prod.mk.inj heq
    exact ⟨left, rfl, by rwa [List.append_nil]⟩
  · rintro ⟨left, rfl, hjob⟩
    exact ⟨asked, (outcome, left), [], (List.append_nil asked).symm, hjob, .done _⟩

/-- A result that may be an error stops a sequence of jobs or goes into it. -/
theorem runs_ofOutcome_bind_iff {x : Except Error α} {next : α → ProxyJob β}
    {outcome : Except Error β} :
    Runs (ofOutcome x >>= next) proxy asked outcome after ↔
      (∃ a, x = .ok a ∧ Runs (next a) proxy asked outcome after) ∨
      (∃ error, x = .error error ∧ asked = [] ∧ outcome = .error error ∧ after = proxy) := by
  -- either sequence is one of the two jobs by definition
  cases x with
  | ok a =>
    have hnext : Runs (ofOutcome (.ok a) >>= next) proxy asked outcome after ↔
        Runs (next a) proxy asked outcome after := Iff.rfl
    simp [hnext]
  | error error =>
    have hstop : Runs (ofOutcome (.error error) >>= next) proxy asked outcome after ↔
        Runs (ofOutcome (.error error) : ProxyJob β) proxy asked outcome after := Iff.rfl
    simp [hstop, runs_ofOutcome_iff]

/-- A check of the result changes nothing of a run but its outcome. -/
theorem runs_bind_ofOutcome_iff {job : ProxyJob α} {f : α → Except Error β}
    {outcome : Except Error β} :
    Runs (job >>= fun a => ofOutcome (f a)) proxy asked outcome after ↔
      ∃ x, outcome = x.bind f ∧ Runs job proxy asked x after := by
  rw [runs_bind_iff]
  constructor
  · rintro (⟨first, a, between, rest, rfl, hjob, hcheck⟩ | ⟨error, rfl, hjob⟩)
    · obtain ⟨rfl, rfl, rfl⟩ := runs_ofOutcome_iff.1 hcheck
      exact ⟨.ok a, rfl, by rwa [List.append_nil]⟩
    · exact ⟨.error error, rfl, hjob⟩
  · rintro ⟨x, rfl, hjob⟩
    cases x with
    | ok a => exact .inl ⟨asked, a, after, [], (List.append_nil asked).symm, hjob,
        runs_ofOutcome_iff.2 ⟨rfl, rfl, rfl⟩⟩
    | error error => exact .inr ⟨error, rfl, hjob⟩

/-- A change of the proxy behind a job happens when the job succeeds. -/
theorem runs_bind_update_iff {job : ProxyJob α} {change : α → Proxy → Proxy} {result : α → β}
    {outcome : Except Error β} :
    Runs (job >>= fun a => update (change a) >>= fun _ => pure (result a)) proxy asked outcome
        after ↔
      (∃ a between, Runs job proxy asked (.ok a) between ∧ outcome = .ok (result a) ∧
        after = change a between) ∨
      (∃ error, Runs job proxy asked (.error error) after ∧ outcome = .error error) := by
  rw [runs_bind_iff]
  constructor
  · rintro (⟨first, a, between, rest, rfl, hjob, hrest⟩ | ⟨error, rfl, hjob⟩)
    · have hpure : Runs (pure (result a)) (change a between) rest outcome after := hrest
      obtain ⟨rfl, rfl, rfl⟩ := runs_pure_iff.1 hpure
      exact .inl ⟨a, between, by rwa [List.append_nil], rfl, rfl⟩
    · exact .inr ⟨error, hjob, rfl⟩
  · rintro (⟨a, between, hjob, rfl, rfl⟩ | ⟨error, hjob, rfl⟩)
    · have hpure : Runs (pure (result a)) (change a between) [] (.ok (result a))
          (change a between) := runs_pure_iff.2 ⟨rfl, rfl, rfl⟩
      exact .inl ⟨asked, a, between, [], (List.append_nil asked).symm, hjob, hpure⟩
    · exact .inr ⟨error, rfl, hjob⟩

/-- A job that asks for nothing comes to an end. -/
theorem exists_runs_of_silent {job : ProxyJob α}
    (h : ∀ asked outcome after, Runs job proxy asked outcome after → asked = []) :
    ∃ outcome after, Runs job proxy [] outcome after := by
  -- it does so against a peer that is down
  have hrun := Exchange.path_play
    (fun (_ : Unit) (_ : Request) => ((.error (.network "" "") : Reply), ()))
    (job.runOn proxy) ()
  have hnothing := h _ _ _ hrun
  rw [hnothing] at hrun
  exact ⟨_, _, hrun⟩

/-! ## One request -/

/-- The job sends `request` and nothing else, and leaves the proxy as it is; `answer`
    is its outcome, by the reply. -/
structure Asks (job : ProxyJob α) (proxy : Proxy) (request : Request)
    (answer : Reply → Except Error α) : Prop where
  runs_iff : ∀ {asked : List (Request × Reply)} {outcome : Except Error α} {after : Proxy},
    Runs job proxy asked outcome after ↔
      ∃ reply, asked = [(request, reply)] ∧ outcome = answer reply ∧ after = proxy

/-- A question with its answer is such a job. -/
theorem asks_of_runOn {job : ProxyJob α} {request : Request} {answer : Reply → Except Error α}
    (h : job.runOn proxy = .ask request fun reply => .done (answer reply, proxy)) :
    Asks job proxy request answer := by
  constructor
  intro asked outcome after
  unfold Runs
  rw [h]
  simp only [Exchange.path_ask_iff, Exchange.path_done_iff, Prod.mk.injEq]
  constructor
  · rintro ⟨reply, rest, rfl, rfl, rfl, rfl⟩
    exact ⟨reply, rfl, rfl, rfl⟩
  · rintro ⟨reply, rfl, rfl, rfl⟩
    exact ⟨reply, [], rfl, rfl, rfl, rfl⟩

/-- A checked request sends itself, and its reply decides the outcome. -/
theorem asks_sendChecked (proxy : Proxy) (request : Request) :
    Asks (ProxyJob.request (Job.sendChecked request)) proxy request (proxy.answer request) :=
  asks_of_runOn rfl

/-- The request for a resource as JSON. -/
def jsonRequest (path : String) : Request :=
  { method := .get, path, accept := some "application/json" }

theorem run_getJson (path : String) :
    (Job.getJson path).run = .ask (jsonRequest path) fun reply =>
      .done ((Job.checkedOutcome (jsonRequest path) reply).bind Job.readJson) := by
  show Exchange.ask _ _ = _
  congr 1
  funext reply
  show ExceptT.bindCont _ (Job.checkedOutcome (jsonRequest path) reply) = _
  cases Job.checkedOutcome (jsonRequest path) reply <;> rfl

/-- A request for JSON sends one request; the JSON in the reply is the outcome. -/
theorem asks_getJson (proxy : Proxy) (path : String) :
    Asks (ProxyJob.request (Job.getJson path)) proxy (jsonRequest path)
      (proxy.jsonAnswer (jsonRequest path)) := by
  apply asks_of_runOn
  -- the failures are classified behind the request
  show (((Job.getJson path).run >>= _) >>= _) = _
  rw [run_getJson]
  rfl

/-- A job may look at the proxy first. -/
theorem asks_current_bind {next : Proxy → ProxyJob α} {request : Request}
    {answer : Reply → Except Error α} (h : Asks (next proxy) proxy request answer) :
    Asks (current >>= next) proxy request answer :=
  ⟨h.runs_iff⟩

namespace Asks

variable {job : ProxyJob α} {request : Request} {answer : Reply → Except Error α}

/-- A check of the result goes into the answer. -/
theorem bind_ofOutcome (h : Asks job proxy request answer) (f : α → Except Error β) :
    Asks (job >>= fun a => ofOutcome (f a)) proxy request fun reply => (answer reply).bind f := by
  constructor
  intro asked outcome after
  rw [runs_bind_ofOutcome_iff]
  constructor
  · rintro ⟨x, rfl, hjob⟩
    obtain ⟨reply, rfl, rfl, rfl⟩ := h.runs_iff.1 hjob
    exact ⟨reply, rfl, rfl, rfl⟩
  · rintro ⟨reply, rfl, rfl, rfl⟩
    exact ⟨_, rfl, h.runs_iff.2 ⟨reply, rfl, rfl, rfl⟩⟩

/-- A change of the proxy behind the request happens when the answer is a success. -/
theorem runs_update_iff (h : Asks job proxy request answer) {change : α → Proxy → Proxy}
    {result : α → β} {outcome : Except Error β} :
    Runs (job >>= fun a => update (change a) >>= fun _ => pure (result a)) proxy asked outcome
        after ↔
      ∃ reply, asked = [(request, reply)] ∧
        ((∃ a, answer reply = .ok a ∧ outcome = .ok (result a) ∧ after = change a proxy) ∨
          (∃ error, answer reply = .error error ∧ outcome = .error error ∧ after = proxy)) := by
  rw [runs_bind_update_iff]
  constructor
  · rintro (⟨a, between, hjob, rfl, rfl⟩ | ⟨error, hjob, rfl⟩)
    · obtain ⟨reply, rfl, hanswer, rfl⟩ := h.runs_iff.1 hjob
      exact ⟨reply, rfl, .inl ⟨a, hanswer.symm, rfl, rfl⟩⟩
    · obtain ⟨reply, rfl, hanswer, rfl⟩ := h.runs_iff.1 hjob
      exact ⟨reply, rfl, .inr ⟨error, hanswer.symm, rfl, rfl⟩⟩
  · rintro ⟨reply, rfl, ⟨a, hanswer, rfl, rfl⟩ | ⟨error, hanswer, rfl, rfl⟩⟩
    · exact .inl ⟨a, proxy, h.runs_iff.2 ⟨reply, rfl, hanswer.symm, rfl⟩, rfl, rfl⟩
    · exact .inr ⟨error, h.runs_iff.2 ⟨reply, rfl, hanswer.symm, rfl⟩, rfl⟩

/-- Behind the request everything is forgotten, whatever the answer. -/
theorem runs_thenWipe_iff (h : Asks job proxy request answer) {outcome : Except Error α} :
    Runs (thenWipe job) proxy asked outcome after ↔
      ∃ reply, asked = [(request, reply)] ∧ outcome = answer reply ∧ after = proxy.wiped := by
  rw [ProxyJob.runs_thenWipe_iff]
  constructor
  · rintro ⟨left, rfl, hjob⟩
    obtain ⟨reply, rfl, rfl, rfl⟩ := h.runs_iff.1 hjob
    exact ⟨reply, rfl, rfl, rfl⟩
  · rintro ⟨reply, rfl, rfl, rfl⟩
    exact ⟨proxy, rfl, h.runs_iff.2 ⟨reply, rfl, rfl, rfl⟩⟩

end Asks

end ProxyJob

end GitTransport
