/-
The runs of the jobs that change a repository, and of the history.

  For each job there is the request with which it changes the repository and an
  equivalence that says what is sent, what comes out and which proxy is left.  A
  change forgets what was known once its request has been sent (`Proxy.wiped`); only
  setting a key and registering keep it, each in its own way.
-/

import GitTransport.Repository.Operations
import GitTransport.Repository.Registration
import GitTransport.Proofs.Proxy.Reading

namespace GitTransport

namespace Proxy

open ProxyJob

variable {proxy after : Proxy} {asked : List (Request × Reply)}

/-- A checked request behind which the proxy forgets what it knew. -/
theorem runs_wipingRequest_iff {request : Request} {outcome : Except Error Response} :
    Runs (thenWipe (ProxyJob.request (Job.sendChecked request))) proxy asked outcome after ↔
      ∃ reply, asked = [(request, reply)] ∧ outcome = proxy.answer request reply ∧
        after = proxy.wiped :=
  (asks_sendChecked proxy request).runs_thenWipe_iff

/-! ## Cloning, deleting, committing and pulling -/

/-- The request to clone a repository. -/
def cloneRequest (name : String) : Request :=
  { method := .post, path := resource name (some "clone") }

/-- The request to delete a repository. -/
def deleteRequest (name : String) : Request := { method := .delete, path := resource name none }

/-- The request to make a commit of a transport. -/
def commitRequest (name transport message : String) (description : Option String) : Request :=
  { method := .post, path := resource name (some "commit"),
    body := some (commitBody transport message description) }

/-- The request to bring the newest commit. -/
def pullRequest (name : String) : Request := jsonRequest (resource name (some "pullByCommit"))

theorem runs_clone_iff {outcome : Except Error Response} :
    Runs clone proxy asked outcome after ↔
      ∃ reply, asked = [(cloneRequest proxy.name, reply)] ∧
        outcome = proxy.answer (cloneRequest proxy.name) reply ∧ after = proxy.wiped := by
  rw [clone, runs_current_bind]
  exact runs_wipingRequest_iff

theorem runs_delete_iff {outcome : Except Error Response} :
    Runs delete proxy asked outcome after ↔
      ∃ reply, asked = [(deleteRequest proxy.name, reply)] ∧
        outcome = proxy.answer (deleteRequest proxy.name) reply ∧ after = proxy.wiped := by
  rw [delete, runs_current_bind]
  exact runs_wipingRequest_iff

theorem runs_commit_iff {transport message : String} {description : Option String}
    {outcome : Except Error Response} :
    Runs (commit transport message description) proxy asked outcome after ↔
      ∃ reply, asked = [(commitRequest proxy.name transport message description, reply)] ∧
        outcome = proxy.answer (commitRequest proxy.name transport message description) reply ∧
        after = proxy.wiped := by
  rw [commit, runs_current_bind]
  exact runs_wipingRequest_iff

/-- The transition in the reply to a pull. -/
def pullAnswer (proxy : Proxy) (reply : Reply) : Except Error CommitTransition :=
  (proxy.jsonAnswer (pullRequest proxy.name) reply).bind fun body =>
    (CommitTransition.ofJson body).mapError .json

theorem runs_pull_iff {outcome : Except Error CommitTransition} :
    Runs pull proxy asked outcome after ↔
      ∃ reply, asked = [(pullRequest proxy.name, reply)] ∧ outcome = proxy.pullAnswer reply ∧
        after = proxy.wiped := by
  rw [pull, runs_current_bind, runs_bind_ofOutcome_iff]
  simp only [(asks_getJson proxy _).runs_thenWipe_iff]
  constructor
  · rintro ⟨x, rfl, reply, rfl, rfl, rfl⟩
    exact ⟨reply, rfl, rfl, rfl⟩
  · rintro ⟨reply, rfl, rfl, rfl⟩
    exact ⟨_, rfl, reply, rfl, rfl, rfl⟩

/-! ## Switching to another branch -/

/-- The request to switch to another branch, sent to the current one. -/
def switchRequest (name current target : String) : Request :=
  { method := .get, path := resource name (some ("branches/" ++ current ++ "/switch")),
    params := [("branch", target)] }

/-- The transition in the reply to a switch. -/
def switchAnswer (proxy : Proxy) (current target : String) (reply : Reply) :
    Except Error CommitTransition :=
  ((proxy.answer (switchRequest proxy.name current target) reply).bind Job.readJson).bind
    (switchOf proxy.name)

/-- The current branch in the outcome of a reading of the record. -/
def branchIn (name : String) (x : Except Error (Fields Json)) : Except Error String :=
  x.bind fun record =>
    match (Fields.get? record "branch").bind textOf with
    | some branch => .ok branch
    | none => .error (.invalidResponse (.currentBranch name))

theorem runs_currentBranch_iff {outcome : Except Error String} :
    Runs currentBranch proxy asked outcome after ↔
      ∃ x, outcome = branchIn proxy.name x ∧ Runs loaded proxy asked x after := by
  have hjob : currentBranch = loaded >>= fun record => current >>= fun proxy =>
      ofOutcome (branchIn proxy.name (.ok record)) := by
    rw [currentBranch, branch, textItem_eq_map, map_eq_pure_bind]
    simp only [bind_assoc, pure_bind]
    rfl
  rw [hjob, runs_bind_iff]
  constructor
  · rintro (⟨first, record, between, rest, rfl, hrun, hrest⟩ | ⟨error, rfl, hrun⟩)
    · obtain ⟨rfl, rfl, rfl⟩ := runs_ofOutcome_iff.1 (runs_current_bind.1 hrest)
      refine ⟨.ok record, ?_, by rwa [List.append_nil]⟩
      rw [(loaded_keeps hrun).1]
    · exact ⟨.error error, rfl, hrun⟩
  · rintro ⟨x, rfl, hrun⟩
    cases x with
    | ok record =>
      refine .inl ⟨asked, record, after, [], (List.append_nil asked).symm, hrun, ?_⟩
      rw [← (loaded_keeps hrun).1]
      exact runs_current_bind.2 (runs_ofOutcome_iff.2 ⟨rfl, rfl, rfl⟩)
    | error error => exact .inr ⟨error, rfl, hrun⟩

/-- The switch is sent when the current branch is known, and only then is anything
    forgotten. -/
theorem runs_checkout_iff {target : String} {outcome : Except Error CommitTransition} :
    Runs (checkout target) proxy asked outcome after ↔
      ∃ x first between, Runs loaded proxy first x between ∧
        ((∃ current reply, branchIn proxy.name x = .ok current ∧
            asked = first ++ [(switchRequest proxy.name current target, reply)] ∧
            outcome = proxy.switchAnswer current target reply ∧ after = between.wiped) ∨
          (∃ error, branchIn proxy.name x = .error error ∧ asked = first ∧
            outcome = .error error ∧ after = between)) := by
  have hjob : checkout target = currentBranch >>= fun branch => current >>= fun proxy =>
      (thenWipe (request (Job.sendChecked (switchRequest proxy.name branch target))) >>=
        fun response => ofOutcome (Job.readJson response)) >>= fun reply =>
          ofOutcome (switchOf proxy.name reply) := by
    simp only [checkout, bind_assoc]
    rfl
  rw [hjob, runs_bind_iff]
  simp only [runs_currentBranch_iff, runs_current_bind, runs_bind_ofOutcome_iff,
    runs_wipingRequest_iff]
  constructor
  · rintro (⟨first, current, between, rest, rfl, ⟨x, hx, hrun⟩, y, rfl, z, rfl, reply, rfl, rfl,
      rfl⟩ | ⟨error, rfl, x, hx, hrun⟩)
    · -- the reading of the record has changed neither the name nor the classifier
      obtain ⟨hname, hclass, -⟩ := loaded_keeps hrun
      refine ⟨x, first, between, hrun, .inl ⟨current, reply, hx.symm, by rw [hname], ?_, rfl⟩⟩
      rw [switchAnswer, answer, answer, hname, hclass]
    · exact ⟨x, asked, after, hrun, .inr ⟨error, hx.symm, rfl, rfl, rfl⟩⟩
  · rintro ⟨x, first, between, hrun, ⟨current, reply, hx, rfl, rfl, rfl⟩ |
      ⟨error, hx, rfl, rfl, rfl⟩⟩
    · obtain ⟨hname, hclass, -⟩ := loaded_keeps hrun
      refine .inl ⟨first, current, between, _, rfl, ⟨x, hx.symm, hrun⟩, _, ?_, _, rfl, reply,
        by rw [hname], rfl, rfl⟩
      rw [switchAnswer, answer, answer, hname, hclass]
    · exact .inr ⟨error, rfl, x, hx.symm, hrun⟩

/-! ## Moving to another address -/

/-- The request that gives a repository another address: its record with that one. -/
def moveRequest (name url : String) (record : Fields Json) : Request :=
  { method := .post, path := resource name none,
    body := some (.object (Fields.insert "url" (.string url) record)) }

/-- The record is read afresh, and sent back when it has another address. -/
theorem runs_setUrl_iff {url : String} {outcome : Except Error (Option Response)} :
    Runs (setUrl url) proxy asked outcome after ↔
      ∃ reply,
        (∃ error, proxy.recordAnswer reply = .error error ∧
          asked = [(recordRequest proxy.name, reply)] ∧ outcome = .error error ∧
          after = proxy) ∨
        (∃ record, proxy.recordAnswer reply = .ok record ∧
          Fields.get? record "url" = some (.string url) ∧
          asked = [(recordRequest proxy.name, reply)] ∧ outcome = .ok none ∧ after = proxy) ∨
        (∃ record posted, proxy.recordAnswer reply = .ok record ∧
          Fields.get? record "url" ≠ some (.string url) ∧
          asked = [(recordRequest proxy.name, reply),
            (moveRequest proxy.name url record, posted)] ∧
          outcome = (proxy.answer (moveRequest proxy.name url record) posted).map some ∧
          after = proxy.wiped) := by
  have hjob : setUrl url = readRecord >>= fun record =>
      if Fields.get? record "url" = some (.string url) then pure none
      else current >>= fun proxy =>
        some <$> thenWipe (request (Job.sendChecked (moveRequest proxy.name url record))) := by
    simp only [map_eq_pure_bind]
    rfl
  rw [hjob, runs_bind_iff]
  simp only [(asks_readRecord proxy).runs_iff]
  constructor
  · rintro (⟨first, record, between, rest, rfl, ⟨reply, rfl, hx, rfl⟩, hrest⟩ |
      ⟨error, rfl, reply, rfl, hx, rfl⟩)
    · refine ⟨reply, .inr ?_⟩
      by_cases hurl : Fields.get? record "url" = some (.string url)
      · rw [if_pos hurl] at hrest
        obtain ⟨rfl, rfl, rfl⟩ := runs_pure_iff.1 hrest
        exact .inl ⟨record, hx.symm, hurl, rfl, rfl, rfl⟩
      · rw [if_neg hurl, runs_current_bind, runs_map_iff] at hrest
        obtain ⟨x, rfl, hwipe⟩ := hrest
        obtain ⟨posted, rfl, rfl, rfl⟩ := runs_wipingRequest_iff.1 hwipe
        exact .inr ⟨record, posted, hx.symm, hurl, rfl, rfl, rfl⟩
    · exact ⟨reply, .inl ⟨error, hx.symm, rfl, rfl, rfl⟩⟩
  · rintro ⟨reply, ⟨error, hx, rfl, rfl, rfl⟩ | ⟨record, hx, hurl, rfl, rfl, rfl⟩ |
      ⟨record, posted, hx, hurl, rfl, rfl, rfl⟩⟩
    · exact .inr ⟨error, rfl, reply, rfl, hx.symm, rfl⟩
    · refine .inl ⟨[_], record, _, [], rfl, ⟨reply, rfl, hx.symm, rfl⟩, ?_⟩
      rw [if_pos hurl]
      exact runs_pure_iff.2 ⟨rfl, rfl, rfl⟩
    · refine .inl ⟨[_], record, proxy, [_], rfl, ⟨reply, rfl, hx.symm, rfl⟩, ?_⟩
      rw [if_neg hurl, runs_current_bind, runs_map_iff]
      exact ⟨_, rfl, runs_wipingRequest_iff.2 ⟨posted, rfl, rfl, rfl⟩⟩

/-! ## Setting a key -/

/-- The request to set a key. -/
def setKeyRequest (name key value : String) : Request :=
  { method := .post, path := resource name (some "config"), body := some (keyBody key value) }

/-- A key is set in what is known when the service has accepted it. -/
theorem runs_setConfig_iff {key value : String} {outcome : Except Error Unit} :
    Runs (setConfig key value) proxy asked outcome after ↔
      ∃ reply, asked = [(setKeyRequest proxy.name key value, reply)] ∧
        ((∃ response, proxy.answer (setKeyRequest proxy.name key value) reply = .ok response ∧
            outcome = .ok () ∧ after = proxy.setKnown key value) ∨
          (∃ error, proxy.answer (setKeyRequest proxy.name key value) reply = .error error ∧
            outcome = .error error ∧ after = proxy)) := by
  have hjob : setConfig key value = current >>= fun proxy =>
      request (Job.sendChecked (setKeyRequest proxy.name key value)) >>= fun _ =>
        update (setKnown key value) >>= fun _ => pure () := rfl
  rw [hjob, runs_current_bind]
  exact (asks_sendChecked proxy _).runs_update_iff

/-! ## Registering -/

/-- The record in the reply to a registration. -/
def createAnswer (proxy : Proxy) (data : Fields Json) (reply : Reply) :
    Except Error (Fields Json) :=
  ((proxy.answer (Registration.request proxy.name data) reply).bind Job.readJson).bind
    (Registration.recordOf proxy.name)

theorem registrationRecordOf_eq_ok_iff {name : String} {body : Json} {record : Fields Json} :
    Registration.recordOf name body = .ok record ↔
      (body.member? "repository").bind Json.asObject? = some record := by
  unfold Registration.recordOf
  split <;> simp [*]

/-- The record that comes back from a registration is told by an accepting reply. -/
theorem told_of_createAnswer {data record : Fields Json} {reply : Reply}
    (h : proxy.createAnswer data reply = .ok record) :
    Job.accepted reply = true ∧ ∃ body, Job.bodyOf? reply = some body ∧
      (body.member? "repository").bind Json.asObject? = some record := by
  obtain ⟨body, hread, hresult⟩ := bind_eq_ok_iff.1 h
  obtain ⟨response, hanswer, hbody⟩ := bind_eq_ok_iff.1 hread
  exact ⟨accepted_of_answer hanswer, body,
    Job.bodyOf_of_readJson (mapError_eq_ok_iff.1 hanswer) hbody,
    registrationRecordOf_eq_ok_iff.1 hresult⟩

/-- Registering sends one request when its record can be made, and changes the proxy
    when a record comes back. -/
theorem runs_create_iff {registration : Registration} {outcome : Except Error Unit} :
    Runs (create registration) proxy asked outcome after ↔
      (∃ error, registration.record proxy = .error error ∧ asked = [] ∧
        outcome = .error error ∧ after = proxy) ∨
      (∃ data reply, registration.record proxy = .ok data ∧
        asked = [(Registration.request proxy.name data, reply)] ∧
        ((∃ record, proxy.createAnswer data reply = .ok record ∧ outcome = .ok () ∧
            after = Registration.registered record proxy) ∨
          (∃ error, proxy.createAnswer data reply = .error error ∧ outcome = .error error ∧
            after = proxy))) := by
  have hjob : create registration = current >>= fun proxy =>
      ofOutcome (registration.record proxy) >>= fun data =>
        ((request (Job.sendChecked (Registration.request proxy.name data)) >>= fun response =>
          ofOutcome (Job.readJson response)) >>= fun reply =>
            ofOutcome (Registration.recordOf proxy.name reply)) >>= fun record =>
              update (Registration.registered record) >>= fun _ => pure () := by
    simp only [create, bind_assoc]
    rfl
  have hasks (data : Fields Json) :=
    ((asks_sendChecked proxy (Registration.request proxy.name data)).bind_ofOutcome
      Job.readJson).bind_ofOutcome (Registration.recordOf proxy.name)
  rw [hjob, runs_current_bind, runs_ofOutcome_bind_iff]
  simp only [(hasks _).runs_update_iff]
  constructor
  · rintro (⟨data, hdata, reply, rfl, hreply⟩ | herror)
    · exact .inr ⟨data, reply, hdata, rfl, hreply⟩
    · exact .inl herror
  · rintro (herror | ⟨data, reply, hdata, rfl, hreply⟩)
    · exact .inr herror
    · exact .inl ⟨data, hdata, reply, rfl, hreply⟩

/-! ## The history -/

/-- The request for the commits of a repository. -/
def logRequest (name : String) : Request := jsonRequest (resource name (some "getCommit"))

/-- The commits in the reply to the request for them. -/
def logAnswer (proxy : Proxy) (reply : Reply) : Except Error (List Commit) :=
  (proxy.jsonAnswer (logRequest proxy.name) reply).bind fun body =>
    (Commit.listOfJson (body.member? "commits")).mapError .json

/-- Reading the history sends one request and changes nothing. -/
theorem runs_log_iff {outcome : Except Error (List Commit)} :
    Runs log proxy asked outcome after ↔
      ∃ reply, asked = [(logRequest proxy.name, reply)] ∧ outcome = proxy.logAnswer reply ∧
        after = proxy := by
  exact (asks_current_bind ((asks_getJson proxy _).bind_ofOutcome _)).runs_iff

end Proxy

end GitTransport
