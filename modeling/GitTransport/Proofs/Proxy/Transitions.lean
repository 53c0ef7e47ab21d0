/-
The transitions that a pull and a switch report.

  A pull reads the whole body of its reply as a transition, a switch the member `result` in it
  (`runs_pull_iff_of_body`, `runs_checkout_iff_of_result`).  Both read it in the same way, and
  nothing of what the service reports is lost (`transitions_lossless`).
-/

import GitTransport.Proofs.Json.Parser
import GitTransport.Proofs.Proxy.Changing
import GitTransport.Proofs.Repository.Transition

namespace GitTransport

open ProxyJob

/-- The JSON in a reply has its members in order. -/
theorem Job.wellFormed_of_bodyOf {reply : Reply} {body : Json} (h : Job.bodyOf? reply = some body) :
    body.WellFormed := by
  obtain ⟨response, -, -, hjson⟩ := Job.bodyOf_eq_some_iff.1 h
  exact Json.wellFormed_of_parse hjson

namespace Proxy

variable {proxy between after : Proxy} {reply : Reply} {body v : Json}
  {outcome : Except Error CommitTransition}

/-- The whole body of the reply to a pull is read as a transition. -/
theorem runs_pull_iff_of_body (hbody : Job.bodyOf? reply = some body) :
    Runs pull proxy [(pullRequest proxy.name, reply)] outcome after ↔
      outcome = (CommitTransition.ofJson body).mapError .json ∧ after = proxy.wiped := by
  have hanswer : proxy.pullAnswer reply = (CommitTransition.ofJson body).mapError .json := by
    rw [pullAnswer, jsonAnswer_eq_ok_iff.2 hbody]
    rfl
  rw [runs_pull_iff, exists_reply_iff, hanswer]

/-- The member `result` in the reply to a switch is read as a transition, whatever was asked
    for to find the current branch. -/
theorem runs_checkout_iff_of_result {first : List (Request × Reply)} {current target : String}
    (hbranch : Runs currentBranch proxy first (.ok current) between)
    (hbody : Job.bodyOf? reply = some body) (hresult : body.member? "result" = some v) :
    Runs (checkout target) proxy (first ++ [(switchRequest proxy.name current target, reply)])
        outcome after ↔
      outcome = (CommitTransition.ofJson v).mapError .json ∧ after = proxy.wiped := by
  have hanswer : proxy.switchAnswer current target reply =
      (CommitTransition.ofJson v).mapError .json := by
    obtain ⟨response, rfl, hsuccess, hjson⟩ := Job.bodyOf_eq_some_iff.1 hbody
    rw [switchAnswer, answer_eq_ok_iff.2 ⟨rfl, hsuccess⟩]
    show (Job.readJson response).bind _ = _
    rw [Job.readJson, hjson]
    show switchOf proxy.name body = _
    rw [switchOf, hresult]
  obtain ⟨x, hx, hloaded⟩ := runs_currentBranch_iff.1 hbranch
  rw [runs_checkout_iff]
  constructor
  · -- the replies settle what was asked for to find the branch, and so the branch
    rintro ⟨x', first', between', hloaded', ⟨current', reply', hx', hasked, rfl, rfl⟩ |
      ⟨error, -, hasked, -, -⟩⟩
    · obtain ⟨rfl, hlast, heq⟩ := Exchange.Path.unique hloaded hloaded' hasked
      cases heq
      obtain rfl := Except.ok.inj (hx.trans hx')
      obtain ⟨-, rfl⟩ := Prod.mk.inj (List.singleton_inj.1 hlast)
      exact ⟨hanswer, wiped_of_loaded hloaded⟩
    · obtain ⟨-, hlast, -⟩ :=
        Exchange.Path.unique hloaded hloaded' (hasked.trans (List.append_nil _).symm)
      cases hlast
  · rintro ⟨rfl, rfl⟩
    exact ⟨x, first, between, hloaded,
      .inl ⟨current, reply, hx.symm, rfl, hanswer.symm, (wiped_of_loaded hloaded).symm⟩⟩

/-- A pull and a switch read a transition in one way.  It is read exactly if it is an object
    whose commits are texts, null or missing.  Then it is kept in full, so that it can be written
    again; and what is written of a transition is read back unless another of its members has
    the name of a commit. -/
theorem transitions_lossless :
    (∀ proxy after reply body outcome, Job.bodyOf? reply = some body → body.WellFormed ∧
      (Runs pull proxy [(pullRequest proxy.name, reply)] outcome after ↔
        outcome = (CommitTransition.ofJson body).mapError .json ∧ after = proxy.wiped)) ∧
    (∀ proxy between after first current target reply body v outcome,
      Runs currentBranch proxy first (.ok current) between → Job.bodyOf? reply = some body →
        body.member? "result" = some v → v.WellFormed ∧
          (Runs (checkout target) proxy
              (first ++ [(switchRequest proxy.name current target, reply)]) outcome after ↔
            outcome = (CommitTransition.ofJson v).mapError .json ∧ after = proxy.wiped)) ∧
    (∀ v, CommitTransition.Lossless v) ∧
    ∀ t : CommitTransition, CommitTransition.ofJson t.toJson = .ok t ↔
      t.extra.Sorted ∧ Fields.get? t.extra "fromCommit" = none ∧
        Fields.get? t.extra "toCommit" = none := by
  refine ⟨?_, ?_, CommitTransition.lossless, fun _ => CommitTransition.ofJson_toJson_iff⟩
  · intro proxy after reply body outcome hbody
    exact ⟨Job.wellFormed_of_bodyOf hbody, runs_pull_iff_of_body hbody⟩
  · intro proxy between after first current target reply body v outcome hbranch hbody hresult
    have hwell := Json.wellFormed_member (Job.wellFormed_of_bodyOf hbody) hresult
    exact ⟨hwell, runs_checkout_iff_of_result hbranch hbody hresult⟩

end Proxy

namespace Proxy.MissingCommit

/-- What a switch tells: the commit before it is missing. -/
def told : Json := .object [("request", .string "DEVK900001"), ("toCommit", .string "b2")]

/-- The body, in which a pull finds a null and no commit behind it. -/
def body : Json := .object [("fromCommit", .null), ("result", told)]

def reply : Reply := .ok (Response.ofJson 200 body)

/-- A proxy that knows its branch. -/
def proxy : Proxy := ⟨"demo", .standard, some [("branch", .string "main")], none⟩

theorem bodyOf_reply : Job.bodyOf? reply = some body := rfl

theorem runs_currentBranch : Runs currentBranch proxy [] (.ok "main") proxy :=
  runs_currentBranch_iff.2 ⟨_, rfl, runs_loaded_iff.2 (.inl ⟨_, rfl, rfl, rfl, rfl⟩)⟩

end Proxy.MissingCommit

namespace Proxy

open MissingCommit in
/-- One body, in full behind a pull and in part behind a switch. -/
theorem transitions_lossless_missingCommit :
    Job.bodyOf? reply = some body ∧ Runs currentBranch proxy [] (.ok "main") proxy ∧
      Runs pull proxy [(pullRequest "demo", reply)] (.ok ⟨none, none, [("result", told)]⟩)
        proxy.wiped ∧
      Runs (checkout "next") proxy [(switchRequest "demo" "main" "next", reply)]
        (.ok ⟨none, some "b2", [("request", .string "DEVK900001")]⟩) proxy.wiped ∧
      CommitTransition.toJson ⟨none, none, [("result", told)]⟩ =
        .object [("fromCommit", .null), ("result", told), ("toCommit", .null)] ∧
      CommitTransition.ofJson (CommitTransition.toJson ⟨none, none, [("result", told)]⟩) =
        .ok ⟨none, none, [("result", told)]⟩ := by
  obtain ⟨hpull, hcheckout, hlossless, hback⟩ := transitions_lossless
  obtain ⟨hwell, hpulled⟩ := hpull proxy proxy.wiped reply body _ bodyOf_reply
  obtain ⟨-, hswitched⟩ := hcheckout proxy proxy proxy.wiped [] "main" "next" reply body told _
    runs_currentBranch bodyOf_reply rfl
  refine ⟨bodyOf_reply, runs_currentBranch, hpulled.2 ⟨rfl, rfl⟩, hswitched.2 ⟨rfl, rfl⟩, ?_, ?_⟩
  · exact (hlossless body).written _ _ rfl rfl hwell
  · exact (hback _).2 ⟨List.pairwise_singleton _ _, rfl, rfl⟩

end Proxy

end GitTransport
