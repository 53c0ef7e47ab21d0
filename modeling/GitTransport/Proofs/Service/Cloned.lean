/-
What a clone leaves at the service.

  The service keeps a record of the repository and says nothing that is not in it, but
  the reply to a registration may leave members out (`Truthful`).  A clone that succeeds
  then leaves a repository that has been cloned, unless the reply to its registration
  was accepted and had no status (`uncloned_iff_of_cloneNew`): a record without a status
  counts as that of a cloned repository, and a record that is known is not read again.
  Such a reply leads to a clone that reports success and leaves the repository as it was
  registered (`uncloned_of_omission`).
-/

import GitTransport.Proofs.Service.Moves
import GitTransport.Proofs.Workflow.Cloning

namespace GitTransport

open Workflow

/-! ## Truthful services -/

/-- A reply of a service that keeps the record `before` of a repository, and the record
    `after` behind its reply. -/
structure Truthful (name : String) (before : Option (Fields Json)) (request : Request)
    (reply : Reply) (after : Option (Fields Json)) : Prop where
  /-- The record is told as it is kept, and telling it changes nothing. -/
  record : request = Proxy.recordRequest name → after = before ∧
    ∀ body told, Job.bodyOf? reply = some body →
      (body.member? "result").bind Json.asObject? = some told → before = some told
  /-- A registration that is accepted leaves a repository without a clone; what its
      reply says of the repository is so. -/
  registered : ∀ data, request = Registration.request name data → Job.accepted reply = true →
    ∃ kept, after = some kept ∧ Uncloned kept ∧
      ∀ body told, Job.bodyOf? reply = some body →
        (body.member? "repository").bind Json.asObject? = some told →
        ∀ member value, Fields.get? told member = some value → Fields.get? kept member = some value
  /-- A clone that is accepted leaves a repository with one. -/
  cloned : request = Proxy.cloneRequest name → Job.accepted reply = true →
    ∃ kept, after = some kept ∧ ¬ Uncloned kept

section

variable {name : String} {before after : Option (Fields Json)} {reply : Reply}

/-- The record that is read is the one that is kept. -/
theorem Truthful.eq_of_recordAnswer {record : Fields Json}
    (h : Truthful name before (Proxy.recordRequest name) reply after)
    (hrecord : (Proxy.new name).recordAnswer reply = .ok record) :
    before = some record ∧ after = some record := by
  obtain ⟨hsame, htold⟩ := h.record rfl
  obtain ⟨body, hbody, hresult⟩ := bind_eq_ok_iff.1 hrecord
  have hkept := htold body record (Proxy.bodyOf_of_jsonAnswer hbody)
    (Proxy.recordOf_eq_ok_iff.1 hresult)
  exact ⟨hkept, hsame.trans hkept⟩

/-- A registered repository has a status, and the reply has the same one or none. -/
theorem Truthful.registered_spec {data told : Fields Json}
    (h : Truthful name before (Registration.request name data) reply after)
    (htold : (Proxy.new name).createAnswer data reply = .ok told) :
    ∃ kept, after = some kept ∧ Uncloned kept ∧
      (Uncloned told ↔ Fields.get? told "status" ≠ none) := by
  obtain ⟨haccepted, body, hbody, hresult⟩ := Proxy.told_of_createAnswer htold
  obtain ⟨kept, hkept, huncloned, htrue⟩ := h.registered data rfl haccepted
  refine ⟨kept, hkept, huncloned, fun hstatus => ?_, fun hstatus => ?_⟩
  · rw [hstatus]
    exact Option.some_ne_none _
  · obtain ⟨value, hvalue⟩ := Option.ne_none_iff_exists'.1 hstatus
    have hsame := htrue body told hbody hresult "status" value hvalue
    have heq : value = .string Proxy.statusCreated :=
      Option.some.inj (hsame.symm.trans huncloned)
    rw [Uncloned, hvalue, heq]

end

/-! ## Clones at a service -/

/-- The reply to the registration that `asked` begins with is accepted, and the record in
    it has no status. -/
def Omits (name : String) (asked : List (Request × Reply)) : Prop :=
  ∃ data created rest told, asked = (Registration.request name data, created) :: rest ∧
    (Proxy.new name).createAnswer data created = .ok told ∧ Fields.get? told "status" = none

/-- A finish that succeeds leaves the record as it was when that says nothing of a missing
    clone, and a cloned repository otherwise. -/
theorem exists_kept_of_finish {name : String} {record : Fields Json}
    {rest : List (Request × Reply)} {proxy : Proxy} (h : Finish name record rest (.ok proxy))
    {middle later : Option (Fields Json)} (hc : Exchange.Chain (Truthful name) middle rest later) :
    (¬ Uncloned record ∧ later = middle) ∨
      (Uncloned record ∧ ∃ kept, later = some kept ∧ ¬ Uncloned kept) := by
  rcases finish_cases h with ⟨huncloned, rfl, -⟩ |
    ⟨huncloned, reply, rfl, ⟨response, -, haccepted, -⟩ | ⟨error, -, -, heq⟩⟩
  · exact .inl ⟨huncloned, Exchange.chain_nil_iff.1 hc⟩
  · exact .inr ⟨huncloned, (Exchange.chain_singleton_iff.1 hc).cloned rfl haccepted⟩
  · cases heq

/-- Behind a clone that succeeds there is a clone, or none because the status was
    omitted. -/
theorem exists_kept_of_course {name : String} {options : CloneOptions} {data : Fields Json}
    {asked : List (Request × Reply)} {proxy : Proxy}
    (h : Course name options data asked (.ok proxy)) {before later : Option (Fields Json)}
    (hc : Exchange.Chain (Truthful name) before asked later) :
    ∃ kept, later = some kept ∧ (Uncloned kept ↔ Omits name asked) := by
  cases h with
  | registered hrecord hfinish =>
    obtain ⟨middle, hstep, hrest⟩ := Exchange.chain_cons_iff.1 hc
    obtain ⟨kept, rfl, hkept, hstatus⟩ := hstep.registered_spec hrecord
    -- without a clone the status was not told, as the one that is kept calls for a clone
    rcases exists_kept_of_finish hfinish hrest with ⟨huncloned, rfl⟩ | ⟨huncloned, kept', rfl, hnot⟩
    · refine ⟨kept, rfl, fun _ => ⟨_, _, _, _, rfl, hrecord, ?_⟩, fun _ => hkept⟩
      exact Decidable.byContradiction fun hne => huncloned (hstatus.2 hne)
    · refine ⟨kept', rfl, fun huncloned' => absurd huncloned' hnot, ?_⟩
      rintro ⟨_, _, _, _, heq, htold, hnone⟩
      cases heq
      cases hrecord.symm.trans htold
      exact absurd hnone (hstatus.1 huncloned)
  | @found created told error record rest _ herror htolerates hrecord hfinish =>
    obtain ⟨first, -, hmore⟩ := Exchange.chain_cons_iff.1 hc
    obtain ⟨middle, hstep, hrest⟩ := Exchange.chain_cons_iff.1 hmore
    obtain ⟨-, rfl⟩ := hstep.eq_of_recordAnswer hrecord
    -- the registration was not accepted, and the record that was read is the one kept
    have hnot : ¬ Omits name ((Registration.request name data, created) ::
        (Proxy.recordRequest name, told) :: rest) := by
      rintro ⟨_, _, _, _, heq, htold, -⟩
      cases heq
      cases herror.symm.trans htold
    rcases exists_kept_of_finish hfinish hrest with ⟨huncloned, rfl⟩ | ⟨-, kept, rfl, huncloned⟩
    · exact ⟨record, rfl, fun h => absurd h huncloned, fun h => absurd h hnot⟩
    · exact ⟨kept, rfl, fun h => absurd h huncloned, fun h => absurd h hnot⟩

/-- Whatever truthful service a clone runs against: if it succeeds, the repository has
    been cloned exactly when the reply to an accepted registration did not omit its
    status. -/
theorem uncloned_iff_of_cloneNew {σ : Type} {peer : σ → Request → Reply × σ}
    {kept : σ → Option (Fields Json)} {name : String}
    (htruthful : ∀ s request,
      Truthful name (kept s) request (peer s request).1 (kept (peer s request).2))
    {url : String} {options : CloneOptions} {s : σ} {proxy : Proxy}
    (hok : ((cloneNew url name options).run.play peer s).1.result = .ok proxy) :
    ∃ record, kept ((cloneNew url name options).run.play peer s).2 = some record ∧
      (Uncloned record ↔ Omits name ((cloneNew url name options).run.play peer s).1.asked) := by
  obtain ⟨data, hdata⟩ := exists_record url name options
  have hpath := Exchange.path_play peer (cloneNew url name options).run s
  rw [hok] at hpath
  exact exists_kept_of_course ((path_cloneNew_iff_course hdata).1 hpath)
    (Exchange.chain_play htruthful _ s)

/-! ## A service that may omit the status -/

/-- How far a repository has come. -/
inductive Stage where
  | absent
  | registered
  | cloned

namespace Stage

/-- The record at a stage. -/
def kept : Stage → Option (Fields Json)
  | .absent => none
  | .registered => some [("rid", .string "demo"), ("status", .string "CREATED")]
  | .cloned => some [("rid", .string "demo"), ("status", .string "READY")]

/-- The reply to a registration, with the whole record or without the status. -/
def createdReply (whole : Bool) : Reply :=
  .ok (Response.ofJson 201 (.object [("repository", .object
    (if whole then [("rid", .string "demo"), ("status", .string "CREATED")]
      else [("rid", .string "demo")]))]))

/-- The reply to a request for the record. -/
def recordReply (stage : Stage) : Reply :=
  match stage.kept with
  | some record => .ok (Response.ofJson 200 (.object [("result", .object record)]))
  | none => .ok ⟨404, [], ""⟩

/-- The answers of the service; `whole` says whether a registration is answered with the
    status. -/
def serve (whole : Bool) (stage : Stage) (request : Request) : Reply × Stage :=
  if request.path = "repository" then (createdReply whole, .registered)
  else if request = Proxy.recordRequest "demo" then (stage.recordReply, stage)
  else if request = Proxy.cloneRequest "demo" then (.ok ⟨200, [], ""⟩, .cloned)
  else (.ok ⟨404, [], ""⟩, stage)

/-- What the reply to a request for the record tells is the record. -/
theorem kept_of_recordReply {stage : Stage} {body : Json} {told : Fields Json}
    (hbody : Job.bodyOf? stage.recordReply = some body)
    (htold : (body.member? "result").bind Json.asObject? = some told) :
    stage.kept = some told := by
  -- the reply is written out and read again, which evaluates at each of the stages
  have htells (record : Fields Json) (hkept : stage.kept = some record) :
      Job.bodyOf? stage.recordReply = some (.object [("result", .object record)]) := by
    cases stage with
    | absent => cases hkept
    | registered =>
      cases hkept
      rfl
    | cloned =>
      cases hkept
      rfl
  cases hkept : stage.kept with
  | none =>
    rw [recordReply, hkept] at hbody
    cases hbody
  | some record =>
    rw [htells record hkept] at hbody
    cases hbody
    cases htold
    rfl

/-- What the reply to a registration tells is in the record. -/
theorem get?_of_createdReply {whole : Bool} {body : Json} {told : Fields Json}
    (hbody : Job.bodyOf? (createdReply whole) = some body)
    (htold : (body.member? "repository").bind Json.asObject? = some told) {member : String}
    {value : Json} (hvalue : Fields.get? told member = some value) :
    Fields.get? [("rid", .string "demo"), ("status", .string "CREATED")] member = some value := by
  have htells : Job.bodyOf? (createdReply whole) = some (.object [("repository", .object
      (if whole then [("rid", .string "demo"), ("status", .string "CREATED")]
        else [("rid", .string "demo")]))]) := by
    cases whole <;> rfl
  rw [htells] at hbody
  cases hbody
  cases htold
  cases whole with
  | true => exact hvalue
  | false =>
    simp only [Bool.false_eq_true, if_false, Fields.get?_cons, Fields.get?_nil] at hvalue ⊢
    split at hvalue
    · next hrid => rwa [if_pos hrid]
    · cases hvalue

/-- The service is truthful, whether it tells the status or not. -/
theorem truthful_serve (whole : Bool) (stage : Stage) (request : Request) :
    Truthful "demo" stage.kept request (serve whole stage request).1
      (serve whole stage request).2.kept := by
  -- what is asked for has a path or a method of its own
  have hregister (data : Fields Json) (h : request = Registration.request "demo" data) :
      request.path = "repository" := by
    subst h
    rfl
  by_cases hcreate : request.path = "repository"
  · have hother : request ≠ Proxy.recordRequest "demo" ∧ request ≠ Proxy.cloneRequest "demo" := by
      refine ⟨?_, ?_⟩ <;> rintro rfl <;> exact absurd hcreate (by decide)
    rw [serve, if_pos hcreate]
    exact ⟨fun h => absurd h hother.1,
      fun data _ _ => ⟨_, rfl, rfl, fun _ _ hbody htold _ _ => get?_of_createdReply hbody htold⟩,
      fun h => absurd h hother.2⟩
  · have hnew (data : Fields Json) : request ≠ Registration.request "demo" data :=
      fun h => hcreate (hregister data h)
    by_cases hrecord : request = Proxy.recordRequest "demo"
    · have hclone : request ≠ Proxy.cloneRequest "demo" := by
        rw [hrecord]
        exact recordRequest_ne_cloneRequest "demo"
      rw [serve, if_neg hcreate, if_pos hrecord]
      exact ⟨fun _ => ⟨rfl, fun _ _ => kept_of_recordReply⟩, fun data h => absurd h (hnew data),
        fun h => absurd h hclone⟩
    · by_cases hclone : request = Proxy.cloneRequest "demo"
      · rw [serve, if_neg hcreate, if_neg hrecord, if_pos hclone]
        exact ⟨fun h => absurd h hrecord, fun data h => absurd h (hnew data),
          fun _ _ => ⟨_, rfl, by decide⟩⟩
      · rw [serve, if_neg hcreate, if_neg hrecord, if_neg hclone]
        exact ⟨fun h => absurd h hrecord, fun data h => absurd h (hnew data),
          fun h => absurd h hclone⟩

end Stage

/-- A registration whose reply tells the status is followed by a clone. -/
theorem uncloned_iff_of_cloneNew_whole :
    let run := (cloneNew "https://host/demo.git" "demo" {}).run.play (Stage.serve true) .absent
    ∃ record, Stage.kept run.2 = some record ∧ (Uncloned record ↔ Omits "demo" run.1.asked) := by
  intro run
  have hok : run.1.result = .ok (.new "demo") := rfl
  exact uncloned_iff_of_cloneNew (Stage.truthful_serve true) hok

/-- A registration whose reply omits it is reported as a clone, and there is none. -/
theorem uncloned_of_omission :
    ¬ ∀ (σ : Type) (peer : σ → Request → Reply × σ) (kept : σ → Option (Fields Json))
      (url name : String) (options : CloneOptions) (s : σ) (proxy : Proxy),
      (∀ s request,
        Truthful name (kept s) request (peer s request).1 (kept (peer s request).2)) →
      ((cloneNew url name options).run.play peer s).1.result = .ok proxy →
      ∀ record, kept ((cloneNew url name options).run.play peer s).2 = some record →
        ¬ Uncloned record := by
  intro h
  have hok : ((cloneNew "https://host/demo.git" "demo" {}).run.play (Stage.serve false)
      .absent).1.result = .ok ⟨"demo", .standard, some [("rid", .string "demo")], none⟩ := rfl
  exact h Stage (Stage.serve false) Stage.kept _ _ _ _ _ (Stage.truthful_serve false) hok _ rfl rfl

end GitTransport
