/-
Services that keep a repository and answer honestly about it.

  A service keeps the record of a repository and the value of every key of its
  configuration (`Kept`), or nothing while the repository is not registered.
  `Honest name before request reply after` says how a request and its reply go with
  what is kept before and after:

    * what is told of the record or of a key is what is kept, and telling it changes
      nothing;
    * a key that is set is set, and one that is refused, or gets no reply, is not;
    * a repository is registered once, and the reply tells the new record; it may be
      registered also when the reply is lost on its way;
    * cloning, switching, pulling, deleting, committing and giving another address
      may change everything, also when they are answered with an error.

  A reply need not tell anything: every request may be answered with an error, or
  with a body that cannot be read.  The honest services are the machines whose every
  answer is of this kind (`Service`).  A `Conversation` is a proxy with such a service.
-/

import GitTransport.Proofs.Proxy.Operation

namespace GitTransport

open ProxyJob Proxy

/-! ## What is kept -/

/-- What a service keeps of a registered repository: its record, and the value of
    every key.  The record need not list every key, but what it lists is so. -/
structure Kept where
  record : Fields Json
  settings : Dictionary String
  listed : ∀ entries, entriesOf (Fields.get? record "config") = .ok entries →
    ∀ key value, (Configuration.toDictionary entries).get? key = some value →
      settings.get? key = some value

/-- The record lists every key. -/
def Kept.Full (kept : Kept) : Prop :=
  ∃ entries, entriesOf (Fields.get? kept.record "config") = .ok entries ∧
    Configuration.toDictionary entries = kept.settings

/-- A key was given a value, and nothing else was changed. -/
def Kept.Written (key value : String) (before after : Kept) : Prop :=
  after.settings = before.settings.insert key value ∧
    ∀ member, member ≠ "config" →
      Fields.get? after.record member = Fields.get? before.record member

/-! ## Honest replies -/

/-- A request and its reply go with what is kept before and after. -/
structure Honest (name : String) (before : Option Kept) (request : Request) (reply : Reply)
    (after : Option Kept) : Prop where
  /-- A record that is told is the one kept. -/
  record : request = recordRequest name → after = before ∧
    ∀ body record, Job.bodyOf? reply = some body →
      (body.member? "result").bind Json.asObject? = some record →
        ∃ kept, before = some kept ∧ kept.record = record
  /-- A value that is told is the one kept. -/
  value : ∀ key, request = keyRequest name key → after = before ∧
    ∀ body value, Job.bodyOf? reply = some body →
      ((body.member? "result").bind (·.member? "value")).bind textOf = some value →
        ∃ kept, before = some kept ∧ kept.settings.get? key = some value
  /-- To tell the commits is to change nothing. -/
  history : request = logRequest name → after = before
  /-- A key is set in a registered repository, or nothing happens. -/
  setting : ∀ key value, request = setKeyRequest name key value →
    (Job.accepted reply = true ∧ ∃ b a, before = some b ∧ after = some a ∧ b.Written key value a) ∨
      (Job.accepted reply = false ∧ after = before)
  /-- A repository that is not registered becomes so, or nothing happens.  Without a
      reply nobody can say which. -/
  registration : ∀ data, request = Registration.request name data →
    (Job.accepted reply = true ∧ before = none ∧ ∃ kept, after = some kept ∧
      ∀ body record, Job.bodyOf? reply = some body →
        (body.member? "repository").bind Json.asObject? = some record → kept.record = record) ∨
      (Job.accepted reply = false ∧
        (after = before ∨ ((∃ reason, reply = .error reason) ∧ before = none)))

/-- A machine that keeps the repository `name` and answers honestly. -/
structure Service (name : String) where
  State : Type
  serve : State → Request → Reply × State
  kept : State → Option Kept
  honest : ∀ state request,
    Honest name (kept state) request (serve state request).1 (kept (serve state request).2)

/-! ## Conversations -/

/-- A proxy and the service that it talks to. -/
structure Conversation {name : String} (service : Service name) where
  proxy : Proxy
  state : service.State

namespace Conversation

variable {name : String} {service : Service name}

/-- What the service keeps. -/
def kept (talk : Conversation service) : Option Kept := service.kept talk.state

/-- Carry out an operation, with its outcome. -/
def perform (talk : Conversation service) (op : Operation) :
    Except Error op.Answer × Conversation service :=
  let (transcript, state) := (op.job.runOn talk.proxy).play service.serve talk.state
  (transcript.result.1, ⟨transcript.result.2, state⟩)

/-- The conversation behind a list of operations, whatever their outcomes are. -/
def run (talk : Conversation service) : List Operation → Conversation service
  | [] => talk
  | op :: ops => run (talk.perform op).2 ops

/-- What an operation does in a conversation is one of its runs, and the replies in it are
    honest. -/
theorem runs_perform (talk : Conversation service) (op : Operation) :
    ∃ asked, Runs op.job talk.proxy asked (talk.perform op).1 (talk.perform op).2.proxy ∧
      Exchange.Chain (Honest name) talk.kept asked (talk.perform op).2.kept :=
  ⟨_, Exchange.path_play service.serve (op.job.runOn talk.proxy) talk.state,
    Exchange.chain_play service.honest (op.job.runOn talk.proxy) talk.state⟩

end Conversation

/-! ## A service with two keys -/

namespace TwoKeys

/-- The entries before and after the second key has been set. -/
def entries : Bool → List Configuration.Entry
  | false => [⟨"A", "1"⟩]
  | true => [⟨"A", "1"⟩, ⟨"B", "2"⟩]

/-- The record, which lists every key. -/
def record (set : Bool) : Fields Json :=
  [("config", Configuration.toJson (entries set)), ("status", .string "READY")]

theorem entriesOf_record (set : Bool) :
    entriesOf (Fields.get? (record set) "config") = .ok (entries set) := by
  cases set <;> rfl

/-- What is kept. -/
def kept (set : Bool) : Kept where
  record := record set
  settings := Configuration.toDictionary (entries set)
  listed known hknown key value hget := by
    rw [entriesOf_record] at hknown
    cases hknown
    exact hget

/-- The reply that tells the record. -/
def recordReply (set : Bool) : Reply :=
  .ok (Response.ofJson 200 (.object [("result", .object (record set))]))

theorem bodyOf_recordReply (set : Bool) :
    Job.bodyOf? (recordReply set) = some (.object [("result", .object (record set))]) := by
  cases set <;> rfl

/-- The record is told, the second key can be set to one value, and everything else
    is refused. -/
def serve (set : Bool) (request : Request) : Reply × Bool :=
  if request = recordRequest "demo" then (recordReply set, set)
  else if request = setKeyRequest "demo" "B" "2" then (.ok (Response.ofJson 200 (.object [])), true)
  else (.ok ⟨404, [], ""⟩, set)

theorem written_kept (set : Bool) : (kept set).Written "B" "2" (kept true) := by
  constructor
  · cases set <;> decide
  · intro member hmember
    cases set <;> simp [kept, record, Fields.get?_cons, Ne.symm hmember]

theorem honest_serve (set : Bool) (request : Request) :
    Honest "demo" (some (kept set)) request (serve set request).1
      (some (kept (serve set request).2)) := by
  by_cases hrecord : request = recordRequest "demo"
  · -- the record is told as it is
    subst hrecord
    rw [serve, if_pos rfl]
    refine ⟨fun _ => ⟨rfl, ?_⟩, fun key h => ?_, fun _ => rfl, fun key value h => ?_,
      fun data h => ?_⟩
    · intro body told hbody htold
      rw [bodyOf_recordReply] at hbody
      cases hbody
      cases htold
      exact ⟨kept set, rfl, rfl⟩
    · exact absurd (congrArg Request.path h).symm (resource_below_ne _ _)
    · cases congrArg Request.method h
    · cases congrArg Request.method h
  · by_cases hset : request = setKeyRequest "demo" "B" "2"
    · -- the body names the key and the value, so no other ones were set
      subst hset
      rw [serve, if_neg hrecord, if_pos rfl]
      refine ⟨fun h => absurd h hrecord, fun key h => ?_, fun h => ?_, fun key value h => ?_,
        fun data h => ?_⟩
      · cases congrArg Request.method h
      · cases congrArg Request.method h
      · cases congrArg Request.body h
        exact .inl ⟨rfl, kept set, kept true, rfl, rfl, written_kept set⟩
      · cases congrArg Request.accept h
    · -- a refusal has no body, and leaves everything as it is
      rw [serve, if_neg hrecord, if_neg hset]
      refine ⟨fun h => absurd h hrecord, fun key _ => ⟨rfl, ?_⟩, fun _ => rfl,
        fun key value _ => .inr ⟨rfl, rfl⟩, fun data _ => .inr ⟨rfl, .inl rfl⟩⟩
      intro body value hbody
      cases hbody

theorem full_kept (set : Bool) (known : Kept) (h : some (kept set) = some known) : known.Full := by
  cases h
  exact ⟨entries set, entriesOf_record set, rfl⟩

end TwoKeys

/-- A service of a repository with a key that is set and one that can be set. -/
def Service.twoKeys : Service "demo" where
  State := Bool
  serve := TwoKeys.serve
  kept set := some (TwoKeys.kept set)
  honest := TwoKeys.honest_serve

end GitTransport
