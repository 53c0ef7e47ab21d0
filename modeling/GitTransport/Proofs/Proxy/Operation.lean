/-
The operations of a proxy, as data.

  An `Operation` is a call of a proxy's interface with its arguments, so that a
  statement about every operation, or about every order of operations, can be made.
  `Operation.job` is the job behind a call.

  An operation that returns something returns what the proxy then remembers
  (`Operation.Remembered`): the attributes come from the record that is left, the
  configuration and the value of a key from the entries that are left.

  A `Call` is an operation that was carried out.  `Trace proxy calls after` says that the
  calls can be made in this order, beginning with `proxy` and ending with `after`, each
  with the requests, the replies and the outcome that it has.  As with `Runs`, nothing is
  assumed of the replies, and a call that failed may be followed by others.
-/

import GitTransport.Proofs.Configuration
import GitTransport.Proofs.Proxy.Changing

namespace GitTransport

open ProxyJob

/-! ## Attributes -/

/-- The attributes of a repository that have a reader of their own. -/
inductive Attribute where
  | rid
  | status
  | vsid
  | url
  | branch
  | head
  deriving DecidableEq, Repr

namespace Attribute

/-- The member of the record that an attribute is read from. -/
def member : Attribute → String
  | .rid => "rid"
  | .status => "status"
  | .vsid => "vsid"
  | .url => "url"
  | .branch => "branch"
  | .head => "currentCommit"

/-- The reader of an attribute. -/
def read : Attribute → ProxyJob (Option String)
  | .rid => Proxy.rid
  | .status => Proxy.status
  | .vsid => Proxy.vsid
  | .url => Proxy.url
  | .branch => Proxy.branch
  | .head => Proxy.head

/-- The text of an attribute in a record. -/
def valueIn (a : Attribute) (record : Fields Json) : Option String :=
  (Fields.get? record a.member).bind Proxy.textOf

theorem read_eq_map (a : Attribute) : a.read = a.valueIn <$> Proxy.loaded := by
  cases a <;> exact Proxy.textItem_eq_map _

/-- No attribute is read from the member that holds the configuration. -/
theorem member_ne_config (a : Attribute) : a.member ≠ "config" := by
  cases a <;> decide

end Attribute

/-! ## Operations -/

/-- A call of a proxy's interface. -/
inductive Operation where
  | read (a : Attribute)
  | isCloned
  | itemOr (name : String) (default : Json)
  | fetch
  | wipe
  | configuration
  | getConfig (key : String)
  | setConfig (key value : String)
  | create (registration : Registration)
  | clone
  | checkout (branch : String)
  | pull
  | delete
  | commit (transport message : String) (description : Option String)
  | setUrl (url : String)
  | log

namespace Operation

/-- What a call returns. -/
def Answer : Operation → Type
  | .read _ => Option String
  | .isCloned => Bool
  | .itemOr _ _ => Json
  | .fetch => Unit
  | .wipe => Unit
  | .configuration => Dictionary String
  | .getConfig _ => String
  | .setConfig _ _ => Unit
  | .create _ => Unit
  | .clone => Response
  | .checkout _ => CommitTransition
  | .pull => CommitTransition
  | .delete => Response
  | .commit _ _ _ => Response
  | .setUrl _ => Option Response
  | .log => List Commit

/-- The job behind a call. -/
def job : (op : Operation) → ProxyJob op.Answer
  | .read a => a.read
  | .isCloned => Proxy.isCloned
  | .itemOr name default => Proxy.itemOr name default
  | .fetch => Proxy.fetch
  | .wipe => ProxyJob.wipe
  | .configuration => Proxy.configuration
  | .getConfig key => Proxy.getConfig key
  | .setConfig key value => Proxy.setConfig key value
  | .create registration => Proxy.create registration
  | .clone => Proxy.clone
  | .checkout branch => Proxy.checkout branch
  | .pull => Proxy.pull
  | .delete => Proxy.delete
  | .commit transport message description => Proxy.commit transport message description
  | .setUrl url => Proxy.setUrl url
  | .log => Proxy.log

theorem job_read (a : Attribute) : (read a).job = a.valueIn <$> Proxy.loaded := a.read_eq_map

theorem job_isCloned : isCloned.job = (fun record =>
    decide (Attribute.status.valueIn record ≠ some Proxy.statusCreated)) <$> Proxy.loaded :=
  Proxy.isCloned_eq_map

theorem job_itemOr (name : String) (default : Json) :
    (itemOr name default).job =
      (fun record => (Fields.get? record name).getD default) <$> Proxy.loaded :=
  Proxy.itemOr_eq_map name default

end Operation

/-! ## Readers -/

namespace Proxy

variable {proxy after : Proxy} {asked : List (Request × Reply)}

/-- A record that is used is a record that is remembered. -/
theorem snapshot_of_loaded {record : Fields Json} (h : Runs loaded proxy asked (.ok record) after) :
    after.snapshot = some record := by
  rcases runs_loaded_iff.1 h with ⟨known, hknown, -, hx, rfl⟩ | ⟨-, reply, -, -, rfl⟩
  · cases hx
    exact hknown
  · rfl

/-- What is read from the record comes from the record that is remembered then. -/
theorem snapshot_of_map {α : Type} {f : Fields Json → α} {a : α}
    (h : Runs (f <$> loaded) proxy asked (.ok a) after) :
    ∃ record, after.snapshot = some record ∧ a = f record := by
  obtain ⟨x, hx, hrun⟩ := runs_map_iff.1 h
  cases x with
  | error error => cases hx
  | ok record => exact ⟨record, snapshot_of_loaded hrun, Except.ok.inj hx⟩

/-- A configuration that is returned is the one that is known then. -/
theorem config_of_configuration {known : Dictionary String}
    (h : Runs configuration proxy asked (.ok known) after) :
    ∃ entries, after.config = some entries ∧ known = Configuration.toDictionary entries := by
  rcases runs_configuration_iff.1 h with ⟨entries, hc, -, hx, rfl⟩ | ⟨-, x, between, -, hx, rfl⟩
  · exact ⟨entries, hc, Except.ok.inj hx⟩
  · cases hin : entriesIn x with
    | error error =>
      rw [hin] at hx
      cases hx
    | ok entries =>
      rw [hin] at hx
      exact ⟨entries, rfl, Except.ok.inj hx⟩

/-- The value of a key that is returned is the one that is known then. -/
theorem config_of_getConfig {key value : String}
    (h : Runs (getConfig key) proxy asked (.ok value) after) :
    ∃ entries, after.config = some entries ∧
      (Configuration.toDictionary entries).get? key = some value := by
  rcases runs_getConfig_iff.1 h with ⟨error, hx, -⟩ | ⟨known, known', hget, hx, hrun⟩ |
    ⟨known, first, between, reply, -, -, -, hx, rfl⟩
  · cases hx
  · obtain ⟨entries, hc, rfl⟩ := config_of_configuration hrun
    cases hx
    exact ⟨entries, hc, hget⟩
  · rw [← hx]
    exact ⟨_, rfl, by rw [Configuration.get?_toDictionary_setKey, if_pos rfl]⟩

end Proxy

namespace Operation

/-- What an answer says of the proxy that is left. -/
def Remembered : (op : Operation) → Proxy → op.Answer → Prop
  | .read a, proxy, text =>
    ∃ record, proxy.snapshot = some record ∧ text = a.valueIn record
  | .isCloned, proxy, cloned =>
    ∃ record, proxy.snapshot = some record ∧
      cloned = decide (Attribute.status.valueIn record ≠ some Proxy.statusCreated)
  | .itemOr name default, proxy, value =>
    ∃ record, proxy.snapshot = some record ∧ value = (Fields.get? record name).getD default
  | .configuration, proxy, known =>
    ∃ entries, proxy.config = some entries ∧ known = Configuration.toDictionary entries
  | .getConfig key, proxy, value =>
    ∃ entries, proxy.config = some entries ∧
      (Configuration.toDictionary entries).get? key = some value
  | _, _, _ => True

/-- Every answer is what the proxy remembers when it has been given. -/
theorem remembered_of_runs {op : Operation} {proxy after : Proxy}
    {asked : List (Request × Reply)} {answer : op.Answer}
    (h : Runs op.job proxy asked (.ok answer) after) : op.Remembered after answer := by
  cases op with
  | read a =>
    rw [job_read] at h
    exact Proxy.snapshot_of_map h
  | isCloned =>
    rw [job_isCloned] at h
    exact Proxy.snapshot_of_map h
  | itemOr name default =>
    rw [job_itemOr] at h
    exact Proxy.snapshot_of_map h
  | configuration => exact Proxy.config_of_configuration h
  | getConfig key => exact Proxy.config_of_getConfig h
  | _ => trivial

end Operation

/-! ## Calls, one after the other -/

/-- An operation with what it asked, the replies to that, and its outcome. -/
structure Call where
  op : Operation
  asked : List (Request × Reply)
  outcome : Except Error op.Answer

namespace Call

/-- The operation ended with an error. -/
def Failed (call : Call) : Prop := ∃ error, call.outcome = .error error

/-- All that is asked in a list of calls. -/
def allAsked (calls : List Call) : List (Request × Reply) := calls.flatMap (·.asked)

@[simp] theorem allAsked_cons (call : Call) (calls : List Call) :
    allAsked (call :: calls) = call.asked ++ allAsked calls := rfl

@[simp] theorem allAsked_append (first rest : List Call) :
    allAsked (first ++ rest) = allAsked first ++ allAsked rest :=
  List.flatMap_append

end Call

/-- The calls can follow each other, from one proxy to another. -/
inductive Trace : Proxy → List Call → Proxy → Prop where
  | nil (proxy : Proxy) : Trace proxy [] proxy
  | cons {proxy between after : Proxy} {call : Call} {calls : List Call} :
      Runs call.op.job proxy call.asked call.outcome between → Trace between calls after →
      Trace proxy (call :: calls) after

end GitTransport
