/-
All repositories from one reply.

  The list of repositories is told by the reply to one request, all of it or nothing: each
  item stands for a proxy, and an item that stands for none spoils the whole list
  (`listAnswer_eq_ok_iff`, `exists_listAnswer_iff`).

  A proxy of the list knows its record, so the readers ask for nothing.  `Tour` is about any
  number of calls on any number of proxies, in any order; each call is answered from the item
  of its proxy, and nothing is asked (`told_of_tour`).
-/

import GitTransport.Proofs.Json.Items
import GitTransport.Proofs.Proxy.Laziness
import GitTransport.Proofs.Workflow.Run

namespace GitTransport

open ProxyJob Json

/-! ## Items -/

namespace Workflow

variable {item : Json} {value : Option Json} {proxy : Proxy} {proxies : List Proxy}

/-- An object that has a name. -/
def IsItem (item : Json) : Prop :=
  ∃ record name, item = .object record ∧ Fields.get? record "name" = some (.string name)

/-- The proxy has the name in the item, and the item is all that it knows. -/
structure Stands (item : Json) (proxy : Proxy) : Prop where
  /-- The item is the record. -/
  record : ∃ record, item = .object record ∧ proxy.snapshot = some record ∧
    Fields.get? record "name" = some (.string proxy.name) ∧
    proxy.config = Proxy.configOfRecord record
  classifier : proxy.classifier = .standard

theorem proxyOfItem_eq_ok_iff : proxyOfItem item = .ok proxy ↔ Stands item proxy := by
  constructor
  · intro h
    unfold proxyOfItem at h
    split at h
    · next record =>
      split at h
      · next name hname =>
        obtain ⟨member, hmember, htext⟩ := Option.bind_eq_some_iff.1 hname
        rw [asString_eq_some_iff] at htext
        cases h
        exact ⟨⟨record, rfl, rfl, by rw [hmember, htext]; rfl, rfl⟩, rfl⟩
      · cases h
    · cases h
  · rintro ⟨⟨record, rfl, hsnapshot, hname, hconfig⟩, hclassifier⟩
    have hproxy : Proxy.withRecord proxy.name record = proxy := by
      rw [Proxy.withRecord, ← hsnapshot, ← hconfig, ← hclassifier]
    have htext : (Fields.get? record "name").bind asString? = some proxy.name := by
      rw [hname]
      rfl
    simp only [proxyOfItem, htext, hproxy]

theorem exists_proxyOfItem_iff : (∃ proxy, proxyOfItem item = .ok proxy) ↔ IsItem item := by
  constructor
  · rintro ⟨proxy, h⟩
    obtain ⟨⟨record, hitem, -, hname, -⟩, -⟩ := proxyOfItem_eq_ok_iff.1 h
    exact ⟨record, proxy.name, hitem, hname⟩
  · rintro ⟨record, name, rfl, hname⟩
    exact ⟨.withRecord name record, proxyOfItem_eq_ok_iff.2 ⟨⟨record, rfl, rfl, hname, rfl⟩, rfl⟩⟩

theorem toOption_eq_some_iff {ε α : Type} {x : Except ε α} {a : α} :
    x.toOption = some a ↔ x = .ok a := by
  cases x <;> simp [Except.toOption]

/-- Whichever item is at fault, without it there would be a result. -/
theorem toOption_mapM {ε α β : Type} (f : α → Except ε β) (items : List α) :
    (items.mapM f).toOption = items.mapM fun item => (f item).toOption := by
  induction items with
  | nil => rfl
  | cons item items ih =>
    rw [List.mapM_cons, List.mapM_cons, ← ih]
    cases f item with
    | error fault => rfl
    | ok result => cases items.mapM f <;> rfl

/-- The items are read like those of any other list. -/
theorem proxiesOf_eq_ok_iff_readList :
    proxiesOf value = .ok proxies ↔
      readList (fun item => (proxyOfItem item).toOption) value = .ok proxies := by
  cases value with
  | none => exact ⟨fun h => by cases h; rfl, fun h => by cases h; rfl⟩
  | some value =>
    cases value with
    | null => exact ⟨fun h => by cases h; rfl, fun h => by cases h; rfl⟩
    | array items =>
      rw [readList_array_eq_ok_iff, ← toOption_mapM, toOption_eq_some_iff]
      rfl
    | _ => exact iff_of_false (fun h => by cases h) (fun h => by cases h)

/-- The proxies stand in the order of their items. -/
theorem proxiesOf_eq_ok_iff : proxiesOf value = .ok proxies ↔ Lists Stands value proxies := by
  rw [proxiesOf_eq_ok_iff_readList]
  apply readList_eq_ok_iff
  intro item proxy
  rw [toOption_eq_some_iff, proxyOfItem_eq_ok_iff]

/-- Every item has to be one. -/
theorem exists_proxiesOf_iff :
    (∃ proxies, proxiesOf value = .ok proxies) ↔ IsListOf IsItem value := by
  simp only [proxiesOf_eq_ok_iff_readList]
  apply exists_readList_iff
  intro item
  simp only [toOption_eq_some_iff, exists_proxyOfItem_iff]

/-! ## The request -/

/-- The request for the list of repositories. -/
def listRequest : Request := jsonRequest "repository"

/-- The proxies in the reply to it. -/
def listAnswer (reply : Reply) : Except Error (List Proxy) :=
  (((Job.checkedOutcome listRequest reply).bind Job.readJson).mapError
    Classifier.standard.refine).bind fun body =>
      (proxiesOf (body.member? "result")).mapError .invalidResponse

variable {reply : Reply} {asked : List (Request × Reply)}

theorem run_listAll :
    listAll.run = .ask listRequest fun reply => .done (listAnswer reply) := by
  show (((Job.getJson "repository").run >>= fun outcome => _) >>= ExceptT.bindCont _) = _
  rw [run_getJson]
  show Exchange.ask _ _ = _
  congr 1
  funext reply
  show ExceptT.bindCont _ (((Job.checkedOutcome listRequest reply).bind Job.readJson).mapError
    Classifier.standard.refine) = Exchange.done (listAnswer reply)
  rw [listAnswer]
  cases ((Job.checkedOutcome listRequest reply).bind Job.readJson).mapError
    Classifier.standard.refine <;> rfl

/-- The list takes one request, and the reply decides everything. -/
theorem path_listAll_iff {outcome : Except Error (List Proxy)} :
    Exchange.Path listAll.run asked outcome ↔
      ∃ reply, asked = [(listRequest, reply)] ∧ outcome = listAnswer reply := by
  rw [run_listAll, Exchange.path_ask_iff]
  constructor
  · rintro ⟨reply, rest, rfl, hdone⟩
    obtain ⟨rfl, rfl⟩ := Exchange.path_done_iff.1 hdone
    exact ⟨reply, rfl, rfl⟩
  · rintro ⟨reply, rfl, rfl⟩
    exact ⟨reply, [], rfl, .done _⟩

theorem listAnswer_eq_ok_iff : listAnswer reply = .ok proxies ↔
    ∃ body, Job.bodyOf? reply = some body ∧ Lists Stands (body.member? "result") proxies := by
  have hbody (body : Json) : ((Job.checkedOutcome listRequest reply).bind Job.readJson).mapError
      Classifier.standard.refine = .ok body ↔ Job.bodyOf? reply = some body := by
    show (Proxy.new "").jsonAnswer listRequest reply = .ok body ↔ _
    exact Proxy.jsonAnswer_eq_ok_iff
  rw [listAnswer, bind_eq_ok_iff]
  simp only [hbody, mapError_eq_ok_iff, proxiesOf_eq_ok_iff]

theorem exists_listAnswer_iff : (∃ proxies, listAnswer reply = .ok proxies) ↔
    ∃ body, Job.bodyOf? reply = some body ∧ IsListOf IsItem (body.member? "result") := by
  simp only [listAnswer_eq_ok_iff, ← exists_proxiesOf_iff, proxiesOf_eq_ok_iff]
  rw [exists_comm]
  simp only [exists_and_left]

end Workflow

/-! ## What a record suffices for -/

namespace Proxy

variable {proxy after : Proxy} {record : Fields Json} {asked : List (Request × Reply)}

/-- The configuration in a record. -/
def configurationIn (record : Fields Json) : Except Error (Dictionary String) :=
  (entriesOf (Fields.get? record "config")).map Configuration.toDictionary

/-- The calls that need nothing but the record: the readers, and the value of a key that the
    configuration in the record has.  If that is no configuration, no value is asked for
    either. -/
inductive Suffices (record : Fields Json) : Operation → Prop where
  | reader {op : Operation} (h : op.isReader = true) : Suffices record op
  | key {key : String} (h : ∀ values, configurationIn record = .ok values →
      values.get? key ≠ none) : Suffices record (.getConfig key)

/-- What such a call answers. -/
inductive ToldBy (record : Fields Json) : (op : Operation) → Except Error op.Answer → Prop where
  | reader {op : Operation} {outcome : Except Error op.Answer} (hop : op.isReader = true)
      (h : op.AnsweredFrom record none outcome) : ToldBy record op outcome
  | value {key value : String} {values : Dictionary String}
      (hvalues : configurationIn record = .ok values) (hvalue : values.get? key = some value) :
      ToldBy record (.getConfig key) (.ok value)
  | fault {key : String} {error : Error} (h : configurationIn record = .error error) :
      ToldBy record (.getConfig key) (.error error)

/-- A call that the record suffices for asks for nothing and leaves the record as it is. -/
theorem toldBy_of_runs {op : Operation} (hop : Suffices record op)
    (hholds : Holds record none proxy) {outcome : Except Error op.Answer}
    (h : Runs op.job proxy asked outcome after) :
    asked = [] ∧ ToldBy record op outcome ∧ Holds record none after := by
  cases hop with
  | reader hop =>
    obtain ⟨hnothing, hanswer, hafter⟩ := holds_of_runs hop hholds h
    exact ⟨hnothing, .reader hop hanswer, hafter⟩
  | @key key hkey =>
    -- the configuration is read first, which asks for nothing, and it has the key
    have hconfiguration {first : List (Request × Reply)} {x : Except Error (Dictionary String)}
        {between : Proxy} (hrun : Runs configuration proxy first x between) :
        first = [] ∧ configurationIn record = x ∧ Holds record none between := by
      have hreader : Operation.configuration.isReader = true := rfl
      obtain ⟨hnothing, hanswer, hbetween⟩ := holds_of_runs hreader hholds hrun
      exact ⟨hnothing, hanswer.symm, hbetween⟩
    rcases runs_getConfig_iff.1 h with ⟨error, rfl, hrun⟩ | ⟨values, value, hvalue, rfl, hrun⟩ |
      ⟨values, first, between, reply, hmissing, -, hrun, -⟩
    · obtain ⟨hnothing, hfault, hafter⟩ := hconfiguration hrun
      exact ⟨hnothing, .fault hfault, hafter⟩
    · obtain ⟨hnothing, hvalues, hafter⟩ := hconfiguration hrun
      exact ⟨hnothing, .value hvalues hvalue, hafter⟩
    · obtain ⟨-, hvalues, -⟩ := hconfiguration hrun
      exact absurd hmissing (hkey values hvalues)

/-- Such a call can be carried out. -/
theorem exists_runs_of_suffices {op : Operation} (hop : Suffices record op)
    (hholds : Holds record none proxy) : ∃ outcome after, Runs op.job proxy [] outcome after := by
  apply exists_runs_of_silent
  intro asked outcome after hrun
  exact (toldBy_of_runs hop hholds hrun).1

end Proxy

/-! ## Calls on many proxies -/

/-- A call on the proxy at a place of a list. -/
structure Visit where
  place : Nat
  call : Call

/-- The calls can follow each other, each on the proxy at its place, from one list of proxies
    to another. -/
inductive Tour : List Proxy → List Visit → List Proxy → Prop where
  | nil (proxies : List Proxy) : Tour proxies [] proxies
  | cons {proxies last : List Proxy} {visit : Visit} {visits : List Visit} {proxy between : Proxy}
      (hproxy : proxies[visit.place]? = some proxy)
      (hcall : Runs visit.call.op.job proxy visit.call.asked visit.call.outcome between)
      (hrest : Tour (proxies.set visit.place between) visits last) :
      Tour proxies (visit :: visits) last

namespace Proxy

/-- The record of the proxy at a place. -/
def recordAt (proxies : List Proxy) (place : Nat) : Option (Fields Json) :=
  proxies[place]?.bind Proxy.snapshot

/-- Each proxy knows the record of its place, and entries that are none but those there. -/
def AllHold (records : Nat → Option (Fields Json)) (proxies : List Proxy) : Prop :=
  ∀ place proxy, proxies[place]? = some proxy →
    ∃ record, records place = some record ∧ Holds record none proxy

variable {records : Nat → Option (Fields Json)} {proxies last : List Proxy} {visits : List Visit}

theorem AllHold.set (h : AllHold records proxies) {place : Nat} {proxy : Proxy}
    {record : Fields Json} (hrecord : records place = some record)
    (hproxy : Holds record none proxy) : AllHold records (proxies.set place proxy) := by
  intro other found hfound
  rw [List.getElem?_set] at hfound
  split at hfound
  · next heq =>
    split at hfound
    · cases hfound
      exact ⟨record, heq ▸ hrecord, hproxy⟩
    · cases hfound
  · exact h other found hfound

/-- Whatever order the proxies are visited in, each call is told by the record of its place. -/
theorem toldBy_of_tour (htour : Tour proxies visits last) (hholds : AllHold records proxies)
    (hsuffices : ∀ visit ∈ visits, ∀ record, records visit.place = some record →
      Suffices record visit.call.op) :
    (∀ visit ∈ visits, visit.call.asked = [] ∧ ∃ record, records visit.place = some record ∧
      ToldBy record visit.call.op visit.call.outcome) ∧ AllHold records last := by
  induction htour with
  | nil proxies => exact ⟨by simp, hholds⟩
  | @cons proxies last visit visits proxy between hproxy hcall hrest ih =>
    obtain ⟨hfirst, hlater⟩ := List.forall_mem_cons.1 hsuffices
    obtain ⟨record, hrecord, hproxyHolds⟩ := hholds visit.place proxy hproxy
    obtain ⟨hnothing, htold, hbetween⟩ := toldBy_of_runs (hfirst record hrecord) hproxyHolds hcall
    obtain ⟨hvisits, hlast⟩ := ih (hholds.set hrecord hbetween) hlater
    exact ⟨List.forall_mem_cons.2 ⟨⟨hnothing, record, hrecord, htold⟩, hvisits⟩, hlast⟩

/-- Every order of such calls is possible. -/
theorem exists_tour (calls : List (Nat × Operation)) (hholds : AllHold records proxies)
    (hplaces : ∀ call ∈ calls, call.1 < proxies.length)
    (hsuffices : ∀ call ∈ calls, ∀ record, records call.1 = some record →
      Suffices record call.2) :
    ∃ visits last, visits.map (fun visit => (visit.place, visit.call.op)) = calls ∧
      Tour proxies visits last := by
  induction calls generalizing proxies with
  | nil => exact ⟨[], proxies, rfl, .nil proxies⟩
  | cons call calls ih =>
    obtain ⟨place, op⟩ := call
    obtain ⟨hplace, hplaces⟩ := List.forall_mem_cons.1 hplaces
    obtain ⟨hfirst, hsuffices⟩ := List.forall_mem_cons.1 hsuffices
    have hproxy : proxies[place]? = some proxies[place] := List.getElem?_eq_getElem hplace
    obtain ⟨record, hrecord, hproxyHolds⟩ := hholds place _ hproxy
    obtain ⟨outcome, between, hrun⟩ := exists_runs_of_suffices (hfirst record hrecord) hproxyHolds
    obtain ⟨-, -, hbetween⟩ := toldBy_of_runs (hfirst record hrecord) hproxyHolds hrun
    have hlength : (proxies.set place between).length = proxies.length := List.length_set
    obtain ⟨visits, last, hvisits, htour⟩ :=
      ih (hholds.set hrecord hbetween) (by rwa [hlength]) hsuffices
    exact ⟨⟨place, op, [], outcome⟩ :: visits, last, by rw [List.map_cons, hvisits],
      .cons hproxy hrun htour⟩

/-- The proxies know all that they are asked for: any number of calls, on any of them and in
    any order, can be carried out, is answered from the records, and asks for nothing. -/
structure SelfSufficient (proxies : List Proxy) : Prop where
  ready : ∀ calls : List (Nat × Operation), (∀ call ∈ calls, call.1 < proxies.length) →
    (∀ call ∈ calls, ∀ record, recordAt proxies call.1 = some record → Suffices record call.2) →
    ∃ visits last, visits.map (fun visit => (visit.place, visit.call.op)) = calls ∧
      Tour proxies visits last
  told : ∀ visits last, Tour proxies visits last →
    (∀ visit ∈ visits, ∀ record, recordAt proxies visit.place = some record →
      Suffices record visit.call.op) →
    ∀ visit ∈ visits, visit.call.asked = [] ∧
      ∃ record, recordAt proxies visit.place = some record ∧
        ToldBy record visit.call.op visit.call.outcome

/-- What is read from the record when a proxy is made is what would be read from it later. -/
theorem entriesFrom_configOfRecord (record : Fields Json) :
    entriesFrom record (configOfRecord record) = entriesOf (Fields.get? record "config") := by
  unfold configOfRecord
  split
  · rfl
  · rfl
  · next value _ hvalue =>
    cases hentries : Configuration.ofJson (some value) with
    | ok entries =>
      rw [hvalue, entriesOf, hentries]
      rfl
    | error fault => rfl

end Proxy

namespace Workflow

open Proxy

variable {value : Option Json} {proxies : List Proxy} {item : Json} {proxy : Proxy}

theorem Stands.exists_holds (h : Stands item proxy) :
    ∃ record, item = .object record ∧ proxy.snapshot = some record ∧ Holds record none proxy := by
  obtain ⟨record, hitem, hsnapshot, -, hconfig⟩ := h.record
  refine ⟨record, hitem, hsnapshot, hsnapshot, ?_⟩
  rw [hconfig, entriesFrom_configOfRecord]
  rfl

theorem exists_record_of_listAnswer {reply : Reply} (h : listAnswer reply = .ok proxies)
    (hmem : proxy ∈ proxies) : ∃ record, proxy.snapshot = some record := by
  obtain ⟨body, -, hlists⟩ := listAnswer_eq_ok_iff.1 h
  obtain ⟨item, hstands⟩ := hlists.exists_item hmem
  obtain ⟨record, -, hsnapshot, -, -⟩ := hstands.record
  exact ⟨record, hsnapshot⟩

theorem selfSufficient_of_lists (h : Lists Stands value proxies) : SelfSufficient proxies := by
  have hholds : AllHold (recordAt proxies) proxies := by
    intro place proxy hproxy
    obtain ⟨item, hstands⟩ := h.exists_item (List.mem_of_getElem? hproxy)
    obtain ⟨record, -, hsnapshot, hproxyHolds⟩ := hstands.exists_holds
    exact ⟨record, by rw [recordAt, hproxy]; exact hsnapshot, hproxyHolds⟩
  exact ⟨fun calls => exists_tour calls hholds,
    fun visits last htour hsuffices => (toldBy_of_tour htour hholds hsuffices).1⟩

end Workflow

end GitTransport
