/-
How new a proxy's answers are after it has asked.

  A proxy keeps the record and the entries of the configuration apart.  `fetch` replaces
  the record and leaves the entries, so the configuration that is read behind it is that
  of the new record only if no entries were known, or known ones say the same
  (`Proxy.configuration_of_fetch`).

  `setUrl` reads the record without remembering it.  If the service has the address
  already it ends there, with the proxy as it was; so the address that is read next is
  the new one only if the known record has it or no record is known.  Where the record
  was sent back, everything is forgotten and the new address is read
  (`Proxy.url_of_setUrl`).  The service is any that keeps a record, tells it when it is
  asked for it and keeps the one that is sent (`Stores`).
-/

import GitTransport.Proofs.Proxy.Laziness
import GitTransport.Proofs.Proxy.OwnWrites

namespace GitTransport

open ProxyJob Proxy

namespace Proxy

variable {proxy after : Proxy} {asked : List (Request × Reply)}

/-! ## The configuration behind a fetch -/

/-- A fetch that succeeds remembers the record of its reply, and keeps the entries. -/
theorem exists_of_fetch_ok (h : Runs fetch proxy asked (.ok ()) after) :
    ∃ reply record, asked = [(recordRequest proxy.name, reply)] ∧
      Job.recordIn? reply = some record ∧ after = { proxy with snapshot := some record } := by
  obtain ⟨reply, rfl, hok, rfl⟩ := runs_fetch_iff.1 h
  rcases recordAnswer_cases proxy reply with ⟨record, hrecord, hx⟩ | ⟨-, error, hx⟩
  · exact ⟨reply, record, rfl, hrecord, by rw [hx]; rfl⟩
  · rw [hx] at hok
    cases hok

/-- With a known record whose entries can be read, the configuration is had without a
    request: the known entries are used, or else those of the record. -/
theorem runs_configuration_of_snapshot {record : Fields Json}
    {entries : List Configuration.Entry} (hs : proxy.snapshot = some record)
    (hentries : entriesOf (Fields.get? record "config") = .ok entries)
    {outcome : Except Error (Dictionary String)} :
    Runs configuration proxy asked outcome after ↔
      asked = [] ∧ outcome = .ok (Configuration.toDictionary (proxy.config.getD entries)) ∧
        after = { proxy with config := some (proxy.config.getD entries) } := by
  cases hconfig : proxy.config with
  | some known =>
    have hsame : { proxy with config := some known } = proxy := by
      rw [← hconfig]
    rw [Option.getD_some, hsame]
    exact runs_configuration_of_config hconfig
  | none =>
    -- the entries are read from the record, which is there
    have hin : entriesIn (.ok record) = .ok entries := hentries
    rw [Option.getD_none, runs_configuration_iff]
    simp only [runs_loaded_of_snapshot hs]
    constructor
    · rintro (⟨known, hknown, -⟩ | ⟨-, x, between, ⟨rfl, rfl, rfl⟩, rfl, rfl⟩)
      · rw [hconfig] at hknown
        cases hknown
      · rw [hin]
        exact ⟨rfl, rfl, rfl⟩
    · rintro ⟨rfl, rfl, rfl⟩
      exact .inr ⟨hconfig, .ok record, proxy, ⟨rfl, rfl, rfl⟩, by rw [hin]; rfl, by rw [hin]; rfl⟩

/-- Behind a fetch the configuration is had without a request, but it is the one of the
    fetched record exactly when no entries were known before, or they said the same. -/
theorem configuration_of_fetch {fetched : Proxy}
    (h : Runs fetch proxy asked (.ok ()) fetched) :
    ∃ reply record, asked = [(recordRequest proxy.name, reply)] ∧
      Job.recordIn? reply = some record ∧
      ∀ entries, entriesOf (Fields.get? record "config") = .ok entries →
        ∃ known, (∀ asked outcome after, Runs configuration fetched asked outcome after ↔
            asked = [] ∧ outcome = .ok known ∧
              after = { fetched with config := some (proxy.config.getD entries) }) ∧
          (known = Configuration.toDictionary entries ↔ ∀ cached, proxy.config = some cached →
            Configuration.toDictionary cached = Configuration.toDictionary entries) := by
  obtain ⟨reply, record, hasked, hrecord, rfl⟩ := exists_of_fetch_ok h
  refine ⟨reply, record, hasked, hrecord, fun entries hentries => ?_⟩
  refine ⟨Configuration.toDictionary (proxy.config.getD entries), ?_, ?_⟩
  · intro asked outcome after
    exact runs_configuration_of_snapshot rfl hentries
  · cases proxy.config with
    | none => simp
    | some cached => simp

end Proxy

/-! A proxy has read the record and the configuration with `A = 1`, and then fetches a
record with `A = 2`. -/

namespace Proxy.Refetch

/-- The record of a repository whose key `A` has this value. -/
def record (value : String) : Fields Json :=
  [("config", Configuration.toJson [⟨"A", value⟩]), ("rid", .string "demo")]

/-- The reply that tells the record. -/
def reply (value : String) : Reply :=
  .ok (Response.ofJson 200 (.object [("result", .object (record value))]))

/-- The proxy that has read the first record and its entries. -/
def before : Proxy := ⟨"demo", .standard, some (record "1"), some [⟨"A", "1"⟩]⟩

/-- The proxy behind the fetch. -/
def fetched : Proxy := { before with snapshot := some (record "2") }

theorem runs_fetch : Runs fetch before [(recordRequest "demo", reply "2")] (.ok ()) fetched :=
  runs_fetch_iff.2 ⟨reply "2", rfl, rfl, rfl⟩

end Proxy.Refetch

namespace Proxy

theorem configuration_of_fetch_refetch :
    ∃ record, Job.recordIn? (Refetch.reply "2") = some record ∧
      ∀ entries, entriesOf (Fields.get? record "config") = .ok entries →
        ∃ known, (∀ asked outcome after, Runs configuration Refetch.fetched asked outcome after ↔
            asked = [] ∧ outcome = .ok known ∧
              after = { Refetch.fetched with config := some [⟨"A", "1"⟩] }) ∧
          (known = Configuration.toDictionary entries ↔
            ∀ cached, some [⟨"A", "1"⟩] = some cached →
              Configuration.toDictionary cached = Configuration.toDictionary entries) := by
  obtain ⟨reply, record, hasked, hrecord, hknown⟩ := configuration_of_fetch Refetch.runs_fetch
  cases hasked
  exact ⟨record, hrecord, hknown⟩

/-- So the configuration behind a fetch is not always that of the fetched record. -/
theorem not_configuration_of_fetch :
    ¬ ∀ (proxy fetched : Proxy) (reply : Reply) (record : Fields Json)
      (entries : List Configuration.Entry),
      Runs fetch proxy [(recordRequest proxy.name, reply)] (.ok ()) fetched →
      Job.recordIn? reply = some record →
      entriesOf (Fields.get? record "config") = .ok entries →
      ∃ after, Runs configuration fetched [] (.ok (Configuration.toDictionary entries)) after := by
  intro h
  obtain ⟨after, hrun⟩ := h _ _ _ (Refetch.record "2") [⟨"A", "2"⟩] Refetch.runs_fetch rfl rfl
  -- the entries that were known before are used
  obtain ⟨-, hknown, -⟩ := (runs_configuration_of_config rfl).1 hrun
  exact absurd (Except.ok.inj hknown) (by decide)

end Proxy

/-! ## The address behind its change -/

/-- A service that keeps the record of the repository `name`: what it tells of the record is
    what it keeps, telling it changes nothing, and a record that it accepts is kept. -/
structure Stores (name : String) (before : Fields Json) (request : Request) (reply : Reply)
    (after : Fields Json) : Prop where
  told : request = recordRequest name →
    after = before ∧ ∀ record, Job.recordIn? reply = some record → record = before
  kept : ∀ record, request.method = .post → request.path = resource name none →
    request.body = some (.object record) → Job.accepted reply = true → after = record

namespace Proxy

variable {proxy after : Proxy} {asked : List (Request × Reply)} {served before : Fields Json}

/-- The address that the next reading tells if the service keeps the record `kept`. -/
def shownUrl (proxy : Proxy) (kept : Fields Json) : Option String :=
  Attribute.url.valueIn (proxy.snapshot.getD kept)

/-- Using the record neither changes what the service keeps nor the address that is read
    next. -/
theorem shownUrl_of_loaded {x : Except Error (Fields Json)}
    (h : Runs loaded proxy asked x after)
    (hserver : Exchange.Chain (Stores proxy.name) before asked served) :
    served = before ∧ after.name = proxy.name ∧ after.shownUrl served = proxy.shownUrl before ∧
      ∀ record, x = .ok record → Attribute.url.valueIn record = proxy.shownUrl before := by
  rcases runs_loaded_iff.1 h with ⟨known, hs, rfl, rfl, rfl⟩ | ⟨hs, reply, rfl, rfl, rfl⟩
  · obtain rfl := Exchange.chain_nil_iff.1 hserver
    refine ⟨rfl, rfl, rfl, ?_⟩
    rintro record ⟨⟩
    rw [shownUrl, hs, Option.getD_some]
  · obtain ⟨rfl, htold⟩ := (Exchange.chain_singleton_iff.1 hserver).told rfl
    rcases recordAnswer_cases proxy reply with ⟨record, hrecord, hx⟩ | ⟨-, error, hx⟩
    · -- the record that is told is the one that is kept
      obtain rfl := htold record hrecord
      rw [hx, shownUrl, shownUrl, hs]
      refine ⟨rfl, rfl, rfl, ?_⟩
      rintro _ ⟨⟩
      rfl
    · rw [hx]
      exact ⟨rfl, rfl, rfl, fun record hok => by cases hok⟩

/-- So does each of the readers. -/
theorem shownUrl_of_reader {op : Operation} (hop : op.isReader = true)
    {outcome : Except Error op.Answer} (h : Runs op.job proxy asked outcome after)
    (hserver : Exchange.Chain (Stores proxy.name) before asked served) :
    served = before ∧ after.name = proxy.name ∧ after.shownUrl served = proxy.shownUrl before := by
  by_cases hne : op = .configuration
  · subst hne
    rcases runs_configuration_iff.1 h with ⟨entries, -, rfl, -, rfl⟩ |
      ⟨-, x, between, hrun, -, rfl⟩
    · obtain rfl := Exchange.chain_nil_iff.1 hserver
      exact ⟨rfl, rfl, rfl⟩
    · obtain ⟨hserved, hname, hshown, -⟩ := shownUrl_of_loaded hrun hserver
      -- the entries that are known then do not touch the record
      have hsnapshot : (between.knowing (entriesIn x)).snapshot = between.snapshot := by
        cases entriesIn x <;> rfl
      refine ⟨hserved, by rw [knowing_name, hname], ?_⟩
      rw [← hshown, shownUrl, hsnapshot, shownUrl]
  · obtain ⟨f, hjob, -⟩ := Operation.exists_eq_map hop hne
    rw [hjob] at h
    obtain ⟨x, -, hrun⟩ := runs_map_iff.1 h
    obtain ⟨hserved, hname, hshown, -⟩ := shownUrl_of_loaded hrun hserver
    exact ⟨hserved, hname, hshown⟩

/-- Any number of them. -/
theorem shownUrl_of_trace {calls : List Call} (htrace : Trace proxy calls after)
    (hreaders : ∀ call ∈ calls, call.op.isReader = true)
    (hserver : Exchange.Chain (Stores proxy.name) before (Call.allAsked calls) served) :
    served = before ∧ after.name = proxy.name ∧ after.shownUrl served = proxy.shownUrl before := by
  induction htrace generalizing before with
  | nil proxy =>
    obtain rfl := Exchange.chain_nil_iff.1 hserver
    exact ⟨rfl, rfl, rfl⟩
  | cons hrun hrest ih =>
    obtain ⟨hop, hreaders⟩ := List.forall_mem_cons.1 hreaders
    rw [Call.allAsked_cons] at hserver
    obtain ⟨between, hfirst, hlater⟩ := Exchange.chain_append_iff.1 hserver
    obtain ⟨rfl, hname, hshown⟩ := shownUrl_of_reader hop hrun hfirst
    rw [← hname] at hlater
    obtain ⟨rfl, hname', hshown'⟩ := ih hreaders hlater
    exact ⟨rfl, hname'.trans hname, hshown'.trans hshown⟩

/-- Behind a change of the address the service has the new one.  The proxy is as it was if
    nothing was sent back, and has forgotten everything otherwise. -/
theorem kept_of_setUrl {url : String} {posted : Option Response}
    (h : Runs (setUrl url) proxy asked (.ok posted) after)
    (hserver : Exchange.Chain (Stores proxy.name) before asked served) :
    Attribute.url.valueIn served = some url ∧
      (posted = none ∧ after = proxy ∨ posted ≠ none ∧ after = proxy.wiped) := by
  obtain ⟨reply, ⟨error, -, -, herror, -⟩ | ⟨record, hrecord, hurl, rfl, hok, rfl⟩ |
    ⟨record, post, -, -, rfl, hok, rfl⟩⟩ := runs_setUrl_iff.1 h
  · cases herror
  · -- the record that was told has the address already
    obtain ⟨rfl, htold⟩ := (Exchange.chain_singleton_iff.1 hserver).told rfl
    obtain rfl := htold record (recordAnswer_eq_ok_iff.1 hrecord)
    cases hok
    refine ⟨?_, .inl ⟨rfl, rfl⟩⟩
    have hmember : Fields.get? record Attribute.url.member = some (.string url) := hurl
    rw [Attribute.valueIn, hmember]
    rfl
  · obtain ⟨between, -, hpost⟩ := Exchange.chain_cons_iff.1 hserver
    cases hanswer : proxy.answer (moveRequest proxy.name url record) post with
    | error error =>
      rw [hanswer] at hok
      cases hok
    | ok response =>
      rw [hanswer] at hok
      cases hok
      -- what was sent is kept, and has the address
      obtain rfl := (Exchange.chain_singleton_iff.1 hpost).kept _ rfl rfl rfl
        (accepted_of_answer hanswer)
      refine ⟨?_, .inr ⟨Option.some_ne_none _, rfl⟩⟩
      have hmember : Fields.get? (Fields.insert "url" (.string url) record) Attribute.url.member =
          some (.string url) := by
        rw [Fields.get?_insert]
        exact if_pos rfl
      rw [Attribute.valueIn, hmember]
      rfl

/-- The address that is read behind its change, maybe after other readings and attempts, is
    the new one exactly when the record was sent back, or no record was known before, or the
    known one has the new address. -/
theorem url_of_setUrl {url : String} {moved last : Proxy} {posted : Option Response}
    {calls : List Call} {read : List (Request × Reply)} {shown : Option String}
    (hmove : Runs (setUrl url) proxy asked (.ok posted) moved)
    (htrace : Trace moved calls last) (hreaders : ∀ call ∈ calls, call.op.isReader = true)
    (hread : Runs Proxy.url last read (.ok shown) after)
    (hserver : Exchange.Chain (Stores proxy.name) before
      (asked ++ Call.allAsked calls ++ read) served) :
    shown = some url ↔ posted ≠ none ∨
      ∀ record, proxy.snapshot = some record → Attribute.url.valueIn record = some url := by
  rw [List.append_assoc] at hserver
  obtain ⟨kept, hmoving, hrest⟩ := Exchange.chain_append_iff.1 hserver
  obtain ⟨hkept, hmoved⟩ := kept_of_setUrl hmove hmoving
  have hname : moved.name = proxy.name := by
    rcases hmoved with ⟨-, rfl⟩ | ⟨-, rfl⟩ <;> rfl
  rw [← hname] at hrest
  obtain ⟨kept', hreading, hlast⟩ := Exchange.chain_append_iff.1 hrest
  obtain ⟨rfl, hname', hkeeps⟩ := shownUrl_of_trace htrace hreaders hreading
  -- what the last reading shows was fixed when the address was set
  have hshown : shown = moved.shownUrl kept' := by
    have hjob : Proxy.url = Attribute.url.valueIn <$> loaded := Attribute.url.read_eq_map
    rw [hjob] at hread
    obtain ⟨x, hx, hrun⟩ := runs_map_iff.1 hread
    rw [← hname'] at hlast
    obtain ⟨-, -, -, hvalue⟩ := shownUrl_of_loaded hrun hlast
    cases x with
    | error error => cases hx
    | ok record => rw [← hkeeps, ← hvalue record rfl, Except.ok.inj hx]
  rw [hshown, shownUrl]
  -- nothing is read of the new record while an old one is known
  rcases hmoved with ⟨hposted, rfl⟩ | ⟨hposted, rfl⟩
  · cases hs : moved.snapshot with
    | none => simp [hkept]
    | some record => simp [hposted]
  · simp [hposted, wiped, hkept]

end Proxy

/-! A service keeps a record with one of two addresses, and the address is set to the second
of them. -/

namespace Proxy.TwoAddresses

/-- The address before the change and behind it. -/
def address (moved : Bool) : String :=
  if moved then "https://host/new.git" else "https://host/old.git"

/-- The record with an address. -/
def record (moved : Bool) : Fields Json :=
  [("rid", .string "demo"), ("url", .string (address moved))]

/-- The reply that tells the record. -/
def reply (moved : Bool) : Reply :=
  .ok (Response.ofJson 200 (.object [("result", .object (record moved))]))

/-- The reply to a record that is accepted. -/
def accepted : Response := ⟨200, [], ""⟩

/-- The request that sends the record back with the second address. -/
def move : Request := moveRequest "demo" (address true) (record false)

/-- An attempt to read the address that gets no reply. -/
def attempt : Call :=
  ⟨.read .url, [(recordRequest "demo", .error (.network "repository/demo" "down"))],
    .error (.network "repository/demo" "down")⟩

/-- A proxy that knows the record with the first address. -/
def stale : Proxy := ⟨"demo", .standard, some (record false), none⟩

theorem stores_told (moved : Bool) :
    Stores "demo" (record moved) (recordRequest "demo") (reply moved) (record moved) where
  told _ := by
    have htells : Job.recordIn? (reply moved) = some (record moved) := by
      cases moved <;> rfl
    refine ⟨rfl, fun told htold => ?_⟩
    rw [htells] at htold
    exact (Option.some.inj htold).symm
  kept _ hmethod := by cases hmethod

theorem stores_moved : Stores "demo" (record false) move (.ok accepted) (record true) where
  told h := absurd h.symm (Operation.recordRequest_ne_moveRequest _ _ _)
  kept sent _ _ hbody _ := by
    have hsent : move.body = some (.object (record true)) := rfl
    rw [hsent] at hbody
    cases hbody
    rfl

theorem stores_attempt : Stores "demo" (record true) (recordRequest "demo")
    (.error (.network "repository/demo" "down")) (record true) where
  told _ := ⟨rfl, fun _ htold => by cases htold⟩
  kept _ hmethod := by cases hmethod

theorem runs_setUrl : Runs (setUrl (address true)) (.new "demo")
    [(recordRequest "demo", reply false), (move, .ok accepted)] (.ok (some accepted))
    (.new "demo") :=
  runs_setUrl_iff.2 ⟨reply false, .inr (.inr ⟨record false, .ok accepted, rfl, by decide, rfl,
    rfl, rfl⟩)⟩

theorem runs_attempt : Runs attempt.op.job (.new "demo") attempt.asked attempt.outcome
    (.new "demo") :=
  Operation.runs_read (runs_loaded_iff.2 (.inr ⟨rfl, _, rfl, rfl, rfl⟩))

theorem runs_url : Runs (Operation.read .url).job (.new "demo")
    [(recordRequest "demo", reply true)] (.ok (some (address true)))
    ⟨"demo", .standard, some (record true), none⟩ :=
  Operation.runs_read (runs_loaded_iff.2 (.inr ⟨rfl, _, rfl, rfl, rfl⟩))

/-- A proxy that knows the first address is told that the second one is there already. -/
theorem runs_setUrl_stale : Runs (setUrl (address true)) stale
    [(recordRequest "demo", reply true)] (.ok none) stale :=
  runs_setUrl_iff.2 ⟨reply true, .inr (.inl ⟨record true, rfl, rfl, rfl, rfl, rfl⟩)⟩

theorem runs_url_stale : Runs (Operation.read .url).job stale [] (.ok (some (address false)))
    stale :=
  Operation.runs_read (runs_loaded_iff.2 (.inl ⟨record false, rfl, rfl, rfl, rfl⟩))

end Proxy.TwoAddresses

namespace Proxy

open TwoAddresses in
theorem url_of_setUrl_sent :
    Exchange.Chain (Stores "demo") (record false)
      [(recordRequest "demo", reply false), (move, .ok accepted),
        (recordRequest "demo", .error (.network "repository/demo" "down")),
        (recordRequest "demo", reply true)] (record true) ∧
      (some (address true) = some (address true) ↔ some accepted ≠ none ∨
        ∀ known, (none : Option (Fields Json)) = some known →
          Attribute.url.valueIn known = some (address true)) := by
  have hserver : Exchange.Chain (Stores "demo") (record false) _ (record true) :=
    .cons (stores_told false) (.cons stores_moved
      (.cons stores_attempt (.cons (stores_told true) (.nil _))))
  have hreaders : ∀ call ∈ [attempt], call.op.isReader = true := by decide
  exact ⟨hserver, url_of_setUrl runs_setUrl (.cons runs_attempt (.nil _)) hreaders runs_url hserver⟩

open TwoAddresses in
/-- So the address that is read behind its change is not always the new one. -/
theorem not_url_of_setUrl :
    ¬ ∀ (url : String) (proxy moved after : Proxy) (asked read : List (Request × Reply))
      (posted : Option Response) (shown : Option String) (before served : Fields Json),
      Runs (setUrl url) proxy asked (.ok posted) moved →
      Runs Proxy.url moved read (.ok shown) after →
      Exchange.Chain (Stores proxy.name) before (asked ++ read) served →
      shown = some url := by
  intro h
  have hserver : Exchange.Chain (Stores "demo") (record true)
      [(recordRequest "demo", reply true)] (record true) := .cons (stores_told true) (.nil _)
  have hshown := h _ _ _ _ _ _ _ _ _ _ runs_setUrl_stale runs_url_stale hserver
  exact absurd hshown (by decide)

end Proxy

end GitTransport
