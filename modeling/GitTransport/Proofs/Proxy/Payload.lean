/-
What a registration sends.

  The record of a registration is the known one with what every registration sets laid over
  it, and with the configuration that is given laid over the one in it
  (`Registration.describes_of_record`).  It cannot be made only when there is something to
  lay over a configuration that is none (`Registration.Refuses`).

  So a registration sends this record, once, or nothing at all (`Proxy.create_payload`).
  The entries that a proxy knows apart from the record have no part in it: a key that was
  set before is sent with the value that the record has (`Proxy.posted_of_sets`).
-/

import GitTransport.Proofs.Configuration
import GitTransport.Proofs.Proxy.OwnWrites
import GitTransport.Proofs.Text.Utf8

namespace GitTransport

open ProxyJob Proxy

namespace Registration

variable {r : Registration} {proxy : Proxy} {data record : Fields Json}

/-! ## The record -/

/-- The configuration that is given; none is as good as an empty one. -/
def supplied (r : Registration) : Dictionary String := r.config.getD .empty

/-- The texts that a registration of the repository `name` sets, with their members. -/
def texts (r : Registration) (name : String) : List (String × String) :=
  [("rid", name), ("name", name), ("vsid", r.vsid), ("url", r.url), ("role", r.role.text),
    ("type", r.type.text), ("connection", "ssl")]

/-- The value of a key when the given configuration goes over `entries`: the given one, or
    else that of the last entry of the key. -/
def valueOver (r : Registration) (entries : List Configuration.Entry) (key : String) :
    Option String :=
  (r.supplied.get? key).or ((entries.reverse.find? (·.key = key)).map (·.value))

/-- The record `data` is the known one with the registration laid over it. -/
structure Describes (r : Registration) (proxy : Proxy) (data : Fields Json) : Prop where
  /-- What every registration sets. -/
  set : ∀ pair ∈ r.texts proxy.name, Fields.get? data pair.1 = some (.string pair.2)
  /-- All else is as it is known, but for the configuration. -/
  others : ∀ member, member ≠ "config" → (∀ pair ∈ r.texts proxy.name, pair.1 ≠ member) →
    Fields.get? data member = Fields.get? (proxy.snapshot.getD []) member
  /-- Without a configuration that is given, the known one is kept as it is. -/
  kept : r.supplied = .empty →
    Fields.get? data "config" = Fields.get? (proxy.snapshot.getD []) "config"
  /-- A configuration that is given goes over the known one, key by key. -/
  merged : r.supplied ≠ .empty → ∃ entries posted,
    Configuration.ofJson (Fields.get? (proxy.snapshot.getD []) "config") = .ok entries ∧
    Fields.get? data "config" = some (Configuration.toJson posted) ∧
    posted.Pairwise (fun a b => Text.utf8 a.key.toList < Text.utf8 b.key.toList) ∧
    ∀ entry, entry ∈ posted ↔ r.valueOver entries entry.key = some entry.value
  /-- Members in order stay in order. -/
  sorted : (proxy.snapshot.getD []).Sorted → data.Sorted

/-- A configuration is given, and the known one is there but is none. -/
def Refuses (r : Registration) (proxy : Proxy) : Prop :=
  r.supplied ≠ .empty ∧ ∃ value, Fields.get? (proxy.snapshot.getD []) "config" = some value ∧
    value ≠ .null ∧ ∀ entries, Configuration.ofJson (some value) ≠ .ok entries

theorem sorted_fields (r : Registration) (name : String) : (r.fields name).Sorted := by
  have hnames : ["connection", "name", "rid", "role", "type", "url", "vsid"].Pairwise (· < ·) := by
    decide
  exact List.pairwise_map.1 hnames

theorem get?_fields_of_mem {name : String} {pair : String × String} (h : pair ∈ r.texts name) :
    Fields.get? (r.fields name) pair.1 = some (.string pair.2) := by
  apply (r.sorted_fields name).get?_of_mem
  simp only [texts, List.mem_cons, List.not_mem_nil, or_false] at h
  rcases h with rfl | rfl | rfl | rfl | rfl | rfl | rfl <;> simp [fields]

theorem get?_fields_of_ne {name member : String} (h : ∀ pair ∈ r.texts name, pair.1 ≠ member) :
    Fields.get? (r.fields name) member = none := by
  simp only [texts, List.forall_mem_cons] at h
  simp [fields, Fields.get?_cons, h]

/-- What every registration sets wins over what is known. -/
theorem get?_extend_of_mem (proxy : Proxy) {name : String} {pair : String × String}
    (h : pair ∈ r.texts name) :
    Fields.get? (Fields.extend (proxy.snapshot.getD []) (r.fields name)) pair.1 =
      some (.string pair.2) := by
  rw [(r.sorted_fields name).get?_extend, get?_fields_of_mem h, Option.some_or]

/-- All else stays. -/
theorem get?_extend_of_ne (proxy : Proxy) {name member : String}
    (h : ∀ pair ∈ r.texts name, pair.1 ≠ member) :
    Fields.get? (Fields.extend (proxy.snapshot.getD []) (r.fields name)) member =
      Fields.get? (proxy.snapshot.getD []) member := by
  rw [(r.sorted_fields name).get?_extend, get?_fields_of_ne h, Option.none_or]

theorem ne_config_of_mem_texts {name : String} {pair : String × String}
    (h : pair ∈ r.texts name) : pair.1 ≠ "config" := by
  simp only [texts, List.mem_cons, List.not_mem_nil, or_false] at h
  rcases h with rfl | rfl | rfl | rfl | rfl | rfl | rfl <;> simp

/-- The configuration is none of the members that every registration sets. -/
theorem get?_extend_config (r : Registration) (proxy : Proxy) :
    Fields.get? (Fields.extend (proxy.snapshot.getD []) (r.fields proxy.name)) "config" =
      Fields.get? (proxy.snapshot.getD []) "config" :=
  get?_extend_of_ne proxy fun _ hmem => ne_config_of_mem_texts hmem

/-! ## Its configuration -/

theorem configured_of_empty (h : r.supplied = .empty) (record : Fields Json) :
    r.configured record = .ok record := by
  rw [supplied] at h
  rw [configured]
  cases hc : r.config with
  | none => rfl
  | some config =>
    rw [hc] at h
    exact if_pos (Dictionary.isEmpty_iff.2 h)

theorem configured_of_ne_empty (h : r.supplied ≠ .empty) (record : Fields Json) :
    r.configured record = (entriesOf (Fields.get? record "config")).map fun entries =>
      Fields.insert "config" (Configuration.toJson (Configuration.ofDictionary
        ((Configuration.toDictionary entries).extend r.supplied))) record := by
  rw [supplied] at h
  rw [configured, supplied]
  cases hc : r.config with
  | none =>
    rw [hc] at h
    exact absurd rfl h
  | some config =>
    rw [hc] at h
    exact if_neg fun hempty => h (Dictionary.isEmpty_iff.1 hempty)

/-- The record that is made describes the registration. -/
theorem describes_of_record (h : r.record proxy = .ok data) : r.Describes proxy data := by
  rw [record] at h
  have hconfig := get?_extend_config r proxy
  by_cases hempty : r.supplied = .empty
  · rw [configured_of_empty hempty] at h
    cases h
    exact ⟨fun _ => get?_extend_of_mem proxy, fun member _ => get?_extend_of_ne proxy,
      fun _ => hconfig, fun hgiven => absurd hempty hgiven, fun hsorted => hsorted.extend _⟩
  · rw [configured_of_ne_empty hempty, hconfig] at h
    cases hentries : Configuration.ofJson (Fields.get? (proxy.snapshot.getD []) "config") with
    | error fault =>
      rw [entriesOf, hentries] at h
      cases h
    | ok entries =>
      rw [entriesOf, hentries] at h
      cases h
      -- only the configuration is put into the record behind the rest
      refine ⟨?set, ?others, fun hnone => absurd hnone hempty, fun _ => ?merged,
        fun hsorted => (hsorted.extend _).insert _ _⟩
      case set =>
        intro pair hmem
        rw [Fields.get?_insert, if_neg (Ne.symm (ne_config_of_mem_texts hmem))]
        exact get?_extend_of_mem proxy hmem
      case others =>
        intro member hmember hne
        rw [Fields.get?_insert, if_neg (Ne.symm hmember)]
        exact get?_extend_of_ne proxy hne
      case merged =>
        refine ⟨entries, Configuration.ofDictionary
          ((Configuration.toDictionary entries).extend r.supplied), hentries, ?_, ?_, ?_⟩
        · rw [Fields.get?_insert, if_pos rfl]
        · exact (Configuration.pairwise_ofDictionary _).imp fun hlt =>
            Text.utf8_lt_utf8 (String.lt_iff.1 hlt)
        · intro entry
          rw [Configuration.mem_ofDictionary, Dictionary.get?_extend,
            Configuration.get?_toDictionary_eq_find?, valueOver]

/-- The record cannot be made exactly when the registration refuses. -/
theorem record_eq_error_iff {error : Error} :
    r.record proxy = .error error ↔ error = .json .unexpected ∧ r.Refuses proxy := by
  rw [record, Refuses]
  by_cases hempty : r.supplied = .empty
  · rw [configured_of_empty hempty]
    constructor
    · intro h
      cases h
    · rintro ⟨-, hgiven, -⟩
      exact absurd hempty hgiven
  · rw [configured_of_ne_empty hempty, get?_extend_config, entriesOf]
    cases hentries : Configuration.ofJson (Fields.get? (proxy.snapshot.getD []) "config") with
    | error fault =>
      obtain ⟨rfl, hvalue⟩ := Configuration.ofJson_eq_error_iff.1 hentries
      constructor
      · intro h
        cases h
        exact ⟨rfl, hempty, hvalue⟩
      · rintro ⟨rfl, -⟩
        rfl
    | ok entries =>
      constructor
      · intro h
        cases h
      · rintro ⟨-, -, value, hvalue, -, hbad⟩
        rw [hvalue] at hentries
        exact absurd hentries (hbad entries)

end Registration

/-! ## The request -/

namespace Proxy

/-- A registration that refuses sends nothing and changes nothing.  Each other one sends one
    request, whatever comes back, with a record that describes it. -/
theorem create_payload (r : Registration) (proxy : Proxy) :
    (r.Refuses proxy → ∀ asked outcome after, Runs (create r) proxy asked outcome after ↔
      asked = [] ∧ outcome = .error (.json .unexpected) ∧ after = proxy) ∧
    (¬ r.Refuses proxy → ∃ data, r.Describes proxy data ∧
      ∀ asked, (∃ outcome after, Runs (create r) proxy asked outcome after) ↔
        ∃ reply, asked = [(
          { method := .post, path := "repository", accept := some "application/json",
            body := some (.object [("data", .object data), ("repository", .string proxy.name)]) },
          reply)]) := by
  constructor
  · intro hrefuses asked outcome after
    have hrecord := Registration.record_eq_error_iff.2 ⟨rfl, hrefuses⟩
    rw [runs_create_iff, hrecord]
    constructor
    · rintro (⟨error, herror, rfl, rfl, rfl⟩ | ⟨data, reply, hok, -⟩)
      · cases herror
        exact ⟨rfl, rfl, rfl⟩
      · cases hok
    · rintro ⟨rfl, rfl, rfl⟩
      exact .inl ⟨_, rfl, rfl, rfl, rfl⟩
  · intro hmakes
    cases hrecord : r.record proxy with
    | error error => exact absurd (Registration.record_eq_error_iff.1 hrecord).2 hmakes
    | ok data =>
      refine ⟨data, Registration.describes_of_record hrecord, fun asked => ?_⟩
      simp only [runs_create_iff, hrecord]
      constructor
      · rintro ⟨outcome, after, ⟨error, herror, -⟩ | ⟨sent, reply, hsent, rfl, -⟩⟩
        · cases herror
        · cases hsent
          exact ⟨reply, rfl⟩
      · rintro ⟨reply, rfl⟩
        cases hanswer : proxy.createAnswer data reply with
        | error error =>
          exact ⟨_, _, .inr ⟨data, reply, rfl, rfl, .inr ⟨error, hanswer, rfl, rfl⟩⟩⟩
        | ok record =>
          exact ⟨_, _, .inr ⟨data, reply, rfl, rfl, .inl ⟨record, hanswer, rfl, rfl⟩⟩⟩

end Proxy

/-! A registration with a configuration, of a repository whose known configuration has a key
twice and a value that is no text, and of one whose configuration is a text. -/

namespace Proxy.Merging

/-- A registration that gives two keys. -/
def registration : Registration :=
  ⟨"https://host/new.git", "6IT", some (Dictionary.ofList [("C", "3"), ("A", "new")]), .source,
    .github⟩

/-- The proxy that knows a record with this configuration. -/
def known (config : Json) : Proxy :=
  ⟨"demo", .standard, some [("config", config), ("status", .string "CREATED")], none⟩

/-- A configuration with a key twice. -/
def listed : Json :=
  .array [.object [("key", .string "B"), ("value", .string "old")], .array [.string "A"],
    .object [("key", .string "B"), ("value", .bool true)]]

/-- A configuration that is none. -/
def broken : Json := .string "A=1"

theorem refuses_broken : registration.Refuses (known broken) :=
  ⟨by decide, broken, rfl, Json.noConfusion, fun _ h => by cases h⟩

theorem not_refuses_listed : ¬ registration.Refuses (known listed) := by
  rintro ⟨-, value, hvalue, -, hbad⟩
  cases hvalue
  exact hbad _ rfl

end Proxy.Merging

namespace Proxy

open Merging in
theorem create_payload_merging :
    Runs (create registration) (known broken) [] (.error (.json .unexpected)) (known broken) ∧
      ∃ data, registration.Describes (known listed) data ∧
        ∃ outcome after, Runs (create registration) (known listed) [(
          { method := .post, path := "repository", accept := some "application/json",
            body := some (.object [("data", .object data), ("repository", .string "demo")]) },
          .error (.network "repository" "down"))] outcome after := by
  obtain ⟨hbroken, -⟩ := create_payload registration (known broken)
  obtain ⟨-, hlisted⟩ := create_payload registration (known listed)
  obtain ⟨data, hdata, hruns⟩ := hlisted not_refuses_listed
  exact ⟨(hbroken refuses_broken _ _ _).2 ⟨rfl, rfl, rfl⟩, data, hdata, (hruns _).2 ⟨_, rfl⟩⟩

open Merging in
example : ((registration.record (known listed)).toOption.bind (Fields.get? · "config")) =
    some (Configuration.toJson [⟨"A", "new"⟩, ⟨"B", "true"⟩, ⟨"C", "3"⟩]) := by decide

end Proxy

/-! ## Behind changes of the configuration -/

/-- A call that gives a key a value, and is accepted. -/
def Call.Sets (call : Call) (write : String × String) : Prop :=
  ∃ asked, call = ⟨.setConfig write.1 write.2, asked, .ok ()⟩

namespace Proxy

variable {r : Registration} {proxy last after : Proxy} {calls : List Call}
  {writes : List (String × String)} {asked : List (Request × Reply)}

/-- Give keys their values, one after the other. -/
def setAll (writes : List (String × String)) (proxy : Proxy) : Proxy :=
  writes.foldl (fun proxy write => proxy.setKnown write.1 write.2) proxy

/-- The record is left as it is. -/
theorem setAll_keeps (writes : List (String × String)) (proxy : Proxy) :
    (setAll writes proxy).snapshot = proxy.snapshot ∧ (setAll writes proxy).name = proxy.name := by
  induction writes generalizing proxy with
  | nil => exact ⟨rfl, rfl⟩
  | cons write writes ih => exact ih (proxy.setKnown write.1 write.2)

/-- The value that a key was given last is known. -/
theorem tells_setAll (proxy : Proxy) {key value : String}
    (h : Fields.get? writes.reverse key = some value) : (setAll writes proxy).Tells key value := by
  -- the last write decides, so the list is taken apart from its end
  induction writes using List.reverseRecOn with
  | nil => cases h
  | append_singleton writes write ih =>
    obtain ⟨k, v⟩ := write
    rw [List.reverse_append] at h
    rw [setAll, List.foldl_append]
    have hget : Fields.get? ((k, v) :: writes.reverse) key = some value := h
    rw [Fields.get?_cons] at hget
    by_cases hk : k = key
    · rw [if_pos hk] at hget
      cases hget
      subst hk
      exact tells_setKnown _ _ _
    · rw [if_neg hk] at hget
      exact (ih hget).setKnown hk v

theorem eq_of_sets (htrace : Trace proxy calls last)
    (h : List.Forall₂ Call.Sets calls writes) : last = setAll writes proxy := by
  induction htrace generalizing writes with
  | nil proxy =>
    cases h
    rfl
  | cons hrun hrest ih =>
    obtain _ | ⟨⟨asked, rfl⟩, hothers⟩ := h
    obtain ⟨reply, -, ⟨response, -, -, rfl⟩ | ⟨error, -, hfailed, -⟩⟩ :=
      runs_setConfig_iff.1 hrun
    · exact ih hothers
    · cases hfailed

/-- A registration behind accepted settings of keys sends a configuration that says of the
    keys what the known record says: the values that were set are known to the proxy, but
    they are sent exactly when the record had them before. -/
theorem posted_of_sets {record : Fields Json} {entries : List Configuration.Entry}
    {outcome : Except Error Unit} (hs : proxy.snapshot = some record)
    (hentries : Configuration.ofJson (Fields.get? record "config") = .ok entries)
    (htrace : Trace proxy calls last) (hwrites : List.Forall₂ Call.Sets calls writes)
    (hcreate : Runs (create r) last asked outcome after) :
    ∃ data reply posted, asked = [(Registration.request proxy.name data, reply)] ∧
      Configuration.ofJson (Fields.get? data "config") = .ok posted ∧
      ∀ key value, (Dictionary.ofList writes).get? key = some value →
        r.supplied.get? key = none →
        last.Tells key value ∧ (Configuration.Says posted key value ↔
          if r.supplied = .empty then Configuration.Says entries key value
          else (Configuration.toDictionary entries).get? key = some value) := by
  obtain rfl := eq_of_sets htrace hwrites
  obtain ⟨hsnapshot, hname⟩ := setAll_keeps writes proxy
  have hknown : (setAll writes proxy).snapshot.getD [] = record := by
    rw [hsnapshot, hs, Option.getD_some]
  have htells (key value : String) (h : (Dictionary.ofList writes).get? key = some value) :
      (setAll writes proxy).Tells key value := by
    rw [Dictionary.get?_ofList] at h
    exact tells_setAll proxy h
  rcases runs_create_iff.1 hcreate with ⟨error, herror, -⟩ | ⟨data, reply, hdata, rfl, -⟩
  · -- the record has a configuration that can be read
    obtain ⟨-, -, value, hvalue, -, hbad⟩ := Registration.record_eq_error_iff.1 herror
    rw [hknown] at hvalue
    rw [hvalue] at hentries
    exact absurd hentries (hbad entries)
  · have hdescribes := Registration.describes_of_record hdata
    rw [hname]
    by_cases hempty : r.supplied = .empty
    · -- the list of the record is sent as it stands, with old values of a key if it has some
      have hkept := hdescribes.kept hempty
      rw [hknown] at hkept
      refine ⟨data, reply, entries, rfl, by rw [hkept]; exact hentries, fun key value hset _ => ?_⟩
      rw [if_pos hempty]
      exact ⟨htells key value hset, Iff.rfl⟩
    · -- a list with one entry for a key is sent, and the record gives what was not given
      obtain ⟨found, posted, hfound, hposted, -, hmem⟩ := hdescribes.merged hempty
      rw [hknown, hentries] at hfound
      cases hfound
      refine ⟨data, reply, posted, rfl, by rw [hposted, Configuration.ofJson_toJson],
        fun key value hset hnone => ⟨htells key value hset, ?_⟩⟩
      rw [if_neg hempty, Configuration.says_iff_of_mem_iff hmem, Registration.valueOver, hnone,
        Option.none_or, Configuration.get?_toDictionary_eq_find?]

end Proxy

/-! Two keys are set on a proxy that knows a record with other values of them, one of them
twice and in the end to the value that the record has; then the repository is registered. -/

namespace Proxy.SetBefore

/-- The entries of the record. -/
def entries : List Configuration.Entry := [⟨"A", "1"⟩, ⟨"B", "2"⟩]

/-- The record. -/
def record : Fields Json := [("config", Configuration.toJson entries)]

/-- The proxy that knows the record. -/
def proxy : Proxy := ⟨"demo", .standard, some record, none⟩

/-- What is set. -/
def writes : List (String × String) := [("A", "2"), ("B", "3"), ("B", "2")]

/-- The calls that set it. -/
def calls : List Call :=
  writes.map fun write => ⟨.setConfig write.1 write.2,
    [(setKeyRequest "demo" write.1 write.2, .ok ⟨200, [], ""⟩)], .ok ()⟩

/-- A registration without a configuration. -/
def registration : Registration := ⟨"https://host/demo.git", "6IT", none, .source, .github⟩

/-- The record that is sent. -/
def data : Fields Json :=
  [("config", Configuration.toJson entries), ("connection", .string "ssl"),
    ("name", .string "demo"), ("rid", .string "demo"), ("role", .string "SOURCE"),
    ("type", .string "GITHUB"), ("url", .string "https://host/demo.git"),
    ("vsid", .string "6IT")]

theorem runs_set (proxy : Proxy) (hname : proxy.name = "demo") (write : String × String) :
    Runs (setConfig write.1 write.2) proxy
      [(setKeyRequest "demo" write.1 write.2, .ok ⟨200, [], ""⟩)] (.ok ())
      (proxy.setKnown write.1 write.2) :=
  runs_setConfig_iff.2 ⟨.ok ⟨200, [], ""⟩, by rw [hname], .inl ⟨_, rfl, rfl, rfl⟩⟩

theorem trace : Trace proxy calls (setAll writes proxy) :=
  .cons (runs_set _ rfl ("A", "2")) (.cons (runs_set _ rfl ("B", "3"))
    (.cons (runs_set _ rfl ("B", "2")) (.nil _)))

theorem sets : List.Forall₂ Call.Sets calls writes :=
  .cons ⟨_, rfl⟩ (.cons ⟨_, rfl⟩ (.cons ⟨_, rfl⟩ .nil))

theorem runs_create : Runs (create registration) (setAll writes proxy)
    [(Registration.request "demo" data, .error (.network "repository" "down"))]
    (.error (.network "repository" "down")) (setAll writes proxy) :=
  runs_create_iff.2 (.inr ⟨data, _, rfl, rfl, .inr ⟨_, rfl, rfl, rfl⟩⟩)

end Proxy.SetBefore

namespace Proxy

open SetBefore in
theorem posted_of_sets_setBefore :
    ∃ posted, Configuration.ofJson (Fields.get? data "config") = .ok posted ∧
      (setAll writes proxy).Tells "A" "2" ∧ (setAll writes proxy).Tells "B" "2" ∧
      Configuration.Says posted "B" "2" := by
  have hentries : Configuration.ofJson (Fields.get? record "config") = .ok entries := rfl
  have hnone : registration.supplied = .empty := rfl
  obtain ⟨sent, reply, posted, hasked, hposted, hkeys⟩ :=
    posted_of_sets rfl hentries trace sets runs_create
  cases hasked
  obtain ⟨hfirst, -⟩ := hkeys "A" "2" rfl rfl
  obtain ⟨hsecond, hsays⟩ := hkeys "B" "2" rfl rfl
  refine ⟨posted, hposted, hfirst, hsecond, hsays.2 ?_⟩
  rw [if_pos hnone]
  exact ⟨by decide, by decide⟩

open SetBefore in
/-- So a registration sends an old value of a key that was set before. -/
theorem not_posted_of_sets :
    ¬ ∀ (proxy last after : Proxy) (record data : Fields Json)
      (entries posted : List Configuration.Entry) (calls : List Call)
      (writes : List (String × String)) (r : Registration) (reply : Reply)
      (outcome : Except Error Unit) (key value : String),
      proxy.snapshot = some record →
      Configuration.ofJson (Fields.get? record "config") = .ok entries →
      Trace proxy calls last → List.Forall₂ Call.Sets calls writes →
      Runs (create r) last [(Registration.request proxy.name data, reply)] outcome after →
      Configuration.ofJson (Fields.get? data "config") = .ok posted →
      (Dictionary.ofList writes).get? key = some value → r.supplied.get? key = none →
      Configuration.Says posted key value := by
  intro h
  have hsays := h _ _ _ _ data entries entries _ writes _ _ _ "A" "2" rfl rfl trace sets
    runs_create rfl rfl rfl
  -- the record that is sent has the value from before
  exact absurd hsays.1 (by decide)

end Proxy

end GitTransport
