/-
Where the requests of a proxy go.

  Every request of an operation is for a place: the collection of repositories, the
  repository of the proxy, or a resource below it (`Operation.exists_place`).  The
  text of a place is the word for repositories with the name and the texts of the
  place behind it, all of them as they are, and the address is what comes of that text
  at the root of the service.

  So the path of the address is the root followed by the segments of the place
  exactly when each of them stands for itself (`Place.exists_url`).  Then the query
  has the pairs of the session and of the request and nothing else, and places of
  different repositories have different addresses (`Operation.address_of_asked`).  A
  registration goes to the collection, and a name that climbs leads to another
  repository (`Operation.not_addressed`).
-/

import GitTransport.Http.Session
import GitTransport.Settings
import GitTransport.Proofs.Proxy.Operation
import GitTransport.Proofs.Url.Query
import GitTransport.Proofs.Url.Relative

namespace GitTransport

open Text ProxyJob

/-! ## The root of the service -/

/-- The root of a session is an address over HTTP with a path of segments. -/
structure Session.Rooted (session : Session) : Prop where
  scheme : session.baseUrl.scheme = "http" ∨ session.baseUrl.scheme = "https"
  path : ∃ names, session.baseUrl.path = .segments names

/-- The segments of the directory of the service. -/
def Session.root (session : Session) : List (List UInt8) :=
  session.baseUrl.path.segmentBytes.dropLast

/-- A connection has a session exactly if its settings have a root, and it is the new one
    there. -/
theorem Settings.connect_eq_ok_iff {settings : Settings} {session : Session} :
    settings.connect = .ok session ↔
      ∃ url, baseUrl settings.host settings.port settings.ssl = .ok url ∧
        session = { baseUrl := url, client := settings.client, user := settings.user.getD "",
                    password := settings.password } := by
  rw [connect]
  cases baseUrl settings.host settings.port settings.ssl with
  | error error =>
    constructor
    · rintro ⟨⟩
    · rintro ⟨url, ⟨⟩, -⟩
  | ok url =>
    constructor
    · rintro ⟨⟩
      exact ⟨url, rfl, rfl⟩
    · rintro ⟨_, ⟨⟩, rfl⟩
      rfl

/-- The session of a connection has such a root. -/
theorem Settings.rooted_of_connect {settings : Settings} {session : Session}
    (h : settings.connect = .ok session) : session.Rooted := by
  have hurl : baseUrl settings.host settings.port settings.ssl = .ok session.baseUrl := by
    obtain ⟨url, hbase, rfl⟩ := connect_eq_ok_iff.1 h
    exact hbase
  unfold baseUrl at hurl
  split at hurl
  · cases hurl
  · have hparse := mapError_eq_ok_iff.1 hurl
    -- the scheme comes first in the text, whatever the host is
    have htext (scheme : String) :
        (scheme ++ "://" ++ settings.host ++ ":" ++ toString settings.port ++ servicePath).toList =
          scheme.toList ++ ':' ::
            ("//" ++ settings.host ++ ":" ++ toString settings.port ++ servicePath).toList := by
      simp [String.toList_append]
    cases hssl : settings.ssl with
    | false =>
      rw [hssl] at hparse
      have hserved := Url.yields_parse (by decide) (by decide) (by decide) (by decide)
        (htext "http") _ hparse
      exact ⟨.inl hserved.scheme, hserved.path⟩
    | true =>
      rw [hssl] at hparse
      have hserved := Url.yields_parse (by decide) (by decide) (by decide) (by decide)
        (htext "https") _ hparse
      exact ⟨.inr hserved.scheme, hserved.path⟩

/-! ## Queries -/

/-- Adding pairs to an address without a query leaves the rest of it as it is, and the
    pairs can be read back. -/
theorem Session.addQuery_spec {url : Url} {names : List String}
    (hpath : url.path = .segments names) (pairs : List (String × String)) :
    (addQuery url pairs).path = url.path ∧ (addQuery url pairs).fragment = url.fragment ∧
      (url.query = none →
        Url.formPairs ((addQuery url pairs).query.getD "").toList = pairs) := by
  have hadd := Url.withQuery_eq (hpath ▸ Url.endsPlain_segments names)
  refine ⟨by rw [addQuery, hadd], by rw [addQuery, hadd], fun hquery => ?_⟩
  rw [addQuery, hadd, hquery]
  simp only [Option.getD_none, String.toList_empty]
  split
  · next hempty =>
    have hread := Url.formPairs_appendPairs pairs
    rw [List.isEmpty_iff.1 hempty] at hread
    exact hread
  · rw [Option.getD_some, String.toList_ofList, Url.formPairs_appendPairs]

/-! ## Places -/

/-- What a request of a proxy is for. -/
inductive Place where
  | collection
  | record
  | clone
  | configuration
  | setting (key : String)
  | switch (current : String)
  | history
  | pull
  | commit

namespace Place

/-- The texts behind the word for repositories. -/
def behind (name : String) : Place → List String
  | .collection => []
  | .record => [name]
  | .clone => [name, "clone"]
  | .configuration => [name, "config"]
  | .setting key => [name, "config", key]
  | .switch current => [name, "branches", current, "switch"]
  | .history => [name, "getCommit"]
  | .pull => [name, "pullByCommit"]
  | .commit => [name, "commit"]

/-- The segments of a place below the directory of the service. -/
def segments (name : String) (place : Place) : List String := "repository" :: place.behind name

/-- The path of the requests for a place. -/
def path (name : String) : Place → String
  | .collection => "repository"
  | .record => Proxy.resource name none
  | .clone => Proxy.resource name (some "clone")
  | .configuration => Proxy.resource name (some "config")
  | .setting key => Proxy.resource name (some ("config/" ++ key))
  | .switch current => Proxy.resource name (some ("branches/" ++ current ++ "/switch"))
  | .history => Proxy.resource name (some "getCommit")
  | .pull => Proxy.resource name (some "pullByCommit")
  | .commit => Proxy.resource name (some "commit")

theorem toList_path (name : String) (place : Place) :
    (place.path name).toList = Url.joined "repository" (place.behind name) := by
  cases place <;> simp [path, behind, Proxy.resource, Url.joined, String.toList_append]

/-- A place has an address, whatever its texts are.  Its path is the root of the service
    and the segments of the place exactly when these stand for themselves. -/
theorem exists_url {session : Session} (hroot : session.Rooted) (name : String) (place : Place)
    (params : List (String × String)) :
    ∃ url, session.urlFor (place.path name) params = .ok url ∧
      (url.path.segmentBytes =
          session.root ++ (place.segments name).map (fun s => utf8 s.toList) ↔
        Url.Plain (place.segments name)) ∧
      (Url.Plain (place.segments name) →
        Url.formPairs (url.query.getD "").toList = session.queryPairs params ∧
          url.fragment = none) := by
  obtain ⟨names, hpath⟩ := hroot.path
  have hscheme : Url.isSpecial session.baseUrl.scheme = true ∧
      session.baseUrl.scheme ≠ "file" := by
    rcases hroot.scheme with hscheme | hscheme
    · rw [hscheme]
      decide
    · rw [hscheme]
      decide
  have hword : Url.IsWord "repository" := by decide
  obtain ⟨url, reached, hjoin, hreached, hiff, htail⟩ := Url.segmentBytes_join_iff hscheme.1
    hscheme.2 hpath hword (toList_path name place)
  obtain ⟨hsame, hfragment, hpairs⟩ := Session.addQuery_spec hreached (session.queryPairs params)
  refine ⟨Session.addQuery url (session.queryPairs params), ?_, ?_, fun hplain => ?_⟩
  · rw [Session.urlFor, hjoin]
    rfl
  · rw [hsame, Session.root, hpath]
    simp only [Url.Path.segmentBytes, ← List.map_dropLast] at hiff ⊢
    exact hiff
  · rw [hfragment]
    exact ⟨hpairs (htail hplain).1, (htail hplain).2⟩

end Place
/-! ## The places of an operation -/

namespace Operation

open Proxy

/-- Whether an operation has requests for the repository itself. -/
def usesRecord : Operation → Bool
  | .read _ => true
  | .isCloned => true
  | .itemOr _ _ => true
  | .fetch => true
  | .configuration => true
  | .getConfig _ => true
  | .checkout _ => true
  | .delete => true
  | .setUrl _ => true
  | _ => false

/-- The places that an operation has requests for, with the parameters of these, when
    `asked` is what it asks.  A switch goes to the branch of the record that the proxy
    knows or reads first. -/
inductive Visits (proxy : Proxy) (asked : List (Request × Reply)) :
    Operation → Place → List (String × String) → Prop where
  | collection (registration : Registration) :
      Visits proxy asked (.create registration) .collection []
  | record {op : Operation} (h : op.usesRecord = true) : Visits proxy asked op .record []
  | clone : Visits proxy asked .clone .clone []
  | configuration (key value : String) : Visits proxy asked (.setConfig key value) .configuration []
  | setting (key : String) : Visits proxy asked (.getConfig key) (.setting key) []
  | switch {first rest : List (Request × Reply)} {record : Fields Json} {between : Proxy}
      {current : String} (target : String) (hasked : asked = first ++ rest)
      (hrun : Runs loaded proxy first (.ok record) between)
      (hbranch : Attribute.branch.valueIn record = some current) :
      Visits proxy asked (.checkout target) (.switch current) [("branch", target)]
  | history : Visits proxy asked .log .history []
  | pull : Visits proxy asked .pull .pull []
  | commit (transport message : String) (description : Option String) :
      Visits proxy asked (.commit transport message description) .commit []

variable {proxy after : Proxy} {asked : List (Request × Reply)} {request : Request} {reply : Reply}

theorem valueIn_of_branchIn {name current : String} {record : Fields Json}
    (h : branchIn name (.ok record) = .ok current) :
    Attribute.branch.valueIn record = some current := by
  simp only [branchIn, Except.bind] at h
  split at h
  · next branch hbranch =>
    cases h
    exact hbranch
  · cases h

/-- Every request of an operation is for one of its places. -/
theorem exists_place {op : Operation} {outcome : Except Error op.Answer}
    (h : Runs op.job proxy asked outcome after) (hmem : (request, reply) ∈ asked) :
    ∃ place params, Visits proxy asked op place params ∧
      request.path = place.path proxy.name ∧ request.params = params := by
  -- most operations ask for the record, now or in passing
  have hrecord (hop : op.usesRecord = true) (heq : request = recordRequest proxy.name) :
      ∃ place params, Visits proxy asked op place params ∧
        request.path = place.path proxy.name ∧ request.params = params := by
    subst heq
    exact ⟨_, _, .record hop, rfl, rfl⟩
  cases op with
  | read a =>
    rw [job_read] at h
    exact hrecord rfl (eq_of_mem_map h hmem)
  | isCloned =>
    rw [job_isCloned] at h
    exact hrecord rfl (eq_of_mem_map h hmem)
  | itemOr name default =>
    rw [job_itemOr] at h
    exact hrecord rfl (eq_of_mem_map h hmem)
  | fetch =>
    obtain ⟨_, rfl, -, -⟩ := runs_fetch_iff.1 h
    cases List.mem_singleton.1 hmem
    exact hrecord rfl rfl
  | wipe =>
    obtain ⟨rfl, -, -⟩ := runs_update_iff.1 h
    cases hmem
  | configuration => exact hrecord rfl (eq_of_mem_configuration h hmem)
  | getConfig key =>
    rcases runs_getConfig_iff.1 h with ⟨_, -, hrun⟩ | ⟨_, _, -, -, hrun⟩ |
      ⟨_, first, between, answer, -, rfl, hrun, -, -⟩
    · exact hrecord rfl (eq_of_mem_configuration hrun hmem)
    · exact hrecord rfl (eq_of_mem_configuration hrun hmem)
    · rcases List.mem_append.1 hmem with hmem | hmem
      · exact hrecord rfl (eq_of_mem_configuration hrun hmem)
      · cases List.mem_singleton.1 hmem
        refine ⟨_, _, .setting key, ?_, rfl⟩
        rw [(configuration_keeps hrun).1]
        rfl
  | setConfig key value =>
    obtain ⟨_, rfl, -⟩ := runs_setConfig_iff.1 h
    cases List.mem_singleton.1 hmem
    exact ⟨_, _, .configuration key value, rfl, rfl⟩
  | create registration =>
    rcases runs_create_iff.1 h with ⟨_, -, rfl, -, -⟩ | ⟨data, _, -, rfl, -⟩
    · cases hmem
    · cases List.mem_singleton.1 hmem
      exact ⟨_, _, .collection registration, rfl, rfl⟩
  | clone =>
    obtain ⟨_, rfl, -, -⟩ := runs_clone_iff.1 h
    cases List.mem_singleton.1 hmem
    exact ⟨_, _, .clone, rfl, rfl⟩
  | checkout target =>
    obtain ⟨x, first, between, hrun, ⟨current, answer, hx, rfl, -, -⟩ | ⟨_, -, rfl, -, -⟩⟩ :=
      runs_checkout_iff.1 h
    · rcases List.mem_append.1 hmem with hmem | hmem
      · exact hrecord rfl (eq_of_mem_loaded hrun hmem)
      · cases List.mem_singleton.1 hmem
        cases x with
        | error error => cases hx
        | ok record =>
          refine ⟨_, _, .switch target rfl hrun ?_, rfl, rfl⟩
          exact valueIn_of_branchIn hx
    · exact hrecord rfl (eq_of_mem_loaded hrun hmem)
  | pull =>
    obtain ⟨_, rfl, -, -⟩ := runs_pull_iff.1 h
    cases List.mem_singleton.1 hmem
    exact ⟨_, _, .pull, rfl, rfl⟩
  | delete =>
    obtain ⟨_, rfl, -, -⟩ := runs_delete_iff.1 h
    cases List.mem_singleton.1 hmem
    exact ⟨_, _, .record rfl, rfl, rfl⟩
  | commit transport message description =>
    obtain ⟨_, rfl, -, -⟩ := runs_commit_iff.1 h
    cases List.mem_singleton.1 hmem
    exact ⟨_, _, .commit transport message description, rfl, rfl⟩
  | setUrl url =>
    obtain ⟨_, ⟨_, -, rfl, -, -⟩ | ⟨_, -, -, rfl, -, -⟩ | ⟨record, posted, -, -, rfl, -, -⟩⟩ :=
      runs_setUrl_iff.1 h
    · cases List.mem_singleton.1 hmem
      exact hrecord rfl rfl
    · cases List.mem_singleton.1 hmem
      exact hrecord rfl rfl
    · rcases List.mem_cons.1 hmem with hmem | hmem
      · cases hmem
        exact hrecord rfl rfl
      · cases List.mem_singleton.1 hmem
        exact ⟨_, _, .record rfl, rfl, rfl⟩
  | log =>
    obtain ⟨_, rfl, -, -⟩ := runs_log_iff.1 h
    cases List.mem_singleton.1 hmem
    exact ⟨_, _, .history, rfl, rfl⟩

/-- The segments of a place name the repository, the collection apart. -/
theorem eq_of_segments_eq {name other : String} {place place' : Place}
    (hplace : place ≠ .collection) (hplace' : place' ≠ .collection)
    (h : place.segments name = place'.segments other) : name = other := by
  have hsecond (name : String) (place : Place) (hplace : place ≠ .collection) :
      (place.segments name)[1]? = some name := by
    cases place with
    | collection => exact absurd rfl hplace
    | _ => rfl
  have heq := hsecond name place hplace
  rw [h, hsecond other place' hplace'] at heq
  exact (Option.some.inj heq).symm

/-- A request whose texts stand for themselves goes to its place at the root of the
    service, with the pairs of the session and its own in the query.  No request for
    another repository goes there. -/
theorem address_of_asked {session : Session} (hroot : session.Rooted) {op : Operation}
    {outcome : Except Error op.Answer} (hrun : Runs op.job proxy asked outcome after)
    (hmem : (request, reply) ∈ asked) :
    ∃ place params url, Visits proxy asked op place params ∧
      session.urlFor request.path request.params = .ok url ∧
      (Url.Plain (place.segments proxy.name) →
        url.path.segmentBytes =
            session.root ++ (place.segments proxy.name).map (fun s => utf8 s.toList) ∧
          Url.formPairs (url.query.getD "").toList = session.queryPairs params ∧
          url.fragment = none ∧
          ∀ (other : String) (place' : Place) (params' : List (String × String)) (url' : Url),
            other ≠ proxy.name → place ≠ .collection → place' ≠ .collection →
            Url.Plain (place'.segments other) →
            session.urlFor (place'.path other) params' = .ok url' →
            url'.path.segmentBytes ≠ url.path.segmentBytes) := by
  obtain ⟨place, params, hvisits, hpath, hparams⟩ := exists_place hrun hmem
  obtain ⟨url, hurl, hiff, hrest⟩ := Place.exists_url hroot proxy.name place params
  refine ⟨place, params, url, hvisits, by rw [hpath, hparams, hurl], fun hplain => ?_⟩
  refine ⟨hiff.2 hplain, (hrest hplain).1, (hrest hplain).2, ?_⟩
  intro other place' params' url' hother hplace hplace' hplain' hurl' heq
  obtain ⟨_, hurl'', hiff', -⟩ := Place.exists_url hroot other place' params'
  cases hurl'.symm.trans hurl''
  rw [hiff'.2 hplain', hiff.2 hplain, List.append_cancel_left_eq,
    List.map_inj_right fun _ _ h => String.toList_inj.1 (utf8_injective h)] at heq
  exact hother (eq_of_segments_eq hplace' hplace heq)

end Operation

/-- A session with a service on the same machine. -/
def Session.local : Session where
  baseUrl := ⟨"http", some ⟨"", none, .domain "localhost", some 8000⟩,
    .segments ["sap", "bc", "cts_abapvcs", ""], none, none⟩
  client := some "100"
  user := "DEVELOPER"
  password := none

theorem Session.rooted_local : Session.local.Rooted := ⟨.inl rfl, _, rfl⟩

theorem Session.root_local :
    Session.local.root = ["sap", "bc", "cts_abapvcs"].map fun s => utf8 s.toList := by
  cbv

namespace Operation

open Proxy

/-- To delete a repository is to ask for its own address. -/
theorem address_of_asked_delete :
    ∃ url, Session.local.urlFor (deleteRequest "demo").path [] = .ok url ∧
      url.path.segmentBytes =
        ["sap", "bc", "cts_abapvcs", "repository", "demo"].map (fun s => utf8 s.toList) ∧
      Url.formPairs (url.query.getD "").toList = [("sap-client", "100")] := by
  have hrun : Runs delete.job (.new "demo") [(deleteRequest "demo", .ok ⟨200, [], ""⟩)]
      (.ok ⟨200, [], ""⟩) (Proxy.new "demo").wiped :=
    runs_delete_iff.2 ⟨.ok ⟨200, [], ""⟩, rfl, rfl, rfl⟩
  obtain ⟨place, params, url, hvisits, hurl, hplace⟩ :=
    address_of_asked Session.rooted_local hrun List.mem_cons_self
  cases hvisits
  obtain ⟨hbytes, hpairs, -, -⟩ := hplace (show Url.Plain ["repository", "demo"] by decide)
  refine ⟨url, hurl, ?_, hpairs⟩
  rw [hbytes, Session.root_local, ← List.map_append]
  rfl

/-- What is deleted under a name that climbs is another repository. -/
theorem urlFor_climbing : Session.local.urlFor (deleteRequest "x/../demo").path [] =
    Session.local.urlFor (deleteRequest "demo").path [] := by
  have hpath (names : List String) :
      Url.pathFrom Session.local.baseUrl.scheme names "repository/x/../demo".toList =
        Url.pathFrom Session.local.baseUrl.scheme names "repository/demo".toList := by
    show Url.pathFrom "http" _ _ = Url.pathFrom "http" _ _
    have hclimbing : splitAt (Url.isSlash "http") "repository/x/../demo".toList =
        ["repository".toList, "x".toList, "..".toList, "demo".toList] := by decide
    have hplain : splitAt (Url.isSlash "http") "repository/demo".toList =
        ["repository".toList, "demo".toList] := by decide
    have hcancel (names : List String) :
        Url.addPieces false names ["x".toList, "..".toList, "demo".toList] =
          Url.addPieces false names ["demo".toList] :=
      Url.addPieces_name_doubleDot (by decide) (by decide) (by decide) (List.cons_ne_nil _ _) names
    rw [Url.pathFrom, Url.pathFrom, hclimbing, hplain]
    exact congrArg Url.Path.segments (hcancel (Url.addPiece false names "repository".toList false))
  have hread : Url.significant "repository/x/../demo" = "repository/x/../demo".toList ∧
      Url.significant "repository/demo" = "repository/demo".toList := by decide
  have hreach : ("repository/x/../demo".toList.takeWhile (!Url.endsPath ·)) =
        "repository/x/../demo".toList ∧
      ("repository/demo".toList.takeWhile (!Url.endsPath ·)) = "repository/demo".toList := by
    decide
  have hrest : ("repository/x/../demo".toList.dropWhile (!Url.endsPath ·)) = [] ∧
      ("repository/demo".toList.dropWhile (!Url.endsPath ·)) = [] := by decide
  have hjoin (name : String) : Session.local.baseUrl.join (Place.record.path name) = _ :=
    Url.join_eq rfl (by decide) (Place.toList_path name .record)
  have hsame : Session.local.baseUrl.join (Place.record.path "x/../demo") =
      Session.local.baseUrl.join (Place.record.path "demo") := by
    rw [hjoin, hjoin]
    show Except.ok (Url.withPathAndTail _ _ _ (Url.significant "repository/x/../demo")) =
      Except.ok (Url.withPathAndTail _ _ _ (Url.significant "repository/demo"))
    rw [hread.1, hread.2, Url.withPathAndTail, Url.withPathAndTail, hreach.1, hreach.2,
      hrest.1, hrest.2, hpath]
  rw [Session.urlFor, Session.urlFor]
  exact congrArg _ hsame

/-- A registration does not go below its name, and two names can lead to one address. -/
theorem not_addressed :
    (¬ ∀ (session : Session) (op : Operation) (proxy after : Proxy)
      (asked : List (Request × Reply)) (outcome : Except Error op.Answer) (request : Request)
      (reply : Reply) (url : Url), session.Rooted → Runs op.job proxy asked outcome after →
        (request, reply) ∈ asked → session.urlFor request.path request.params = .ok url →
        ∃ own, url.path.segmentBytes =
          session.root ++ ("repository" :: proxy.name :: own).map (fun s => utf8 s.toList)) ∧
    Session.local.urlFor (deleteRequest "x/../demo").path [] =
      Session.local.urlFor (deleteRequest "demo").path [] := by
  refine ⟨fun h => ?_, urlFor_climbing⟩
  have hcreate : ∃ data, Runs (create { url := "https://host/demo.git", vsid := "6IT" }).job
      (.new "demo") [(Registration.request "demo" data, .error (.network "repository" "down"))]
      (.error (.network "repository" "down")) (.new "demo") :=
    ⟨_, runs_create_iff.2 (.inr ⟨_, _, rfl, rfl, .inr ⟨_, rfl, rfl, rfl⟩⟩)⟩
  obtain ⟨data, hrun⟩ := hcreate
  obtain ⟨url, hurl, hiff, -⟩ :=
    Place.exists_url Session.rooted_local "demo" .collection []
  obtain ⟨own, hown⟩ :=
    h _ (.create _) _ _ _ _ _ _ url Session.rooted_local hrun List.mem_cons_self hurl
  rw [hiff.2 (show Url.Plain ["repository"] by decide), List.append_cancel_left_eq] at hown
  cases hown

end Operation

end GitTransport
