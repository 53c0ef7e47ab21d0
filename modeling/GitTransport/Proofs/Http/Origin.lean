/-
Where the messages of a session go.

  The origin of an address is its scheme, its host and the port that it leads to.  A
  text that begins with a word, followed by a slash if by anything, is read below the
  base it is read at (`Url.Below`): neither a scheme nor a host can be read in it,
  whatever stands behind the slash.  The texts of all requests are of this kind
  (`Operation.within_below`, `Workflow.Call.within_below`), and the token is fetched
  from the root of the service itself.

  So every message goes to the origin that the settings lead to
  (`Settings.stays_of_connect`), and with it the credentials that are in every message.
  A message is one call of the HTTP client: what the client does by itself behind a
  redirect is not seen here.
-/

import GitTransport.Proofs.Http.Handshake
import GitTransport.Proofs.Workflow.Failures

namespace GitTransport

open Exchange ProxyJob

/-! ## Origins -/

/-- Whom an address belongs to. -/
structure Url.Origin where
  scheme : String
  host : Option Url.Host
  port : Option Nat
  deriving DecidableEq, Repr

namespace Url

/-- The origin of an address. -/
def origin (url : Url) : Origin :=
  ⟨url.scheme, url.authority.map (·.host), url.effectivePort?⟩

theorem effectivePort?_eq (url : Url) :
    url.effectivePort? = (url.authority.bind (·.port)).or (defaultPort? url.scheme) := by
  obtain ⟨scheme, authority, path, query, fragment⟩ := url
  cases authority with
  | none => rfl
  | some authority =>
    obtain ⟨username, password, host, port⟩ := authority
    cases port <;> rfl

theorem origin_eq {a b : Url} (hscheme : a.scheme = b.scheme)
    (hhost : a.authority.map (·.host) = b.authority.map (·.host))
    (hport : a.authority.bind (·.port) = b.authority.bind (·.port)) : a.origin = b.origin := by
  rw [origin, origin, effectivePort?_eq, effectivePort?_eq, hscheme, hhost, hport]

/-- A query is no part of the origin. -/
theorem origin_withQuery (url : Url) (query : Option String) :
    (url.withQuery query).origin = url.origin := by
  rw [withQuery, stripRootless]
  split
  · exact origin_eq rfl rfl rfl
  · exact origin_eq rfl rfl rfl

/-- Texts that are read below a base, wherever in it they lead. -/
def Below (text : String) : Prop :=
  ∃ first rest, IsWord first ∧ text.toList = joined first rest

/-- A text below a base stays at the origin of the base. -/
theorem origin_join {base url : Url} {names : List String} {text : String}
    (hpath : base.path = .segments names) (hbelow : Below text) (h : base.join text = .ok url) :
    url.origin = base.origin := by
  obtain ⟨first, rest, hword, htext⟩ := hbelow
  rw [join_eq hpath hword htext] at h
  cases h
  exact origin_eq rfl rfl rfl

end Url

namespace Session

variable {s t session : Session} {url : Url} {request : Request} {token : Option String}
  {inner : List (WireRequest × WireReply)} {reply : Reply}

theorem origin_addQuery (url : Url) (pairs : List (String × String)) :
    (addQuery url pairs).origin = url.origin :=
  Url.origin_withQuery _ _

/-- Neither are the credentials inside an address. -/
theorem origin_takeCredentials (url : Url) : (takeCredentials url).2.origin = url.origin := by
  unfold takeCredentials
  split
  · rfl
  · next authority hauthority =>
    split
    · rfl
    · dsimp only
      split
      · rfl
      · exact Url.origin_eq rfl (by rw [hauthority]; rfl) (by rw [hauthority]; rfl)

theorem origin_tokenUrl (s : Session) : s.tokenUrl.origin = s.baseUrl.origin := by
  rw [tokenUrl, origin_addQuery]
  exact Url.origin_eq rfl rfl rfl

/-- The address of a resource below the root is at the origin of the root. -/
theorem origin_of_urlFor (hroot : s.Rooted) {path : String} {params : List (String × String)}
    (hbelow : Url.Below path) (h : s.urlFor path params = .ok url) :
    url.origin = s.baseUrl.origin := by
  obtain ⟨names, hpath⟩ := hroot.path
  rw [urlFor] at h
  cases hjoin : s.baseUrl.join path with
  | error fault =>
    rw [hjoin] at h
    cases h
  | ok joined =>
    rw [hjoin] at h
    cases h
    rw [origin_addQuery]
    exact Url.origin_join hpath hbelow hjoin

/-! ## Messages -/

/-- A message goes to the origin of its address. -/
theorem Carries.origin_eq (h : Carries url request token inner reply) :
    ∀ exchange ∈ inner, exchange.1.url.origin = url.origin := by
  cases h with
  | unsendable hplace => exact List.forall_mem_nil _
  | sent answer hplace hmethod hurl htokens hbody =>
    refine List.forall_mem_singleton.2 ?_
    rw [hurl, eq_of_destination hplace, origin_takeCredentials]

/-- The message that asks for the token goes to the origin of the root. -/
theorem Fetching.origin_eq {message : WireRequest} (h : session.Fetching message) :
    message.url.origin = session.baseUrl.origin := by
  rw [h.url, origin_takeCredentials, origin_tokenUrl]

theorem Fetches.origin_eq {left : Option String}
    (h : Fetches session url request inner reply left)
    (hurl : url.origin = session.baseUrl.origin) :
    ∀ exchange ∈ inner, exchange.1.url.origin = session.baseUrl.origin := by
  cases h with
  | unsendable hplace => exact List.forall_mem_nil _
  | unanswered hfetch => exact List.forall_mem_singleton.2 hfetch.origin_eq
  | answered hfetch hcarries =>
    rw [← hurl]
    exact List.forall_mem_cons.2 ⟨hfetch.origin_eq.trans hurl.symm, hcarries.origin_eq⟩

/-- All that goes over the wire for a request below the root. -/
theorem Handshake.origin_eq (hroot : session.Rooted) {known left : Option String}
    (h : Handshake session request known inner reply left) (hbelow : Url.Below request.path) :
    ∀ exchange ∈ inner, exchange.1.url.origin = session.baseUrl.origin := by
  cases h with
  | unaddressed known hurl => exact List.forall_mem_nil _
  | reading known hurl hget hcarries =>
    rw [← origin_of_urlFor hroot hbelow hurl]
    exact hcarries.origin_eq
  | kept token hurl hget hcarries =>
    rw [← origin_of_urlFor hroot hbelow hurl]
    exact hcarries.origin_eq
  | fetched hurl hget hfetches => exact hfetches.origin_eq (origin_of_urlFor hroot hbelow hurl)

/-- Any number of requests: they change nothing but the token and the cookies. -/
theorem origin_of_turns (hroot : session.Rooted) (known : Option String) (cookies : List Cookie)
    {turns : List (Turn Request Reply WireRequest WireReply)}
    (h : Turns serve (session.later known cookies) turns t)
    (hbelow : ∀ turn ∈ turns, Url.Below turn.question.path) :
    (∃ known cookies, t = session.later known cookies) ∧
      ∀ exchange ∈ Turn.allInner turns, exchange.1.url.origin = session.baseUrl.origin := by
  induction turns generalizing known cookies with
  | nil => exact ⟨⟨known, cookies, turns_nil_iff.1 h⟩, List.forall_mem_nil _⟩
  | cons turn turns ih =>
    obtain ⟨u, hturn, hturns⟩ := turns_cons_iff.1 h
    obtain ⟨hfirst, hrest⟩ := List.forall_mem_cons.1 hbelow
    obtain ⟨left, cookies, hhandshake, rfl⟩ := handshake_of_serve hroot hturn
    obtain ⟨hlater, horigin⟩ := ih left cookies hturns hrest
    refine ⟨hlater, ?_⟩
    rw [Turn.allInner_cons]
    exact List.forall_mem_append.2 ⟨hhandshake.origin_eq hroot hfirst, horigin⟩

end Session

/-! ## What a client asks -/

namespace Exchange

variable {Q A α β : Type} {P : Q → Prop}

/-- Every question of the exchange has a property, whatever the answers are. -/
def Within (P : Q → Prop) (x : Exchange Q A α) : Prop :=
  ∀ asked a, Path x asked a → ∀ exchange ∈ asked, P exchange.1

theorem within_done (a : α) : Within P (.done a : Exchange Q A α) := by
  intro asked b h
  rw [(path_done_iff.1 h).1]
  exact List.forall_mem_nil _

theorem within_ask {q : Q} {next : A → Exchange Q A α} (hq : P q)
    (hnext : ∀ a, Within P (next a)) : Within P (.ask q next) := by
  intro asked b h
  obtain ⟨answer, rest, rfl, hrest⟩ := path_ask_iff.1 h
  exact List.forall_mem_cons.2 ⟨hq, hnext answer rest b hrest⟩

theorem within_bind {x : Exchange Q A α} {f : α → Exchange Q A β} (hx : Within P x)
    (hf : ∀ a, Within P (f a)) : Within P (x >>= f) := by
  intro asked b h
  obtain ⟨first, a, rest, rfl, hfirst, hrest⟩ := path_bind_iff.1 h
  exact List.forall_mem_append.2 ⟨hx first a hfirst, hf a rest b hrest⟩

end Exchange

section

variable {α β : Type} {P : Request → Prop}

/-- Classifying its errors changes nothing of what a job asks. -/
theorem Job.within_classified {job : Job α} (h : Within P job.run) (classifier : Classifier) :
    Within P (job.classified classifier).run :=
  within_bind h fun _ => within_done _

theorem Job.within_bind {job : Job α} {next : α → Job β} (hjob : Within P job.run)
    (hnext : ∀ a, Within P (next a).run) : Within P (job >>= next).run := by
  refine Exchange.within_bind hjob fun x => ?_
  cases x with
  | ok a => exact hnext a
  | error error => exact within_done _

theorem Job.within_sendChecked {request : Request} (h : P request) :
    Within P (Job.sendChecked request).run :=
  within_ask h fun _ => within_done _

theorem ProxyJob.within_runOn_bind {job : ProxyJob α} {next : α → ProxyJob β}
    (hjob : ∀ proxy, Within P (job.runOn proxy))
    (hnext : ∀ a proxy, Within P ((next a).runOn proxy)) (proxy : Proxy) :
    Within P ((job >>= next).runOn proxy) := by
  rw [runOn_bind]
  refine Exchange.within_bind (hjob proxy) fun (outcome, between) => ?_
  cases outcome with
  | ok a => exact hnext a between
  | error error => exact within_done _

theorem ProxyJob.within_runOn_tryCatch {job : ProxyJob α} {handler : Error → ProxyJob α}
    (hjob : ∀ proxy, Within P (job.runOn proxy))
    (hhandler : ∀ error proxy, Within P ((handler error).runOn proxy)) (proxy : Proxy) :
    Within P ((tryCatch job handler).runOn proxy) := by
  rw [runOn_tryCatch]
  refine Exchange.within_bind (hjob proxy) fun (outcome, between) => ?_
  cases outcome with
  | ok a => exact within_done _
  | error error => exact hhandler error between

/-- A job that is given a name asks what it asks on a proxy of that name. -/
theorem ProxyJob.within_onName {job : ProxyJob α} (h : ∀ proxy, Within P (job.runOn proxy))
    (name : String) : Within P (onName name job).run :=
  Exchange.within_bind (h (.new name)) fun _ => within_done _

/-- A remark is no question. -/
theorem ProxyJob.within_note (text : String) (proxy : Proxy) :
    Within P ((note text).runOn proxy) := by
  intro asked x h
  rw [(runs_note_iff.1 h).1]
  exact List.forall_mem_nil _

end

/-- A request for a resource below the root. -/
def Request.Below (request : Request) : Prop := Url.Below request.path

/-- Every request of an operation is for a place below the root. -/
theorem Operation.within_below (op : Operation) (proxy : Proxy) :
    Within Request.Below (op.job.runOn proxy) := by
  rintro asked ⟨outcome, after⟩ h ⟨request, reply⟩ hmem
  have hrun : Runs op.job proxy asked outcome after := h
  obtain ⟨place, -, -, hpath, -⟩ := exists_place hrun hmem
  refine ⟨"repository", place.behind proxy.name, by decide, ?_⟩
  rw [hpath, Place.toList_path]

namespace Workflow

theorem below_collection {request : Request} (h : request.path = "repository") :
    request.Below := by
  refine ⟨"repository", [], by decide, ?_⟩
  rw [h, Url.joined_nil]

theorem below_credentials {request : Request} (h : request.path = "user/credentials") :
    request.Below := by
  refine ⟨"user", ["credentials"], by decide, ?_⟩
  rw [h]
  decide

theorem within_listAll : Within Request.Below listAll.run := by
  have hread : Within Request.Below (Job.getJson "repository").run :=
    Job.within_bind (Job.within_sendChecked (below_collection rfl)) fun _ => within_done _
  exact Job.within_bind (Job.within_classified hread .standard) fun _ => within_done _

theorem within_register (url : String) (options : CloneOptions) (proxy : Proxy) :
    Within Request.Below ((register url options).runOn proxy) := by
  refine within_runOn_tryCatch (Operation.create _).within_below (fun error proxy => ?_) proxy
  -- an error that is tolerated is told in the log, and every other one is passed on
  cases error with
  | service problem =>
    by_cases htolerated : problem.kind = .alreadyExists ∧ !options.failIfExists
    · simp only [if_pos htolerated]
      exact within_runOn_bind (within_note _) (fun _ => Operation.wipe.within_below) proxy
    · simp only [if_neg htolerated]
      exact within_done _
  | _ => exact within_done _

theorem within_registerAndClone (url : String) (options : CloneOptions) (proxy : Proxy) :
    Within Request.Below ((registerAndClone url options).runOn proxy) := by
  refine within_runOn_bind (within_register url options) (fun _ => ?_) proxy
  refine within_runOn_bind Operation.isCloned.within_below fun cloned => ?_
  split
  · exact fun proxy => within_note _ proxy
  · exact within_runOn_bind Operation.clone.within_below fun _ _ => within_done _

/-- So are those of the workflows. -/
theorem Call.within_below (call : Call) : Within Request.Below call.job.run := by
  cases call with
  | listAll => exact within_listAll
  | cloneNew url name options =>
    exact within_bind (within_registerAndClone url options (.new name)) fun _ => within_done _
  | checkout name branch => exact within_onName (Operation.checkout branch).within_below name
  | pull name => exact within_onName Operation.pull.within_below name
  | log name => exact within_onName Operation.log.within_below name
  | delete name =>
    exact Job.within_bind (within_onName Operation.delete.within_below name) fun _ =>
      within_done _
  | setUserApiToken apiUrl token =>
    exact Job.within_bind (Job.within_classified
      (Job.within_sendChecked (below_credentials rfl)) .standard) fun _ => within_done _

end Workflow

/-! ## Whole sessions -/

namespace Session

/-- Whenever it is served in the session, every message for the client goes to the origin
    of the root, and the session stays the one it is but for the token and the cookies. -/
def Stays {α : Type} (session : Session) (client : Client α) : Prop :=
  ∀ token cookies wire result, Path ((session.later token cookies).run client) wire result →
    (∃ token cookies, result.2 = session.later token cookies) ∧
      ∀ exchange ∈ wire, exchange.1.url.origin = session.baseUrl.origin

/-- A client that asks for what is below the root stays at its origin. -/
theorem stays_of_within {α : Type} {session : Session} (hroot : session.Rooted)
    {client : Client α} (h : Within Request.Below client) : session.Stays client := by
  rintro token cookies wire ⟨a, last⟩ hpath
  obtain ⟨turns, rfl, hturns, hclient⟩ := path_through_iff.1 hpath
  refine origin_of_turns hroot token cookies hturns fun turn hturn => ?_
  exact h _ a hclient turn.outer (List.mem_map_of_mem hturn)

end Session

namespace Settings

/-- Settings that have a root have a session there, and whatever is done in it, under
    whatever names, with whatever texts and whatever comes back, goes to the origin of the
    root.  What goes there is every message, that is every call of the HTTP client; where the
    client goes by itself when it is redirected is not said. -/
theorem stays_of_connect (settings : Settings) {base : Url}
    (hbase : baseUrl settings.host settings.port settings.ssl = .ok base) :
    ∃ session, settings.connect = .ok session ∧ session.baseUrl = base ∧
      (∀ (op : Operation) (proxy : Proxy), session.Stays (op.job.runOn proxy)) ∧
      ∀ call : Workflow.Call, session.Stays call.job.run := by
  have hconnect := connect_eq_ok_iff.2 ⟨base, hbase, rfl⟩
  have hroot := rooted_of_connect hconnect
  exact ⟨_, hconnect, rfl,
    fun op proxy => Session.stays_of_within hroot (op.within_below proxy),
    fun call => Session.stays_of_within hroot call.within_below⟩

/-- The deletion of a repository whose name looks like the address of another host. -/
def foreignName : Workflow.Call := .delete "//elsewhere/http://elsewhere"

/-- What goes over the wire then. -/
def foreignWire : Transcript WireRequest WireReply (Except Error foreignName.Answer × Session) :=
  ((Session.local.run foreignName.job.run).play Session.tellsLate 0).1

theorem stays_of_connect_foreignName :
    foreignWire.asked.map (fun exchange => exchange.1.method) = [.get, .delete] ∧
      ∀ exchange ∈ foreignWire.asked,
        exchange.1.url.origin = ⟨"http", some (.domain "localhost"), some 8000⟩ := by
  let settings : Settings :=
    ⟨"localhost", 8000, some "100", some "DEVELOPER", none, false, false, ⟨60, 0⟩⟩
  have hbase : baseUrl settings.host settings.port settings.ssl = .ok Session.local.baseUrl := by
    decide +kernel
  obtain ⟨session, hconnect, -, -, hcalls⟩ := stays_of_connect settings hbase
  have hlocal : settings.connect = .ok Session.local :=
    connect_eq_ok_iff.2 ⟨Session.local.baseUrl, hbase, rfl⟩
  obtain rfl := Except.ok.inj (hconnect.symm.trans hlocal)
  have hpath : Path (Session.local.run foreignName.job.run) foreignWire.asked
      foreignWire.result := by
    rw [foreignWire]
    exact path_play Session.tellsLate (Session.local.run foreignName.job.run) 0
  obtain ⟨-, horigin⟩ := hcalls foreignName none [] _ _ hpath
  exact ⟨by decide +kernel, horigin⟩

end Settings

end GitTransport
