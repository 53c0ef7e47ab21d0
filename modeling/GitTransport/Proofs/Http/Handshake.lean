/-
The token of a session.

  A request that changes something carries a token of the service.  A session that has
  none fetches it first, with a message of its own to the root of the service, and
  keeps what it gets.  What the service has told is read off the wire alone (`told`),
  without a look at what the session remembers.

  `Handshake` says what goes over the wire for one request when a token is known and
  when none is.  A session serves every request in this way (`handshake_of_serve`), and
  what it remembers is what it has been told (`token_of_turns`).  So it is for whole
  sessions, whatever their requests are and whatever comes back
  (`Session.handshake_of_run`).  Credentials and cookies, which are in every message,
  have no part in this.
-/

import GitTransport.Http.Session
import GitTransport.Proofs.Exchange
import GitTransport.Proofs.Proxy.Addressing

namespace GitTransport

open Exchange Session

/-! ## Tokens on the wire -/

/-- The values that a list of headers has for the token. -/
def tokensIn (headers : List (String × String)) : List String :=
  (headers.filter fun header => Text.sameLetters header.1 tokenHeader).map (·.2)

/-- The tokens that a message carries. -/
def WireRequest.tokens (message : WireRequest) : List String := tokensIn message.headers

/-- Whether a message asks for a token. -/
def WireRequest.asksToken (message : WireRequest) : Bool :=
  message.method = .get && message.tokens = ["Fetch"]

/-- The token that the answer to a message tells.  Neither the status of the answer nor
    its body matters. -/
def tokenTold (exchange : WireRequest × WireReply) : Option String :=
  if exchange.1.asksToken then exchange.2.toOption.bind (·.header? tokenHeader) else none

/-- The first token that is told on the wire. -/
def told (wire : List (WireRequest × WireReply)) : Option String := wire.findSome? tokenTold

@[simp] theorem told_nil : told [] = none := rfl

theorem told_append (first rest : List (WireRequest × WireReply)) :
    told (first ++ rest) = (told first).or (told rest) :=
  List.findSome?_append

theorem told_cons_answered {message : WireRequest} (h : message.asksToken = true)
    (response : WireResponse) (rest : List (WireRequest × WireReply)) :
    told ((message, .ok response) :: rest) =
      (response.header? tokenHeader).or (told rest) := by
  rw [← List.singleton_append, told_append, told, List.findSome?_singleton, tokenTold, if_pos h]
  rfl

theorem told_singleton_unanswered (message : WireRequest) (fault : WireFault) :
    told [(message, .error fault)] = none := by
  rw [told, List.findSome?_singleton, tokenTold]
  exact ite_self none

theorem told_singleton_of_not {message : WireRequest} (h : message.asksToken = false)
    (reply : WireReply) : told [(message, reply)] = none := by
  rw [told, List.findSome?_singleton, tokenTold, h]
  rfl

@[simp] theorem tokensIn_append (first rest : List (String × String)) :
    tokensIn (first ++ rest) = tokensIn first ++ tokensIn rest := by
  rw [tokensIn, List.filter_append, List.map_append, tokensIn, tokensIn]

theorem tokensIn_singleton_of_ne {name : String} (h : Text.sameLetters name tokenHeader = false)
    (value : String) : tokensIn [(name, value)] = [] := by
  simp [tokensIn, h]

/-- The credentials inside an address are no token. -/
theorem tokensIn_takeCredentials (url : Url) : tokensIn (takeCredentials url).1 = [] := by
  unfold takeCredentials
  split
  · rfl
  · split
    · rfl
    · dsimp only
      split
      · rfl
      · exact tokensIn_singleton_of_ne (by decide) _

theorem tokensIn_headersOf (request : Request) (token : Option String) :
    tokensIn (headersOf request token) = token.toList := by
  have htoken : tokensIn (token.map fun token => (tokenHeader, token)).toList = token.toList := by
    cases token with
    | none => rfl
    | some token => simp [tokensIn, show Text.sameLetters tokenHeader tokenHeader = true by decide]
  have hbody : tokensIn
      (request.body.map fun _ => ("content-type", "application/json")).toList = [] := by
    cases request.body with
    | none => rfl
    | some body => exact tokensIn_singleton_of_ne (by decide) _
  rw [headersOf, tokensIn_append, tokensIn_append, htoken, hbody,
    tokensIn_singleton_of_ne (by decide), List.append_nil, List.append_nil]

namespace Session

variable {s t session last : Session} {url : Url} {request : Request} {token : Option String}

/-! ## Messages -/

/-- A message goes to its address without the credentials in there. -/
theorem eq_of_destination {headers : List (String × String)}
    {place : List (String × String) × Url} (h : destination url headers = .ok place) :
    place = takeCredentials url := by
  unfold destination at h
  dsimp only at h
  split at h
  · cases h
  · split at h
    · cases h
    · cases h
      rfl

/-- What cannot be sent is lost on the way. -/
theorem eq_of_destination_error {headers : List (String × String)} {reason : Undelivered}
    (h : destination url headers = .error reason) : ∃ words, reason = .network url.text words := by
  unfold destination at h
  dsimp only at h
  split at h
  · cases h
    exact ⟨_, rfl⟩
  · split at h
    · cases h
      exact ⟨_, rfl⟩
    · cases h

/-- The tokens of a message are those among the headers that it is given. -/
theorem tokens_message (s : Session) (method : Method) (url : Url)
    (headers : List (String × String)) (body : Option String) :
    (s.message method (takeCredentials url) headers body).tokens = tokensIn headers := by
  have hcookie : tokensIn ((Cookie.header? (takeCredentials url).2 s.cookies).map fun text =>
      ("cookie", text)).toList = [] := by
    cases Cookie.header? (takeCredentials url).2 s.cookies with
    | none => rfl
    | some text => exact tokensIn_singleton_of_ne (by decide) _
  rw [WireRequest.tokens, message, ← List.singleton_append]
  simp only [tokensIn_append, tokensIn_takeCredentials, hcookie, List.nil_append, List.append_nil]
  rw [basicAuth, tokensIn_singleton_of_ne (by decide), List.nil_append]

theorem path_transmit_iff {method : Method} {headers : List (String × String)}
    {body : Option String} {asked : List (WireRequest × WireReply)}
    {outcome : Except Undelivered WireResponse} :
    Path (s.transmit method url headers body) asked (outcome, t) ↔
      (∃ reason, destination url headers = .error reason ∧ asked = [] ∧
        outcome = .error reason ∧ t = s) ∨
      (∃ place reply, destination url headers = .ok place ∧
        asked = [(s.message method place headers body, reply)] ∧
        outcome = answered url place.2 reply ∧ t = s.withCookies place.2 reply) := by
  rw [transmit]
  cases destination url headers with
  | error reason => simp
  | ok place => simp

/-- Cookies are all that a response leaves behind. -/
theorem exists_withCookies (s : Session) (target : Url) (reply : WireReply) :
    ∃ cookies, s.withCookies target reply = { s with cookies := cookies } := by
  cases reply with
  | ok response => exact ⟨_, rfl⟩
  | error fault => exact ⟨s.cookies, rfl⟩

/-! ## One request -/

/-- The address from which the token is fetched: the root of the service, with the query
    that every request has. -/
def tokenUrl (s : Session) : Url := addQuery { s.baseUrl with fragment := none } (s.queryPairs [])

/-- A message that asks the service for a token. -/
structure Fetching (session : Session) (message : WireRequest) : Prop where
  method : message.method = .get
  url : message.url = (takeCredentials session.tokenUrl).2
  tokens : message.tokens = ["Fetch"]
  body : message.body = none

/-- A request for the address `url` goes over the wire in one message, with `token` and no
    other, and the reply is made of the answer; or it cannot be sent at all. -/
inductive Carries (url : Url) (request : Request) (token : Option String) :
    List (WireRequest × WireReply) → Reply → Prop where
  | unsendable {reason : Undelivered}
      (hplace : destination url (headersOf request token) = .error reason) :
      Carries url request token [] (.error reason)
  | sent {place : List (String × String) × Url} {message : WireRequest} (answer : WireReply)
      (hplace : destination url (headersOf request token) = .ok place)
      (hmethod : message.method = request.method) (hurl : message.url = place.2)
      (htokens : message.tokens = token.toList)
      (hbody : message.body = request.body.map Json.compact) :
      Carries url request token [(message, answer)]
        ((answered url place.2 answer).bind (received url))

/-- A request for which a token has to be fetched, with the token that is known then.
    Behind a fetch without an answer nothing is sent. -/
inductive Fetches (session : Session) (url : Url) (request : Request) :
    List (WireRequest × WireReply) → Reply → Option String → Prop where
  | unsendable {words : String}
      (hplace : destination session.tokenUrl [(tokenHeader, "Fetch"), ("accept", "*/*")] =
        .error (.network session.tokenUrl.text words)) :
      Fetches session url request [] (.error (.network session.tokenUrl.text words)) none
  | unanswered {message : WireRequest} (hfetch : session.Fetching message) :
      Fetches session url request [(message, .error .unanswered)]
        (.error (.network session.tokenUrl.text ("error sending request for url (" ++
          (takeCredentials session.tokenUrl).2.text ++ ")"))) none
  | answered {message : WireRequest} {response : WireResponse}
      {rest : List (WireRequest × WireReply)} {reply : Reply}
      (hfetch : session.Fetching message)
      (hcarries : Carries url request (response.header? tokenHeader) rest reply) :
      Fetches session url request ((message, .ok response) :: rest) reply
        (response.header? tokenHeader)

/-- `Handshake session request known inner reply left`: with the token `known` told before,
    `inner` goes over the wire for the request and `reply` is what the client gets, and then
    the token `left` is known. -/
inductive Handshake (session : Session) (request : Request) :
    Option String → List (WireRequest × WireReply) → Reply → Option String → Prop where
  /-- Without an address nothing is sent. -/
  | unaddressed {fault : Url.Fault} (known : Option String)
      (hurl : session.urlFor request.path request.params = .error fault) :
      Handshake session request known [] (.error (.address fault)) known
  /-- A request that only reads goes alone, whatever is known. -/
  | reading {url : Url} {inner : List (WireRequest × WireReply)} {reply : Reply}
      (known : Option String) (hurl : session.urlFor request.path request.params = .ok url)
      (hget : request.method = .get) (hcarries : Carries url request none inner reply) :
      Handshake session request known inner reply known
  /-- A known token is used. -/
  | kept {url : Url} {inner : List (WireRequest × WireReply)} {reply : Reply} (token : String)
      (hurl : session.urlFor request.path request.params = .ok url)
      (hget : request.method ≠ .get) (hcarries : Carries url request (some token) inner reply) :
      Handshake session request (some token) inner reply (some token)
  /-- When none is known, it is fetched. -/
  | fetched {url : Url} {inner : List (WireRequest × WireReply)} {reply : Reply}
      {left : Option String} (hurl : session.urlFor request.path request.params = .ok url)
      (hget : request.method ≠ .get) (hfetches : Fetches session url request inner reply left) :
      Handshake session request none inner reply left

theorem urlFor_root (hroot : s.Rooted) : s.urlFor "" [] = .ok s.tokenUrl := by
  obtain ⟨names, hpath⟩ := hroot.path
  have hjoin : s.baseUrl.join "" = .ok { s.baseUrl with fragment := none } := by
    have hnothing : Url.significant "" = [] := rfl
    have hsplit : Url.splitScheme? [] = none := rfl
    simp only [Url.join, Url.read, hnothing, hsplit, hpath, Url.readRelative]
  rw [urlFor, hjoin]
  rfl

theorem Fetching.asksToken {message : WireRequest} (h : session.Fetching message) :
    message.asksToken = true := by
  rw [WireRequest.asksToken, h.method, h.tokens]
  rfl

/-- The message of a request asks for no token. -/
theorem not_asksToken {message : WireRequest} (hmethod : message.method = request.method)
    (htokens : message.tokens = token.toList) (htoken : request.method = .get → token = none) :
    message.asksToken = false := by
  cases hget : request.method with
  | get =>
    rw [WireRequest.asksToken, htokens, htoken hget]
    exact Bool.and_false _
  | post =>
    rw [WireRequest.asksToken, hmethod, hget]
    rfl
  | delete =>
    rw [WireRequest.asksToken, hmethod, hget]
    rfl

/-! ## How a session serves a request -/

/-- A session later on: it may know a token and have cookies. -/
def later (session : Session) (token : Option String) (cookies : List Cookie) : Session :=
  { session with token := token, cookies := cookies }

/-- The message of a request, once its token is settled. -/
theorem carries_of_transmit (session : Session) (known : Option String) (cookies : List Cookie)
    {asked : List (WireRequest × WireReply)} {reply : Reply}
    (h : Path ((session.later known cookies).transmit request.method url (headersOf request token)
        (request.body.map Json.compact) >>= fun x => .done (x.1.bind (received url), x.2))
      asked (reply, t)) :
    Carries url request token asked reply ∧ ∃ cookies, t = session.later known cookies := by
  obtain ⟨first, ⟨outcome, u⟩, rest, rfl, hsend, hdone⟩ := path_bind_iff.1 h
  obtain ⟨rfl, heq⟩ := path_done_iff.1 hdone
  obtain ⟨rfl, rfl⟩ := Prod.mk.inj heq
  rw [List.append_nil]
  rcases path_transmit_iff.1 hsend with ⟨reason, hplace, rfl, rfl, rfl⟩ |
    ⟨place, answer, hplace, rfl, rfl, rfl⟩
  · exact ⟨.unsendable hplace, cookies, rfl⟩
  · have htokens := tokens_message (session.later known cookies) request.method url
      (headersOf request token) (request.body.map Json.compact)
    rw [tokensIn_headersOf, ← eq_of_destination hplace] at htokens
    obtain ⟨cookies, hcookies⟩ :=
      exists_withCookies (session.later known cookies) place.2 answer
    exact ⟨.sent answer hplace rfl rfl htokens rfl, cookies, hcookies⟩

/-- A request that only reads goes alone, whatever the session knows. -/
theorem carries_of_serve_get (hget : request.method = .get)
    {inner : List (WireRequest × WireReply)} {reply : Reply}
    (h : Path (s.serve request) inner (reply, t)) :
    ((∃ fault, inner = [] ∧ reply = .error (.address fault)) ∨
      ∃ url, s.urlFor request.path request.params = .ok url ∧
        Carries url request none inner reply) ∧
      ∃ cookies, t = s.later s.token cookies := by
  rw [serve] at h
  cases hurl : s.urlFor request.path request.params with
  | error fault =>
    rw [hurl] at h
    obtain ⟨rfl, heq⟩ := path_done_iff.1 h
    obtain ⟨rfl, rfl⟩ := Prod.mk.inj heq
    exact ⟨.inl ⟨fault, rfl, rfl⟩, t.cookies, rfl⟩
  | ok url =>
    rw [hurl] at h
    dsimp only [tokenFor] at h
    rw [if_pos hget] at h
    obtain ⟨hcarries, hlater⟩ := carries_of_transmit s s.token s.cookies h
    exact ⟨.inr ⟨url, rfl, hcarries⟩, hlater⟩

/-- A message of a request tells no token. -/
theorem Carries.told_eq {inner : List (WireRequest × WireReply)} {reply : Reply}
    (h : Carries url request token inner reply) (htoken : request.method = .get → token = none) :
    told inner = none := by
  cases h with
  | unsendable hplace => rfl
  | sent answer hplace hmethod hurl htokens hbody =>
    exact told_singleton_of_not (not_asksToken hmethod htokens htoken) answer

/-- A fetch tells what the session knows afterwards. -/
theorem Fetches.told_eq {inner : List (WireRequest × WireReply)} {reply : Reply}
    {left : Option String} (h : Fetches session url request inner reply left)
    (hmethod : request.method ≠ .get) : told inner = left := by
  cases h with
  | unsendable hplace => rfl
  | unanswered hfetch => exact told_singleton_unanswered _ _
  | answered hfetch hcarries =>
    rw [told_cons_answered hfetch.asksToken, hcarries.told_eq fun hget => absurd hget hmethod,
      Option.or_none]

/-- The session remembers the first token that it is told. -/
theorem Handshake.left_eq {known left : Option String} {inner : List (WireRequest × WireReply)}
    {reply : Reply} (h : Handshake session request known inner reply left) :
    left = known.or (told inner) := by
  cases h with
  | unaddressed known hurl => rw [told_nil, Option.or_none]
  | reading known hurl hget hcarries => rw [hcarries.told_eq fun _ => rfl, Option.or_none]
  | kept token hurl hget hcarries => rw [Option.some_or]
  | fetched hurl hget hfetches => rw [hfetches.told_eq hget, Option.none_or]

/-- A fetch, and the request behind it if there was an answer. -/
theorem fetches_of_serve (hroot : session.Rooted) {cookies : List Cookie}
    {asked : List (WireRequest × WireReply)} {reply : Reply}
    (h : Path ((session.later none cookies).fetchToken >>= fun x =>
        match x.1 with
        | .error reason => .done (.error reason, x.2)
        | .ok token =>
          x.2.transmit request.method url (headersOf request token)
            (request.body.map Json.compact) >>= fun x => .done (x.1.bind (received url), x.2))
      asked (reply, t)) :
    ∃ token cookies, Fetches session url request asked reply token ∧
      t = session.later token cookies := by
  -- the request itself is on its way only behind an answer to the fetch
  have hroot : session.urlFor "" [] = .ok session.tokenUrl := urlFor_root hroot
  have hurl : (session.later none cookies).urlFor "" [] = .ok session.tokenUrl := hroot
  obtain ⟨fetch, ⟨outcome, u⟩, rest, rfl, hfetch, hrest⟩ := path_bind_iff.1 h
  rw [fetchToken, hurl] at hfetch
  obtain ⟨fetch, ⟨answer, v⟩, nothing, rfl, hsend, hdone⟩ := path_bind_iff.1 hfetch
  rcases path_transmit_iff.1 hsend with ⟨reason, hplace, rfl, rfl, rfl⟩ |
    ⟨place, answer, hplace, rfl, rfl, rfl⟩
  · obtain ⟨words, rfl⟩ := eq_of_destination_error hplace
    obtain ⟨rfl, heq⟩ := path_done_iff.1 hdone
    obtain ⟨rfl, rfl⟩ := Prod.mk.inj heq
    obtain ⟨rfl, heq⟩ := path_done_iff.1 hrest
    obtain ⟨rfl, rfl⟩ := Prod.mk.inj heq
    exact ⟨none, cookies, .unsendable hplace, rfl⟩
  · have hfetching : session.Fetching ((session.later none cookies).message .get place
        [(tokenHeader, "Fetch"), ("accept", "*/*")] none) := by
      obtain rfl := eq_of_destination hplace
      refine ⟨rfl, rfl, ?_, rfl⟩
      rw [tokens_message]
      decide
    obtain ⟨cookies, hcookies⟩ := exists_withCookies (session.later none cookies) place.2 answer
    rw [hcookies] at hdone
    cases answer with
    | error fault =>
      obtain ⟨rfl, heq⟩ := path_done_iff.1 hdone
      obtain ⟨rfl, rfl⟩ := Prod.mk.inj heq
      obtain ⟨rfl, heq⟩ := path_done_iff.1 hrest
      obtain ⟨rfl, rfl⟩ := Prod.mk.inj heq
      obtain rfl := eq_of_destination hplace
      exact ⟨none, cookies, .unanswered hfetching, rfl⟩
    | ok response =>
      obtain ⟨rfl, heq⟩ := path_done_iff.1 hdone
      obtain ⟨rfl, rfl⟩ := Prod.mk.inj heq
      obtain ⟨hcarries, cookies, rfl⟩ :=
        carries_of_transmit session (response.header? tokenHeader) cookies hrest
      exact ⟨_, cookies, .answered hfetching hcarries, rfl⟩

/-- One request: the handshake, and nothing but the token and the cookies changes. -/
theorem handshake_of_serve (hroot : session.Rooted) {known : Option String}
    {cookies : List Cookie} {inner : List (WireRequest × WireReply)} {reply : Reply}
    (h : Path ((session.later known cookies).serve request) inner (reply, t)) :
    ∃ left cookies, Handshake session request known inner reply left ∧
      t = session.later left cookies := by
  -- addresses depend neither on the token nor on the cookies
  have hsame : (session.later known cookies).urlFor request.path request.params =
      session.urlFor request.path request.params := rfl
  rw [serve, hsame] at h
  cases hurl : session.urlFor request.path request.params with
  | error fault =>
    rw [hurl] at h
    obtain ⟨rfl, heq⟩ := path_done_iff.1 h
    obtain ⟨rfl, rfl⟩ := Prod.mk.inj heq
    exact ⟨known, cookies, .unaddressed known hurl, rfl⟩
  | ok url =>
    rw [hurl] at h
    dsimp only [tokenFor] at h
    split at h
    · next hget =>
      obtain ⟨hcarries, cookies, rfl⟩ := carries_of_transmit session known cookies h
      exact ⟨known, cookies, .reading known hurl hget hcarries, rfl⟩
    · next hget =>
      cases known with
      | some token =>
        obtain ⟨hcarries, cookies, rfl⟩ := carries_of_transmit session (some token) cookies h
        exact ⟨some token, cookies, .kept token hurl hget hcarries, rfl⟩
      | none =>
        obtain ⟨left, cookies, hfetches, rfl⟩ := fetches_of_serve hroot h
        exact ⟨left, cookies, .fetched hurl hget hfetches, rfl⟩

/-- All requests of a list: what is remembered at the end is what has been told. -/
theorem token_of_turns (hroot : session.Rooted) (known : Option String) (cookies : List Cookie)
    {turns : List (Turn Request Reply WireRequest WireReply)}
    (h : Turns serve (session.later known cookies) turns t) :
    ∃ cookies, t = session.later (known.or (told (Turn.allInner turns))) cookies := by
  -- what is known before a turn is what the turns before it have told
  induction turns generalizing known cookies with
  | nil =>
    refine ⟨cookies, ?_⟩
    rw [turns_nil_iff.1 h, Turn.allInner_nil, told_nil, Option.or_none]
  | cons turn turns ih =>
    obtain ⟨u, hturn, hturns⟩ := turns_cons_iff.1 h
    obtain ⟨left, cookies, hhandshake, rfl⟩ := handshake_of_serve hroot hturn
    obtain ⟨cookies, rfl⟩ := ih left cookies hturns
    refine ⟨cookies, ?_⟩
    rw [Turn.allInner_cons, told_append, ← Option.or_assoc, ← hhandshake.left_eq]

/-! ## Whole sessions -/

theorem Carries.settled {before after : List (WireRequest × WireReply)} {message : WireRequest}
    {answer : WireReply} {reply : Reply}
    (h : Carries url request token (before ++ (message, answer) :: after) reply) :
    before = [] ∧ message.method = request.method ∧ message.tokens = token.toList := by
  generalize hinner : before ++ (message, answer) :: after = inner at h
  cases h with
  | unsendable hplace => simp at hinner
  | sent answer hplace hmethod hurl htokens hbody =>
    obtain ⟨rfl, heq⟩ := List.append_eq_singleton_iff.1 hinner |>.resolve_right (by simp)
    cases heq
    exact ⟨rfl, hmethod, htokens⟩

/-- A message behind the one that told the token: it asks for none, and carries the token
    unless it only reads. -/
theorem Handshake.settled {known left : Option String}
    {before after : List (WireRequest × WireReply)} {message : WireRequest} {answer : WireReply}
    {reply : Reply} {token : String}
    (h : Handshake session request known (before ++ (message, answer) :: after) reply left)
    (htold : known.or (told before) = some token) :
    message.asksToken = false ∧
      message.tokens = if message.method = .get then [] else [token] := by
  -- a request that changes something, with the token that has been told
  have hcarried (inner tail : List (WireRequest × WireReply)) {url : Url}
      (hcarries : Carries url request (some token) (inner ++ (message, answer) :: tail) reply)
      (hget : request.method ≠ .get) :
      message.asksToken = false ∧
        message.tokens = if message.method = .get then [] else [token] := by
    obtain ⟨-, hmethod, htokens⟩ := hcarries.settled
    refine ⟨not_asksToken hmethod htokens fun h => absurd h hget, ?_⟩
    rw [htokens, hmethod, if_neg hget, Option.toList_some]
  generalize hinner : before ++ (message, answer) :: after = inner at h
  cases h with
  | unaddressed known hurl => simp at hinner
  | reading known hurl hget hcarries =>
    subst hinner
    obtain ⟨-, hmethod, htokens⟩ := hcarries.settled
    refine ⟨not_asksToken hmethod htokens fun _ => rfl, ?_⟩
    rw [htokens, hmethod, if_pos hget, Option.toList_none]
  | kept token hurl hget hcarries =>
    subst hinner
    obtain rfl := Option.some.inj htold
    exact hcarried before after hcarries hget
  | fetched hurl hget hfetches =>
    rw [Option.none_or] at htold
    cases before with
    | nil => cases htold
    | cons fetch before =>
      cases hfetches with
      | unsendable hplace => cases hinner
      | unanswered hfetch => simp at hinner
      | answered hfetch hcarries =>
        cases hinner
        obtain ⟨rfl, -, -⟩ := hcarries.settled
        rw [told_cons_answered hfetch.asksToken, told_nil, Option.or_none] at htold
        rw [htold] at hcarries
        exact hcarried [] after hcarries hget

/-- Whatever is asked in a session and whatever comes back: the wire falls into the
    handshakes of the requests, each as the token tells that is known there, and from the
    first token on nothing but this token is sent. -/
theorem handshake_of_run {α : Type} {client : Client α} (hroot : session.Rooted)
    {wire : List (WireRequest × WireReply)} {a : α}
    (h : Path (session.run client) wire (a, last)) :
    ∃ turns, wire = Turn.allInner turns ∧ Path client (turns.map Turn.outer) a ∧
      last.token = session.token.or (told wire) ∧
      (∀ before turn after, turns = before ++ turn :: after →
        ∃ s t, Turns serve session before s ∧ Turns serve s [turn] t ∧ Turns serve t after last ∧
          s.token = session.token.or (told (Turn.allInner before)) ∧
          Handshake session turn.question s.token turn.inner turn.answer t.token) ∧
      (∀ earlier message answer later token, wire = earlier ++ (message, answer) :: later →
        session.token.or (told earlier) = some token →
        message.asksToken = false ∧
          message.tokens = if message.method = .get then [] else [token]) := by
  obtain ⟨turns, rfl, hturns, hclient⟩ := path_through_iff.1 h
  obtain ⟨cookies, hlast⟩ := token_of_turns hroot session.token session.cookies hturns
  have hserved : ∀ before turn after, turns = before ++ turn :: after →
      ∃ s t, Turns serve session before s ∧ Turns serve s [turn] t ∧ Turns serve t after last ∧
        s.token = session.token.or (told (Turn.allInner before)) ∧
        Handshake session turn.question s.token turn.inner turn.answer t.token := by
    rintro before turn after rfl
    obtain ⟨s, hbefore, hrest⟩ := turns_append_iff.1 hturns
    obtain ⟨t, hturn, hafter⟩ := turns_cons_iff.1 hrest
    obtain ⟨cookies, rfl⟩ := token_of_turns hroot session.token session.cookies hbefore
    obtain ⟨left, cookies, hhandshake, rfl⟩ := handshake_of_serve hroot hturn
    exact ⟨_, _, hbefore, .cons hturn (.nil _), hafter, rfl, hhandshake⟩
  refine ⟨turns, rfl, hclient, by rw [hlast]; rfl, hserved, ?_⟩
  intro earlier message answer later token hwire htold
  obtain ⟨before, turn, after, first, rest, hsplit, rfl, hinner⟩ := Turn.exists_turn hwire
  obtain ⟨s, t, -, -, -, htoken, hhandshake⟩ := hserved before turn after hsplit
  rw [hinner] at hhandshake
  refine hhandshake.settled ?_
  rw [htoken, Option.or_assoc, ← told_append]
  exact htold

/-! The service of the following session refuses everything, and tells its token when it is
asked for the second time. -/

/-- Two requests that change something, one that reads, and another one that changes
    something. -/
def fourRequests : Client Unit :=
  .ask { method := .post, path := "" } fun _ =>
    .ask { method := .post, path := "" } fun _ =>
      .ask { method := .get, path := "" } fun _ =>
        .ask { method := .delete, path := "" } fun _ => .done ()

/-- The reply to a message, by the number of messages before it. -/
def tellsLate (count : Nat) (_ : WireRequest) : WireReply × Nat :=
  (.ok ⟨403, if count = 2 then [("X-CSRF-Token", [0x74, 0x31])] else [], none⟩, count + 1)

/-- What goes over the wire then. -/
def lateToken : Transcript WireRequest WireReply (Unit × Session) :=
  ((Session.local.run fourRequests).play tellsLate 0).1

theorem handshake_of_run_lateToken :
    lateToken.asked.map (fun exchange => (exchange.1.method, exchange.1.tokens)) =
        [(.get, ["Fetch"]), (.post, []), (.get, ["Fetch"]), (.post, ["t1"]), (.get, []),
          (.delete, ["t1"])] ∧
      lateToken.result.2.token = some "t1" ∧
      ∀ earlier message answer later, lateToken.asked = earlier ++ (message, answer) :: later →
        told earlier = some "t1" →
        message.asksToken = false ∧
          message.tokens = if message.method = .get then [] else ["t1"] := by
  have hpath : Path (Session.local.run fourRequests) lateToken.asked
      (lateToken.result.1, lateToken.result.2) :=
    path_play tellsLate (Session.local.run fourRequests) 0
  obtain ⟨-, -, -, hlast, -, hsettled⟩ := handshake_of_run Session.rooted_local hpath
  have htold : told lateToken.asked = some "t1" := by decide +kernel
  refine ⟨by decide +kernel, hlast.trans htold, ?_⟩
  intro earlier message answer later hwire hearlier
  exact hsettled earlier message answer later "t1" hwire hearlier

end Session

end GitTransport
