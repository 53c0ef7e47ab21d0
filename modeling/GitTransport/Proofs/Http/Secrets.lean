/-
What a secret changes on the wire.

  Two secrets go to the service: the password, in the credentials of every message, and
  tokens for remote hosts, in the bodies of the requests that hand one over
  (`Request.Confides`).  Two requests are `Request.Veiled` if they are the same but for
  such a body, and two messages are `WireRequest.Veiled` if they are the same but for the
  words of the credentials and for such a body.

  Clients that go the same way with veiled requests, in sessions that differ in the
  password only, go the same way on the wire with veiled messages (`Session.alike_run`).
-/

import GitTransport.Proofs.Exchange.Alike
import GitTransport.Proofs.Http.Handshake

namespace GitTransport

open Exchange

/-! ## Requests -/

/-- The path is one at which a token for a remote host is handed over: repositories are
    registered there, or the user's tokens are stored. -/
def IsConfidential (path : String) : Prop := path = "repository" ∨ path = "user/credentials"

namespace Request

/-- The request may hand a token over to the service. -/
structure Confides (request : Request) : Prop where
  method : request.method = .post
  path : IsConfidential request.path
  params : request.params = []

/-- The same request but for the body; that differs only if the tokens do, and in a request
    that hands one over. -/
structure Veiled (tokens : Prop) (request request' : Request) : Prop where
  method : request.method = request'.method
  path : request.path = request'.path
  params : request.params = request'.params
  accept : request.accept = request'.accept
  hasBody : request.body.isSome = request'.body.isSome
  body : request.body = request'.body ∨ tokens ∧ request.Confides

theorem veiled_refl (tokens : Prop) (request : Request) : request.Veiled tokens request :=
  ⟨rfl, rfl, rfl, rfl, rfl, .inl rfl⟩

/-- The headers do not tell what is in a body. -/
theorem Veiled.headersOf_eq {tokens : Prop} {request request' : Request}
    (h : request.Veiled tokens request') (token : Option String) :
    Session.headersOf request token = Session.headersOf request' token := by
  have hconst (body : Option Json) : (body.map fun _ => ("content-type", "application/json")) =
      if body.isSome then some ("content-type", "application/json") else none := by
    cases body <;> rfl
  rw [Session.headersOf, Session.headersOf, h.accept, hconst, hconst, h.hasBody]

end Request

/-! ## Messages -/

/-- The same header; if the passwords differ, the credentials may have other words. -/
def SameHeader (passwords : Prop) (header header' : String × String) : Prop :=
  header = header' ∨ passwords ∧ header.1 = "authorization" ∧ header'.1 = "authorization"

theorem sameHeaders_refl (passwords : Prop) (headers : List (String × String)) :
    List.Forall₂ (SameHeader passwords) headers headers :=
  List.forall₂_same.2 fun _ _ => .inl rfl

/-- No token for the next request is among the credentials. -/
theorem tokensIn_eq_of_sameHeaders {passwords : Prop} {headers headers' : List (String × String)}
    (h : List.Forall₂ (SameHeader passwords) headers headers') :
    tokensIn headers = tokensIn headers' := by
  induction h with
  | nil => rfl
  | @cons header header' rest rest' hhead _ ih =>
    have hsingle : tokensIn [header] = tokensIn [header'] := by
      rcases hhead with rfl | ⟨-, hname, hname'⟩
      · rfl
      · obtain ⟨name, value⟩ := header
        obtain ⟨name', value'⟩ := header'
        obtain rfl : name = "authorization" := hname
        obtain rfl : name' = "authorization" := hname'
        rw [tokensIn_singleton_of_ne (by decide), tokensIn_singleton_of_ne (by decide)]
    rw [← List.singleton_append, tokensIn_append, hsingle, ih, ← tokensIn_append,
      List.singleton_append]

/-- An address at which a token is handed over in the session. -/
def Session.Confided (session : Session) (url : Url) : Prop :=
  ∃ path place, IsConfidential path ∧ session.urlFor path [] = .ok place ∧
    url = (takeCredentials place).2

/-- The same message but for the words of the credentials, which differ only if the passwords
    do, and for the body, which differs only if the tokens do and in a message that hands one
    over. -/
structure WireRequest.Veiled (session : Session) (passwords tokens : Prop)
    (message message' : WireRequest) : Prop where
  method : message.method = message'.method
  url : message.url = message'.url
  headers : List.Forall₂ (SameHeader passwords) message.headers message'.headers
  body : message.body = message'.body ∨
    tokens ∧ message.method = .post ∧ session.Confided message.url

theorem WireRequest.Veiled.tokens_eq {session : Session} {passwords tokens : Prop}
    {message message' : WireRequest} (h : message.Veiled session passwords tokens message') :
    message.tokens = message'.tokens :=
  tokensIn_eq_of_sameHeaders h.headers

/-! ## Sessions -/

namespace Session

/-- A session and the one with another password, later on, both with the same token and
    cookies. -/
def Twins (session : Session) (password : Option String) (s t : Session) : Prop :=
  ∃ token cookies, s = session.later token cookies ∧
    t = ({ session with password := password } : Session).later token cookies

section

variable {session s t : Session} {password : Option String} {tokens : Prop}
  {request request' : Request}

theorem twins_self (session : Session) (password : Option String) :
    session.Twins password session { session with password := password } :=
  ⟨session.token, session.cookies, rfl, rfl⟩

theorem Twins.urlFor_eq (h : session.Twins password s t) (path : String)
    (params : List (String × String)) :
    s.urlFor path params = session.urlFor path params ∧
      t.urlFor path params = session.urlFor path params := by
  obtain ⟨token, cookies, rfl, rfl⟩ := h
  exact ⟨rfl, rfl⟩

theorem Twins.token_eq (h : session.Twins password s t) : s.token = t.token := by
  obtain ⟨token, cookies, rfl, rfl⟩ := h
  rfl

/-- A response leaves the same in both. -/
theorem Twins.withCookies (h : session.Twins password s t) (target : Url) (reply : WireReply) :
    session.Twins password (s.withCookies target reply) (t.withCookies target reply) := by
  obtain ⟨token, cookies, rfl, rfl⟩ := h
  cases reply with
  | ok response => exact ⟨token, Cookie.afterResponse target cookies response, rfl, rfl⟩
  | error fault => exact ⟨token, cookies, rfl, rfl⟩

theorem Twins.withToken (h : session.Twins password s t) (token : Option String) :
    session.Twins password { s with token := token } { t with token := token } := by
  obtain ⟨_, cookies, rfl, rfl⟩ := h
  exact ⟨token, cookies, rfl, rfl⟩

/-- The messages of both sessions for one destination. -/
theorem Twins.veiled_message (h : session.Twins password s t) (method : Method)
    (place : List (String × String) × Url) (headers : List (String × String))
    {body body' : Option String}
    (hbody : body = body' ∨ tokens ∧ method = .post ∧ session.Confided place.2) :
    (s.message method place headers body).Veiled session (session.password ≠ password) tokens
      (t.message method place headers body') := by
  obtain ⟨token, cookies, rfl, rfl⟩ := h
  -- of the headers only the credentials of the user depend on the password
  have hcredentials : SameHeader (session.password ≠ password)
      (basicAuth session.user session.password) (basicAuth session.user password) := by
    by_cases heq : session.password = password
    · rw [heq]
      exact .inl rfl
    · exact .inr ⟨heq, rfl, rfl⟩
  refine ⟨rfl, rfl, ?_, hbody⟩
  exact List.rel_append (List.rel_append (sameHeaders_refl _ _)
    (.cons hcredentials (sameHeaders_refl _ _))) (sameHeaders_refl _ _)

/-- What both sessions keep, with the same outcome. -/
def Keeps (session : Session) (password : Option String) {α : Type} (p p' : α × Session) : Prop :=
  p.1 = p'.1 ∧ session.Twins password p.2 p'.2

theorem alike_transmit (h : session.Twins password s t) (method : Method) (url : Url)
    (headers : List (String × String)) {body body' : Option String}
    (hbody : body = body' ∨
      tokens ∧ method = .post ∧ session.Confided (takeCredentials url).2) :
    Alike (WireRequest.Veiled session (session.password ≠ password) tokens)
      (session.Keeps password) (s.transmit method url headers body)
      (t.transmit method url headers body') := by
  rw [transmit, transmit]
  cases hplace : destination url headers with
  | error reason => exact .done ⟨rfl, h⟩
  | ok place =>
    rw [← eq_of_destination hplace] at hbody
    exact .ask (h.veiled_message method place headers hbody) fun reply =>
      .done ⟨rfl, h.withCookies place.2 reply⟩

theorem alike_fetchToken (h : session.Twins password s t) :
    Alike (WireRequest.Veiled session (session.password ≠ password) tokens)
      (session.Keeps password) s.fetchToken t.fetchToken := by
  obtain ⟨hs, ht⟩ := h.urlFor_eq "" []
  rw [fetchToken, fetchToken, hs, ht]
  cases session.urlFor "" [] with
  | error fault => exact .done ⟨rfl, h⟩
  | ok url =>
    refine (alike_transmit h .get url _ (.inl rfl)).bind ?_
    rintro ⟨outcome, s⟩ ⟨_, t⟩ ⟨rfl, h⟩
    cases outcome with
    | error reason => exact .done ⟨rfl, h⟩
    | ok response => exact .done ⟨rfl, h.withToken _⟩

theorem alike_tokenFor (h : session.Twins password s t) (method : Method) :
    Alike (WireRequest.Veiled session (session.password ≠ password) tokens)
      (session.Keeps password) (s.tokenFor method) (t.tokenFor method) := by
  rw [tokenFor, tokenFor, ← h.token_eq]
  split
  · exact .done ⟨rfl, h⟩
  · split
    · exact .done ⟨rfl, h⟩
    · exact alike_fetchToken h

/-- Veiled requests are served alike. -/
theorem alike_serve (h : session.Twins password s t) (hveiled : request.Veiled tokens request') :
    Alike (WireRequest.Veiled session (session.password ≠ password) tokens)
      (session.Keeps password) (s.serve request) (t.serve request') := by
  obtain ⟨hs, ht⟩ := h.urlFor_eq request.path request.params
  rw [serve, serve, ← hveiled.path, ← hveiled.params, ← hveiled.method, hs, ht]
  cases hurl : session.urlFor request.path request.params with
  | error fault => exact .done ⟨rfl, h⟩
  | ok url =>
    refine (alike_tokenFor h request.method).bind ?_
    rintro ⟨token, s⟩ ⟨_, t⟩ ⟨rfl, h⟩
    cases token with
    | error reason => exact .done ⟨rfl, h⟩
    | ok token =>
      -- a body that differs goes where a token is handed over
      have hbody : request.body.map Json.compact = request'.body.map Json.compact ∨
          tokens ∧ request.method = .post ∧ session.Confided (takeCredentials url).2 := by
        rcases hveiled.body with hsame | ⟨htokens, hconfides⟩
        · exact .inl (by rw [hsame])
        · rw [hconfides.params] at hurl
          exact .inr ⟨htokens, hconfides.method, request.path, url, hconfides.path, hurl, rfl⟩
      dsimp only
      rw [← hveiled.headersOf_eq]
      refine (alike_transmit h request.method url _ hbody).bind ?_
      rintro ⟨outcome, s⟩ ⟨_, t⟩ ⟨rfl, h⟩
      exact .done ⟨rfl, h⟩

end

/-- Clients that go the same way with veiled requests, in a session and in the one with
    another password. -/
theorem alike_run {α : Type} (session : Session) (password : Option String) {tokens : Prop}
    {client client' : Client α} (h : Alike (Request.Veiled tokens) Eq client client') :
    Alike (WireRequest.Veiled session (session.password ≠ password) tokens)
      (session.Keeps password) (session.run client)
      (({ session with password := password } : Session).run client') := by
  have hserve (s t : Session) (request request' : Request)
      (htwins : session.Twins password s t) (hveiled : request.Veiled tokens request') :
      Alike (WireRequest.Veiled session (session.password ≠ password) tokens)
        (session.Keeps password) (s.serve request) (t.serve request') :=
    alike_serve htwins hveiled
  exact h.through hserve (twins_self session password)

end Session

end GitTransport
