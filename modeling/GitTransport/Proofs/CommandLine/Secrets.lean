/-
What a secret changes of what a command does.

  Three values of a command line are secrets: the password of the user, the token with
  which a repository is cloned and the token that is stored for the user.  Two readings
  of command lines that differ in these only (`Reading.SameButSecrets`) ask for the same
  command (`Invocation.SameButSecrets`).  Its routine goes the same way with requests
  that differ in the bodies which hand a token over (`Action.alike_routine`), and so the
  whole command goes the same way on the wire (`alike_execute`).

  So two runs whose messages get equal answers one by one end the same, with the same
  lines on both outputs, the same remarks in the log and the same messages but for the
  secrets (`secrets_unseen`).
-/

import GitTransport.Proofs.CommandLine.Output
import GitTransport.Proofs.Http.Secrets
import GitTransport.Proofs.Workflow.Cloning

namespace GitTransport

open Exchange

/-! ## Jobs -/

section

variable {α β : Type} {tokens : Prop}

/-- An error tells the method and the path of its request, and nothing of the body. -/
theorem Job.alike_sendChecked {request request' : Request}
    (h : request.Veiled tokens request') :
    Alike (Request.Veiled tokens) Eq (Job.sendChecked request).run
      (Job.sendChecked request').run := by
  refine .ask h fun reply => .done ?_
  rw [Job.checkedOutcome, Job.checkedOutcome, h.method, h.path]

namespace ProxyJob

variable {job job' : ProxyJob α} {proxy : Proxy}

/-- Behind alike jobs the same job follows alike. -/
theorem alike_bind (h : Alike (Request.Veiled tokens) Eq (job.runOn proxy) (job'.runOn proxy))
    (next : α → ProxyJob β) :
    Alike (Request.Veiled tokens) Eq ((job >>= next).runOn proxy)
      ((job' >>= next).runOn proxy) := by
  rw [runOn_bind, runOn_bind]
  exact h.bind_eq (Request.veiled_refl tokens)

theorem alike_tryCatch
    (h : Alike (Request.Veiled tokens) Eq (job.runOn proxy) (job'.runOn proxy))
    (handler : Error → ProxyJob α) :
    Alike (Request.Veiled tokens) Eq ((tryCatch job handler).runOn proxy)
      ((tryCatch job' handler).runOn proxy) := by
  rw [runOn_tryCatch, runOn_tryCatch]
  exact h.bind_eq (Request.veiled_refl tokens)

theorem alike_request {job job' : Job α}
    (h : Alike (Request.Veiled tokens) Eq job.run job'.run) (proxy : Proxy) :
    Alike (Request.Veiled tokens) Eq ((ProxyJob.request job).runOn proxy)
      ((ProxyJob.request job').runOn proxy) :=
  (h.bind_eq (Request.veiled_refl tokens)).bind_eq (Request.veiled_refl tokens)

end ProxyJob

end

namespace Workflow

open ProxyJob

variable {tokens : Prop}

/-- What follows the request of a registration. -/
def created (name : String) (response : Response) : ProxyJob Unit := do
  let reply ← ofOutcome (Job.readJson response)
  let record ← ofOutcome (Registration.recordOf name reply)
  update (Registration.registered record)

/-- A registration whose record can be made begins with its request. -/
theorem runOn_create {registration : Registration} {proxy : Proxy} {data : Fields Json}
    (h : registration.record proxy = .ok data) :
    (Proxy.create registration).runOn proxy =
      (ProxyJob.request (Job.sendChecked (Registration.request proxy.name data)) >>=
        created proxy.name).runOn proxy := by
  have hjob : (Proxy.create registration).runOn proxy =
      (ofOutcome (registration.record proxy) >>= fun data =>
        ProxyJob.request (Job.sendChecked (Registration.request proxy.name data)) >>=
          created proxy.name).runOn proxy := rfl
  rw [hjob, h]
  rfl

/-- Two registrations differ in the body of their request, which hands a token over. -/
theorem veiled_registration (htokens : tokens) (name : String) (data data' : Fields Json) :
    (Registration.request name data).Veiled tokens (Registration.request name data') :=
  ⟨rfl, rfl, rfl, rfl, rfl, .inr ⟨htokens, rfl, .inl rfl, rfl⟩⟩

/-- Cloning with another token goes the same way. -/
theorem alike_cloneNew (htokens : tokens) (url name : String) (options : CloneOptions)
    (token : Option String) :
    Alike (Request.Veiled tokens) Eq (cloneNew url name options).run
      (cloneNew url name { options with token := token }).run := by
  obtain ⟨data, hdata⟩ := exists_record url name options
  obtain ⟨data', hdata'⟩ := exists_record url name { options with token := token }
  have hcreate : Alike (Request.Veiled tokens) Eq
      ((Proxy.create (options.registration url)).runOn (.new name))
      ((Proxy.create (CloneOptions.registration { options with token := token } url)).runOn
        (.new name)) := by
    rw [runOn_create hdata, runOn_create hdata']
    exact alike_bind (alike_request (Job.alike_sendChecked
      (veiled_registration htokens name data data')) _) _
  -- the token has no part in what follows the registration
  have hregister : Alike (Request.Veiled tokens) Eq ((register url options).runOn (.new name))
      ((register url { options with token := token }).runOn (.new name)) :=
    alike_tryCatch hcreate (onError options)
  exact (alike_bind hregister _).bind_eq (Request.veiled_refl tokens)

/-- So does storing another token. -/
theorem alike_setUserApiToken (htokens : tokens) (apiUrl token token' : String) :
    Alike (Request.Veiled tokens) Eq (setUserApiToken apiUrl token).run
      (setUserApiToken apiUrl token').run := by
  have hsend : Alike (Request.Veiled tokens) Eq
      (Job.postJson "user/credentials" (tokenBody apiUrl token) none).run
      (Job.postJson "user/credentials" (tokenBody apiUrl token') none).run :=
    Job.alike_sendChecked ⟨rfl, rfl, rfl, rfl, rfl, .inr ⟨htokens, rfl, .inr rfl, rfl⟩⟩
  exact (hsend.bind_eq (Request.veiled_refl tokens)).bind_eq (Request.veiled_refl tokens)

end Workflow

namespace CommandLine

/-! ## Commands -/

/-- The same command with another token. -/
inductive Action.SameButToken : Action → Action → Prop where
  | same (action : Action) : SameButToken action action
  | clone (url : String) (package : Option String) (options : Workflow.CloneOptions)
      (token : Option String) :
      SameButToken (.clone url package options) (.clone url package { options with token := token })
  | setCredentials (apiUrl token token' : String) :
      SameButToken (.setCredentials apiUrl token) (.setCredentials apiUrl token')

theorem Routine.alike_call {α β : Type} {tokens : Prop} {job job' : Job β}
    (h : Alike (Request.Veiled tokens) Eq job.run job'.run) (next : β → Routine α) :
    Alike (Request.Veiled tokens) Eq (Routine.call job next).run (Routine.call job' next).run := by
  rw [Routine.run, Routine.run]
  exact h.bind_eq (Request.veiled_refl tokens)

/-- A command goes the same way with another token. -/
theorem Action.alike_routine {action action' : Action} (h : action.SameButToken action') :
    Alike (Request.Veiled (action ≠ action')) Eq action.routine.run action'.routine.run := by
  by_cases hsame : action = action'
  · rw [hsame]
    exact alike_refl (Request.veiled_refl _) _
  · cases h with
    | same => exact absurd rfl hsame
    | clone url package options token =>
      exact Routine.alike_call (Workflow.alike_cloneNew hsame _ _ options token) _
    | setCredentials apiUrl token token' =>
      exact Routine.alike_call (Workflow.alike_setUserApiToken hsame apiUrl token token') _

theorem Action.SameButToken.fault_eq {action action' : Action}
    (h : action.SameButToken action') : action.fault? = action'.fault? := by
  cases h <;> rfl

/-- The same command, or another one for which no service is asked. -/
inductive Command.SameButToken : Command → Command → Prop where
  | service {action action' : Action} (h : action.SameButToken action') :
      SameButToken (.service action) (.service action')
  | completions (shell : String) : SameButToken (.completions shell) (.completions shell)

/-- The same command line but for the password and the tokens. -/
structure Invocation.SameButSecrets (i i' : Invocation) : Prop where
  connection : i'.connection = { i.connection with password := i'.connection.password }
  color : i.color = i'.color
  logLevel : i.logLevel = i'.logLevel
  command : i.command.SameButToken i'.command

/-- Environments that differ in the password only. -/
def SameButPassword (env env' : Environment) : Prop :=
  ∀ name, name ≠ "SAP_PASSWORD" → env.get? name = env'.get? name

/-- A message of one command line and the message of another one in its place. -/
def Invocation.Veils (env : Environment) (i i' : Invocation) (message message' : WireRequest) :
    Prop :=
  ∃ session, SetUp env i.connection session ∧
    message.Veiled session (i.connection.password ≠ i'.connection.password)
      (i.command ≠ i'.command) message'

variable {env env' : Environment} {i i' : Invocation}

theorem SameButPassword.ofFlag_eq (h : SameButPassword env env') (flag : String)
    (capable : Bool) :
    Terminal.Style.ofFlag flag env capable = Terminal.Style.ofFlag flag env' capable := by
  rw [Terminal.Style.ofFlag, Terminal.Style.ofFlag, Terminal.Style.wantsColor,
    Terminal.Style.wantsColor, h "NO_COLOR" (by decide), h "CLICOLOR" (by decide),
    h "TERM" (by decide), h "CLICOLOR_FORCE" (by decide)]

/-- With another password a command needs the same, and gets the session with that
    password. -/
theorem prepare_eq (henv : SameButPassword env env') {action action' : Action}
    (haction : action.SameButToken action') (c : ConnectionArguments)
    (password : Option String) :
    prepare env' { c with password := password } action' =
      (prepare env c action).map fun ready =>
        ({ ready.1 with password := password }, { ready.2 with password := password }) := by
  have hvariable : env'.get? Timeout.variableName = env.get? Timeout.variableName :=
    (henv _ (by decide)).symm
  rw [prepare, prepare, ← haction.fault_eq, hvariable]
  cases action.fault? with
  | some fault => rfl
  | none =>
    cases Timeout.ofVariable (env.get? Timeout.variableName) with
    | error fault =>
      dsimp only
      cases Settings.timeoutError? fault <;> rfl
    | ok timeout =>
      -- the root of the session does not depend on the password
      have hconnect : (({ c with password := password } : ConnectionArguments).settings
          timeout).connect = ((c.settings timeout).connect).map fun session =>
            { session with password := password } := by
        rw [Settings.connect, Settings.connect]
        show (Settings.baseUrl (c.host.getD "") c.port c.ssl).map _ =
          ((Settings.baseUrl (c.host.getD "") c.port c.ssl).map _).map _
        cases Settings.baseUrl (c.host.getD "") c.port c.ssl <;> rfl
      dsimp only
      rw [hconnect]
      cases (c.settings timeout).connect <;> rfl

/-- A command goes the same way in a session with another password and with another token. -/
theorem alike_perform (style : Terminal.Style) (session : Session) (password : Option String)
    {action action' : Action} (h : action.SameButToken action') :
    Alike (WireRequest.Veiled session (session.password ≠ password) (action ≠ action')) Eq
      (perform style session action)
      (perform style { session with password := password } action') := by
  refine (Session.alike_run session password (Action.alike_routine h)).bind ?_
  rintro ⟨⟨result, lines⟩, s⟩ ⟨_, t⟩ ⟨rfl, -⟩
  exact .done rfl

/-- The session of a command has its password. -/
theorem SetUp.password_eq {c : ConnectionArguments} {session : Session}
    (h : SetUp env c session) : session.password = c.password := by
  obtain ⟨timeout, -, hsession⟩ := h
  obtain ⟨url, -, rfl⟩ := Settings.connect_eq_ok_iff.1 hsession
  rfl

/-- Command lines that differ in secrets only go the same way. -/
theorem alike_execute (henv : SameButPassword env env') (h : i.SameButSecrets i')
    (capable : Bool) :
    Alike (i.Veils env i') Eq (execute env capable i) (execute env' capable i') := by
  obtain ⟨c, color, logLevel, command⟩ := i
  obtain ⟨c', color', logLevel', command'⟩ := i'
  obtain ⟨hconnection, hcolor, -, hcommand⟩ := h
  dsimp only at hconnection hcolor hcommand
  subst hcolor
  cases hcommand with
  | completions shell =>
    -- no service is asked
    exact .done rfl
  | @service action action' haction =>
    rw [execute, execute]
    dsimp only
    rw [hconnection, prepare_eq henv haction c c'.password, ← henv.ofFlag_eq]
    rcases prepare_cases env c action with
      ⟨settings, session, hprepare, -, hsetup⟩ | ⟨ending, hprepare, -, -⟩
    · rw [hprepare]
      refine (alike_perform _ session c'.password haction).mono fun message message' hveiled => ?_
      rw [hsetup.password_eq] at hveiled
      refine ⟨session, hsetup, hveiled.method, hveiled.url, hveiled.headers, ?_⟩
      -- actions that differ make commands that differ
      rcases hveiled.body with hbody | ⟨hne, hplace⟩
      · exact .inl hbody
      · exact .inr ⟨fun heq => hne (Command.service.inj heq), hplace⟩
    · rw [hprepare]
      exact .done rfl

/-! ## Readings -/

/-- The options whose values are secrets. -/
def secretNames : List String := ["password", "vcs-token", "token"]

/-- Readings of command lines that differ in secrets only. -/
structure Reading.SameButSecrets (r r' : Reading) : Prop where
  path : r.path = r'.path
  globals : ∀ name, name ∉ secretNames → r.global? name = r'.global? name
  locals : ∀ name, name ∉ secretNames → r.local? name = r'.local? name

namespace Reading.SameButSecrets

variable {r r' : Reading}

theorem globalValue_eq (h : r.SameButSecrets r') {name : String} (hname : name ∉ secretNames) :
    globalValue? r name = globalValue? r' name := by
  rw [globalValue?, globalValue?, h.globals name hname]

theorem connectionArguments_eq (h : r.SameButSecrets r') :
    connectionArguments r' =
      { connectionArguments r with password := globalValue? r' "password" } := by
  simp only [connectionArguments, h.globalValue_eq (show "ashost" ∉ secretNames by decide),
    h.globalValue_eq (show "port" ∉ secretNames by decide),
    h.globalValue_eq (show "client" ∉ secretNames by decide),
    h.globalValue_eq (show "user" ∉ secretNames by decide),
    h.globalValue_eq (show "ssl" ∉ secretNames by decide),
    h.globalValue_eq (show "verify" ∉ secretNames by decide)]

theorem cloneOptions_eq (h : r.SameButSecrets r') :
    cloneOptions r' = { cloneOptions r with token := r'.local? "vcs-token" } := by
  simp only [cloneOptions, h.locals "vsid" (by decide), h.locals "starting-folder" (by decide),
    h.locals "no-fail-exists" (by decide), h.locals "role" (by decide), h.locals "type" (by decide)]

/-- They ask for the same command. -/
theorem command (h : r.SameButSecrets r') :
    (CommandLine.command r).SameButToken (CommandLine.command r') := by
  simp only [CommandLine.command, h.path, localText, h.cloneOptions_eq,
    h.locals "package" (by decide), h.locals "url" (by decide), h.locals "list" (by decide),
    h.locals "branch" (by decide), h.locals "corrnr" (by decide), h.locals "message" (by decide),
    h.locals "description" (by decide), h.locals "api-url" (by decide),
    h.locals "shell" (by decide)]
  -- by the command: the tokens are left in two of them
  split
  · exact .service (.clone _ _ _ _)
  · exact .service (.same _)
  · exact .service (.same _)
  · exact .service (.same _)
  · exact .service (.same _)
  · exact .service (.same _)
  · exact .service (.same _)
  · exact .service (.setCredentials _ _ _)
  · exact .service (.same _)
  · exact .completions _
  · exact .service (.same _)

theorem invocation (h : r.SameButSecrets r') :
    (CommandLine.invocation r).SameButSecrets (CommandLine.invocation r') where
  connection := h.connectionArguments_eq
  color := congrArg (·.getD Terminal.Style.standardFlag) (h.globalValue_eq (by decide))
  logLevel := congrArg (·.getD "warn") (h.globalValue_eq (by decide))
  command := h.command

end Reading.SameButSecrets

/-! ## Whole runs -/

/-- What is read of the words is what they ask for. -/
theorem parse_of_read {words : List String} {r : Reading}
    (hread : read program env program.root {} words = .ok r) :
    parse env words = .ok (invocation r) := by
  rw [parse, hread]
  rfl

/-- Two command lines that are understood and differ in the password and the tokens only, in
    environments that do so, and with any services behind them whose answers are equal one by
    one: both runs end with the same lines on both outputs and the same status, and leave the
    same remarks in the log.  The methods, the addresses and the tokens of their messages are
    the same.  All that can differ are the credentials, if the passwords do, and, if the
    tokens do, the body of the message that hands one over. -/
theorem secrets_unseen {words words' : List String} {r r' : Reading}
    (hread : read program env program.root {} words = .ok r)
    (hread' : read program env' program.root {} words' = .ok r')
    (henv : SameButPassword env env') (hsame : r.SameButSecrets r') :
    ∃ i i', parse env words = .ok i ∧ parse env' words' = .ok i' ∧ i.logLevel = i'.logLevel ∧
      ∀ (capable : Bool) (σ τ : Type) (peer : σ → WireRequest → WireReply × σ)
        (peer' : τ → WireRequest → WireReply × τ) (s : σ) (t : τ),
        let run := ((execute env capable i).play peer s).1
        let run' := ((execute env' capable i').play peer' t).1
        SameAnswers run.asked run'.asked →
          run.result = run'.result ∧ run.notes = run'.notes ∧
          (run.asked.map fun exchange =>
              (exchange.1.method, exchange.1.url, exchange.1.tokens)) =
            (run'.asked.map fun exchange =>
              (exchange.1.method, exchange.1.url, exchange.1.tokens)) ∧
          List.Forall₂ (i.Veils env i') (run.asked.map Prod.fst) (run'.asked.map Prod.fst) := by
  refine ⟨invocation r, invocation r', parse_of_read hread, parse_of_read hread',
    hsame.invocation.logLevel, ?_⟩
  intro capable σ τ peer peer' s t run run' hanswers
  obtain ⟨hresult, hnotes, hasked⟩ :=
    (alike_execute henv hsame.invocation capable).play peer peer' s t hanswers
  refine ⟨hresult, hnotes, ?_, ?_⟩
  · rw [← List.forall₂_eq_eq_eq, List.forall₂_map_left_iff, List.forall₂_map_right_iff]
    refine hasked.imp ?_
    rintro exchange exchange' ⟨⟨session, -, hveiled⟩, -⟩
    rw [hveiled.method, hveiled.url, hveiled.tokens_eq]
  · rw [List.forall₂_map_left_iff, List.forall₂_map_right_iff]
    exact hasked.imp fun _ _ h => h.1

/-! Two runs of one command with different passwords and tokens, of which one is empty, before
a service that gives the token for the requests and then refuses. -/

namespace TwoTokens

/-- The words of the command line. -/
def words (password token : String) : List String :=
  ["--ashost", "localhost", "--port", "8000", "--ssl", "no", "--password", password, "gcts",
    "clone", "--vcs-token", token, "https://host/demo.git"]

/-- What they are read as. -/
def reading (password token : String) : Reading :=
  .reading "sapcli"
    [⟨"ashost", "localhost", .words⟩, ⟨"port", "8000", .words⟩, ⟨"ssl", "no", .words⟩,
      ⟨"password", password, .words⟩]
    (some (.reading "gcts" [] (some (.reading "clone"
      [⟨"vcs-token", token, .words⟩, ⟨"url", "https://host/demo.git", .words⟩] none))))

/-- The answers, by the number of messages before. -/
def replies (count : Nat) : WireReply :=
  .ok (if count = 0 then ⟨200, [("x-csrf-token", Text.utf8 "t".toList)], some []⟩
    else ⟨500, [], some []⟩)

/-- The run of the command line. -/
def run (password token : String) : Transcript WireRequest WireReply Outcome :=
  ((execute (Dictionary.ofList []) false (invocation (reading password token))).play
    (fun count _ => (replies count, count + 1)) 0).1

theorem sameButSecrets (password password' token token' : String) :
    (reading password token).SameButSecrets (reading password' token') := by
  have hnames (name : String) (hname : name ∉ secretNames) :
      "password" ≠ name ∧ "vcs-token" ≠ name := by
    constructor
    · rintro rfl
      exact hname (by decide)
    · rintro rfl
      exact hname (by decide)
  refine ⟨rfl, fun name hname => ?_, fun name hname => ?_⟩
  · obtain ⟨hpassword, htoken⟩ := hnames name hname
    simp [reading, Reading.global?, Reading.all, List.filter_cons, hpassword, htoken]
  · obtain ⟨-, htoken⟩ := hnames name hname
    simp [reading, Reading.local?, Reading.innermost, htoken]

end TwoTokens

open TwoTokens in
/-- Both runs show the same, though the registrations that are refused have other bodies. -/
theorem secrets_unseen_twoTokens :
    (run "alpha" "t1").result = (run "beta" "").result ∧
      (run "alpha" "t1").notes = (run "beta" "").notes ∧
      (run "beta" "").result.status = 1 ∧ (run "beta" "").asked.length = 2 ∧
      ((run "alpha" "t1").asked[1]?.map fun exchange => exchange.1.body) ≠
        ((run "beta" "").asked[1]?.map fun exchange => exchange.1.body) := by
  have hread : read program (Dictionary.ofList []) program.root {} (words "alpha" "t1") =
      .ok (reading "alpha" "t1") := by rfl
  have hread' : read program (Dictionary.ofList []) program.root {} (words "beta" "") =
      .ok (reading "beta" "") := by rfl
  have hanswers : SameAnswers (run "alpha" "t1").asked (run "beta" "").asked := by
    rw [run, run]
    exact sameAnswers_numbered replies _ _ 0
  obtain ⟨i, i', hi, hi', -, hruns⟩ :=
    secrets_unseen hread hread' (fun _ _ => rfl) (sameButSecrets _ _ _ _)
  obtain rfl : i = invocation (reading "alpha" "t1") :=
    Except.ok.inj (hi.symm.trans (parse_of_read hread))
  obtain rfl : i' = invocation (reading "beta" "") :=
    Except.ok.inj (hi'.symm.trans (parse_of_read hread'))
  rw [run, run] at hanswers
  obtain ⟨hresult, hnotes, -⟩ := hruns false Nat Nat _ _ 0 0 hanswers
  refine ⟨?_, ?_, ?_⟩
  · rw [run, run]
    exact hresult
  · rw [run, run]
    exact hnotes
  · exact ⟨by decide +kernel, by decide +kernel, by decide +kernel⟩

end CommandLine

end GitTransport
