/-
How the errors of the service are told apart.

  A classifier grows by patterns that are added one after the other to the standard one,
  the empty one or any other (`withPatterns`).  The texts that it knows then are those of
  the first one and those that were added (`mem_existsSuffixes_withPatterns`,
  `mem_unknownExceptions_withPatterns`).

  Two members of a body count: its log, which may begin with an object that has a message
  (`FirstLogged`), and its exception.  They decide the kind of the error, the log before
  the exception, and the body is passed on with at most the words of its exception changed
  (`Classified`).

  A failed request is classified if its body is JSON and said to be (`classify_cases`);
  any other error is passed on, and so is one that has been classified (`refine_refine`).
-/

import GitTransport.Classifier
import GitTransport.Proofs.Fields
import GitTransport.Proofs.Json.Items

namespace GitTransport

/-- The object with another value for the member `name`, and all else as it is. -/
def Json.replacing : Json → String → Json → Json
  | .object members, name, value =>
    .object (members.map fun pair => if pair.1 = name then (pair.1, value) else pair)
  | other, _, _ => other

namespace ServiceError

variable {messages value : Json} {text : String}

/-! ## What a body says -/

/-- The log is a list, and it begins with an object that has this message. -/
def FirstLogged (messages : Json) (text : String) : Prop :=
  ∃ (members : Fields Json) (rest : List Json),
    messages.member? "log" = some (.array (.object members :: rest)) ∧
      Fields.get? members "message" = some (.string text)

theorem bind_asString_eq_some_iff {value? : Option Json} :
    value?.bind Json.asString? = some text ↔ value? = some (.string text) := by
  cases value? with
  | none => simp
  | some value => simp [Json.asString_eq_some_iff]

/-- The section is a list, and it begins with an object that has this message. -/
def BeginsWith (section? : Option Json) (text : String) : Prop :=
  ∃ (members : Fields Json) (rest : List Json), section? = some (.array (.object members :: rest)) ∧
    Fields.get? members "message" = some (.string text)

theorem firstMessage_eq_some_iff_beginsWith {section? : Option Json} :
    firstMessage? section? = some text ↔ BeginsWith section? text := by
  constructor
  · intro h
    unfold firstMessage? at h
    obtain ⟨entries, hentries, h⟩ := Option.bind_eq_some_iff.1 h
    obtain ⟨first, hfirst, h⟩ := Option.bind_eq_some_iff.1 h
    obtain ⟨value, hvalue, h⟩ := Option.bind_eq_some_iff.1 h
    obtain rfl := Json.asString_eq_some_iff.1 h
    -- only a list has entries, and only an object has a message
    obtain ⟨log, hlog, hlist⟩ := Option.bind_eq_some_iff.1 hentries
    cases log with
    | array items =>
      cases hlist
      cases first with
      | object members =>
        obtain ⟨rest, rfl⟩ := List.head?_eq_some_iff.1 hfirst
        exact ⟨members, rest, hlog, hvalue⟩
      | _ => cases hvalue
    | _ => cases hlist
  · rintro ⟨members, rest, hlog, hmessage⟩
    have hvalue : (Json.object members).member? "message" = some (.string text) := hmessage
    simp [firstMessage?, hlog, hmessage, Json.asArray?, Json.asString?]

theorem firstMessage_eq_some_iff :
    firstMessage? (messages.member? "log") = some text ↔ FirstLogged messages text :=
  firstMessage_eq_some_iff_beginsWith

/-! ## The body that is passed on -/

theorem exists_members_of_member {name : String} (h : messages.member? name = some value) :
    ∃ members, messages = .object members ∧ Fields.get? members name = some value := by
  cases messages with
  | object members => exact ⟨members, rfl, h⟩
  | _ => cases h

/-- The exception is told in plain words, and every other member is told as before. -/
theorem member_withPlainException (h : messages.member? "exception" = some value) (name : String) :
    (withPlainException messages).member? name =
      if "exception" = name then some (.string unknownRepository) else messages.member? name := by
  obtain ⟨members, rfl, -⟩ := exists_members_of_member h
  exact Fields.get?_insert _ _ members name

/-- Nothing but the value of the exception is replaced. -/
theorem withPlainException_eq_replacing (hordered : messages.WellFormed)
    (h : messages.member? "exception" = some value) :
    withPlainException messages = messages.replacing "exception" (.string unknownRepository) := by
  obtain ⟨members, rfl, hget⟩ := exists_members_of_member h
  have hsorted : Fields.Sorted members := hordered.1
  rw [withPlainException, Json.replacing, hsorted.insert_eq_map hget]

end ServiceError

namespace Classifier

open ServiceError

variable {c d : Classifier} {messages : Json}

/-! ## Patterns -/

/-- What is added to a classifier. -/
inductive Pattern where
  /-- An ending of the first message that stands for "exists already". -/
  | suffix (text : String)
  /-- An exception that stands for "does not exist". -/
  | exception (text : String)

/-- The classifier that knows one more pattern. -/
def withPattern (c : Classifier) : Pattern → Classifier
  | .suffix text => c.withSuffix text
  | .exception text => c.withException text

/-- The classifier to which patterns have been added, one after the other. -/
def withPatterns (c : Classifier) (patterns : List Pattern) : Classifier :=
  patterns.foldl withPattern c

theorem mem_existsSuffixes_withPatterns {patterns : List Pattern} {text : String} :
    text ∈ (c.withPatterns patterns).existsSuffixes ↔
      text ∈ c.existsSuffixes ∨ .suffix text ∈ patterns := by
  induction patterns generalizing c with
  | nil => simp [withPatterns]
  | cons pattern patterns ih =>
    have hstep : c.withPatterns (pattern :: patterns) =
        (c.withPattern pattern).withPatterns patterns := rfl
    rw [hstep, ih]
    cases pattern with
    | suffix added => simp [withPattern, withSuffix, or_assoc]
    | exception added => simp [withPattern, withException]

theorem mem_unknownExceptions_withPatterns {patterns : List Pattern} {text : String} :
    text ∈ (c.withPatterns patterns).unknownExceptions ↔
      text ∈ c.unknownExceptions ∨ .exception text ∈ patterns := by
  induction patterns generalizing c with
  | nil => simp [withPatterns]
  | cons pattern patterns ih =>
    have hstep : c.withPatterns (pattern :: patterns) =
        (c.withPattern pattern).withPatterns patterns := rfl
    rw [hstep, ih]
    cases pattern with
    | suffix added => simp [withPattern, withSuffix]
    | exception added => simp [withPattern, withException, or_assoc]

/-! ## The decision -/

/-- The first message of the log ends with one of the texts. -/
def EndsKnown (suffixes : String → Prop) (messages : Json) : Prop :=
  ∃ start suffix : String, suffixes suffix ∧ FirstLogged messages (start ++ suffix)

/-- The exception is one of the texts. -/
def ExceptionKnown (exceptions : String → Prop) (messages : Json) : Prop :=
  ∃ text, exceptions text ∧ messages.member? "exception" = some (.string text)

theorem endsWith_iff {text suffix : String} :
    endsWith text suffix = true ↔ ∃ start : String, start ++ suffix = text := by
  rw [endsWith, List.isSuffixOf_iff_suffix]
  constructor
  · rintro ⟨start, hstart⟩
    refine ⟨String.ofList start, String.toList_inj.1 ?_⟩
    rw [String.toList_append, String.toList_ofList, hstart]
  · rintro ⟨start, rfl⟩
    exact ⟨start.toList, String.toList_append.symm⟩

theorem saysExists_iff :
    c.saysExists messages = true ↔ EndsKnown (· ∈ c.existsSuffixes) messages := by
  unfold saysExists
  constructor
  · intro h
    split at h
    · next text hfirst =>
      obtain ⟨suffix, hknown, hends⟩ := List.any_eq_true.1 h
      obtain ⟨start, rfl⟩ := endsWith_iff.1 hends
      exact ⟨start, suffix, hknown, firstMessage_eq_some_iff.1 hfirst⟩
    · cases h
  · rintro ⟨start, suffix, hknown, hfirst⟩
    rw [firstMessage_eq_some_iff.2 hfirst]
    exact List.any_eq_true.2 ⟨suffix, hknown, endsWith_iff.2 ⟨start, rfl⟩⟩

theorem saysUnknown_iff :
    c.saysUnknown messages = true ↔ ExceptionKnown (· ∈ c.unknownExceptions) messages := by
  unfold saysUnknown
  constructor
  · intro h
    split at h
    · next text htext => exact ⟨text, List.contains_iff_mem.1 h, bind_asString_eq_some_iff.1 htext⟩
    · cases h
  · rintro ⟨text, hknown, htext⟩
    rw [bind_asString_eq_some_iff.2 htext]
    exact List.contains_iff_mem.2 hknown

/-- What is made of a body when these texts stand for "exists already" and "does not exist". -/
structure Classified (suffixes exceptions : String → Prop) (messages : Json)
    (problem : ServiceError) : Prop where
  /-- The log is looked at first. -/
  alreadyExists : problem.kind = .alreadyExists ↔ EndsKnown suffixes messages
  /-- Then the exception is. -/
  notExists : problem.kind = .notExists ↔
    ¬ EndsKnown suffixes messages ∧ ExceptionKnown exceptions messages
  /-- There is no other kind of error that could be told. -/
  request : problem.kind = .request ↔
    ¬ EndsKnown suffixes messages ∧ ¬ ExceptionKnown exceptions messages
  /-- The body is kept unless the repository is unknown. -/
  kept : problem.kind ≠ .notExists → problem.messages = messages
  /-- Then the exception says so. -/
  plain : problem.kind = .notExists → problem.exception? = some "Repository does not exist"
  /-- All other members are told as before. -/
  others : ∀ name ≠ "exception", problem.messages.member? name = messages.member? name
  /-- They are in the places where they were. -/
  replaced : problem.kind = .notExists → messages.WellFormed →
    problem.messages = messages.replacing "exception" (.string "Repository does not exist")

theorem classified_classifyMessages (c : Classifier) (messages : Json) :
    Classified (· ∈ c.existsSuffixes) (· ∈ c.unknownExceptions) messages
      (c.classifyMessages messages) := by
  unfold classifyMessages
  by_cases hexists : c.saysExists messages = true
  · rw [if_pos hexists]
    have hends := saysExists_iff.1 hexists
    exact ⟨iff_of_true rfl hends, iff_of_false nofun fun h => h.1 hends,
      iff_of_false nofun fun h => h.1 hends, fun _ => rfl, nofun, fun _ _ => rfl, nofun⟩
  · rw [if_neg hexists]
    have hends : ¬ EndsKnown (· ∈ c.existsSuffixes) messages := mt saysExists_iff.2 hexists
    by_cases hunknown : c.saysUnknown messages = true
    · rw [if_pos hunknown]
      have hknown := saysUnknown_iff.1 hunknown
      have ⟨text, _, hexception⟩ := hknown
      have hmember := member_withPlainException hexception
      have hplain : (notExists messages).exception? = some "Repository does not exist" := by
        have hvalue := hmember "exception"
        rw [if_pos rfl] at hvalue
        exact bind_asString_eq_some_iff.2 hvalue
      refine ⟨iff_of_false nofun hends, iff_of_true rfl ⟨hends, hknown⟩,
        iff_of_false nofun fun h => h.2 hknown, fun h => absurd rfl h, fun _ => hplain, ?_, ?_⟩
      · intro name hname
        exact (hmember name).trans (if_neg hname.symm)
      · intro _ hordered
        exact withPlainException_eq_replacing hordered hexception
    · rw [if_neg hunknown]
      have hknown := mt saysUnknown_iff.2 hunknown
      exact ⟨iff_of_false nofun hends, iff_of_false nofun fun h => hknown h.2,
        iff_of_true rfl ⟨hends, hknown⟩, fun _ => rfl, nofun, fun _ _ => rfl, nofun⟩

/-- Classifiers that know the same texts make the same of a body. -/
theorem classifyMessages_congr
    (hsuffixes : ∀ text, text ∈ c.existsSuffixes ↔ text ∈ d.existsSuffixes)
    (hexceptions : ∀ text, text ∈ c.unknownExceptions ↔ text ∈ d.unknownExceptions)
    (messages : Json) : c.classifyMessages messages = d.classifyMessages messages := by
  have hexists : c.saysExists messages = d.saysExists messages := by
    rw [Bool.eq_iff_iff, saysExists_iff, saysExists_iff]
    simp only [hsuffixes]
  have hunknown : c.saysUnknown messages = d.saysUnknown messages := by
    rw [Bool.eq_iff_iff, saysUnknown_iff, saysUnknown_iff]
    simp only [hexceptions]
  rw [classifyMessages, classifyMessages, hexists, hunknown]

/-- Whatever patterns have been added to a classifier, the known texts decide what it makes of
    a body, be they its own or added.  In which order they were added makes no difference,
    nor does it how often. -/
theorem classification_of_patterns (base : Classifier) (patterns : List Pattern) (messages : Json) :
    Classified (fun text => text ∈ base.existsSuffixes ∨ .suffix text ∈ patterns)
        (fun text => text ∈ base.unknownExceptions ∨ .exception text ∈ patterns) messages
        ((base.withPatterns patterns).classifyMessages messages) ∧
      ∀ others : List Pattern, (∀ pattern, pattern ∈ others ↔ pattern ∈ patterns) →
        (base.withPatterns others).classifyMessages messages =
          (base.withPatterns patterns).classifyMessages messages := by
  constructor
  · have h := classified_classifyMessages (base.withPatterns patterns) messages
    simpa only [mem_existsSuffixes_withPatterns, mem_unknownExceptions_withPatterns] using h
  · intro others hsame
    apply classifyMessages_congr
    · intro text
      rw [mem_existsSuffixes_withPatterns, mem_existsSuffixes_withPatterns, hsame]
    · intro text
      rw [mem_unknownExceptions_withPatterns, mem_unknownExceptions_withPatterns, hsame]

/-- A body that is known by both of its members. -/
example : ((empty.withPatterns [.exception "unknown", .suffix "duplicate"]).classifyMessages
    (.object [("exception", .string "unknown"),
      ("log", .array [.object [("message", .string "E: duplicate")]])])).kind = .alreadyExists := by
  decide

/-! ## Failed requests -/

/-- Only failed requests are classified. -/
theorem refine_of_ne_http {error : Error} (h : ∀ failure, error ≠ .http failure) :
    c.refine error = error := by
  cases error with
  | http failure => exact absurd rfl (h failure)
  | _ => rfl

/-- A failed request whose body cannot be read stays as it is; any other one becomes an
    error of the service. -/
theorem classify_cases (c : Classifier) (failure : HttpFailure) :
    (c.classify failure = .http failure ∧
      (failure.response.isJson = false ∨ ∃ fault, failure.response.json = .error fault)) ∨
    (∃ messages, failure.response.isJson = true ∧ failure.response.json = .ok messages ∧
      c.classify failure = .service (c.classifyMessages messages)) := by
  unfold classify
  cases hkind : failure.response.isJson with
  | false => exact .inl ⟨rfl, .inl rfl⟩
  | true =>
    cases hbody : failure.response.json with
    | error fault => exact .inl ⟨rfl, .inr ⟨fault, rfl⟩⟩
    | ok messages => exact .inr ⟨messages, rfl, rfl, rfl⟩

/-- What has been classified is not classified again. -/
theorem refine_refine (error : Error) :
    c.refine (c.refine error) = c.refine error := by
  cases error with
  | http failure =>
    rcases classify_cases c failure with ⟨hsame, -⟩ | ⟨messages, -, -, hservice⟩
    · have hrefine : c.refine (.http failure) = .http failure := hsame
      rw [hrefine, hrefine]
    · have hrefine : c.refine (.http failure) =
          .service (c.classifyMessages messages) := hservice
      rw [hrefine]
      rfl
  | _ => rfl

end Classifier

end GitTransport
