/-
The spelling of headers, and the error that a failed request stands for.

  A header can be spelled with other letters, small or capital, in its name and, when it
  tells the type of the body, in the media type before the parameters
  (`RespelledHeader`).  The name makes no difference, since headers are looked up without
  regard to case (`Response.contentType_of_forall₂`).

  The media type does: a body counts as JSON when its type holds `application/json` in
  just these letters.  So two spellings have the same outcome exactly if the body cannot
  be read anyway, or the letters stand among the parameters, or the media types agree in
  holding them or not (`sameOutcome_iff_of_respelled`).
-/

import Mathlib.Data.List.Forall2
import GitTransport.Proofs.Classifier.Decision
import GitTransport.Proofs.Text.Pieces

namespace GitTransport

/-! ## Content types -/

/-- The part of a content type before its parameters. -/
def mediaType (contentType : String) : String :=
  String.ofList (contentType.toList.takeWhile fun c => !decide (c = ';'))

/-- The parameters of a content type, from the first semicolon on. -/
def mediaParameters (contentType : String) : String :=
  String.ofList (contentType.toList.dropWhile fun c => !decide (c = ';'))

/-- The text holds the name of the type of JSON bodies in small letters. -/
def HoldsJsonType (text : String) : Prop :=
  Text.occursIn "application/json".toList text.toList = true

instance (text : String) : Decidable (HoldsJsonType text) :=
  inferInstanceAs (Decidable (_ = true))

theorem toList_mediaType (contentType : String) : (mediaType contentType).toList =
    contentType.toList.takeWhile fun c => !decide (c = ';') :=
  String.toList_ofList

theorem toList_mediaParameters (contentType : String) : (mediaParameters contentType).toList =
    contentType.toList.dropWhile fun c => !decide (c = ';') :=
  String.toList_ofList

/-- A body counts as JSON for what its media type holds, or for what the parameters do. -/
theorem Response.isJson_iff (r : Response) : r.isJson = true ↔
    HoldsJsonType (mediaType r.contentType) ∨ HoldsJsonType (mediaParameters r.contentType) := by
  have hplain : ∀ c ∈ "application/json".toList, decide (c = ';') = false := by
    intro c hc
    refine decide_eq_false ?_
    rintro rfl
    exact absurd hc (by decide)
  rw [isJson, Text.occursIn_eq_or hplain, Bool.or_eq_true, HoldsJsonType, HoldsJsonType,
    toList_mediaType, toList_mediaParameters]

/-! ## Spellings -/

/-- The same header in other letters: its name may differ in their case, and so may the
    media type if it is a content type. -/
structure RespelledHeader (header header' : String × String) : Prop where
  name : Text.sameLetters header.1 header'.1 = true
  value : header.2 = header'.2 ∨ Text.sameLetters header.1 "Content-Type" = true ∧
    Text.sameLetters (mediaType header.2) (mediaType header'.2) = true ∧
    mediaParameters header.2 = mediaParameters header'.2

/-- The same failure with other letters in its headers. -/
structure HttpFailure.Respelled (failure failure' : HttpFailure) : Prop where
  method : failure.method = failure'.method
  path : failure.path = failure'.path
  status : failure.response.status = failure'.response.status
  body : failure.response.body = failure'.response.body
  headers : List.Forall₂ RespelledHeader failure.response.headers failure'.response.headers

/-- Headers with the same values, under names that differ in the case of letters at most. -/
def SameButNames : List (String × String) → List (String × String) → Prop :=
  List.Forall₂ fun header header' =>
    Text.sameLetters header.1 header'.1 = true ∧ header.2 = header'.2

/-- The letters of a name do not matter when a header is looked for, so the content types are
    related like the values of headers with one name. -/
theorem Response.contentType_of_forall₂ {R : String → String → Prop} {r r' : Response}
    (hnone : R "" "")
    (h : List.Forall₂ (fun header header' => Text.sameLetters header.1 header'.1 = true ∧
      R header.2 header'.2) r.headers r'.headers) : R r.contentType r'.contentType := by
  unfold contentType header?
  generalize r.headers = headers at h
  generalize r'.headers = headers' at h
  induction h with
  | nil => exact hnone
  | @cons header header' rest rest' hhead _ ih =>
    obtain ⟨hname, hvalue⟩ := hhead
    have hsame : Text.sameLetters header.1 "Content-Type" =
        Text.sameLetters header'.1 "Content-Type" := by
      have hlower := of_decide_eq_true hname
      rw [Text.sameLetters, Text.sameLetters, hlower]
    simp only [List.find?_cons, ← hsame]
    cases Text.sameLetters header.1 "Content-Type" with
    | true => exact hvalue
    | false => exact ih

/-- The parameters are the same in every spelling. -/
theorem HttpFailure.Respelled.parameters_eq {failure failure' : HttpFailure}
    (h : failure.Respelled failure') : mediaParameters failure.response.contentType =
      mediaParameters failure'.response.contentType := by
  apply Response.contentType_of_forall₂ (R := fun a b => mediaParameters a = mediaParameters b) rfl
  refine h.headers.imp fun header header' hheader => ⟨hheader.name, ?_⟩
  rcases hheader.value with heq | ⟨-, -, hparameters⟩
  · rw [heq]
  · exact hparameters

namespace Classifier

variable {c : Classifier} {failure failure' : HttpFailure}

/-! ## Outcomes -/

/-- Both failures are the same error of the service, or both stay as they are. -/
def SameOutcome (c : Classifier) (failure failure' : HttpFailure) : Prop :=
  (∃ problem, c.classify failure = .service problem ∧ c.classify failure' = .service problem) ∨
    c.classify failure = .http failure ∧ c.classify failure' = .http failure'

theorem classify_of_error {fault : Json.Fault} (h : failure.response.json = .error fault) :
    c.classify failure = .http failure := by
  simp [classify, h]

theorem classify_of_ok {messages : Json} (h : failure.response.json = .ok messages) :
    c.classify failure =
      if failure.response.isJson then .service (c.classifyMessages messages)
      else .http failure := by
  simp [classify, h]

/-- With one body, the outcomes agree unless just one of the failures is read. -/
theorem sameOutcome_iff (hjson : failure.response.json = failure'.response.json) :
    c.SameOutcome failure failure' ↔
      (∃ fault, failure.response.json = .error fault) ∨
        failure.response.isJson = failure'.response.isJson := by
  cases hbody : failure.response.json with
  | error fault =>
    have hbody' := hjson ▸ hbody
    exact iff_of_true (.inr ⟨classify_of_error hbody, classify_of_error hbody'⟩) (.inl ⟨fault, rfl⟩)
  | ok messages =>
    have hbody' := hjson ▸ hbody
    rw [SameOutcome, classify_of_ok hbody, classify_of_ok hbody']
    cases failure.response.isJson <;> cases failure'.response.isJson <;> simp

/-- Failures that are spelled in other letters have the same outcome exactly if their body
    cannot be read, or the small letters stand among the parameters, or they stand in both
    media types or in neither.  So the letters of names alone never matter. -/
theorem sameOutcome_iff_of_respelled (h : failure.Respelled failure') :
    (c.SameOutcome failure failure' ↔
      (∃ fault, failure.response.json = .error fault) ∨
        HoldsJsonType (mediaParameters failure.response.contentType) ∨
        (HoldsJsonType (mediaType failure.response.contentType) ↔
          HoldsJsonType (mediaType failure'.response.contentType))) ∧
      (SameButNames failure.response.headers failure'.response.headers →
        c.SameOutcome failure failure') := by
  have hjson : failure.response.json = failure'.response.json := congrArg Json.parse h.body
  rw [sameOutcome_iff hjson]
  refine ⟨or_congr_right ?_, fun hnames => .inr ?_⟩
  · -- the parameters are common to both, so they count for both or for neither
    rw [Bool.eq_iff_iff, Response.isJson_iff, Response.isJson_iff, h.parameters_eq]
    by_cases hparameters : HoldsJsonType (mediaParameters failure'.response.contentType)
    · exact iff_of_true (iff_of_true (.inr hparameters) (.inr hparameters)) (.inl hparameters)
    · rw [or_iff_left hparameters, or_iff_left hparameters, or_iff_right hparameters]
  · have htype : failure.response.contentType = failure'.response.contentType :=
      Response.contentType_of_forall₂ (R := fun a b => a = b) rfl hnames
    rw [Response.isJson, Response.isJson, htype]

end Classifier

/-! A failure whose body names an exception is told with one header in several spellings. -/

namespace Spelling

/-- The failure with this header. -/
def failure (name value : String) : HttpFailure :=
  ⟨.post, "repository", ⟨500, [(name, value)], "\x7b\"exception\":\"Boom\"\x7d"⟩⟩

theorem respelled (name name' value value' : String)
    (hname : Text.sameLetters name name' = true)
    (hcontent : Text.sameLetters name "Content-Type" = true)
    (htype : Text.sameLetters (mediaType value) (mediaType value') = true)
    (hparameters : mediaParameters value = mediaParameters value') :
    (failure name value).Respelled (failure name' value') :=
  ⟨rfl, rfl, rfl, rfl, .cons ⟨hname, .inr ⟨hcontent, htype, hparameters⟩⟩ .nil⟩

theorem sameButNames {name name' : String} (hname : Text.sameLetters name name' = true)
    (value : String) : SameButNames (failure name value).response.headers
      (failure name' value).response.headers :=
  .cons ⟨hname, rfl⟩ .nil

/-- The body is JSON, whatever the header says. -/
theorem json_failure (name value : String) : (failure name value).response.json =
    .ok (.object [("exception", .string "Boom")]) := by
  have hbody : Json.parse "\x7b\"exception\":\"Boom\"\x7d" =
      .ok (.object [("exception", .string "Boom")]) := by decide +kernel
  exact hbody

theorem readable (name value : String) :
    ¬ ∃ fault, (failure name value).response.json = .error fault := by
  rintro ⟨fault, hfault⟩
  rw [json_failure] at hfault
  cases hfault

end Spelling

namespace Classifier

open Spelling in
theorem sameOutcome_iff_of_respelled_capitals :
    standard.SameOutcome (failure "Content-Type" "application/json")
        (failure "CONTENT-TYPE" "application/json") ∧
      standard.SameOutcome (failure "Content-Type" "text/html")
        (failure "content-type" "Text/HTML") ∧
      ¬ standard.SameOutcome (failure "Content-Type" "application/json; charset=utf-8")
        (failure "content-type" "Application/JSON; charset=utf-8") := by
  refine ⟨?_, ?_, ?_⟩
  · have h := respelled "Content-Type" "CONTENT-TYPE" "application/json" "application/json"
      (by decide) (by decide) (by decide +kernel) rfl
    exact (sameOutcome_iff_of_respelled h).2 (sameButNames (by decide) _)
  · have h := respelled "Content-Type" "content-type" "text/html" "Text/HTML"
      (by decide) (by decide) (by decide +kernel) (by decide +kernel)
    exact (sameOutcome_iff_of_respelled h).1.2 (.inr (.inr (by decide)))
  · have h := respelled "Content-Type" "content-type"
      "application/json; charset=utf-8" "Application/JSON; charset=utf-8"
      (by decide) (by decide) (by decide +kernel) (by decide +kernel)
    intro hsame
    rcases (sameOutcome_iff_of_respelled h).1.1 hsame with hfault | hparameters | htypes
    · exact readable _ _ hfault
    · exact absurd hparameters (by decide)
    · exact absurd htypes (by decide)

open Spelling in
/-- So the spelling of a media type can decide what a failure stands for. -/
theorem not_sameOutcome_of_respelled :
    ¬ ∀ (c : Classifier) (failure failure' : HttpFailure),
      failure.Respelled failure' → c.SameOutcome failure failure' := by
  intro h
  have hsame := h standard (failure "Content-Type" "application/json")
    (failure "Content-Type" "Application/JSON")
    (respelled _ _ _ _ (by decide) (by decide) (by decide +kernel) (by decide +kernel))
  have hjson := (json_failure "Content-Type" "application/json").trans
    (json_failure "Content-Type" "Application/JSON").symm
  rcases (sameOutcome_iff hjson).1 hsame with hfault | hkinds
  · exact readable _ _ hfault
  · exact absurd hkinds (by decide)

end Classifier

end GitTransport
