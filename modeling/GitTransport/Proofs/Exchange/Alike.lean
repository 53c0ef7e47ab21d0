/-
Exchanges that differ in their questions only.

  `Alike asks ends x y` says that two exchanges go the same way whatever they are
  answered: they ask, make a remark and end at the same places, the questions are
  related by `asks`, the remarks are the same and the results are related by `ends`.

  It passes through sequences (`Alike.bind`) and through the answering of questions by
  other exchanges (`Alike.through`), and it says what two runs have in common when
  equal places get equal answers (`Alike.play`), whoever gives them.
-/

import GitTransport.Proofs.Exchange
import Mathlib.Data.List.Forall2

namespace GitTransport.Exchange

variable {Q A Q' A' α α' β β' σ τ : Type}

/-- Two exchanges that go the same way, with questions related by `asks` and results related
    by `ends`. -/
inductive Alike (asks : Q → Q → Prop) (ends : α → α' → Prop) :
    Exchange Q A α → Exchange Q A α' → Prop where
  | done {a : α} {a' : α'} (h : ends a a') : Alike asks ends (.done a) (.done a')
  | ask {q q' : Q} {next : A → Exchange Q A α} {next' : A → Exchange Q A α'} (h : asks q q')
      (hnext : ∀ a, Alike asks ends (next a) (next' a)) :
      Alike asks ends (.ask q next) (.ask q' next')
  | note {text : String} {next : Exchange Q A α} {next' : Exchange Q A α'}
      (hnext : Alike asks ends next next') :
      Alike asks ends (.note text next) (.note text next')

section

variable {asks : Q → Q → Prop} {asks' : Q' → Q' → Prop} {ends : α → α' → Prop}
  {ends' : β → β' → Prop} {x : Exchange Q A α} {y : Exchange Q A α'}

/-- An exchange is like itself if every question is. -/
theorem alike_refl (hasks : ∀ q, asks q q) (x : Exchange Q A α) : Alike asks Eq x x := by
  induction x with
  | done a => exact .done rfl
  | ask q next ih => exact .ask (hasks q) ih
  | note text next ih => exact .note ih

theorem Alike.bind {f : α → Exchange Q A β} {g : α' → Exchange Q A β'}
    (h : Alike asks ends x y) (hrest : ∀ a a', ends a a' → Alike asks ends' (f a) (g a')) :
    Alike asks ends' (x >>= f) (y >>= g) := by
  induction h with
  | done hends => exact hrest _ _ hends
  | ask hasks _ ih => exact .ask hasks ih
  | note _ ih => exact .note ih

/-- Behind alike exchanges with one result the same may follow. -/
theorem Alike.bind_eq {y : Exchange Q A α} {f : α → Exchange Q A β} (hasks : ∀ q, asks q q)
    (h : Alike asks Eq x y) : Alike asks Eq (x >>= f) (y >>= f) := by
  refine h.bind fun a a' ha => ?_
  rw [ha]
  exact alike_refl hasks _

/-- Exchanges stay alike under a weaker relation of the questions. -/
theorem Alike.mono {weaker : Q → Q → Prop} (hweaker : ∀ q q', asks q q' → weaker q q')
    (h : Alike asks ends x y) : Alike weaker ends x y := by
  induction h with
  | done hends => exact .done hends
  | ask hasks _ ih => exact .ask (hweaker _ _ hasks) ih
  | note _ ih => exact .note ih

/-- Questions answered by exchanges: if related questions are answered alike, from what is
    kept alike, then all is alike. -/
theorem Alike.through {find : σ → Q → Exchange Q' A' (A × σ)} {kept : σ → σ → Prop}
    (hfind : ∀ s t q q', kept s t → asks q q' →
      Alike asks' (fun p p' => p.1 = p'.1 ∧ kept p.2 p'.2) (find s q) (find t q'))
    (h : Alike asks ends x y) {s t : σ} (hkept : kept s t) :
    Alike asks' (fun p p' => ends p.1 p'.1 ∧ kept p.2 p'.2) (x.through find s)
      (y.through find t) := by
  induction h generalizing s t with
  | done hends => exact .done ⟨hends, hkept⟩
  | ask hasks _ ih =>
    refine (hfind s t _ _ hkept hasks).bind ?_
    rintro ⟨answer, s⟩ ⟨_, t⟩ ⟨rfl, hkept⟩
    exact ih answer hkept
  | note _ ih => exact .note (ih hkept)

end

/-! ## Two runs -/

/-- Two lists of questions with their answers have equal answers at equal places, as far as
    both go. -/
def SameAnswers (asked asked' : List (Q × A)) : Prop :=
  ∀ (k : Nat) exchange exchange', asked[k]? = some exchange → asked'[k]? = some exchange' →
    exchange.2 = exchange'.2

theorem sameAnswers_cons_iff {exchange exchange' : Q × A} {asked asked' : List (Q × A)} :
    SameAnswers (exchange :: asked) (exchange' :: asked') ↔
      exchange.2 = exchange'.2 ∧ SameAnswers asked asked' := by
  constructor
  · intro h
    exact ⟨h 0 _ _ rfl rfl, fun k _ _ hk hk' => h (k + 1) _ _ hk hk'⟩
  · rintro ⟨hfirst, hrest⟩ k e e' hk hk'
    cases k with
    | zero =>
      cases hk
      cases hk'
      exact hfirst
    | succ k => exact hrest k e e' hk hk'

/-- Runs of alike exchanges, with equal answers at equal places: there are as many questions,
    related one by one, the remarks are the same, and the results are related. -/
theorem Alike.play {asks : Q → Q → Prop} {ends : α → α' → Prop} {x : Exchange Q A α}
    {y : Exchange Q A α'} (h : Alike asks ends x y) (peer : σ → Q → A × σ)
    (peer' : τ → Q → A × τ) (s : σ) (t : τ)
    (hsame : SameAnswers (x.play peer s).1.asked (y.play peer' t).1.asked) :
    ends (x.play peer s).1.result (y.play peer' t).1.result ∧
      (x.play peer s).1.notes = (y.play peer' t).1.notes ∧
      List.Forall₂ (fun e e' => asks e.1 e'.1 ∧ e.2 = e'.2) (x.play peer s).1.asked
        (y.play peer' t).1.asked := by
  induction h generalizing s t with
  | done hends => exact ⟨hends, rfl, .nil⟩
  | @ask q q' next next' hasks _ ih =>
    obtain ⟨answer, s', hpeer⟩ : ∃ answer s', peer s q = (answer, s') := ⟨_, _, rfl⟩
    obtain ⟨answer', t', hpeer'⟩ : ∃ answer' t', peer' t q' = (answer', t') := ⟨_, _, rfl⟩
    simp only [Exchange.play, hpeer, hpeer'] at hsame ⊢
    -- the first answers are the same, so both runs go on in the same branch
    obtain ⟨hanswer, hrest⟩ := sameAnswers_cons_iff.1 hsame
    obtain rfl : answer = answer' := hanswer
    obtain ⟨hresult, hnotes, hasked⟩ := ih answer s' t' hrest
    exact ⟨hresult, hnotes, .cons ⟨hasks, rfl⟩ hasked⟩
  | note _ ih =>
    obtain ⟨hresult, hnotes, hasked⟩ := ih s t hsame
    exact ⟨hresult, congrArg _ hnotes, hasked⟩

/-- A peer that answers by the number of questions before gives equal answers at equal
    places. -/
theorem sameAnswers_numbered (replies : Nat → A) (x : Exchange Q A α) (y : Exchange Q A α')
    (k : Nat) :
    SameAnswers (x.play (fun k _ => (replies k, k + 1)) k).1.asked
      (y.play (fun k _ => (replies k, k + 1)) k).1.asked := by
  -- the answer at a place is the one with its number
  have hanswer {γ : Type} (x : Exchange Q A γ) (k n : Nat) (exchange : Q × A)
      (h : (x.play (fun k _ => (replies k, k + 1)) k).1.asked[n]? = some exchange) :
      exchange.2 = replies (k + n) := by
    induction x generalizing k n with
    | done a => cases h
    | ask q next ih =>
      cases n with
      | zero =>
        cases h
        rfl
      | succ n =>
        rw [ih (replies k) (k + 1) n h]
        congr 1
        omega
    | note text next ih => exact ih k n h
  intro n exchange exchange' h h'
  rw [hanswer x k n exchange h, hanswer y k n exchange' h']

end GitTransport.Exchange
