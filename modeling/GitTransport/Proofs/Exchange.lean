/-
Paths of exchanges, taken apart.

  Every path of a sequence of exchanges falls into a path of the first one and a
  path of what follows its result (`path_bind_iff`).  So what an exchange can do is
  read off its text from the front to the back, once for every peer.

  The second part is about peers that keep something between two questions.
  `Chain step s asked t` says that the answers in `asked` can be explained by such a
  peer: each exchange is a `step` from what was kept before it to what is kept after
  it.  A run against a peer whose every answer is a `step` is a chain
  (`chain_play`).

  The third part is about questions that are answered by exchanges of another kind.
  What is asked in the end falls into turns, one for each question, and the questions
  with their answers are a path of the first exchange (`path_through_iff`).
-/

import GitTransport.Exchange

namespace GitTransport.Exchange

variable {Q A α β σ κ : Type}

/-! ## Paths -/

@[simp] theorem path_done_iff {a b : α} {asked : List (Q × A)} :
    Path (.done a) asked b ↔ asked = [] ∧ b = a := by
  constructor
  · intro h
    cases h
    exact ⟨rfl, rfl⟩
  · rintro ⟨rfl, rfl⟩
    exact .done _

@[simp] theorem path_ask_iff {q : Q} {next : A → Exchange Q A α} {asked : List (Q × A)} {b : α} :
    Path (.ask q next) asked b ↔
      ∃ answer rest, asked = (q, answer) :: rest ∧ Path (next answer) rest b := by
  constructor
  · intro h
    cases h with
    | ask rest => exact ⟨_, _, rfl, rest⟩
  · rintro ⟨answer, rest, rfl, h⟩
    exact .ask h

@[simp] theorem path_note_iff {text : String} {next : Exchange Q A α} {asked : List (Q × A)}
    {b : α} : Path (.note text next) asked b ↔ Path next asked b := by
  constructor
  · intro h
    cases h with
    | note rest => exact rest
  · exact .note

/-- A path of a sequence is a path of its first part and one of what follows. -/
theorem path_bind_iff {x : Exchange Q A α} {f : α → Exchange Q A β} {asked : List (Q × A)}
    {b : β} :
    Path (x >>= f) asked b ↔
      ∃ first a rest, asked = first ++ rest ∧ Path x first a ∧ Path (f a) rest b := by
  induction x generalizing asked with
  | done a =>
    rw [done_bind]
    constructor
    · intro h
      exact ⟨[], a, asked, rfl, .done a, h⟩
    · rintro ⟨first, a', rest, rfl, hx, hf⟩
      obtain ⟨rfl, rfl⟩ := path_done_iff.1 hx
      exact hf
  | ask q next ih =>
    rw [ask_bind, path_ask_iff]
    constructor
    · rintro ⟨answer, asked, rfl, h⟩
      obtain ⟨first, a, rest, rfl, hx, hf⟩ := (ih answer).1 h
      exact ⟨(q, answer) :: first, a, rest, rfl, .ask hx, hf⟩
    · rintro ⟨first, a, rest, rfl, hx, hf⟩
      obtain ⟨answer, tail, rfl, htail⟩ := path_ask_iff.1 hx
      exact ⟨answer, tail ++ rest, rfl, (ih answer).2 ⟨tail, a, rest, rfl, htail, hf⟩⟩
  | note text next ih =>
    rw [note_bind, path_note_iff, ih]
    simp only [path_note_iff]

/-- Two paths with the same answers are the same as far as both go, and end in the same
    result. -/
theorem Path.unique {x : Exchange Q A α} {first first' rest rest' : List (Q × A)} {a b : α}
    (h : Path x first a) (h' : Path x first' b) (hasked : first ++ rest = first' ++ rest') :
    first = first' ∧ rest = rest' ∧ a = b := by
  induction h generalizing first' with
  | done a =>
    obtain ⟨rfl, rfl⟩ := path_done_iff.1 h'
    exact ⟨rfl, hasked, rfl⟩
  | ask _ ih =>
    obtain ⟨answer, asked, rfl, htail⟩ := path_ask_iff.1 h'
    rw [List.cons_append, List.cons_append, List.cons.injEq, Prod.mk.injEq] at hasked
    obtain ⟨⟨-, rfl⟩, hasked⟩ := hasked
    obtain ⟨rfl, hrest, hresult⟩ := ih htail hasked
    exact ⟨rfl, hrest, hresult⟩
  | note _ ih => exact ih (path_note_iff.1 h') hasked

/-! ## Peers that keep something -/

/-- The answers of `asked` come from a peer that keeps `s` before the first question
    and `t` after the last one, every exchange being a `step`. -/
inductive Chain (step : κ → Q → A → κ → Prop) : κ → List (Q × A) → κ → Prop where
  | nil (s : κ) : Chain step s [] s
  | cons {s u t : κ} {q : Q} {a : A} {rest : List (Q × A)} :
      step s q a u → Chain step u rest t → Chain step s ((q, a) :: rest) t

variable {step : κ → Q → A → κ → Prop} {s t : κ}

@[simp] theorem chain_nil_iff : Chain step s [] t ↔ t = s := by
  constructor
  · intro h
    cases h
    rfl
  · rintro rfl
    exact .nil _

@[simp] theorem chain_cons_iff {q : Q} {a : A} {rest : List (Q × A)} :
    Chain step s ((q, a) :: rest) t ↔ ∃ u, step s q a u ∧ Chain step u rest t := by
  constructor
  · intro h
    cases h with
    | cons first rest => exact ⟨_, first, rest⟩
  · rintro ⟨u, first, rest⟩
    exact .cons first rest

@[simp] theorem chain_singleton_iff {q : Q} {a : A} : Chain step s [(q, a)] t ↔ step s q a t := by
  rw [chain_cons_iff]
  constructor
  · rintro ⟨u, h, hrest⟩
    rwa [chain_nil_iff.1 hrest]
  · intro h
    exact ⟨t, h, .nil t⟩

theorem chain_append_iff {first rest : List (Q × A)} :
    Chain step s (first ++ rest) t ↔ ∃ u, Chain step s first u ∧ Chain step u rest t := by
  induction first generalizing s with
  | nil => simp
  | cons exchange first ih =>
    obtain ⟨q, a⟩ := exchange
    rw [List.cons_append, chain_cons_iff]
    constructor
    · rintro ⟨u, hstep, h⟩
      obtain ⟨v, hfirst, hrest⟩ := ih.1 h
      exact ⟨v, .cons hstep hfirst, hrest⟩
    · rintro ⟨v, h, hrest⟩
      obtain ⟨u, hstep, hfirst⟩ := chain_cons_iff.1 h
      exact ⟨u, hstep, ih.2 ⟨v, hfirst, hrest⟩⟩

/-- A run against a peer is a chain of what can be seen of the peer's state. -/
theorem chain_play {peer : σ → Q → A × σ} {view : σ → κ}
    (h : ∀ s q, step (view s) q (peer s q).1 (view (peer s q).2)) (x : Exchange Q A α) (s : σ) :
    Chain step (view s) (x.play peer s).1.asked (view (x.play peer s).2) := by
  induction x generalizing s with
  | done a => exact .nil _
  | ask q next ih => exact .cons (h s q) (ih _ _)
  | note text next ih => exact ih s

/-! ## Questions answered by exchanges -/

/-- A question with its answer, and what was asked to find the answer. -/
structure Turn (Q A Q' A' : Type) where
  question : Q
  answer : A
  inner : List (Q' × A')

namespace Turn

variable {Q' A' : Type}

/-- The question and the answer of a turn. -/
def outer (turn : Turn Q A Q' A') : Q × A := (turn.question, turn.answer)

/-- All that is asked in a list of turns. -/
def allInner (turns : List (Turn Q A Q' A')) : List (Q' × A') := turns.flatMap (·.inner)

@[simp] theorem allInner_nil : allInner ([] : List (Turn Q A Q' A')) = [] := rfl

@[simp] theorem allInner_cons (turn : Turn Q A Q' A') (turns : List (Turn Q A Q' A')) :
    allInner (turn :: turns) = turn.inner ++ allInner turns := rfl

/-- Whatever is asked is asked in one of the turns. -/
theorem exists_turn {turns : List (Turn Q A Q' A')} {earlier later : List (Q' × A')}
    {exchange : Q' × A'} (h : allInner turns = earlier ++ exchange :: later) :
    ∃ before turn after first rest, turns = before ++ turn :: after ∧
      earlier = allInner before ++ first ∧ turn.inner = first ++ exchange :: rest := by
  induction turns generalizing earlier with
  | nil => simp at h
  | cons turn turns ih =>
    -- behind the first turn, or inside it
    have hbehind (between : List (Q' × A')) (hearlier : earlier = turn.inner ++ between)
        (h : allInner turns = between ++ exchange :: later) :
        ∃ before turn' after first rest, turn :: turns = before ++ turn' :: after ∧
          earlier = allInner before ++ first ∧ turn'.inner = first ++ exchange :: rest := by
      obtain ⟨before, turn', after, first, rest, rfl, rfl, hinner⟩ := ih h
      exact ⟨turn :: before, turn', after, first, rest, rfl, by simp [hearlier], hinner⟩
    rw [allInner_cons] at h
    rcases List.append_eq_append_iff.1 h with ⟨between, hearlier, h⟩ | ⟨tail, hinner, h⟩
    · exact hbehind between hearlier h
    · cases tail with
      | nil =>
        rw [List.append_nil] at hinner
        exact hbehind [] (by rw [hinner, List.append_nil]) h.symm
      | cons head tail =>
        cases h
        exact ⟨[], turn, turns, earlier, tail, rfl, rfl, hinner⟩

end Turn

section

variable {Q' A' : Type} {find : σ → Q → Exchange Q' A' (A × σ)} {s t : σ}

/-- Turns whose answers are found by `find`, one after the other, from what is
    remembered in `s` to what is remembered in `t`. -/
inductive Turns (find : σ → Q → Exchange Q' A' (A × σ)) :
    σ → List (Turn Q A Q' A') → σ → Prop where
  | nil (s : σ) : Turns find s [] s
  | cons {s u t : σ} {turn : Turn Q A Q' A'} {rest : List (Turn Q A Q' A')} :
      Path (find s turn.question) turn.inner (turn.answer, u) → Turns find u rest t →
      Turns find s (turn :: rest) t

@[simp] theorem turns_nil_iff : Turns find s [] t ↔ t = s := by
  constructor
  · intro h
    cases h
    rfl
  · rintro rfl
    exact .nil _

@[simp] theorem turns_cons_iff {turn : Turn Q A Q' A'} {rest : List (Turn Q A Q' A')} :
    Turns find s (turn :: rest) t ↔
      ∃ u, Path (find s turn.question) turn.inner (turn.answer, u) ∧ Turns find u rest t := by
  constructor
  · intro h
    cases h with
    | cons first rest => exact ⟨_, first, rest⟩
  · rintro ⟨u, first, rest⟩
    exact .cons first rest

theorem turns_append_iff {first rest : List (Turn Q A Q' A')} :
    Turns find s (first ++ rest) t ↔ ∃ u, Turns find s first u ∧ Turns find u rest t := by
  induction first generalizing s with
  | nil => simp
  | cons turn first ih =>
    rw [List.cons_append, turns_cons_iff]
    constructor
    · rintro ⟨u, hturn, h⟩
      obtain ⟨v, hfirst, hrest⟩ := ih.1 h
      exact ⟨v, .cons hturn hfirst, hrest⟩
    · rintro ⟨v, h, hrest⟩
      obtain ⟨u, hturn, hfirst⟩ := turns_cons_iff.1 h
      exact ⟨u, hturn, ih.2 ⟨v, hfirst, hrest⟩⟩

/-- What is asked in the end falls into turns, and the turns into a path of the exchange
    whose questions they answer. -/
theorem path_through_iff {x : Exchange Q A α} {asked : List (Q' × A')} {a : α} :
    Path (through find x s) asked (a, t) ↔
      ∃ turns, asked = Turn.allInner turns ∧ Turns find s turns t ∧
        Path x (turns.map Turn.outer) a := by
  -- by the exchange that is answered: each of its questions is the first turn of the rest
  induction x generalizing asked s with
  | done b =>
    show Path (.done (b, s)) asked (a, t) ↔ _
    rw [path_done_iff, Prod.mk.injEq]
    constructor
    · rintro ⟨rfl, rfl, rfl⟩
      exact ⟨[], rfl, .nil _, .done _⟩
    · rintro ⟨turns, rfl, hturns, hdone⟩
      obtain ⟨hnil, rfl⟩ := path_done_iff.1 hdone
      obtain rfl := List.map_eq_nil_iff.1 hnil
      exact ⟨rfl, rfl, turns_nil_iff.1 hturns⟩
  | ask q next ih =>
    show Path (find s q >>= fun x => through find (next x.1) x.2) asked (a, t) ↔ _
    rw [path_bind_iff]
    constructor
    · rintro ⟨inner, ⟨answer, u⟩, rest, rfl, hfind, hrest⟩
      obtain ⟨turns, rfl, hturns, hpath⟩ := (ih answer).1 hrest
      exact ⟨⟨q, answer, inner⟩ :: turns, rfl, .cons hfind hturns, .ask hpath⟩
    · rintro ⟨turns, rfl, hturns, hpath⟩
      obtain ⟨answer, rest, heq, hpath⟩ := path_ask_iff.1 hpath
      obtain ⟨turn, turns, rfl, hturn, rfl⟩ := List.map_eq_cons_iff.1 heq
      cases hturn
      obtain ⟨u, hfind, hturns⟩ := turns_cons_iff.1 hturns
      exact ⟨turn.inner, (turn.answer, u), Turn.allInner turns, rfl, hfind,
        (ih turn.answer).2 ⟨turns, rfl, hturns, hpath⟩⟩
  | note text next ih =>
    show Path (.note text (through find next s)) asked (a, t) ↔ _
    rw [path_note_iff, ih]
    simp only [path_note_iff]

/-- What is asked in the end tells the turns. -/
theorem Turns.unique {x : Exchange Q A α} {a b : α} {t' : σ}
    {turns turns' : List (Turn Q A Q' A')}
    (h : Turns find s turns t) (hpath : Path x (turns.map Turn.outer) a)
    (h' : Turns find s turns' t') (hpath' : Path x (turns'.map Turn.outer) b)
    (hinner : Turn.allInner turns = Turn.allInner turns') : turns = turns' := by
  -- the exchange settles the next question, and what is asked for it settles its answer
  induction x generalizing s turns turns' with
  | done _ =>
    rw [List.map_eq_nil_iff.1 (path_done_iff.1 hpath).1,
      List.map_eq_nil_iff.1 (path_done_iff.1 hpath').1]
  | ask q next ih =>
    obtain ⟨answer, rest, heq, hpath⟩ := path_ask_iff.1 hpath
    obtain ⟨turn, turns, rfl, hturn, rfl⟩ := List.map_eq_cons_iff.1 heq
    obtain ⟨answer', rest', heq', hpath'⟩ := path_ask_iff.1 hpath'
    obtain ⟨turn', turns', rfl, hturn', rfl⟩ := List.map_eq_cons_iff.1 heq'
    obtain ⟨question, answer, inner⟩ := turn
    obtain ⟨question', answer', inner'⟩ := turn'
    cases hturn
    cases hturn'
    obtain ⟨u, hfind, hturns⟩ := turns_cons_iff.1 h
    obtain ⟨u', hfind', hturns'⟩ := turns_cons_iff.1 h'
    obtain ⟨rfl, hrest, hfound⟩ := hfind.unique hfind' hinner
    obtain ⟨rfl, rfl⟩ := Prod.mk.inj hfound
    rw [ih answer hturns hpath hturns' hpath' hrest]
  | note _ next ih => exact ih h (path_note_iff.1 hpath) h' (path_note_iff.1 hpath') hinner

end

end GitTransport.Exchange
