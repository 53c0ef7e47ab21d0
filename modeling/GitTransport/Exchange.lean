/-
Exchanges: computations that put questions to a peer and continue with its
answers.

  A client of a remote service is a tree: a leaf is a finished result, an inner
  node is either a question together with what to do after each possible answer,
  or a remark for the user's log.  Nothing in the tree says how the answers are
  obtained, so a statement about a tree is a statement about every peer.

  The file gives the tree with its monad structure, the run against a peer that
  keeps state (`play`), the runs against all peers at once (`Path`), and the
  replacement of every question by an exchange of another kind (`through`).
-/

namespace GitTransport

/-- A computation that asks questions of type `Q`, is told answers of type `A`
    and ends with an `α`. -/
inductive Exchange (Q A α : Type) where
  /-- The computation is over. -/
  | done (result : α)
  /-- A question, and what follows each answer to it. -/
  | ask (question : Q) (next : A → Exchange Q A α)
  /-- A remark for the log. -/
  | note (text : String) (next : Exchange Q A α)

namespace Exchange

variable {Q A Q' A' σ α β : Type}

/-- Continue every leaf of an exchange. -/
def bind : Exchange Q A α → (α → Exchange Q A β) → Exchange Q A β
  | .done a, f => f a
  | .ask q next, f => .ask q fun a => (next a).bind f
  | .note text next, f => .note text (next.bind f)

instance : Monad (Exchange Q A) where
  pure := .done
  bind := bind

@[simp] theorem pure_eq (a : α) : (pure a : Exchange Q A α) = .done a := rfl

@[simp] theorem done_bind (a : α) (f : α → Exchange Q A β) : (.done a >>= f) = f a := rfl

@[simp] theorem ask_bind (q : Q) (next : A → Exchange Q A α) (f : α → Exchange Q A β) :
    (.ask q next >>= f) = .ask q fun a => next a >>= f := rfl

@[simp] theorem note_bind (text : String) (next : Exchange Q A α) (f : α → Exchange Q A β) :
    (.note text next >>= f) = .note text (next >>= f) := rfl

theorem bind_done (x : Exchange Q A α) : (x >>= .done) = x := by
  induction x with
  | done a => rfl
  | ask q next ih => simp only [ask_bind, ih]
  | note text next ih => simp only [note_bind, ih]

theorem bind_assoc {γ : Type} (x : Exchange Q A α) (f : α → Exchange Q A β)
    (g : β → Exchange Q A γ) : (x >>= f >>= g) = (x >>= fun a => f a >>= g) := by
  induction x with
  | done a => rfl
  | ask q next ih => simp only [ask_bind, ih]
  | note text next ih => simp only [note_bind, ih]

instance : LawfulMonad (Exchange Q A) :=
  LawfulMonad.mk' (Exchange Q A) bind_done (fun _ _ => rfl) bind_assoc

/-! ## Running an exchange -/

/-- What one run of an exchange leaves behind: its result, the questions with
    the answers they got, and the remarks, each in the order of the run. -/
structure Transcript (Q A α : Type) where
  result : α
  asked : List (Q × A)
  notes : List String

/-- Run an exchange against a peer whose answers depend on a state of its own. -/
def play (peer : σ → Q → A × σ) : Exchange Q A α → σ → Transcript Q A α × σ
  | .done a, s => (⟨a, [], []⟩, s)
  | .ask q next, s =>
    let (a, s) := peer s q
    let (t, s) := play peer (next a) s
    ({ t with asked := (q, a) :: t.asked }, s)
  | .note text next, s =>
    let (t, s) := play peer next s
    ({ t with notes := text :: t.notes }, s)

/-- `Path x asked a`: some peer, asked the questions of `asked` in this order and
    giving the answers that stand beside them, brings `x` to the result `a`. -/
inductive Path : Exchange Q A α → List (Q × A) → α → Prop where
  | done (a : α) : Path (.done a) [] a
  | ask {q : Q} {next : A → Exchange Q A α} {a : A} {asked : List (Q × A)} {b : α} :
      Path (next a) asked b → Path (.ask q next) ((q, a) :: asked) b
  | note {text : String} {next : Exchange Q A α} {asked : List (Q × A)} {b : α} :
      Path next asked b → Path (.note text next) asked b

/-- A run is one of the paths. -/
theorem path_play (peer : σ → Q → A × σ) (x : Exchange Q A α) (s : σ) :
    Path x (x.play peer s).1.asked (x.play peer s).1.result := by
  induction x generalizing s with
  | done a => exact .done a
  | ask q next ih => exact .ask (ih _ _)
  | note text next ih => exact .note (ih _)

/-! ## Answering questions with other exchanges -/

/-- Replace every question by an exchange that works out its answer; `σ` is what
    the replacement remembers from one question to the next. -/
def through (answer : σ → Q → Exchange Q' A' (A × σ)) :
    Exchange Q A α → σ → Exchange Q' A' (α × σ)
  | .done a, s => .done (a, s)
  | .ask q next, s => (answer s q).bind fun (a, s) => through answer (next a) s
  | .note text next, s => .note text (through answer next s)

end Exchange

end GitTransport
