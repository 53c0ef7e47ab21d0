/-
The parts of the text behind two slashes.

  The text ends in front of the first mark of a path, a query or a fragment (`inside`).
  What stands before the last at sign in it is the user information, and what stands behind
  is the host with its port (`behindAt`); the host ends at the first colon outside of
  brackets (`hostText`).

  A reading is refused or has an authority with these parts, and the path, query and
  fragment of what is left (`exists_of_readAuthority`).  All that is to be known of an
  address behind two slashes follows from this and from the readers of the parts.

  A port that is written at the end of the text is the one that is read, whatever stands
  before it (`portDigits_eq`): with another colon the port is no number, and with an open
  bracket the host has a colon in it.
-/

import GitTransport.Url.Parser
import GitTransport.Proofs.Url.Host

namespace GitTransport.Url

open Text

/-! ## Readings that may be refused -/

section

variable {α β : Type} {c : Prop} [Decidable c] {fault : Fault}

/-- What is read behind a refusal was not refused. -/
theorem refusal_eq_ok_iff {next : Unit → Except Fault α} {a : α} :
    (if c then (throw fault : Except Fault Unit) >>= next else next ()) = .ok a ↔
      ¬ c ∧ next () = .ok a := by
  by_cases hc : c
  · rw [if_pos hc]
    constructor
    · intro h
      cases h
    · rintro ⟨hnot, -⟩
      exact absurd hc hnot
  · rw [if_neg hc]
    exact ⟨fun h => ⟨hc, h⟩, fun h => h.2⟩

theorem reading_eq_ok_iff {x : Except Fault α} {next : α → Except Fault β} {b : β} :
    x >>= next = .ok b ↔ ∃ a, x = .ok a ∧ next a = .ok b := by
  cases x with
  | ok a =>
    constructor
    · intro h
      exact ⟨a, rfl, h⟩
    · rintro ⟨_, ⟨⟩, h⟩
      exact h
  | error fault =>
    constructor
    · intro h
      cases h
    · rintro ⟨_, ⟨⟩, -⟩

/-- Of two readings with one continuation one is made. -/
theorem choice_eq_ok_iff {x y : Except Fault α} {next : α → Except Fault β} {b : β} :
    (if c then x >>= next else y >>= next) = .ok b ↔
      ∃ a, (if c then x else y) = .ok a ∧ next a = .ok b := by
  split
  · exact reading_eq_ok_iff
  · exact reading_eq_ok_iff

end

/-! ## The parts -/

/-- The part of a text that the authority is read from. -/
def inside (scheme : String) (text : List Char) : List Char :=
  text.takeWhile (!endsAuthority scheme ·)

/-- What is left of a text for the path, the query and the fragment. -/
def outside (scheme : String) (text : List Char) : List Char :=
  text.dropWhile (!endsAuthority scheme ·)

/-- The part behind the last at sign. -/
def behindAt (inside : List Char) : List Char := (inside.reverse.takeWhile (· ≠ '@')).reverse

/-- The part before the last at sign. -/
def beforeAt (inside : List Char) : List Char :=
  inside.take (inside.length - (behindAt inside).length - 1)

/-- The text of the host. -/
def hostText (inside : List Char) : List Char := takeHost false (behindAt inside)

/-- The digits of the port. -/
def portDigits (inside : List Char) : List Char :=
  ((behindAt inside).drop (hostText inside).length).drop 1

/-- An authority with the parts of a text. -/
structure Reads (scheme : String) (inside : List Char) (authority : Authority) : Prop where
  userinfo : readUserinfo (beforeAt inside) = (authority.username, authority.password)
  nonempty : isSpecial scheme = true → hostText inside ≠ []
  host : (if isSpecial scheme = true then specialHost (hostText inside)
    else plainHost (hostText inside)) = .ok authority.host
  port : readPort scheme (portDigits inside) = .ok authority.port

/-- The address of an authority and what follows it. -/
def behindAuthority (scheme : String) (authority : Authority) (text : List Char) : Url :=
  match text with
  | c :: rest =>
    if endsPath c then
      if isSpecial scheme then withPathAndTail scheme (some authority) [] text
      else withTail ⟨scheme, some authority, .segments [], none, none⟩ text
    else withPathAndTail scheme (some authority) [] rest
  | [] => ⟨scheme, some authority, .segments (if isSpecial scheme then [""] else []), none, none⟩

/-- What comes of a text has its parts. -/
theorem exists_of_readAuthority {scheme : String} {text : List Char} {url : Url}
    (h : readAuthority scheme text = .ok url) :
    ∃ authority, Reads scheme (inside scheme text) authority ∧
      url = behindAuthority scheme authority (outside scheme text) := by
  -- the checks are passed one after the other; of what they say only the second one is kept
  unfold readAuthority at h
  obtain ⟨-, h⟩ := refusal_eq_ok_iff.1 h
  obtain ⟨hnonempty, h⟩ := refusal_eq_ok_iff.1 h
  obtain ⟨host, hhost, h⟩ := choice_eq_ok_iff.1 h
  obtain ⟨-, h⟩ := refusal_eq_ok_iff.1 h
  obtain ⟨port, hport, h⟩ := reading_eq_ok_iff.1 h
  obtain ⟨-, h⟩ := refusal_eq_ok_iff.1 h
  have hread : Reads scheme (inside scheme text)
      ⟨(readUserinfo (beforeAt (inside scheme text))).1,
        (readUserinfo (beforeAt (inside scheme text))).2, host, port⟩ := by
    refine ⟨rfl, fun hspecial hnil => hnonempty ⟨hspecial, ?_⟩, hhost, hport⟩
    exact List.isEmpty_iff.2 hnil
  refine ⟨_, hread, Except.ok.inj (h.symm.trans ?_)⟩
  -- what follows the authority is read without being refused
  have htail : text.dropWhile (!endsAuthority scheme ·) = outside scheme text := rfl
  unfold behindAuthority
  simp only [htail]
  cases outside scheme text with
  | nil => rfl
  | cons c rest =>
    simp only
    split
    · split
      · rfl
      · rfl
    · rfl

/-! ## At signs -/

theorem behindAt_eq (text : List Char) : behindAt text = behindLast '@' text := rfl

/-- Without an at sign there is no user information. -/
theorem parts_of_not_mem {text : List Char} (h : '@' ∉ text) :
    behindAt text = text ∧ beforeAt text = [] := by
  have hlength : text.length - text.length - 1 = 0 := by omega
  rw [beforeAt, behindAt_eq, behindLast_of_not_mem h, hlength]
  exact ⟨rfl, rfl⟩

/-- The last at sign stands between the user information and the rest. -/
theorem parts_of_append {front rest : List Char} (h : '@' ∉ rest) :
    behindAt (front ++ '@' :: rest) = rest ∧ beforeAt (front ++ '@' :: rest) = front := by
  have hlength : (front ++ '@' :: rest).length - rest.length - 1 = front.length := by
    rw [List.length_append, List.length_cons]
    omega
  rw [beforeAt, behindAt_eq, behindLast_append h, hlength]
  exact ⟨rfl, List.take_left⟩

theorem percentEncode_eq_nil_iff {encodes : Char → Bool} {text : List Char} :
    percentEncode encodes text = [] ↔ text = [] := by
  cases text with
  | nil => exact iff_of_true rfl rfl
  | cons c text =>
    rw [percentEncode_cons]
    refine iff_of_false (fun h => ?_) (List.cons_ne_nil _ _)
    have hfirst := (List.append_eq_nil_iff.1 h).1
    split at hfirst
    · exact percentChar_ne_nil c hfirst
    · cases hfirst

/-- There is no user information in no text and in a colon, and in every other text there
    is some. -/
theorem readUserinfo_eq_none_iff {text : List Char} :
    readUserinfo text = ("", none) ↔ text = [] ∨ text = [':'] := by
  have happend := List.takeWhile_append_dropWhile (p := (· ≠ ':')) (l := text)
  have hname : String.ofList (percentEncode inUserinfo (text.takeWhile (· ≠ ':'))) = "" ↔
      text.takeWhile (· ≠ ':') = [] := by
    rw [← String.toList_inj, String.toList_ofList]
    exact percentEncode_eq_nil_iff
  simp only [readUserinfo, Prod.mk.injEq, hname, ite_eq_left_iff, reduceCtorEq, imp_false,
    Decidable.not_not, List.isEmpty_iff]
  constructor
  · rintro ⟨hfirst, hrest⟩
    rw [hfirst, List.nil_append] at happend
    rw [← happend]
    cases hdrop : text.dropWhile (· ≠ ':') with
    | nil => exact .inl rfl
    | cons c rest =>
      have hcolon := List.head?_dropWhile_not (· ≠ ':') text
      rw [hdrop] at hcolon hrest
      obtain rfl : c = ':' := by simpa using hcolon
      obtain rfl : rest = [] := hrest
      exact .inr rfl
  · rintro (rfl | rfl)
    · exact ⟨rfl, rfl⟩
    · exact ⟨by decide, by decide⟩

/-! ## Ports -/

theorem digit?_of_isDigit {c : Char} (h : c.isDigit = true) :
    digit? 10 c = some (c.toNat - '0'.toNat) := by
  have hall : c.isDigit = true → digit? 10 c = some (c.toNat - '0'.toNat) :=
    of_toNat_lt c (toNat_lt_of_isDigit h) (by decide)
  exact hall h

/-- The digits of a number are read as this number. -/
theorem number?_toDigits (n : Nat) : number? 10 (Nat.toDigits 10 n) = some n := by
  -- the induction goes over the digits, from any number read before them
  have hread (digits : List Char) (hdigits : ∀ c ∈ digits, c.isDigit = true) (acc : Nat) :
      digits.foldlM (fun acc c => (digit? 10 c).map (acc * 10 + ·)) acc =
        some (Nat.ofDigitChars 10 digits acc) := by
    induction digits generalizing acc with
    | nil => rfl
    | cons c digits ih =>
      obtain ⟨hc, hrest⟩ := List.forall_mem_cons.1 hdigits
      rw [List.foldlM_cons, digit?_of_isDigit hc, Nat.ofDigitChars_cons, Nat.mul_comm 10]
      exact ih hrest _
  have hdigits (c : Char) (hc : c ∈ Nat.toDigits 10 n) : c.isDigit = true :=
    Nat.isDigit_of_mem_toDigits (by decide) (by decide) hc
  rw [number?, hread _ hdigits, Nat.ofDigitChars_ten_toDigits]

theorem number?_eq_none_of_mem {base : Nat} {c : Char} (hc : digit? base c = none)
    {text : List Char} (h : c ∈ text) : number? base text = none := by
  have hread (acc : Nat) :
      text.foldlM (fun acc c => (digit? base c).map (acc * base + ·)) acc = none := by
    induction text generalizing acc with
    | nil => cases h
    | cons d text ih =>
      rw [List.foldlM_cons]
      rcases List.mem_cons.1 h with rfl | h
      · rw [hc]
        rfl
      · cases digit? base d with
        | none => rfl
        | some value => exact ih h _
  exact hread 0

/-- Digits that can be read as a port are the port. -/
theorem port_of_readPort {scheme : String} {n : Nat} {port : Option Nat}
    (h : readPort scheme (Nat.toDigits 10 n) = .ok port) :
    port.or (defaultPort? scheme) = some n := by
  have hne : (Nat.toDigits 10 n).isEmpty = false :=
    Bool.eq_false_iff.2 fun hempty => Nat.toDigits_ne_nil (List.isEmpty_iff.1 hempty)
  rw [readPort, hne, if_neg Bool.false_ne_true, number?_toDigits] at h
  dsimp only at h
  split at h
  · cases h
  · obtain rfl := Except.ok.inj h
    split
    · next hdefault => rw [hdefault, Option.none_or]
    · rfl

/-- A text with a colon is no port. -/
theorem not_mem_of_readPort {scheme : String} {text : List Char} {port : Option Nat}
    (h : readPort scheme text = .ok port) : ':' ∉ text := by
  intro hcolon
  have hnone : number? 10 text = none := number?_eq_none_of_mem (by decide) hcolon
  have hne : text.isEmpty = false :=
    Bool.eq_false_iff.2 fun hempty => by rw [List.isEmpty_iff.1 hempty] at hcolon; cases hcolon
  rw [readPort, hne, if_neg Bool.false_ne_true, hnone] at h
  cases h

/-- A host ends in front of a colon or with the text. -/
theorem exists_takeHost_append (inBrackets : Bool) (text : List Char) :
    ∃ rest, text = takeHost inBrackets text ++ rest ∧
      (rest = [] ∨ ∃ behind, rest = ':' :: behind) := by
  induction text generalizing inBrackets with
  | nil => exact ⟨[], rfl, .inl rfl⟩
  | cons c text ih =>
    rw [takeHost]
    split
    · next hcolon => exact ⟨c :: text, rfl, .inr ⟨text, by rw [hcolon.1]⟩⟩
    · obtain ⟨rest, htext, hrest⟩ :=
        ih (if c = '[' then true else if c = ']' then false else inBrackets)
      exact ⟨rest, by rw [List.cons_append, ← htext], hrest⟩

/-- What stands behind the last colon of a text is its port. -/
theorem portDigits_eq {scheme : String} {inside front digits : List Char} {authority : Authority}
    (hspecial : isSpecial scheme = true) (h : Reads scheme inside authority)
    (hbehind : behindAt inside = front ++ ':' :: digits) (hne : digits ≠ [])
    (hdigits : ∀ c ∈ digits, c.isDigit = true) : portDigits inside = digits := by
  obtain ⟨rest, htext, hrest⟩ := exists_takeHost_append false (behindAt inside)
  have hport : portDigits inside = rest.drop 1 := by
    have hdrop := congrArg (List.drop (hostText inside).length) htext
    rw [portDigits, hdrop]
    exact congrArg (List.drop 1) List.drop_left
  rcases hrest with rfl | ⟨behind, rfl⟩
  · -- the host would reach to the end, over the colon
    exfalso
    have hhost : hostText inside = front ++ ':' :: digits := by
      rw [hostText, ← hbehind]
      rw [List.append_nil] at htext
      exact htext.symm
    have hread := h.host
    rw [if_pos hspecial, hhost] at hread
    have hlast := getLast?_of_specialHost hread (by simp)
    rw [List.getLast?_append, List.getLast?_cons] at hlast
    have hmem : ']' ∈ digits := by
      cases hd : digits.getLast? with
      | none => exact absurd (List.getLast?_eq_none_iff.1 hd) hne
      | some d =>
        rw [hd] at hlast
        cases hlast
        exact List.mem_of_getLast? hd
    exact absurd (hdigits _ hmem) (by decide)
  · have hread := h.port
    rw [hport, List.drop_one, List.tail_cons] at hread
    have hbehindColon : ':' ∉ behind := not_mem_of_readPort hread
    have hdigitsColon : ':' ∉ digits := fun hmem => absurd (hdigits _ hmem) (by decide)
    -- neither text has a colon, and both stand behind the last one
    rw [hport, List.drop_one, List.tail_cons, ← behindLast_append hbehindColon, ← htext, hbehind,
      behindLast_append hdigitsColon]

end GitTransport.Url
