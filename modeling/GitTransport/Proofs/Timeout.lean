/-
What becomes of the timeout setting.

  A text denotes a number of seconds or none (`seconds?`).  The number is rounded to binary
  and then to nanoseconds, and either rounding can make another number of it than the check
  looks for.  Four bounds tell what happens:

    refused  underflow  empty span  instant  span  longest  no answer  overflow  refused

  `reading` says so of every text, from the two roundings; `usable_iff_seconds` says which
  settings are answered as they should be, and what becomes of the others.
-/

import GitTransport.Proofs.Binary64
import GitTransport.Settings
import Mathlib.Tactic.NormNum.Pow

namespace GitTransport

/-- The nanoseconds of a span of time. -/
def Duration.total (duration : Duration) : Nat :=
  duration.seconds * 1000000000 + duration.nanoseconds

namespace Timeout

open Binary64 (hiddenBit infinite middle middle_place valueOf Passes passes_iff_of_odd
  passes_iff_of_even)

/-- The number of seconds that a text denotes. -/
def seconds? (text : String) : Option ℚ :=
  (decimal? (Text.trim text).toList).map Binary64.Decimal.value

/-! ## The bounds -/

/-- Up to half of the least number of the format a number counts as zero. -/
def underflow : ℚ := 2 ^ (-1075 : ℤ)

/-- Up to here a number is rounded to one of at most half a nanosecond. -/
def instant : ℚ := 9671406556917033 * 2 ^ (-84 : ℤ)

/-- From here on a number is rounded to one of `2 ^ 64` seconds or more. -/
def longest : ℚ := 2 ^ (64 : ℤ) - 2 ^ (10 : ℤ)

/-- From here on a number counts as infinite. -/
def overflow : ℚ := 2 ^ (1024 : ℤ) - 2 ^ (970 : ℤ)

/-- The ordinal of the greatest number of at most half a nanosecond. -/
def instantOrdinal : Nat := 991 * hiddenBit + 4835703278458516

/-- The ordinal of the greatest number below `2 ^ 64`. -/
def longestOrdinal : Nat := 1085 * hiddenBit + 0x1fffffffffffff

/-- The ordinal of the greatest number. -/
def lastOrdinal : Nat := 2045 * hiddenBit + 0x1fffffffffffff

theorem middle_instantOrdinal : middle instantOrdinal = instant := by
  have hplace := middle_place (e := 991) (m := 4835703278458516)
    (by norm_num [hiddenBit]) (.inr (by norm_num [hiddenBit]))
  unfold instantOrdinal instant
  rw [hplace]
  norm_num

theorem middle_longestOrdinal : middle longestOrdinal = longest := by
  have hplace := middle_place (e := 1085) (m := 0x1fffffffffffff)
    (by norm_num [hiddenBit]) (.inr (by norm_num [hiddenBit]))
  unfold longestOrdinal longest
  rw [hplace]
  norm_num

theorem middle_lastOrdinal : middle lastOrdinal = overflow := by
  have hplace := middle_place (e := 2045) (m := 0x1fffffffffffff)
    (by norm_num [hiddenBit]) (.inr (by norm_num [hiddenBit]))
  -- the power of two that both sides have is taken out, since it is too large to compute
  have hend : (2 : ℚ) ^ (1024 : ℤ) = 2 ^ (54 : ℤ) * 2 ^ (970 : ℤ) := by
    rw [← zpow_add₀ (two_ne_zero' ℚ)]
    rfl
  have hunit : (2 : ℚ) ^ (((2045 : Nat) : ℤ) - 1074) = 2 * 2 ^ (970 : ℤ) := by
    rw [← zpow_one_add₀ (two_ne_zero' ℚ)]
    rfl
  unfold lastOrdinal overflow
  rw [hplace, hend, hunit]
  generalize (2 : ℚ) ^ (970 : ℤ) = unit
  norm_num
  ring

theorem underflow_lt_instant : underflow < instant := by
  rw [underflow, ← Binary64.middle_zero, ← middle_instantOrdinal]
  exact Binary64.strictMono_middle (by decide)

theorem instant_lt_longest : instant < longest := by
  rw [← middle_instantOrdinal, ← middle_longestOrdinal]
  exact Binary64.strictMono_middle (by decide)

theorem longest_lt_overflow : longest < overflow := by
  rw [← middle_longestOrdinal, ← middle_lastOrdinal]
  exact Binary64.strictMono_middle (by decide)

/-! ## From the ordinal to the span -/

section Span

variable {ordinal : Nat}

theorem lt_nanosecondsOf_iff {n : Nat} :
    n < nanosecondsOf ordinal ↔ Passes n (n + 1 / 2) (valueOf ordinal * 1000000000) := by
  have hscale : (((Binary64.ratio ordinal).1 * 1000000000 : Nat) : ℚ) /
      (Binary64.ratio ordinal).2 = valueOf ordinal * 1000000000 := by
    rw [← Binary64.valueOf_ratio]
    push_cast
    ring
  rw [nanosecondsOf, Binary64.lt_roundHalfEven_iff (Binary64.ratio_pos ordinal), hscale]

/-- A larger number of seconds has no fewer nanoseconds. -/
theorem monotone_nanosecondsOf : Monotone nanosecondsOf := by
  intro smaller larger hle
  apply Nat.le_of_not_lt
  intro hlt
  have hvalue : valueOf smaller * 1000000000 ≤ valueOf larger * 1000000000 :=
    mul_le_mul_of_nonneg_right (Binary64.strictMono_valueOf.monotone hle) (by norm_num)
  exact lt_irrefl _ (lt_nanosecondsOf_iff.2 ((lt_nanosecondsOf_iff.1 hlt).mono hvalue))

/-- So it is enough to know the last number that has not so many. -/
theorem le_nanosecondsOf_iff {n last : Nat} (hlast : nanosecondsOf last < n)
    (hnext : n ≤ nanosecondsOf (last + 1)) : n ≤ nanosecondsOf ordinal ↔ last < ordinal := by
  rcases Nat.lt_or_ge last ordinal with hlt | hle
  · exact iff_of_true (hnext.trans (monotone_nanosecondsOf hlt)) hlt
  · have hbefore := monotone_nanosecondsOf hle
    exact iff_of_false (by omega) (by omega)

/-- The span is not empty exactly for the numbers of more than half a nanosecond. -/
theorem nanosecondsOf_pos_iff : 0 < nanosecondsOf ordinal ↔ instantOrdinal < ordinal :=
  le_nanosecondsOf_iff (by decide +kernel) (by decide +kernel)

/-- The seconds have more than 64 bits exactly for the numbers from `2 ^ 64` on. -/
theorem limit_le_nanosecondsOf_iff :
    0x10000000000000000 * 1000000000 ≤ nanosecondsOf ordinal ↔ longestOrdinal < ordinal :=
  le_nanosecondsOf_iff (by decide +kernel) (by decide +kernel)

theorem ofSeconds?_eq_none_iff : ofSeconds? ordinal = none ↔ longestOrdinal < ordinal := by
  rw [← limit_le_nanosecondsOf_iff, ← Nat.le_div_iff_mul_le (by decide), ← Nat.not_lt]
  unfold ofSeconds?
  dsimp only
  split_ifs with h
  · simp [h]
  · simp [h]

theorem total_of_ofSeconds? {duration : Duration} (h : ofSeconds? ordinal = some duration) :
    duration.total = nanosecondsOf ordinal := by
  unfold ofSeconds? at h
  dsimp only at h
  split_ifs at h
  cases h
  rw [Duration.total, Nat.mul_comm]
  exact Nat.div_add_mod _ _

end Span

/-! ## From the number to the ordinal -/

section Rounding

variable {decimal : Binary64.Decimal}

theorem ofDecimal_eq_zero_iff : Binary64.ofDecimal decimal = 0 ↔ decimal.value ≤ underflow := by
  have h : 0 < Binary64.ofDecimal decimal ↔ _ := Binary64.lt_ofDecimal_iff (by decide)
  rw [passes_iff_of_even rfl, Binary64.middle_zero] at h
  rw [← Nat.le_zero, ← Nat.not_lt, h, not_lt, underflow]

theorem instantOrdinal_lt_ofDecimal_iff :
    instantOrdinal < Binary64.ofDecimal decimal ↔ instant < decimal.value := by
  have heven : instantOrdinal % 2 = 0 := by decide
  rw [Binary64.lt_ofDecimal_iff (by decide), passes_iff_of_even heven, middle_instantOrdinal]

theorem longestOrdinal_lt_ofDecimal_iff :
    longestOrdinal < Binary64.ofDecimal decimal ↔ longest ≤ decimal.value := by
  have hodd : longestOrdinal % 2 = 1 := by decide
  rw [Binary64.lt_ofDecimal_iff (by decide), passes_iff_of_odd hodd, middle_longestOrdinal]

theorem infinite_le_ofDecimal_iff :
    infinite ≤ Binary64.ofDecimal decimal ↔ overflow ≤ decimal.value := by
  have hend : infinite = lastOrdinal + 1 := by decide
  have hodd : lastOrdinal % 2 = 1 := by decide
  rw [hend, Nat.succ_le_iff, Binary64.lt_ofDecimal_iff (by decide), passes_iff_of_odd hodd,
    middle_lastOrdinal]

end Rounding

/-! ## The results -/

/-- What can be made of a text: the check refuses it, or lets a number pass of which no span
    can be made, or one of which a span can be made, possibly an empty one. -/
inductive Reading (text : String) : Prop where
  | refused (hparse : parse text = .error (.invalid text))
      (hrange : ∀ q, seconds? text = some q → q ≤ underflow ∨ overflow ≤ q)
  | tooLong (q : ℚ) (hseconds : seconds? text = some q) (hparse : parse text = .error .tooLong)
      (hlow : longest ≤ q) (hhigh : q < overflow)
  | span (q : ℚ) (hseconds : seconds? text = some q) (duration : Duration)
      (hparse : parse text = .ok duration) (htotal : 0 < duration.total ↔ instant < q)
      (hlow : underflow < q) (hhigh : q < longest)

theorem reading (text : String) : Reading text := by
  cases hdecimal : decimal? (Text.trim text).toList with
  | none =>
    apply Reading.refused
    · simp only [parse, hdecimal]
    · simp [seconds?, hdecimal]
  | some decimal =>
    have hseconds : seconds? text = some decimal.value := by
      rw [seconds?, hdecimal, Option.map_some]
    by_cases hcheck : Binary64.ofDecimal decimal = 0 ∨ infinite ≤ Binary64.ofDecimal decimal
    · have hrange : decimal.value ≤ underflow ∨ overflow ≤ decimal.value :=
        hcheck.imp ofDecimal_eq_zero_iff.1 infinite_le_ofDecimal_iff.1
      apply Reading.refused
      · simp only [parse, hdecimal, if_pos hcheck]
      · intro q hq
        rw [← Option.some.inj (hseconds.symm.trans hq)]
        exact hrange
    · have hpassed := hcheck
      rw [ofDecimal_eq_zero_iff, infinite_le_ofDecimal_iff, not_or, not_le, not_le] at hpassed
      cases hspan : ofSeconds? (Binary64.ofDecimal decimal) with
      | none =>
        have hlong := hspan
        rw [ofSeconds?_eq_none_iff, longestOrdinal_lt_ofDecimal_iff] at hlong
        apply Reading.tooLong decimal.value hseconds _ hlong hpassed.2
        simp only [parse, hdecimal, if_neg hcheck, hspan]
      | some duration =>
        have hshort : ¬ longest ≤ decimal.value := by
          rw [← longestOrdinal_lt_ofDecimal_iff, ← ofSeconds?_eq_none_iff, hspan]
          exact Option.some_ne_none duration
        have htotal : 0 < duration.total ↔ instant < decimal.value := by
          rw [total_of_ofSeconds? hspan, nanosecondsOf_pos_iff, instantOrdinal_lt_ofDecimal_iff]
        apply Reading.span decimal.value hseconds duration _ htotal hpassed.1 (not_le.1 hshort)
        simp only [parse, hdecimal, if_neg hcheck, hspan]

/-! ## The setting -/

/-- The setting leads to a span that is not empty, or to an error that names its text. -/
def Usable (value : Option String) : Prop :=
  (∃ duration, ofVariable value = .ok duration ∧ 0 < duration.total) ∨
    ∃ fault text, ofVariable value = .error fault ∧ value = some text ∧
      Settings.timeoutError? fault = some (.settings (.badTimeout text))

/-- The setting leads to an empty span. -/
def Vanishes (value : Option String) : Prop :=
  ∃ duration, ofVariable value = .ok duration ∧ duration.total = 0

/-- The setting leads to a fault that is no error. -/
def Crashes (value : Option String) : Prop :=
  ∃ fault, ofVariable value = .error fault ∧ Settings.timeoutError? fault = none

theorem vanishes_iff {text : String} :
    Vanishes (some text) ↔ ∃ q, seconds? text = some q ∧ underflow < q ∧ q ≤ instant := by
  unfold Vanishes ofVariable
  cases reading text with
  | refused hparse hrange =>
    refine iff_of_false (by simp [hparse]) ?_
    rintro ⟨q, hseconds, hlow, hhigh⟩
    have hend := hhigh.trans_lt (instant_lt_longest.trans longest_lt_overflow)
    exact (hrange q hseconds).elim hlow.not_ge hend.not_ge
  | tooLong q hseconds hparse hlow hhigh =>
    have hlate := instant_lt_longest.trans_le hlow
    simp [hparse, hseconds, hlate]
  | span q hseconds duration hparse htotal hlow hhigh =>
    have hzero : duration.total = 0 ↔ q ≤ instant := by
      rw [← not_lt, ← htotal, Nat.pos_iff_ne_zero, not_not]
    simp [hparse, hseconds, hlow, hzero]

theorem crashes_iff {text : String} :
    Crashes (some text) ↔ ∃ q, seconds? text = some q ∧ longest ≤ q ∧ q < overflow := by
  unfold Crashes ofVariable
  cases reading text with
  | refused hparse hrange =>
    refine iff_of_false (by simp [hparse, Settings.timeoutError?]) ?_
    rintro ⟨q, hseconds, hlow, hhigh⟩
    have hbegin := (underflow_lt_instant.trans instant_lt_longest).trans_le hlow
    exact (hrange q hseconds).elim hbegin.not_ge hhigh.not_ge
  | tooLong q hseconds hparse hlow hhigh =>
    simp [hparse, hseconds, hlow, hhigh, Settings.timeoutError?]
  | span q hseconds duration hparse htotal hlow hhigh =>
    simp [hparse, hseconds, hhigh]

/-- There is nothing else that a setting can lead to. -/
theorem usable_iff_not {value : Option String} :
    Usable value ↔ ¬ Vanishes value ∧ ¬ Crashes value := by
  unfold Usable Vanishes Crashes
  cases value with
  | none => simp [ofVariable, standard, Duration.total]
  | some text =>
    unfold ofVariable
    cases reading text with
    | refused hparse hrange => simp [hparse, Settings.timeoutError?]
    | tooLong q hseconds hparse hlow hhigh => simp [hparse, Settings.timeoutError?]
    | span q hseconds duration hparse htotal hlow hhigh => simp [hparse, Nat.pos_iff_ne_zero]

/-- A text of the setting is answered by a span that is not empty or by an error, except where
    it denotes a number that the check lets pass and that is too small or too large for a span:
    the one leads to an empty span, the other to no answer. -/
theorem usable_iff_seconds (text : String) :
    (Usable (some text) ↔ ∀ q, seconds? text = some q →
      ¬ (underflow < q ∧ q ≤ instant) ∧ ¬ (longest ≤ q ∧ q < overflow)) ∧
    (Vanishes (some text) ↔ ∃ q, seconds? text = some q ∧ underflow < q ∧ q ≤ instant) ∧
    (Crashes (some text) ↔ ∃ q, seconds? text = some q ∧ longest ≤ q ∧ q < overflow) ∧
    Usable none := by
  refine ⟨?_, vanishes_iff, crashes_iff, .inl ⟨standard, rfl, by decide⟩⟩
  rw [usable_iff_not, vanishes_iff, crashes_iff, ← not_or, ← exists_or]
  simp only [← and_or_left, not_exists, not_and, not_or]

/-- A thirty-one digit number of seconds has no answer, and a tenth of a nanosecond is an empty
    span; the check lets both pass. -/
theorem not_usable : ¬ Usable (some "1e30") ∧ ¬ Usable (some "1e-10") := by
  have hlarge : ofVariable (some "1e30") = .error .tooLong := by decide +kernel
  have hsmall : ofVariable (some "1e-10") = .ok ⟨0, 0⟩ := by decide +kernel
  have hcrash : Crashes (some "1e30") := ⟨.tooLong, hlarge, rfl⟩
  have hempty : Vanishes (some "1e-10") := ⟨⟨0, 0⟩, hsmall, rfl⟩
  simp only [usable_iff_not, hcrash, hempty, not_true_eq_false, and_false, false_and,
    not_false_eq_true, and_self]

end Timeout

end GitTransport
