/-
Rounding to the format of 64 bits.

  Every ordinal has a value (`valueOf`), and the values grow with the ordinals.  A conversion
  counts on past an ordinal when what it converts lies beyond the middle between that number
  and the next one; in the middle itself, when the ordinal is odd.  `Passes` says so, and says
  all there is to say: it holds of the rounding to a natural number (`lt_roundHalfEven_iff`),
  of the conversion of a quotient (`lt_ofRatio_iff`) and of the conversion of a decimal
  (`lt_ofDecimal_iff`).
-/

import GitTransport.Binary64
import Mathlib.Algebra.Order.Field.Power
import Mathlib.Algebra.Order.Ring.Nat
import Mathlib.Data.Nat.Log
import Mathlib.Data.Rat.Cast.Order
import Mathlib.Order.Monotone.Basic
import Mathlib.Tactic.FieldSimp
import Mathlib.Tactic.Linarith
import Mathlib.Tactic.NormNum
import Mathlib.Tactic.Positivity
import Mathlib.Tactic.Ring

namespace GitTransport.Binary64

/-- A value is rounded past the place whose upper neighbour begins at the middle: it lies
    beyond the middle, or in it when the place is odd. -/
def Passes (place : Nat) (middle value : ℚ) : Prop :=
  middle < value ∨ middle = value ∧ place % 2 = 1

theorem passes_of_lt {place : Nat} {middle value : ℚ} (h : middle < value) :
    Passes place middle value := .inl h

theorem not_passes_of_lt {place : Nat} {middle value : ℚ} (h : value < middle) :
    ¬ Passes place middle value := by
  rintro (hlt | ⟨heq, -⟩)
  · exact lt_asymm h hlt
  · exact h.ne' heq

theorem Passes.mono {place : Nat} {middle value larger : ℚ} (h : Passes place middle value)
    (hle : value ≤ larger) : Passes place middle larger := by
  rcases h with hlt | ⟨rfl, hodd⟩
  · exact .inl (hlt.trans_le hle)
  · exact hle.lt_or_eq.imp_right fun heq => ⟨heq, hodd⟩

/-- At an odd place the middle counts on. -/
theorem passes_iff_of_odd {place : Nat} {middle value : ℚ} (h : place % 2 = 1) :
    Passes place middle value ↔ middle ≤ value := by
  simp only [Passes, h, and_true, le_iff_lt_or_eq]

/-- At an even place it stays. -/
theorem passes_iff_of_even {place : Nat} {middle value : ℚ} (h : place % 2 = 0) :
    Passes place middle value ↔ middle < value := by
  simp [Passes, h]

/-- The unit in which both are measured does not matter. -/
theorem passes_mul_iff {place : Nat} {middle value unit : ℚ} (h : 0 < unit) :
    Passes place (middle * unit) (value * unit) ↔ Passes place middle value := by
  simp only [Passes, mul_lt_mul_iff_left₀ h, mul_left_inj' h.ne']

/-! ## Quotients -/

theorem shiftRatio_div (n d : Nat) (e : Int) :
    ((shiftRatio n d e).1 : ℚ) / (shiftRatio n d e).2 = n / d * 2 ^ e := by
  cases e with
  | ofNat k => simp [shiftRatio, mul_div_right_comm]
  | negSucc k =>
    simp only [shiftRatio, zpow_negSucc, Nat.pow_eq, Nat.cast_mul, Nat.cast_pow, Nat.cast_ofNat]
    rw [div_mul_eq_div_div, div_eq_mul_inv _ ((2 : ℚ) ^ (k + 1))]

theorem shiftRatio_pos {n d : Nat} (e : Int) (hd : 0 < d) : 0 < (shiftRatio n d e).2 := by
  cases e with
  | ofNat k => exact hd
  | negSucc k => exact Nat.mul_pos hd (Nat.pow_pos Nat.two_pos)

theorem scaleRatio_div (n d : Nat) (e : Int) :
    ((scaleRatio n d e).1 : ℚ) / (scaleRatio n d e).2 = n / d * 10 ^ e := by
  cases e with
  | ofNat k => simp [scaleRatio, mul_div_right_comm]
  | negSucc k =>
    simp only [scaleRatio, zpow_negSucc, Nat.pow_eq, Nat.cast_mul, Nat.cast_pow, Nat.cast_ofNat]
    rw [div_mul_eq_div_div, div_eq_mul_inv _ ((10 : ℚ) ^ (k + 1))]

theorem scaleRatio_pos {n d : Nat} (e : Int) (hd : 0 < d) : 0 < (scaleRatio n d e).2 := by
  cases e with
  | ofNat k => exact hd
  | negSucc k => exact Nat.mul_pos hd (Nat.pow_pos (by decide))

/-! ## Rounding to a natural number -/

theorem lt_roundHalfEven_iff_mul {n d k : Nat} (hd : 0 < d) :
    k < roundHalfEven n d ↔ (2 * k + 1) * d < 2 * n ∨ (2 * k + 1) * d = 2 * n ∧ k % 2 = 1 := by
  have hn : n = d * (n / d) + n % d := (Nat.div_add_mod n d).symm
  have hr : n % d < d := Nat.mod_lt n hd
  unfold roundHalfEven
  generalize n / d = q at *
  generalize n % d = r at *
  subst hn
  -- below the quotient and above it the remainder does not count
  rcases Nat.lt_trichotomy k q with hk | rfl | hk
  · have hle : d * (k + 1) ≤ d * q := Nat.mul_le_mul_left d hk
    have hlt : (2 * k + 1) * d < 2 * (d * q + r) := by linarith
    simp only [hlt, true_or, iff_true]
    split_ifs <;> omega
  · have hmid : (2 * k + 1) * d = 2 * (d * k) + d := by ring
    rw [hmid]
    dsimp only
    split_ifs <;> omega
  · have hle : d * (q + 1) ≤ d * k := Nat.mul_le_mul_left d hk
    have hgt : 2 * (d * q + r) < (2 * k + 1) * d := by linarith
    have hno : ¬ ((2 * k + 1) * d < 2 * (d * q + r) ∨
        (2 * k + 1) * d = 2 * (d * q + r) ∧ k % 2 = 1) := by omega
    simp only [hno, iff_false]
    split_ifs <;> omega

/-- Rounding to the nearest natural number, a half to the even one. -/
theorem lt_roundHalfEven_iff {n d k : Nat} (hd : 0 < d) :
    k < roundHalfEven n d ↔ Passes k (k + 1 / 2) (n / d) := by
  have hd' : (0 : ℚ) < d := by exact_mod_cast hd
  have hunit : Passes k (k + 1 / 2) (n / d) ↔ Passes k ((2 * k + 1) * d) (2 * n) := by
    rw [← passes_mul_iff (mul_pos two_pos hd')]
    have hmid : ((k : ℚ) + 1 / 2) * (2 * d) = (2 * k + 1) * d := by ring
    have hval : (n : ℚ) / d * (2 * d) = 2 * n := by field_simp
    rw [hmid, hval]
  rw [hunit, lt_roundHalfEven_iff_mul hd, Passes]
  norm_cast

/-! ## The values of the ordinals -/

/-- The number with this ordinal; the end of the format counts as the power of two there. -/
def valueOf (ordinal : Nat) : ℚ := (magnitude ordinal).1 * 2 ^ (magnitude ordinal).2

/-- The middle between a number and the next one. -/
def middle (ordinal : Nat) : ℚ := (valueOf ordinal + valueOf (ordinal + 1)) / 2

theorem valueOf_ratio (ordinal : Nat) :
    ((ratio ordinal).1 : ℚ) / (ratio ordinal).2 = valueOf ordinal := by
  rw [ratio, shiftRatio_div, Nat.cast_one, div_one, valueOf]

theorem ratio_pos (ordinal : Nat) : 0 < (ratio ordinal).2 := shiftRatio_pos _ Nat.one_pos

theorem magnitude_subnormal {m : Nat} (h : m < hiddenBit) : magnitude m = (m, -1074) := by
  simp [magnitude, Nat.div_eq_of_lt h, Nat.mod_eq_of_lt h]

theorem magnitude_normal {e f : Nat} (h : f < hiddenBit) :
    magnitude ((e + 1) * hiddenBit + f) = (hiddenBit + f, (e : ℤ) - 1074) := by
  have hfield : ((e + 1) * hiddenBit + f) / hiddenBit = e + 1 := by
    rw [Nat.mul_comm, Nat.mul_add_div (by decide), Nat.div_eq_of_lt h, Nat.add_zero]
  have hfraction : ((e + 1) * hiddenBit + f) % hiddenBit = f := by
    rw [Nat.mul_comm, Nat.mul_add_mod, Nat.mod_eq_of_lt h]
  have hexponent : ((e + 1 : Nat) : ℤ) - 1075 = (e : ℤ) - 1074 := by omega
  simp only [magnitude, hfield, hfraction, Nat.succ_ne_zero, if_false, hexponent]

/-- Where the format has 53 bits, and where it has the smallest exponent, the ordinal counts
    significands; the count goes on to the first of the next exponent. -/
theorem valueOf_place {e m : Nat} (hm : m ≤ 2 * hiddenBit) (he : e = 0 ∨ hiddenBit ≤ m) :
    valueOf (e * hiddenBit + m) = m * 2 ^ ((e : ℤ) - 1074) := by
  rcases Nat.lt_or_ge m hiddenBit with hlow | hhigh
  · obtain rfl : e = 0 := he.resolve_right (Nat.not_le.2 hlow)
    simp [valueOf, magnitude_subnormal hlow]
  obtain ⟨f, rfl⟩ := Nat.exists_eq_add_of_le hhigh
  have hplace : e * hiddenBit + (hiddenBit + f) = (e + 1) * hiddenBit + f := by ring
  rcases Nat.lt_or_ge f hiddenBit with hf | hf
  · rw [hplace, valueOf, magnitude_normal hf]
  · -- the significand has a bit too many: it is the first one of the next exponent
    obtain rfl : f = hiddenBit := by omega
    have hcarry : (e + 1) * hiddenBit + hiddenBit = (e + 1 + 1) * hiddenBit + 0 := by ring
    have hexponent : ((e + 1 : Nat) : ℤ) - 1074 = ((e : ℤ) - 1074) + 1 := by omega
    rw [hplace, hcarry, valueOf, magnitude_normal (by decide), hexponent,
      zpow_add_one₀ (two_ne_zero' ℚ)]
    push_cast
    ring

/-- Every ordinal is such a place. -/
theorem exists_place (ordinal : Nat) :
    ∃ e m, ordinal = e * hiddenBit + m ∧ m < 2 * hiddenBit ∧ (e = 0 ∨ hiddenBit ≤ m) := by
  have hbit : 0 < hiddenBit := by decide
  have hdiv : hiddenBit * (ordinal / hiddenBit) + ordinal % hiddenBit = ordinal :=
    Nat.div_add_mod ordinal hiddenBit
  have hmod : ordinal % hiddenBit < hiddenBit := Nat.mod_lt ordinal hbit
  cases hfield : ordinal / hiddenBit with
  | zero =>
    rw [hfield, Nat.mul_zero, Nat.zero_add] at hdiv
    exact ⟨0, ordinal, by omega, by omega, .inl rfl⟩
  | succ e =>
    rw [hfield, Nat.mul_succ, Nat.mul_comm] at hdiv
    exact ⟨e, hiddenBit + ordinal % hiddenBit, by omega, by omega, .inr (Nat.le_add_right _ _)⟩

theorem middle_place {e m : Nat} (hm : m < 2 * hiddenBit) (he : e = 0 ∨ hiddenBit ≤ m) :
    middle (e * hiddenBit + m) = (m + 1 / 2) * 2 ^ ((e : ℤ) - 1074) := by
  have hnext : e = 0 ∨ hiddenBit ≤ m + 1 := he.imp_right (Nat.le_succ_of_le)
  rw [middle, valueOf_place hm.le he, Nat.add_assoc, valueOf_place hm hnext]
  push_cast
  ring

theorem strictMono_valueOf : StrictMono valueOf := by
  apply strictMono_nat_of_lt_succ
  intro ordinal
  obtain ⟨e, m, rfl, hm, he⟩ := exists_place ordinal
  have hnext : e = 0 ∨ hiddenBit ≤ m + 1 := he.imp_right (Nat.le_succ_of_le)
  rw [valueOf_place hm.le he, Nat.add_assoc, valueOf_place hm hnext]
  have hunit : (0 : ℚ) < 2 ^ ((e : ℤ) - 1074) := by positivity
  exact mul_lt_mul_of_pos_right (by exact_mod_cast Nat.lt_succ_self m) hunit

theorem valueOf_lt_middle (ordinal : Nat) : valueOf ordinal < middle ordinal := by
  have h := strictMono_valueOf (Nat.lt_succ_self ordinal)
  rw [middle]
  linarith

theorem middle_lt_valueOf (ordinal : Nat) : middle ordinal < valueOf (ordinal + 1) := by
  have h := strictMono_valueOf (Nat.lt_succ_self ordinal)
  rw [middle]
  linarith

theorem strictMono_middle : StrictMono middle := by
  apply strictMono_nat_of_lt_succ
  intro ordinal
  exact (middle_lt_valueOf ordinal).trans (valueOf_lt_middle (ordinal + 1))

/-! ## Conversion of a quotient -/

/-- The exponent of the greatest power of two that a quotient reaches. -/
def leading (n d : Nat) : Int :=
  let guess : Int := (n.log2 : Int) - d.log2
  if (shiftRatio n d (-guess)).2 ≤ (shiftRatio n d (-guess)).1 then guess else guess - 1

theorem log2_bounds {n : Nat} (hn : 0 < n) :
    (2 : ℚ) ^ (n.log2 : ℤ) ≤ n ∧ (n : ℚ) < 2 ^ ((n.log2 : ℤ) + 1) := by
  have hlow : 2 ^ n.log2 ≤ n := Nat.log2_self_le hn.ne'
  have hhigh : n < 2 ^ (n.log2 + 1) := Nat.lt_log2_self
  refine ⟨?_, ?_⟩
  · rw [zpow_natCast]
    exact_mod_cast hlow
  · rw [← Nat.cast_succ, zpow_natCast]
    exact_mod_cast hhigh

theorem leading_bounds {n d : Nat} (hn : 0 < n) (hd : 0 < d) :
    (2 : ℚ) ^ leading n d ≤ n / d ∧ (n : ℚ) / d < 2 ^ (leading n d + 1) := by
  have hd' : (0 : ℚ) < d := by exact_mod_cast hd
  obtain ⟨hnlow, hnhigh⟩ := log2_bounds hn
  obtain ⟨hdlow, hdhigh⟩ := log2_bounds hd
  have hhigh : (n : ℚ) / d < 2 ^ ((n.log2 : ℤ) - d.log2 + 1) := by
    rw [div_lt_iff₀ hd', show (n.log2 : ℤ) - d.log2 + 1 = (n.log2 : ℤ) + 1 - d.log2 by ring,
      zpow_sub₀ (two_ne_zero' ℚ), div_mul_eq_mul_div, lt_div_iff₀ (by positivity)]
    exact mul_lt_mul hnhigh hdlow (by positivity) (by positivity)
  have hlow : (2 : ℚ) ^ ((n.log2 : ℤ) - d.log2 - 1) ≤ n / d := by
    rw [le_div_iff₀ hd', show (n.log2 : ℤ) - d.log2 - 1 = (n.log2 : ℤ) - (d.log2 + 1) by ring,
      zpow_sub₀ (two_ne_zero' ℚ), div_mul_eq_mul_div, div_le_iff₀ (by positivity)]
    exact mul_le_mul hnlow hdhigh.le hd'.le (by positivity)
  -- the guess is the right exponent or one too large, and the shifted quotient tells which
  have hguess : (shiftRatio n d (-((n.log2 : ℤ) - d.log2))).2 ≤
        (shiftRatio n d (-((n.log2 : ℤ) - d.log2))).1 ↔
      (2 : ℚ) ^ ((n.log2 : ℤ) - d.log2) ≤ n / d := by
    have hpos : (0 : ℚ) < (shiftRatio n d (-((n.log2 : ℤ) - d.log2))).2 := by
      exact_mod_cast shiftRatio_pos _ hd
    rw [← Nat.cast_le (α := ℚ), ← one_le_div hpos, shiftRatio_div, zpow_neg,
      ← div_eq_mul_inv, one_le_div (by positivity)]
  unfold leading
  dsimp only
  split_ifs with h
  · exact ⟨hguess.1 h, hhigh⟩
  · rw [sub_add_cancel]
    exact ⟨hlow, lt_of_not_ge (mt hguess.2 h)⟩

/-- What a conversion does: the quotient is taken in a unit in which it has 53 bits, or in the
    smallest one, and rounded to a significand there. -/
theorem exists_ofRatio_eq {n d : Nat} (hn : 0 < n) (hd : 0 < d) :
    ∃ e a b : Nat, 0 < b ∧ (n : ℚ) / d = a / b * 2 ^ ((e : ℤ) - 1074) ∧
      (a : ℚ) / b < 2 * hiddenBit ∧ (e = 0 ∨ (hiddenBit : ℚ) ≤ a / b) ∧
      ofRatio n d = min (e * hiddenBit + roundHalfEven a b) infinite := by
  obtain ⟨hlow, hhigh⟩ := leading_bounds hn hd
  have hbit : (hiddenBit : ℚ) = 2 ^ (52 : ℤ) := by norm_num [hiddenBit]
  obtain ⟨e, he⟩ : ∃ e : Nat, max (leading n d - 52) (-1074) = (e : ℤ) - 1074 :=
    ⟨(max (leading n d - 52) (-1074) + 1074).toNat, by omega⟩
  have hscaled := shiftRatio_div n d (-((e : ℤ) - 1074))
  have hunit : (2 : ℚ) ^ (-((e : ℤ) - 1074)) * 2 ^ ((e : ℤ) - 1074) = 1 := by
    rw [← zpow_add₀ (two_ne_zero' ℚ), neg_add_cancel, zpow_zero]
  refine ⟨e, (shiftRatio n d (-((e : ℤ) - 1074))).1, (shiftRatio n d (-((e : ℤ) - 1074))).2,
    shiftRatio_pos _ hd, ?_, ?_, ?_, ?_⟩
  · rw [hscaled, mul_assoc, hunit, mul_one]
  · have hle : leading n d + 1 ≤ 53 + ((e : ℤ) - 1074) := by omega
    calc _ = (n : ℚ) / d * 2 ^ (-((e : ℤ) - 1074)) := hscaled
      _ < 2 ^ (53 + ((e : ℤ) - 1074)) * 2 ^ (-((e : ℤ) - 1074)) := by
        have hlt := hhigh.trans_le (zpow_le_zpow_right₀ one_le_two hle)
        exact mul_lt_mul_of_pos_right hlt (by positivity)
      _ = 2 * hiddenBit := by
        rw [← zpow_add₀ (two_ne_zero' ℚ), add_neg_cancel_right, hbit]
        norm_num
  · rcases Nat.eq_zero_or_pos e with hzero | hpos
    · exact .inl hzero
    · right
      have hle : 52 + ((e : ℤ) - 1074) ≤ leading n d := by omega
      calc (hiddenBit : ℚ)
        _ = 2 ^ (52 + ((e : ℤ) - 1074)) * 2 ^ (-((e : ℤ) - 1074)) := by
          rw [← zpow_add₀ (two_ne_zero' ℚ), add_neg_cancel_right, hbit]
        _ ≤ n / d * 2 ^ (-((e : ℤ) - 1074)) := by
          have hge := (zpow_le_zpow_right₀ one_le_two hle).trans hlow
          exact mul_le_mul_of_nonneg_right hge (by positivity)
        _ = _ := hscaled.symm
  · have hexponent : (if (shiftRatio n d (-((n.log2 : ℤ) - d.log2))).2 ≤
          (shiftRatio n d (-((n.log2 : ℤ) - d.log2))).1
        then (n.log2 : ℤ) - d.log2 - 52 else (n.log2 : ℤ) - d.log2 - 53) = leading n d - 52 := by
      unfold leading
      dsimp only
      split_ifs <;> omega
    rw [ofRatio, if_neg hn.ne']
    dsimp only
    rw [hexponent, he, sub_add_cancel, Int.toNat_natCast]

/-- A significand rounds to no more than the one that carries. -/
theorem roundHalfEven_le {a b k : Nat} (hb : 0 < b) (h : (a : ℚ) / b < k) :
    roundHalfEven a b ≤ k := by
  apply Nat.le_of_not_lt
  rw [lt_roundHalfEven_iff hb]
  exact not_passes_of_lt (by linarith)

theorem le_roundHalfEven {a b k : Nat} (hb : 0 < b) (h : (k : ℚ) ≤ a / b) :
    k ≤ roundHalfEven a b := by
  cases k with
  | zero => exact Nat.zero_le _
  | succ k =>
    apply Nat.succ_le_of_lt
    rw [lt_roundHalfEven_iff hb]
    apply passes_of_lt
    push_cast at h
    linarith

/-- A quotient is converted to the nearest number, a middle to the one with the even ordinal. -/
theorem lt_ofRatio_iff {n d ordinal : Nat} (hd : 0 < d) (hfinite : ordinal < infinite) :
    ordinal < ofRatio n d ↔ Passes ordinal (middle ordinal) (n / d) := by
  rcases Nat.eq_zero_or_pos n with rfl | hn
  · have hpos : 0 < middle ordinal := by
      apply lt_of_le_of_lt _ (valueOf_lt_middle ordinal)
      exact mul_nonneg (Nat.cast_nonneg _) (by positivity)
    simp only [ofRatio, if_true, Nat.not_lt_zero, false_iff, Nat.cast_zero, zero_div]
    exact not_passes_of_lt hpos
  obtain ⟨e, a, b, hb, hvalue, hhigh, hlow, heq⟩ := exists_ofRatio_eq hn hd
  obtain ⟨f, m, rfl, hm, hf⟩ := exists_place ordinal
  have hodd : (f * hiddenBit + m) % 2 = m % 2 := by
    have heven : hiddenBit % 2 = 0 := by decide
    rw [Nat.add_mod, Nat.mul_mod, heven, Nat.mul_zero, Nat.zero_mod, Nat.zero_add, Nat.mod_mod]
  have hmiddle := middle_place hm hf
  have hunit : (0 : ℚ) < 2 ^ ((e : ℤ) - 1074) := by positivity
  rw [heq, lt_min_iff, and_iff_left hfinite, hvalue]
  rcases Nat.lt_trichotomy e f with hlt | rfl | hgt
  · -- the unit is smaller, and 53 bits of it do not come up to this place
    have hstep : (e + 1) * hiddenBit ≤ f * hiddenBit := Nat.mul_le_mul_right _ hlt
    have hnormal : hiddenBit ≤ m := hf.resolve_left (by omega)
    have hend : e * hiddenBit + 2 * hiddenBit ≤ f * hiddenBit + m := by linarith
    have hround : roundHalfEven a b ≤ 2 * hiddenBit := by
      apply roundHalfEven_le hb
      exact_mod_cast hhigh
    have hbelow : (a : ℚ) / b * 2 ^ ((e : ℤ) - 1074) < middle (f * hiddenBit + m) := by
      calc (a : ℚ) / b * 2 ^ ((e : ℤ) - 1074)
        _ < (2 * hiddenBit : Nat) * 2 ^ ((e : ℤ) - 1074) := by
          apply mul_lt_mul_of_pos_right _ hunit
          exact_mod_cast hhigh
        _ = valueOf (e * hiddenBit + 2 * hiddenBit) :=
          (valueOf_place le_rfl (.inr (by decide))).symm
        _ ≤ valueOf (f * hiddenBit + m) := strictMono_valueOf.monotone hend
        _ < middle (f * hiddenBit + m) := valueOf_lt_middle _
    exact iff_of_false (by omega) (not_passes_of_lt hbelow)
  · rw [Nat.add_lt_add_iff_left, lt_roundHalfEven_iff hb, hmiddle, ← passes_mul_iff hunit]
    simp only [Passes, hodd]
  · -- the unit is larger, and its first significand of 53 bits is past this place
    have hstep : (f + 1) * hiddenBit ≤ e * hiddenBit := Nat.mul_le_mul_right _ hgt
    have hnormal : (hiddenBit : ℚ) ≤ a / b := hlow.resolve_left (by omega)
    have hbegin : f * hiddenBit + m + 1 ≤ e * hiddenBit + hiddenBit := by linarith
    have hround : hiddenBit ≤ roundHalfEven a b := le_roundHalfEven hb hnormal
    have habove : middle (f * hiddenBit + m) < (a : ℚ) / b * 2 ^ ((e : ℤ) - 1074) := by
      calc middle (f * hiddenBit + m)
        _ < valueOf (f * hiddenBit + m + 1) := middle_lt_valueOf _
        _ ≤ valueOf (e * hiddenBit + hiddenBit) := strictMono_valueOf.monotone hbegin
        _ = hiddenBit * 2 ^ ((e : ℤ) - 1074) := valueOf_place (by decide) (.inr le_rfl)
        _ ≤ a / b * 2 ^ ((e : ℤ) - 1074) := mul_le_mul_of_nonneg_right hnormal hunit.le
    exact iff_of_true (by omega) (passes_of_lt habove)

/-! ## Conversion of a decimal -/

/-- The number that a decimal is. -/
def Decimal.value (decimal : Decimal) : ℚ := decimal.digits * 10 ^ decimal.exponent

theorem valueOf_infinite : valueOf infinite = 2 ^ (1024 : ℤ) := by
  have hplace : infinite = 2046 * hiddenBit + hiddenBit := by decide
  have hbit : (hiddenBit : ℚ) = 2 ^ (52 : ℤ) := by norm_num [hiddenBit]
  rw [hplace, valueOf_place (by decide) (.inr le_rfl), hbit, ← zpow_add₀ (two_ne_zero' ℚ)]
  rfl

theorem middle_zero : middle 0 = 2 ^ (-1075 : ℤ) := by
  have hplace := middle_place (Nat.mul_pos two_pos (by decide : 0 < hiddenBit)) (.inl rfl)
  have hhalf : ((0 : Nat) : ℚ) + 1 / 2 = 2 ^ (-1 : ℤ) := by norm_num
  rw [Nat.zero_mul, Nat.add_zero, hhalf, ← zpow_add₀ (two_ne_zero' ℚ)] at hplace
  exact hplace

theorem two_zpow_lt_ten_zpow : (2 : ℚ) ^ (1200 : ℤ) < 10 ^ (400 : ℤ) := by
  have hcube : (2 : ℚ) ^ (1200 : ℤ) = (2 ^ (3 : ℤ)) ^ (400 : ℤ) := by rw [← zpow_mul]; norm_num
  rw [hcube]
  exact zpow_lt_zpow_left₀ (by norm_num) (by norm_num) (by norm_num)

/-- With an exponent beyond the upper bound a decimal is past every number. -/
theorem lt_value_of_exponent {decimal : Decimal} (hdigits : 0 < decimal.digits)
    (h : 400 < decimal.exponent) : (2 : ℚ) ^ (1024 : ℤ) < decimal.value := by
  have hone : (1 : ℚ) ≤ decimal.digits := by exact_mod_cast hdigits
  calc (2 : ℚ) ^ (1024 : ℤ)
    _ ≤ 2 ^ (1200 : ℤ) := zpow_le_zpow_right₀ one_le_two (by norm_num)
    _ < 10 ^ (400 : ℤ) := two_zpow_lt_ten_zpow
    _ ≤ 10 ^ decimal.exponent := zpow_le_zpow_right₀ (by norm_num) h.le
    _ ≤ decimal.value := le_mul_of_one_le_left (by positivity) hone

/-- Below the lower bound it does not come up to half of the least number. -/
theorem value_lt_of_exponent {decimal : Decimal} (hdigits : 0 < decimal.digits)
    (h : decimal.exponent + decimal.digits.log2 < -400) :
    decimal.value < 2 ^ (-1075 : ℤ) := by
  have hten : (0 : ℚ) < 10 ^ decimal.exponent := by positivity
  calc decimal.value
    _ < 2 ^ ((decimal.digits.log2 : ℤ) + 1) * 10 ^ decimal.exponent :=
      mul_lt_mul_of_pos_right (log2_bounds hdigits).2 hten
    _ ≤ 10 ^ ((decimal.digits.log2 : ℤ) + 1) * 10 ^ decimal.exponent := by
      apply mul_le_mul_of_nonneg_right _ hten.le
      exact zpow_le_zpow_left₀ (by omega) (by norm_num) (by norm_num)
    _ = 10 ^ ((decimal.digits.log2 : ℤ) + 1 + decimal.exponent) :=
      (zpow_add₀ (by norm_num) _ _).symm
    _ ≤ 10 ^ (-400 : ℤ) := zpow_le_zpow_right₀ (by norm_num) (by omega)
    _ ≤ 2 ^ (-1200 : ℤ) := by
      rw [zpow_neg, zpow_neg]
      exact inv_anti₀ (by positivity) two_zpow_lt_ten_zpow.le
    _ ≤ 2 ^ (-1075 : ℤ) := zpow_le_zpow_right₀ one_le_two (by norm_num)

/-- A decimal is converted to the nearest number, a middle to the one with the even ordinal. -/
theorem lt_ofDecimal_iff {decimal : Decimal} {ordinal : Nat} (hfinite : ordinal < infinite) :
    ordinal < ofDecimal decimal ↔ Passes ordinal (middle ordinal) decimal.value := by
  have hupper : middle ordinal < 2 ^ (1024 : ℤ) := by
    rw [← valueOf_infinite]
    exact (middle_lt_valueOf ordinal).trans_le (strictMono_valueOf.monotone hfinite)
  have hlower : 2 ^ (-1075 : ℤ) ≤ middle ordinal := by
    rw [← middle_zero]
    exact strictMono_middle.monotone (Nat.zero_le ordinal)
  unfold ofDecimal
  dsimp only
  split_ifs with hzero hlarge hsmall
  · have hvalue : decimal.value < middle ordinal := by
      rw [Decimal.value, hzero, Nat.cast_zero, zero_mul]
      exact lt_of_lt_of_le (by positivity) hlower
    exact iff_of_false (Nat.not_lt_zero _) (not_passes_of_lt hvalue)
  · have hvalue := lt_value_of_exponent (Nat.pos_of_ne_zero hzero) hlarge
    exact iff_of_true hfinite (passes_of_lt (hupper.trans hvalue))
  · have hvalue := value_lt_of_exponent (Nat.pos_of_ne_zero hzero) hsmall
    exact iff_of_false (Nat.not_lt_zero _) (not_passes_of_lt (hvalue.trans_le hlower))
  · rw [lt_ofRatio_iff (scaleRatio_pos _ Nat.one_pos) hfinite, scaleRatio_div, Nat.cast_one,
      div_one, Decimal.value]

end GitTransport.Binary64
