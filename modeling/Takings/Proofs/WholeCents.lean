import Takings.Proofs.Rounding

/-!
# Amounts in whole cents

Whole numbers of the format are exact, so an amount in cents is the quotient by a hundred of the
whole number that is nearest to the hundredfold of the amount.
-/
namespace Takings

namespace Magnitude

variable {num j b : Nat}

/-- A number of units with at most 53 binary digits before its trailing zeros. -/
structure IsExact (num j : Nat) : Prop where
  dvd : 2 ^ j ∣ num
  lt : num < 2 * binade * 2 ^ j

theorem two_pow_dvd_units (h : j ≤ shift b) : 2 ^ j ∣ units b := by
  rw [units_eq]
  exact Nat.dvd_trans (Nat.pow_dvd_pow 2 h) (Nat.dvd_mul_left _ _)

/-- The units of a magnitude are such a number. -/
theorem isExact_units (b : Nat) : IsExact (units b) (shift b) where
  dvd := two_pow_dvd_units (Nat.le_refl _)
  lt := by
    rw [units_eq]
    exact Nat.mul_lt_mul_of_pos_right (digits_lt b) (Nat.two_pow_pos _)

theorem lost_one (num : Nat) : lost num 1 = num.log2 - 52 := by
  rw [lost, Nat.div_one]

theorem IsExact.lost_le (h : IsExact num j) : lost num 1 ≤ j := by
  rw [lost_one]
  rcases Nat.eq_zero_or_pos num with rfl | h0
  · simp
  · have hlog : num.log2 < 53 + j := by
      rw [Nat.log2_lt (Nat.ne_of_gt h0), Nat.pow_add]
      exact h.lt
    omega

/-- All digits that are lost are zeros. -/
theorem IsExact.nearest_eq (h : IsExact num j) :
    nearest num (1 <<< lost num 1) * 2 ^ lost num 1 = num ∧
      nearest num (1 <<< lost num 1) = num / 1 <<< lost num 1 := by
  have hdvd : 2 ^ lost num 1 ∣ num := Nat.dvd_trans (Nat.pow_dvd_pow 2 h.lost_le) h.dvd
  have hq : nearest num (1 <<< lost num 1) = num / 1 <<< lost num 1 := by
    rw [Nat.one_shiftLeft, nearest, Nat.mod_eq_zero_of_dvd hdvd]
    exact if_pos (Nat.two_pow_pos _)
  refine ⟨?_, hq⟩
  rw [hq, Nat.one_shiftLeft, Nat.div_mul_cancel hdvd]

/-- Digits of a binade and the position of the binade make a magnitude. -/
theorem units_binade_add {k q : Nat} (hq : q < 2 * binade) (hk : 0 < k → binade ≤ q) :
    units (k * binade + q) = q * 2 ^ k := by
  have hshift : shift (k * binade + q) = k := by
    rcases Nat.eq_zero_or_pos k with rfl | h0
    · simp only [shift, binade] at hq ⊢
      omega
    · have hb := hk h0
      simp only [shift, binade] at hq hb ⊢
      omega
  rw [units_eq, digits, hshift, Nat.add_sub_cancel_left]

theorem units_infinity : units infinity = 2 ^ 2098 := by
  decide +kernel

theorem binade_add_le {k q : Nat} (hq : q < 2 * binade) (hk : k ≤ 2045) :
    k * binade + q ≤ infinity := by
  calc k * binade + q ≤ 2045 * binade + 2 * binade :=
        Nat.add_le_add (Nat.mul_le_mul_right _ hk) (Nat.le_of_lt hq)
    _ = infinity := by decide

theorem lost_one_le (h : num < units infinity) : lost num 1 ≤ 2045 := by
  rw [lost_one]
  rcases Nat.eq_zero_or_pos num with rfl | h0
  · simp
  · rw [units_infinity] at h
    have hlog := (Nat.log2_lt (Nat.ne_of_gt h0)).mpr h
    omega

/-- Such a number is not rounded, unless it is too large for the format. -/
theorem IsExact.units_round (h : IsExact num j) (hlt : num < units infinity) :
    units (round num 1) = num := by
  obtain ⟨hnum, hq⟩ := h.nearest_eq
  have hkept : nearest num (1 <<< lost num 1) < 2 * binade := hq ▸ kept_lt
  rw [round_eq, Nat.min_eq_right (binade_add_le hkept (lost_one_le hlt)),
    units_binade_add hkept fun h0 => hq ▸ binade_le_kept h0, hnum]

end Magnitude

namespace Binary64

open Magnitude

variable {b : Nat}

theorem one_eq : one = 2 ^ 1074 := by
  decide +kernel

/-- The whole number nearest to a magnitude, a half going up. -/
def wholeOf (b : Nat) : Nat :=
  (2 * units b + one) / (2 * one)

theorem wholeOf_mem (b : Nat) : 2 * (wholeOf b * one) ≤ 2 * units b + one ∧
    2 * units b < 2 * (wholeOf b * one) + one := by
  have hdiv := Nat.div_add_mod (2 * units b + one) (2 * one)
  have hmod := Nat.mod_lt (2 * units b + one) (Nat.mul_pos Nat.two_pos one_pos)
  rw [← wholeOf, Nat.mul_assoc, Nat.mul_comm one] at hdiv
  omega

/-- Magnitudes without a fraction are whole. -/
theorem wholeOf_mul_one (h : one ∣ units b) : wholeOf b * one = units b := by
  obtain ⟨n, hn⟩ := h
  have hmem := wholeOf_mem b
  rw [hn, Nat.mul_comm one] at hmem
  have hone := one_pos
  have hle : wholeOf b ≤ n := by
    refine Nat.le_of_lt_succ (Nat.lt_of_mul_lt_mul_right (a := one) ?_)
    rw [Nat.succ_mul]
    omega
  have hge : n ≤ wholeOf b := by
    refine Nat.le_of_lt_succ (Nat.lt_of_mul_lt_mul_right (a := one) ?_)
    rw [Nat.succ_mul]
    omega
  rw [Nat.le_antisymm hle hge, hn, Nat.mul_comm]

/-- The whole numbers nearest to magnitudes are in the format. -/
theorem units_round_wholeOf (h : b < infinity) :
    units (round (wholeOf b * one) 1) = wholeOf b * one := by
  rcases Nat.lt_or_ge (shift b) 1074 with hs | hs
  · -- There may be a fraction, so the whole number is small.
    have hunits : units b < binade * one := by
      calc units b < 2 * binade * 2 ^ shift b := (isExact_units b).lt
        _ ≤ 2 * binade * 2 ^ 1073 :=
          Nat.mul_le_mul_left _ (Nat.pow_le_pow_right (by decide) (by omega))
        _ = binade * one := by decide +kernel
    have hwhole := (wholeOf_mem b).1
    have hlt : wholeOf b * one < 2 * binade * one := by
      rw [Nat.mul_assoc]
      have hone : one ≤ binade * one := Nat.le_mul_of_pos_left _ (by decide)
      omega
    refine IsExact.units_round (j := 1074) ⟨?_, ?_⟩ (Nat.lt_trans hlt (by decide +kernel))
    · rw [← one_eq]
      exact Nat.dvd_mul_left _ _
    · rwa [← one_eq]
  · have hdvd : one ∣ units b := one_eq ▸ two_pow_dvd_units hs
    rw [wholeOf_mul_one hdvd]
    exact (isExact_units b).units_round (units_lt_units h)

/-- A whole number is nearest to a number, and no other one that is as near is farther from zero. -/
structure IsNearestWhole (x : Binary64) (n : ℤ) : Prop where
  near : 2 * (x.toUnits - n * one).natAbs ≤ one
  away : 2 * (x.toUnits - n * one).natAbs = one → x.toUnits.natAbs ≤ (n * one).natAbs

/-- The whole number to which a number is rounded. -/
def whole : Binary64 → ℤ
  | .number false b => wholeOf b
  | .number true b => -(wholeOf b : ℤ)
  | .nan => 0

theorem isNearestWhole_whole {x : Binary64} (h : x.isFinite = true) :
    x.IsNearestWhole x.whole := by
  cases x with
  | nan => cases h
  | number s b =>
    have hmem := wholeOf_mem b
    cases s <;>
    · constructor
      all_goals
        simp only [toUnits, whole, Int.neg_mul, ← Int.natCast_mul]
        omega

theorem natAbs_whole (negative : Bool) (b : Nat) :
    (number negative b).whole.natAbs = wholeOf b := by
  cases negative
  · exact Int.natAbs_natCast _
  · rw [whole, Int.natAbs_neg, Int.natAbs_natCast]

theorem toUnits_ofInt {n : ℤ} (h : units (round (n.natAbs * one) 1) = n.natAbs * one) :
    (ofInt n).toUnits = n * one := by
  by_cases hn : n < 0
  · have habs : (n.natAbs : ℤ) = -n := by omega
    rw [ofInt, decide_eq_true hn, toUnits, h, Int.natCast_mul, habs, Int.neg_mul, Int.neg_neg]
  · have habs : (n.natAbs : ℤ) = n := by omega
    rw [ofInt, decide_eq_false hn, toUnits, h, Int.natCast_mul, habs]

theorem toUnits_ofInt_whole {x : Binary64} (h : x.isFinite = true) :
    (ofInt x.whole).toUnits = x.whole * one := by
  cases x with
  | nan => cases h
  | number s b =>
    have hb : b < infinity := of_decide_eq_true h
    exact toUnits_ofInt (by rw [natAbs_whole, units_round_wholeOf hb])

/-- A number that is rounded is the number of its whole, up to the sign of zero. -/
theorem exists_roundHalfAway_eq {x : Binary64} (h : x.isFinite = true) :
    ∃ s t m, x.roundHalfAway = .number s m ∧ ofInt x.whole = .number t m ∧ m ≤ infinity ∧
      (s = t ∨ m = 0) := by
  cases x with
  | nan => cases h
  | number s b =>
    have hb : b < infinity := of_decide_eq_true h
    refine ⟨s, decide ((number s b).whole < 0), round (wholeOf b * one) 1,
      if_neg (Nat.ne_of_lt hb), by rw [ofInt, natAbs_whole], round_le_infinity, ?_⟩
    rcases Nat.eq_zero_or_pos (wholeOf b) with h0 | h0
    · right
      rw [h0, Nat.zero_mul, round_zero Nat.one_pos]
    · left
      cases s
      · exact (decide_eq_false (by rw [whole]; omega)).symm
      · exact (decide_eq_true (by rw [whole]; omega)).symm

/-- The sign of zero does not count. -/
theorem toUnits_eq_of_sign {s t : Bool} (h : s = t ∨ b = 0) :
    (number s b).toUnits = (number t b).toUnits := by
  obtain rfl | rfl := h
  · rfl
  · cases s <;> cases t <;> simp [toUnits, units_zero]

end Binary64

namespace Report

open Magnitude Binary64

/-- An amount is in whole cents: it is the quotient by a hundred of the whole number that is nearest
to the hundredfold of another one, if the hundredfold is not too large for a finite number. -/
def IsInCents (x c : Binary64) : Prop :=
  (x.mul (.ofInt 100)).isFinite = true →
    ∃ n, (x.mul (.ofInt 100)).IsNearestWhole n ∧ (Binary64.ofInt n).toUnits = n * one ∧
      c.toUnits = ((Binary64.ofInt n).div (.ofInt 100)).toUnits

theorem isInCents_cents (x : Binary64) : IsInCents x (cents x) := by
  intro h
  have hhundred : ofInt 100 = .number false 0x4059000000000000 := by
    decide +kernel
  refine ⟨_, isNearestWhole_whole h, toUnits_ofInt_whole h, ?_⟩
  obtain ⟨s, t, m, hround, hwhole, hm, hsign⟩ := exists_roundHalfAway_eq h
  obtain ⟨f, hf⟩ := actsBy_div (b := 0x4059000000000000) (by decide) (by decide)
  rw [cents, hround, hwhole, hhundred, hf.eq s hm, hf.eq t hm]
  exact toUnits_eq_of_sign (hsign.imp_right fun h0 => by rw [h0, hf.zero])

end Report

end Takings
