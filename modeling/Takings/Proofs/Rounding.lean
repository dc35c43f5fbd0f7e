import Mathlib.Algebra.Group.Nat.Defs
import Mathlib.Data.Int.Order.Basic
import Takings.Report.Amount

/-!
# Rounding keeps order

The greater of two numbers is rounded to the greater one, or both to the same. So amounts in cents
stand in the order of the amounts, save that different amounts can come to the same cents.
-/
namespace Takings

/-! ### Magnitudes -/

namespace Magnitude

variable {a b num num' den : Nat}

theorem div_le_nearest : num / den ≤ nearest num den := by
  simp only [nearest]
  split
  · exact Nat.le_refl _
  · split
    · exact Nat.le_succ _
    · exact Nat.le_add_right _ _

theorem nearest_le_succ : nearest num den ≤ num / den + 1 := by
  simp only [nearest]
  split
  · exact Nat.le_succ _
  · split
    · exact Nat.le_refl _
    · omega

theorem nearest_mono (h : num ≤ num') : nearest num den ≤ nearest num' den := by
  rcases Nat.lt_or_eq_of_le (Nat.div_le_div_right (c := den) h) with hq | hq
  · calc nearest num den ≤ num / den + 1 := nearest_le_succ
      _ ≤ num' / den := hq
      _ ≤ nearest num' den := div_le_nearest
  · have hr : num % den ≤ num' % den := by
      have h1 := Nat.div_add_mod num den
      have h2 := Nat.div_add_mod num' den
      rw [hq] at h1
      omega
    simp only [nearest, hq]
    split <;> split <;> try split
    all_goals try split
    all_goals omega

/-- How many binary digits of a quotient are lost in rounding. -/
def lost (num den : Nat) : Nat :=
  (num / den).log2 - 52

theorem round_eq (num den : Nat) : round num den =
    min infinity (lost num den * binade + nearest num (den <<< lost num den)) :=
  rfl

theorem round_le_infinity : round num den ≤ infinity :=
  Nat.min_le_left _ _

theorem lost_mono (den : Nat) (h : num ≤ num') : lost num den ≤ lost num' den := by
  rcases Nat.eq_zero_or_pos (num / den) with hq | hq
  · simp [lost, hq]
  · have hle : num / den ≤ num' / den := Nat.div_le_div_right h
    have hlog : (num / den).log2 ≤ (num' / den).log2 :=
      (Nat.le_log2 (by omega)).mpr (Nat.le_trans (Nat.log2_self_le (by omega)) hle)
    exact Nat.sub_le_sub_right hlog 52

theorem div_shiftLeft (num den k : Nat) : num / den <<< k = num / den / 2 ^ k := by
  rw [Nat.shiftLeft_eq, Nat.div_div_eq_div_mul]

theorem kept_lt : num / den <<< lost num den < 2 * binade := by
  rw [div_shiftLeft, Nat.div_lt_iff_lt_mul (Nat.two_pow_pos _)]
  calc num / den < 2 ^ ((num / den).log2 + 1) := Nat.lt_log2_self
    _ ≤ 2 ^ (53 + lost num den) := Nat.pow_le_pow_right (by decide) (by rw [lost]; omega)
    _ = 2 * binade * 2 ^ lost num den := Nat.pow_add 2 53 _

/-- If digits are lost, 53 are kept. -/
theorem binade_le_kept (h : 0 < lost num den) : binade ≤ num / den <<< lost num den := by
  have hlog : (num / den).log2 = 52 + lost num den := by
    rw [lost] at h ⊢
    omega
  have hq : num / den ≠ 0 := by
    intro hq
    rw [hq, Nat.log2_zero] at hlog
    omega
  rw [div_shiftLeft, Nat.le_div_iff_mul_le (Nat.two_pow_pos _)]
  calc binade * 2 ^ lost num den = 2 ^ (52 + lost num den) := (Nat.pow_add 2 52 _).symm
    _ = 2 ^ (num / den).log2 := by rw [hlog]
    _ ≤ num / den := Nat.log2_self_le hq

theorem round_zero (hd : 0 < den) : round 0 den = 0 := by
  have hn : nearest 0 den = 0 := by
    simp [nearest, hd]
  rw [round_eq, lost, Nat.zero_div, Nat.log2_zero]
  simp [hn]

theorem round_mono (h : num ≤ num') : round num den ≤ round num' den := by
  rw [round_eq, round_eq]
  refine Nat.le_min.mpr ⟨Nat.min_le_left _ _, Nat.le_trans (Nat.min_le_right _ _) ?_⟩
  rcases Nat.lt_or_eq_of_le (lost_mono den h) with hk | hk
  · -- the next binade begins where this one ends
    have hlow : nearest num (den <<< lost num den) ≤ 2 * binade :=
      Nat.le_trans nearest_le_succ kept_lt
    have hhigh : binade ≤ nearest num' (den <<< lost num' den) :=
      Nat.le_trans (binade_le_kept (by omega)) div_le_nearest
    have hmul : (lost num den + 1) * binade ≤ lost num' den * binade := Nat.mul_le_mul_right _ hk
    rw [Nat.add_mul] at hmul
    omega
  · rw [hk]
    exact Nat.add_le_add_left (nearest_mono h) _

/-! ### Units -/

/-- The digits of a magnitude, its leading one included. -/
def digits (b : Nat) : Nat :=
  b - shift b * binade

theorem units_eq (b : Nat) : units b = digits b * 2 ^ shift b := by
  rw [units, Nat.shiftLeft_eq]
  rfl

theorem digits_lt (b : Nat) : digits b < 2 * binade := by
  simp only [digits, shift, binade]
  omega

theorem binade_le_digits (h : 0 < shift b) : binade ≤ digits b := by
  simp only [digits, shift, binade] at h ⊢
  omega

theorem units_lt_units (h : a < b) : units a < units b := by
  have hs : shift a ≤ shift b := Nat.sub_le_sub_right (Nat.div_le_div_right (Nat.le_of_lt h)) 1
  rw [units_eq, units_eq]
  rcases Nat.lt_or_eq_of_le hs with hs | hs
  · calc digits a * 2 ^ shift a < 2 * binade * 2 ^ shift a :=
        Nat.mul_lt_mul_of_pos_right (digits_lt a) (Nat.two_pow_pos _)
      _ = binade * 2 ^ (shift a + 1) := by
        rw [Nat.mul_comm 2, Nat.mul_assoc, Nat.pow_succ']
      _ ≤ binade * 2 ^ shift b := Nat.mul_le_mul_left _ (Nat.pow_le_pow_right (by decide) hs)
      _ ≤ digits b * 2 ^ shift b := Nat.mul_le_mul_right _ (binade_le_digits (by omega))
  · have hd : digits a < digits b := by
      simp only [digits, shift, binade] at hs ⊢
      omega
    rw [hs]
    exact Nat.mul_lt_mul_of_pos_right hd (Nat.two_pow_pos _)

theorem units_zero : units 0 = 0 := by
  decide

theorem units_mono (h : a ≤ b) : units a ≤ units b := by
  rcases Nat.lt_or_eq_of_le h with h | rfl
  · exact Nat.le_of_lt (units_lt_units h)
  · exact Nat.le_refl _

theorem le_of_units_le (h : units a ≤ units b) : a ≤ b :=
  Nat.le_of_not_lt fun hlt => Nat.not_le_of_lt (units_lt_units hlt) h

theorem units_le_units_iff : units a ≤ units b ↔ a ≤ b :=
  ⟨le_of_units_le, units_mono⟩

theorem units_le_zero_iff : units a ≤ 0 ↔ a ≤ 0 := by
  have h := units_le_units_iff (a := a) (b := 0)
  rwa [units_zero] at h

end Magnitude

/-! ### Functions of magnitudes -/

namespace Binary64

open Magnitude

variable {f g : Binary64 → Binary64} {m n : Nat → Nat} {b : Nat}

/-- Numbers are in the order of their exact values; infinity counts as the power of two after the
greatest finite number. -/
theorem rank_le_rank_iff (x y : Binary64) : x.rank ≤ y.rank ↔ x.toUnits ≤ y.toUnits := by
  cases x with
  | nan =>
    cases y with
    | nan => exact Iff.rfl
    | number t b =>
      have hb := units_le_zero_iff (a := b)
      cases t <;> simp only [rank, toUnits] <;> omega
  | number s a =>
    have ha := units_le_zero_iff (a := a)
    cases y with
    | nan => cases s <;> simp only [rank, toUnits] <;> omega
    | number t b =>
      have hb := units_le_zero_iff (a := b)
      have hab := units_le_units_iff (a := a) (b := b)
      have hba := units_le_units_iff (a := b) (b := a)
      cases s <;> cases t <;> simp only [rank, toUnits] <;> omega

/-- A function that leaves signs alone and keeps the order of magnitudes. -/
structure ActsBy (f : Binary64 → Binary64) (m : Nat → Nat) : Prop where
  eq : ∀ s {a}, a ≤ infinity → f (.number s a) = .number s (m a)
  le : ∀ {a}, a ≤ infinity → m a ≤ infinity
  mono : ∀ {a b}, a ≤ b → b ≤ infinity → m a ≤ m b
  zero : m 0 = 0

theorem ActsBy.comp (hf : ActsBy f m) (hg : ActsBy g n) : ActsBy (f ∘ g) (m ∘ n) where
  eq s a h := by rw [Function.comp, hg.eq s h, hf.eq s (hg.le h), Function.comp]
  le h := hf.le (hg.le h)
  mono h hb := hf.mono (hg.mono h hb) (hg.le hb)
  zero := by rw [Function.comp, hg.zero, hf.zero]

/-- Finite numbers are taken to numbers, and these stand in the order of those. -/
theorem ActsBy.rank_le_rank (hf : ActsBy f m) {x y : Binary64} (hx : x.isFinite = true)
    (hy : y.isFinite = true) (h : x.toUnits ≤ y.toUnits) : (f x).rank ≤ (f y).rank := by
  cases x with
  | nan => cases hx
  | number s a =>
    cases y with
    | nan => cases hy
    | number t b =>
      have ha : a < infinity := of_decide_eq_true hx
      have hb : b < infinity := of_decide_eq_true hy
      rw [hf.eq s (Nat.le_of_lt ha), hf.eq t (Nat.le_of_lt hb)]
      cases s <;> cases t <;> simp only [toUnits, rank] at h ⊢
      case false.false =>
        have hm := hf.mono (le_of_units_le (by omega : units a ≤ units b)) (Nat.le_of_lt hb)
        omega
      case true.true =>
        have hm := hf.mono (le_of_units_le (by omega : units b ≤ units a)) (Nat.le_of_lt ha)
        omega
      case true.false => omega
      case false.true =>
        have hza : a = 0 := Nat.le_zero.mp (le_of_units_le (by rw [units_zero]; omega))
        have hzb : b = 0 := Nat.le_zero.mp (le_of_units_le (by rw [units_zero]; omega))
        rw [hza, hzb, hf.zero]
        decide

/-- A number of the format, be it finite or infinite. -/
def IsNumber : Binary64 → Prop
  | .number _ b => b ≤ infinity
  | .nan => False

theorem IsNumber.ne_nan {x : Binary64} (h : x.IsNumber) : x ≠ .nan := by
  rintro rfl
  exact h

theorem isNumber_of_isFinite {x : Binary64} (h : x.isFinite = true) : x.IsNumber := by
  cases x with
  | nan => cases h
  | number s b => exact Nat.le_of_lt (of_decide_eq_true h)

theorem isNumber_zero : zero.IsNumber :=
  Nat.zero_le _

theorem isNumber_ofInt (i : Int) : (ofInt i).IsNumber :=
  round_le_infinity

theorem ActsBy.isNumber (hf : ActsBy f m) {x : Binary64} (hx : x.IsNumber) : (f x).IsNumber := by
  cases x with
  | nan => cases hx
  | number s b =>
    rw [hf.eq s hx]
    exact hf.le hx

theorem ActsBy.ne_nan (hf : ActsBy f m) {x : Binary64} (hx : x.isFinite = true) : f x ≠ .nan := by
  cases x with
  | nan => cases hx
  | number s a =>
    rw [hf.eq s (Nat.le_of_lt (of_decide_eq_true hx))]
    exact Binary64.noConfusion

/-- A function of finite magnitudes, where infinity stays as it is. -/
def finitely (m : Nat → Nat) (a : Nat) : Nat :=
  if a = infinity then infinity else m a

/-- Functions that round what they come to. -/
theorem actsBy_finitely (hf : ∀ s a, a ≤ infinity → f (.number s a) = .number s (finitely m a))
    (hle : ∀ a, m a ≤ infinity) (hm : ∀ {a b}, a ≤ b → m a ≤ m b) (hz : m 0 = 0) :
    ActsBy f (finitely m) where
  eq s a h := hf s a h
  le {a} _ := by
    rw [finitely]
    split
    · exact Nat.le_refl _
    · exact hle a
  mono {a b} h hb := by
    rw [finitely, finitely]
    by_cases hinf : b = infinity
    · rw [if_pos hinf]
      split
      · exact Nat.le_refl _
      · exact hle a
    · rw [if_neg hinf, if_neg (by omega)]
      exact hm h
  zero := by rw [finitely, if_neg (by decide), hz]

theorem one_pos : 0 < one := by
  decide +kernel

theorem actsBy_mul (hb : 0 < b) (hi : b ≠ infinity) :
    ∃ m, ActsBy (fun x => x.mul (.number false b)) m := by
  refine ⟨_, actsBy_finitely (m := fun a => round (units a * units b) one) ?_
    (fun a => round_le_infinity) (fun h => round_mono (Nat.mul_le_mul_right _ (units_mono h))) ?_⟩
  · intro s a _
    rw [finitely]
    split
    · rename_i ha
      simp [mul, ha, Nat.ne_of_gt hb, show infinity ≠ 0 by decide]
    · rename_i ha
      simp [mul, ha, hi]
  · rw [units_zero, Nat.zero_mul, round_zero one_pos]

theorem actsBy_div (hb : 0 < b) (hi : b ≠ infinity) :
    ∃ m, ActsBy (fun x => x.div (.number false b)) m := by
  refine ⟨_, actsBy_finitely (m := fun a => round (units a * one) (units b)) ?_
    (fun a => round_le_infinity) (fun h => round_mono (Nat.mul_le_mul_right _ (units_mono h))) ?_⟩
  · intro s a _
    rw [finitely]
    split
    · rename_i ha
      simp [div, ha, hi]
    · rename_i ha
      simp [div, ha, hi, Nat.ne_of_gt hb]
  · have hpos : 0 < units b := units_zero ▸ units_lt_units hb
    rw [units_zero, Nat.zero_mul, round_zero hpos]

theorem actsBy_roundHalfAway : ∃ m, ActsBy roundHalfAway m := by
  refine ⟨_, actsBy_finitely
    (m := fun a => round ((2 * units a + one) / (2 * one) * one) 1) ?_
    (fun a => round_le_infinity) (fun h => round_mono ?_) ?_⟩
  · intro s a _
    rw [finitely]
    split
    · rename_i ha
      simp [roundHalfAway, ha]
    · rename_i ha
      simp [roundHalfAway, ha]
  · have hu := units_mono h
    exact Nat.mul_le_mul_right _ (Nat.div_le_div_right (by omega))
  · have hzero : (2 * units 0 + one) / (2 * one) = 0 := by
      rw [units_zero, Nat.div_eq_of_lt]
      have := one_pos
      omega
    rw [hzero, Nat.zero_mul, round_zero Nat.one_pos]

end Binary64

/-! ### Amounts -/

namespace Report

open Binary64

theorem actsBy_cents : ∃ m, ActsBy cents m := by
  have hhundred : ofInt 100 = .number false 0x4059000000000000 := by
    decide +kernel
  obtain ⟨m₁, h₁⟩ := actsBy_mul (b := 0x4059000000000000) (by decide) (by decide)
  obtain ⟨m₂, h₂⟩ := actsBy_roundHalfAway
  obtain ⟨m₃, h₃⟩ := actsBy_div (b := 0x4059000000000000) (by decide) (by decide)
  have hcents : cents = (fun x => x.div (.number false 0x4059000000000000)) ∘ roundHalfAway ∘
      fun x => x.mul (.number false 0x4059000000000000) := by
    funext x
    simp only [cents, hhundred, Function.comp]
  rw [hcents]
  exact ⟨_, h₃.comp (h₂.comp h₁)⟩

/-- The greater amount has the greater cents, or both have the same. -/
theorem rank_cents_le {x y : Binary64} (hx : x.isFinite = true) (hy : y.isFinite = true)
    (h : x.toUnits ≤ y.toUnits) : (cents x).rank ≤ (cents y).rank :=
  have ⟨_, hc⟩ := actsBy_cents
  hc.rank_le_rank hx hy h

theorem isNumber_cents {x : Binary64} (hx : x.IsNumber) : (cents x).IsNumber :=
  have ⟨_, hc⟩ := actsBy_cents
  hc.isNumber hx

theorem cents_ne_nan {x : Binary64} (hx : x.isFinite = true) : cents x ≠ .nan :=
  have ⟨_, hc⟩ := actsBy_cents
  hc.ne_nan hx

end Report

end Takings
