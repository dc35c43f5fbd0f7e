/-!
# Machine words

Whole numbers of 64 bits, which wrap when a result does not fit, and those of 32 bits.
-/
namespace Takings.Word

/-- The word without a sign that a sum or a product leaves. -/
def wrap (n : Nat) : Nat :=
  n % 18446744073709551616

/-- The word with a sign that a sum leaves. -/
def wrapSigned (i : Int) : Int :=
  Int.bmod i 18446744073709551616

/-- Whether a number fits a word with a sign. -/
def Fits (i : Int) : Prop :=
  -9223372036854775808 ≤ i ∧ i < 9223372036854775808

instance (i : Int) : Decidable (Fits i) :=
  inferInstanceAs (Decidable (_ ∧ _))

/-- The word of 32 bits with a sign that a sum leaves. -/
def wrapNarrow (i : Int) : Int :=
  Int.bmod i 4294967296

/-- The word of 32 bits with a sign that is nearest to a number. -/
def clampNarrow (i : Int) : Int :=
  max (-2147483648) (min i 2147483647)

/-- The word of 32 bits without a sign that a number is, if it is one. -/
def narrow? (i : Int) : Option Nat :=
  if 0 ≤ i ∧ i < 4294967296 then some i.toNat else none

theorem wrap_of_lt {n : Nat} (h : n < 18446744073709551616) : wrap n = n :=
  Nat.mod_eq_of_lt h

theorem wrapSigned_of_fits {i : Int} (lo : -9223372036854775808 ≤ i)
    (hi : i < 9223372036854775808) : wrapSigned i = i :=
  Int.bmod_eq_of_le (by omega) (by omega)

theorem narrow?_of_lt {n : Nat} (h : n < 4294967296) : narrow? n = some n := by
  rw [narrow?, if_pos (by omega), Int.toNat_natCast]

theorem eq_of_narrow? {i : Int} {n : Nat} (h : narrow? i = some n) : i = n := by
  rw [narrow?] at h
  split at h
  · cases h
    omega
  · cases h

end Takings.Word
