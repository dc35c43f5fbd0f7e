import Takings.Binary64.Shortest
import Takings.Json.Value
import Takings.Proofs.CanonicalPredicate
import Takings.Proofs.JsonTokens

/-!
# Decimal texts

Numbers as they are written. Digits without superfluous zeros are the digits of the number that
they spell, and a number of binary floating point shows itself by a point or an exponent.
-/
namespace Takings

/-! ### Digits -/

namespace Text

theorem digitChar_digitValue {c : Char} (h : c.isDigit = true) :
    digitValue c < 10 ∧ Nat.digitChar (digitValue c) = c := by
  have hc : 48 ≤ c.toNat ∧ c.toNat ≤ 57 := Char.isDigit_iff_toNat.mp h
  have hv : digitValue c = c.toNat - 48 := rfl
  refine ⟨by omega, Char.toNat_inj.mp ?_⟩
  rw [Nat.toNat_digitChar_of_lt_ten (by omega)]
  omega

theorem digits_digitValue {c : Char} (h : c.isDigit = true) : digits (digitValue c) = [c] := by
  obtain ⟨hlt, hc⟩ := digitChar_digitValue h
  rw [digits, Nat.toDigits_of_lt_base hlt, hc]

/-- Digits after those of a positive number are the digits of a greater one. -/
theorem digits_foldl {cs : List Char} (hd : ∀ c ∈ cs, c.isDigit = true) {n : Nat} (hn : 0 < n) :
    digits (cs.foldl (fun n c => 10 * n + digitValue c) n) = digits n ++ cs := by
  induction cs generalizing n with
  | nil => simp
  | cons c cs ih =>
    obtain ⟨hc, hcs⟩ := List.forall_mem_cons.mp hd
    have hlast : digits (10 * n + digitValue c) = digits n ++ [c] := by
      rw [← digits_digitValue hc]
      exact (Nat.toDigits_append_toDigits (by decide) hn (digitChar_digitValue hc).1).symm
    rw [List.foldl_cons, ih hcs (by omega), hlast, List.append_assoc, List.singleton_append]

theorem digits_ofDigits {cs : List Char} (hp : Json.Numeral.properWhole cs = true)
    (hd : ∀ c ∈ cs, c.isDigit = true) : digits (ofDigits cs) = cs := by
  cases cs with
  | nil => cases hp
  | cons c cs =>
    obtain ⟨hc, hcs⟩ := List.forall_mem_cons.mp hd
    by_cases hz : c = '0'
    · subst hz
      cases cs with
      | nil => rfl
      | cons d ds => simp [Json.Numeral.properWhole] at hp
    · have hpos : 0 < digitValue c := by
        have hne : c.toNat ≠ 48 := fun h => hz (Char.toNat_inj.mp h)
        have hle : 48 ≤ c.toNat := (Char.isDigit_iff_toNat.mp hc).1
        have hv : digitValue c = c.toNat - 48 := rfl
        omega
      rw [ofDigits, List.foldl_cons, Nat.mul_zero, Nat.zero_add, digits_foldl hcs hpos,
        digits_digitValue hc, List.singleton_append]

/-- The characters of numbers as they are written. -/
def isNumeric (c : Char) : Bool :=
  c.isDigit || c == '-' || c == '+' || c == '.' || c == 'e'

theorem isNumeric_of_isDigit {c : Char} (h : c.isDigit = true) : isNumeric c = true := by
  simp [isNumeric, h]

theorem isNumeric_of_mem_digits {n : Nat} {c : Char} (h : c ∈ digits n) : isNumeric c = true :=
  isNumeric_of_isDigit (isDigit_of_mem_digits h)

theorem toNat_of_isNumeric {c : Char} (h : isNumeric c = true) :
    43 ≤ c.toNat ∧ c.toNat ≤ 57 ∨ c = 'e' := by
  simp only [isNumeric, Bool.or_eq_true, beq_iff_eq] at h
  rcases h with (((h | rfl) | rfl) | rfl) | rfl
  · have hc : 48 ≤ c.toNat ∧ c.toNat ≤ 57 := Char.isDigit_iff_toNat.mp h
    exact .inl (by omega)
  · decide
  · decide
  · decide
  · exact .inr rfl

theorem isBlank_of_isNumeric {c : Char} (h : isNumeric c = true) : isBlank c = false := by
  rcases toNat_of_isNumeric h with h | rfl
  · simp [isBlank]
    omega
  · rfl

theorem toLower_of_isNumeric {c : Char} (h : isNumeric c = true) : c.toLower ∉ ['a', 'l', 'l'] := by
  rcases toNat_of_isNumeric h with h | rfl
  · have hc : c.toLower = c := by
      refine dif_neg fun hu => ?_
      have hA : 65 ≤ c.toNat := hu.1
      omega
    rw [hc]
    intro hm
    simp only [List.mem_cons, List.not_mem_nil, or_false] at hm
    rcases hm with rfl | rfl | rfl <;> revert h <;> decide
  · decide

theorem trim_of_not_blank {s : String} (h : ∀ c ∈ s.toList, isBlank c = false) : trim s = s := by
  have hskip {cs : List Char} (h : ∀ c ∈ cs, isBlank c = false) : skipBlank cs = cs := by
    cases cs with
    | nil => rfl
    | cons c cs => exact List.dropWhile_cons_of_neg (by simp [h c List.mem_cons_self])
  rw [trim, trimList, hskip h, hskip (by simpa using h), List.reverse_reverse, String.ofList_toList]

end Text

/-- The text of a number selects something. -/
theorem Filter.active?_of_isNumeric {cs : List Char} (hn : cs ≠ [])
    (h : ∀ c ∈ cs, Text.isNumeric c = true) :
    active? (String.ofList cs) = some (String.ofList cs) := by
  have ht : Text.trim (String.ofList cs) = String.ofList cs := by
    refine Text.trim_of_not_blank ?_
    intro c hc
    rw [String.toList_ofList] at hc
    exact Text.isBlank_of_isNumeric (h c hc)
  obtain ⟨c, cs, rfl⟩ := List.exists_cons_of_ne_nil hn
  have hc := h c List.mem_cons_self
  have ha : isActive (String.ofList (c :: cs)) = true :=
    Composite.isActive_of_mem (Text.isBlank_of_isNumeric hc) (Text.toLower_of_isNumeric hc)
      (by rw [String.toList_ofList]; exact List.mem_cons_self)
  rw [active?, if_pos ha, ht]

/-! ### Binary floating point -/

namespace Binary64

open Text

theorem isNumeric_of_mem_shortest {b : Nat} {c : Char} (h : c ∈ (shortest b).1) :
    isNumeric c = true := by
  simp only [shortest, List.mem_reverse] at h
  have hm := (List.dropWhile_sublist _).subset h
  exact isNumeric_of_mem_digits (List.mem_reverse.mp hm)

theorem isNumeric_of_mem_positionalText {ds : List Char} (hd : ∀ c ∈ ds, isNumeric c = true)
    {e : Int} : ∀ c ∈ positionalText ds e, isNumeric c = true := by
  have hzeros (n : Nat) : ∀ c ∈ List.replicate n '0', isNumeric c = true := by
    intro c hc
    rw [List.eq_of_mem_replicate hc]
    rfl
  rw [positionalText]
  split
  · simp only [List.forall_mem_cons, List.forall_mem_append]
    exact ⟨rfl, rfl, hzeros _, hd⟩
  · simp only [List.forall_mem_cons, List.forall_mem_append]
    refine ⟨⟨fun c hc => hd c (List.mem_of_mem_take hc), hzeros _⟩, rfl, ?_⟩
    split
    · exact hzeros 1
    · exact fun c hc => hd c (List.mem_of_mem_drop hc)

theorem isNumeric_of_mem_exponentText {ds : List Char} (hd : ∀ c ∈ ds, isNumeric c = true)
    {e : Int} : ∀ c ∈ exponentText ds e, isNumeric c = true := by
  simp only [exponentText, List.forall_mem_cons, List.forall_mem_append]
  refine ⟨⟨fun c hc => hd c (List.mem_of_mem_take hc), ?_⟩, rfl, ?_,
    fun c => isNumeric_of_mem_digits⟩
  · split
    · simp
    · exact List.forall_mem_cons.mpr ⟨rfl, fun c hc => hd c (List.mem_of_mem_drop hc)⟩
  · split <;> rfl

theorem magnitudeText_zero : magnitudeText 0 = ['0', '.', '0'] :=
  rfl

theorem magnitudeText_of_ne_zero {b : Nat} (h : b ≠ 0) : magnitudeText b =
    if positional (shortest b).2 then positionalText (shortest b).1 (shortest b).2
    else exponentText (shortest b).1 (shortest b).2 :=
  if_neg h

theorem isNumeric_of_mem_magnitudeText (b : Nat) : ∀ c ∈ magnitudeText b, isNumeric c = true := by
  by_cases hb : b = 0
  · rw [hb, magnitudeText_zero]
    exact List.all_eq_true.mp rfl
  · have hd : ∀ c ∈ (shortest b).1, isNumeric c = true := fun c => isNumeric_of_mem_shortest
    rw [magnitudeText_of_ne_zero hb]
    split
    · exact isNumeric_of_mem_positionalText hd
    · exact isNumeric_of_mem_exponentText hd

theorem mark_mem_magnitudeText (b : Nat) : '.' ∈ magnitudeText b ∨ 'e' ∈ magnitudeText b := by
  by_cases hb : b = 0
  · rw [hb, magnitudeText_zero]
    decide
  · rw [magnitudeText_of_ne_zero hb]
    split
    · left
      rw [positionalText]
      split <;> simp
    · right
      simp [exponentText]

theorem isNumeric_of_mem_text {x : Binary64} : ∀ c ∈ x.text, isNumeric c = true := by
  cases x with
  | nan => simp [text]
  | number negative b =>
    cases negative with
    | false => exact isNumeric_of_mem_magnitudeText b
    | true => exact List.forall_mem_cons.mpr ⟨rfl, isNumeric_of_mem_magnitudeText b⟩

/-- No number is written as a whole one. -/
theorem mark_mem_text {x : Binary64} (h : x.isFinite = true) : '.' ∈ x.text ∨ 'e' ∈ x.text := by
  cases x with
  | nan => cases h
  | number negative b =>
    cases negative with
    | false => exact mark_mem_magnitudeText b
    | true => exact (mark_mem_magnitudeText b).imp (List.mem_cons_of_mem _) (List.mem_cons_of_mem _)

end Binary64

end Takings
