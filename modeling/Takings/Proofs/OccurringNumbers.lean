import Mathlib.Data.List.TakeWhile
import Takings.Proofs.Placeholders
import Takings.Proofs.WrittenForms
import Takings.Query.Cursor

/-!
# Numbers that occur in a text

A number occurs in a text if its digits, as many as there are, stand right behind a dollar sign,
wherever that is. The same numbers occur among the bytes of the text, since no byte of a character
beyond ASCII is a digit or a dollar sign.
-/
namespace Takings.Placeholder

open Text

/-- A number stands behind a dollar sign, with all of its digits. -/
def Occurs (cs : List Char) (n : Nat) : Prop :=
  ∃ before ds rest, cs = before ++ '$' :: (ds ++ rest) ∧ ds ≠ [] ∧
    (∀ d ∈ ds, d.isDigit = true) ∧ NoDigitAhead rest ∧ Text.ofDigits ds = n

/-! ### The numbers at all positions -/

theorem noDigitAhead_dropWhile (cs : List Char) : NoDigitAhead (cs.dropWhile Char.isDigit) := by
  intro d hd
  have hnot := List.head?_dropWhile_not Char.isDigit cs
  rw [Option.mem_def.mp hd] at hnot
  exact hnot

theorem takeWhile_of_noDigitAhead {ds rest : List Char} (hds : ∀ d ∈ ds, d.isDigit = true)
    (h : NoDigitAhead rest) : (ds ++ rest).takeWhile Char.isDigit = ds := by
  rw [takeWhile_isDigit_append ds h]
  exact List.takeWhile_eq_self_iff.mpr hds

theorem numberAt?_eq_some_iff {cs : List Char} {n : Nat} :
    numberAt? cs = some n ↔ ∃ ds rest, cs = '$' :: (ds ++ rest) ∧ ds ≠ [] ∧
      (∀ d ∈ ds, d.isDigit = true) ∧ NoDigitAhead rest ∧ Text.ofDigits ds = n := by
  constructor
  · intro h
    cases cs with
    | nil => cases h
    | cons c cs =>
      by_cases hc : c = '$'
      · subst hc
        simp only [numberAt?] at h
        split at h
        · cases h
        · rename_i hne
          exact ⟨cs.takeWhile Char.isDigit, cs.dropWhile Char.isDigit,
            by rw [List.takeWhile_append_dropWhile], fun he => hne (by rw [he]; rfl),
            fun d hd => (List.mem_takeWhile_imp hd :), noDigitAhead_dropWhile cs,
            Option.some.inj h⟩
      · rw [numberAt?_of_ne hc] at h
        cases h
  · rintro ⟨ds, rest, rfl, hne, hds, hrest, rfl⟩
    simp only [numberAt?, takeWhile_of_noDigitAhead hds hrest]
    rw [if_neg (by simpa using hne)]

theorem mem_numbers_iff {cs : List Char} {n : Nat} : n ∈ numbers cs ↔ Occurs cs n := by
  induction cs with
  | nil =>
    constructor
    · intro h
      cases h
    · rintro ⟨before, ds, rest, h, -⟩
      simp at h
  | cons c cs ih =>
    rw [numbers, List.mem_append, Option.mem_toList, numberAt?_eq_some_iff, ih]
    constructor
    · rintro (⟨ds, rest, h, hds⟩ | ⟨before, ds, rest, h, hds⟩)
      · exact ⟨[], ds, rest, h, hds⟩
      · exact ⟨c :: before, ds, rest, by rw [h, List.cons_append], hds⟩
    · rintro ⟨before, ds, rest, h, hds⟩
      cases before with
      | nil => exact .inl ⟨ds, rest, h, hds⟩
      | cons b before => exact .inr ⟨before, ds, rest, (List.cons.inj h).2, hds⟩

/-! ### Bytes as characters -/

/-- The character with the number of a byte. -/
def charOf (b : UInt8) : Char :=
  Char.ofNat b.toNat

/-- Bytes as the characters with their numbers. The digits and the dollar signs of a text are the
same among its bytes. -/
def view (bytes : List UInt8) : List Char :=
  bytes.map charOf

theorem toNat_charOf (b : UInt8) : (charOf b).toNat = b.toNat := by
  have hb := b.toNat_lt
  have hv : b.toNat.isValidChar := .inl (by omega)
  rw [charOf, Char.ofNat, dif_pos hv]
  rfl

theorem isDigit_charOf (b : UInt8) : (charOf b).isDigit = isDigit b := by
  rw [Bool.eq_iff_iff, Char.isDigit_iff_toNat, toNat_charOf]
  simp [isDigit, UInt8.le_iff_toNat_le]

theorem charOf_eq_dollar_iff {b : UInt8} : charOf b = '$' ↔ b = 0x24 := by
  rw [← Char.toNat_inj, toNat_charOf, ← UInt8.toNat_inj]
  rfl

theorem digitValue_charOf {b : UInt8} (h : isDigit b = true) :
    Text.digitValue (charOf b) = digitValue b := by
  have hb : 0x30 ≤ b := by
    simp only [isDigit, Bool.and_eq_true, decide_eq_true_eq] at h
    exact h.1
  rw [Text.digitValue, digitValue, toNat_charOf, UInt8.toNat_sub_of_le _ _ hb]
  rfl

theorem view_cons (b : UInt8) (bytes : List UInt8) : view (b :: bytes) = charOf b :: view bytes :=
  rfl

/-- A character of ASCII is its own byte. -/
theorem view_encode_of_lt {c : Char} (h : c.toNat < 128) (cs : List Char) :
    view (Utf8.encode (c :: cs)) = c :: view (Utf8.encode cs) := by
  have hc : charOf (UInt8.ofNat c.toNat) = c := by
    rw [← Char.toNat_inj, toNat_charOf, UInt8.toNat_ofNat']
    omega
  rw [Utf8.encode_cons, Percent.encodeChar_of_lt h, List.singleton_append, view_cons, hc]

/-- The bytes of any other character are neither digits nor dollar signs. -/
theorem view_encode_of_le {c : Char} (h : 128 ≤ c.toNat) (cs : List Char) :
    ∃ x xs, view (Utf8.encode (c :: cs)) = x :: xs ++ view (Utf8.encode cs) ∧
      ∀ y ∈ x :: xs, 128 ≤ y.toNat := by
  cases he : String.utf8EncodeChar c with
  | nil => exact absurd he String.utf8EncodeChar_ne_nil
  | cons b bs =>
    refine ⟨charOf b, view bs, ?_, ?_⟩
    · rw [Utf8.encode_cons, he, view, List.map_append]
      rfl
    · intro y hy
      obtain ⟨x, hx, rfl⟩ := List.mem_map.mp (show y ∈ (b :: bs).map charOf from hy)
      rw [toNat_charOf]
      by_contra hlt
      have hcx := Percent.eq_of_mem_encodeChar (he ▸ hx) (by omega)
      omega

theorem isDigit_eq_false {c : Char} (h : 128 ≤ c.toNat) : c.isDigit = false := by
  rw [Bool.eq_false_iff, ne_eq, Char.isDigit_iff_toNat]
  intro hd
  have h9 : '9'.toNat = 57 := rfl
  omega

theorem takeWhile_view_encode (cs : List Char) :
    (view (Utf8.encode cs)).takeWhile Char.isDigit = cs.takeWhile Char.isDigit := by
  induction cs with
  | nil => rfl
  | cons c cs ih =>
    rcases Nat.lt_or_ge c.toNat 128 with h | h
    · rw [view_encode_of_lt h, List.takeWhile_cons, List.takeWhile_cons, ih]
    · obtain ⟨x, xs, hx, hxs⟩ := view_encode_of_le h cs
      have hxd := isDigit_eq_false (hxs x (.head _))
      rw [hx, List.cons_append, List.takeWhile_cons, List.takeWhile_cons, hxd, isDigit_eq_false h]
      rfl

/-- The same numbers occur among the bytes of a text as among its characters. -/
theorem numbers_view_encode (cs : List Char) : numbers (view (Utf8.encode cs)) = numbers cs := by
  induction cs with
  | nil => rfl
  | cons c cs ih =>
    rcases Nat.lt_or_ge c.toNat 128 with h | h
    · have hat : numberAt? (c :: view (Utf8.encode cs)) = numberAt? (c :: cs) := by
        by_cases hc : c = '$'
        · subst hc
          simp only [numberAt?, takeWhile_view_encode]
        · rw [numberAt?_of_ne hc, numberAt?_of_ne hc]
      rw [view_encode_of_lt h, numbers, numbers, hat, ih]
    · obtain ⟨x, xs, hx, hxs⟩ := view_encode_of_le h cs
      have hdollar : '$' ∉ x :: xs := fun hm => absurd (hxs _ hm) (by decide)
      have hc : c ≠ '$' := by
        rintro rfl
        exact absurd h (by decide)
      rw [hx, numbers_append_of_notMem hdollar, ih, numbers, numberAt?_of_ne hc]
      rfl

theorem scan_view_encode (cs : List Char) : scan (view (Utf8.encode cs)) = scan cs := by
  rw [scan_eq_map_wrap, scan_eq_map_wrap, numbers_view_encode]

theorem occurs_view_encode {cs : List Char} {n : Nat} :
    Occurs (view (Utf8.encode cs)) n ↔ Occurs cs n := by
  rw [← mem_numbers_iff, numbers_view_encode, mem_numbers_iff]

end Takings.Placeholder
