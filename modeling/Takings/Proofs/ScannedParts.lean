import Mathlib.Algebra.Group.Nat.Defs
import Mathlib.Data.List.TakeWhile
import Takings.Calendar.Scan
import Takings.Proofs.DecimalTexts
import Takings.Proofs.Outcomes

/-!
# Parts of dates and times

The steps of reading a date or a time take a part off the front of a text, with the white space
before it. What they take is what is spelled there, and what is spelled there they take, as long as
no digit follows a number.
-/
namespace Takings.Calendar

open Text

/-- White space between parts. -/
def Blank (cs : List Char) : Prop :=
  ∀ c ∈ cs, isBlank c = true

/-- One digit or more. -/
structure Digits (ds : List Char) : Prop where
  ne_nil : ds ≠ []
  isDigit : ∀ c ∈ ds, c.isDigit = true

/-- No digit stands in front. -/
def NoDigit (cs : List Char) : Prop :=
  ∀ c ∈ cs.head?, c.isDigit = false

/-- A number of one or two digits. -/
structure SpellsPart (n : Nat) (ds : List Char) : Prop where
  digits : Digits ds
  length_le : ds.length ≤ 2
  value : ofDigits ds = n

/-- A year of up to four digits, or of any number of digits after a sign. -/
inductive SpellsYear : Int → List Char → Prop
  | plain {ds : List Char} (hd : Digits ds) (hl : ds.length ≤ 4) : SpellsYear (ofDigits ds) ds
  | plus {ds : List Char} (hd : Digits ds) : SpellsYear (ofDigits ds) ('+' :: ds)
  | minus {ds : List Char} (hd : Digits ds) : SpellsYear (-(ofDigits ds : Int)) ('-' :: ds)

variable {cs ds gap rest : List Char} {width n m : Nat}

/-! ### White space -/

theorem blank_nil : Blank [] :=
  fun _ h => absurd h List.not_mem_nil

theorem exists_blank (cs : List Char) : ∃ gap, Blank gap ∧ cs = gap ++ skipBlank cs :=
  ⟨cs.takeWhile isBlank, List.all_eq_true.mp List.all_takeWhile,
    List.takeWhile_append_dropWhile.symm⟩

theorem blank_skipBlank_iff : Blank (skipBlank cs) ↔ Blank cs := by
  constructor
  · intro h
    obtain ⟨gap, hg, hcs⟩ := exists_blank cs
    rw [hcs]
    exact List.forall_mem_append.mpr ⟨hg, h⟩
  · exact fun h c hc => h c ((List.dropWhile_sublist _).subset hc)

theorem skipBlank_append_cons (hg : Blank gap) {c : Char} (hc : isBlank c = false)
    (cs : List Char) : skipBlank (gap ++ c :: cs) = c :: cs := by
  rw [skipBlank_append_of_blank hg, skipBlank, List.dropWhile_cons_of_neg (by simp [hc])]

theorem isBlank_of_isDigit {c : Char} (h : c.isDigit = true) : isBlank c = false :=
  isBlank_of_isNumeric (isNumeric_of_isDigit h)

theorem noDigit_nil : NoDigit [] :=
  fun _ hc => absurd hc (Option.not_mem_none _)

theorem noDigit_cons {c : Char} (hc : c.isDigit = false) (cs : List Char) : NoDigit (c :: cs) := by
  intro d hd
  cases hd
  exact hc

theorem noDigit_append (hg : Blank gap) (hr : NoDigit rest) : NoDigit (gap ++ rest) := by
  cases gap with
  | nil => exact hr
  | cons c gap =>
    refine noDigit_cons ?_ _
    rw [← Bool.not_eq_true]
    intro hc
    have hblank := hg c List.mem_cons_self
    rw [isBlank_of_isDigit hc] at hblank
    cases hblank

theorem noDigit_of_blank (h : Blank cs) : NoDigit cs := by
  rw [← List.append_nil cs]
  exact noDigit_append h noDigit_nil

/-! ### Digits -/

/-- The number of digits after a number is less than the next number with as many zeros. -/
theorem foldl_digits_lt (hd : ∀ c ∈ ds, c.isDigit = true) (n : Nat) :
    ds.foldl (fun n c => 10 * n + digitValue c) n < (n + 1) * 10 ^ ds.length := by
  induction ds generalizing n with
  | nil => simp
  | cons c ds ih =>
    obtain ⟨hc, hds⟩ := List.forall_mem_cons.mp hd
    have hv := (digitChar_digitValue hc).1
    rw [List.foldl_cons]
    calc ds.foldl (fun n c => 10 * n + digitValue c) (10 * n + digitValue c)
        < (10 * n + digitValue c + 1) * 10 ^ ds.length := ih hds _
      _ ≤ (n + 1) * 10 * 10 ^ ds.length := Nat.mul_le_mul_right _ (by omega)
      _ = (n + 1) * 10 ^ (c :: ds).length := by
        rw [Nat.mul_assoc, ← Nat.pow_succ', List.length_cons]

theorem Digits.ofDigits_lt (h : Digits ds) : ofDigits ds < 10 ^ ds.length := by
  have hlt := foldl_digits_lt h.isDigit 0
  rwa [Nat.zero_add, Nat.one_mul] at hlt

/-- The bound of `scanDigits` is beyond nine digits. -/
theorem Digits.ofDigits_lt_bound (h : Digits ds) (hl : ds.length ≤ 9) :
    ofDigits ds < 9223372036854775808 :=
  calc ofDigits ds < 10 ^ ds.length := h.ofDigits_lt
    _ ≤ 10 ^ 9 := Nat.pow_le_pow_right (by decide) hl
    _ < 9223372036854775808 := by decide

theorem scanDigits_append (hd : ∀ c ∈ ds, c.isDigit = true) (hl : ds.length ≤ width)
    (hs : ds.length = width ∨ NoDigit rest)
    (hb : ds.foldl (fun n c => 10 * n + digitValue c) n < 9223372036854775808) :
    scanDigits width n (ds ++ rest) =
      .ok (ds.foldl (fun n c => 10 * n + digitValue c) n, rest) := by
  induction ds generalizing width n with
  | nil =>
    cases width with
    | zero => rfl
    | succ width =>
      obtain hs | hs := hs
      · cases hs
      · cases rest with
        | nil => rfl
        | cons c rest =>
          have hc : ¬ c.isDigit = true := by simp [hs c rfl]
          exact if_neg hc
  | cons c ds ih =>
    obtain ⟨hc, hds⟩ := List.forall_mem_cons.mp hd
    cases width with
    | zero => cases hl
    | succ width =>
      rw [List.foldl_cons] at hb ⊢
      have hle := le_foldl_digits (10 * n + digitValue c) ds
      simp only [List.length_cons, Nat.add_le_add_iff_right, Nat.add_right_cancel_iff] at hl hs
      rw [List.cons_append, scanDigits, if_pos hc]
      dsimp only
      rw [if_pos (Nat.lt_of_le_of_lt hle hb), ih hds hl hs hb]

theorem exists_of_scanDigits (h : scanDigits width n cs = .ok (m, rest)) :
    ∃ ds, (∀ c ∈ ds, c.isDigit = true) ∧ ds.length ≤ width ∧
      (ds.length = width ∨ NoDigit rest) ∧ cs = ds ++ rest ∧
      ds.foldl (fun n c => 10 * n + digitValue c) n = m := by
  induction width generalizing n cs with
  | zero =>
    cases h
    exact ⟨[], by simp, by simp, .inl rfl, rfl, rfl⟩
  | succ width ih =>
    cases cs with
    | nil =>
      cases h
      exact ⟨[], by simp, by simp, .inr noDigit_nil, rfl, rfl⟩
    | cons c cs =>
      rw [scanDigits] at h
      split at h
      · rename_i hc
        dsimp only at h
        split at h
        · obtain ⟨ds, hds, hl, hs, rfl, hv⟩ := ih h
          exact ⟨c :: ds, List.forall_mem_cons.mpr ⟨hc, hds⟩, Nat.succ_le_succ hl,
            hs.imp_left (congrArg Nat.succ), rfl, hv⟩
        · cases h
      · rename_i hc
        cases h
        exact ⟨[], by simp, by simp, .inr (noDigit_cons (by simpa using hc) _), rfl, rfl⟩

theorem scanNumber_append (hd : Digits ds) (hl : ds.length ≤ width)
    (hs : ds.length = width ∨ NoDigit rest) (hb : ofDigits ds < 9223372036854775808) :
    scanNumber width (ds ++ rest) = .ok (ofDigits ds, rest) := by
  have hscan := scanDigits_append (n := 0) hd.isDigit hl hs hb
  cases ds with
  | nil => exact absurd rfl hd.ne_nil
  | cons c ds =>
    have hc : c.isDigit = true := hd.isDigit c List.mem_cons_self
    exact (if_pos hc).trans hscan

theorem exists_of_scanNumber (hw : 0 < width) (h : scanNumber width cs = .ok (n, rest)) :
    ∃ ds, Digits ds ∧ ds.length ≤ width ∧ (ds.length = width ∨ NoDigit rest) ∧
      cs = ds ++ rest ∧ ofDigits ds = n := by
  cases cs with
  | nil => cases h
  | cons c cs =>
    cases width with
    | zero => cases hw
    | succ width =>
      rw [scanNumber] at h
      split at h
      · rename_i hc
        -- The first digit is taken in any case.
        rw [scanDigits, if_pos hc] at h
        dsimp only at h
        split at h
        · obtain ⟨ds, hds, hl, hs, rfl, hv⟩ := exists_of_scanDigits h
          exact ⟨c :: ds, ⟨List.cons_ne_nil _ _, List.forall_mem_cons.mpr ⟨hc, hds⟩⟩,
            Nat.succ_le_succ hl, hs.imp_left (congrArg Nat.succ), rfl, hv⟩
        · cases h
      · cases h

/-! ### Steps -/

section Part

variable {least greatest : Nat}

theorem scanPart_append (hg : Blank gap) (hp : SpellsPart n ds) (hs : NoDigit rest)
    (hn : least ≤ n ∧ n ≤ greatest) :
    scanPart least greatest (gap ++ (ds ++ rest)) = .ok (n, rest) := by
  obtain ⟨hd, hl, rfl⟩ := hp
  have hskip : skipBlank (gap ++ (ds ++ rest)) = ds ++ rest := by
    cases ds with
    | nil => exact absurd rfl hd.ne_nil
    | cons c ds =>
      exact skipBlank_append_cons hg (isBlank_of_isDigit (hd.isDigit c List.mem_cons_self)) _
  have hlt := hd.ofDigits_lt_bound (Nat.le_trans hl (by decide))
  rw [scanPart, hskip, scanNumber_append hd hl (.inr hs) hlt]
  exact if_pos hn

theorem exists_of_scanPart (h : scanPart least greatest cs = .ok (n, rest)) :
    ∃ gap ds, Blank gap ∧ SpellsPart n ds ∧ cs = gap ++ (ds ++ rest) := by
  obtain ⟨gap, hg, hcs⟩ := exists_blank cs
  obtain ⟨⟨k, r⟩, hk, h⟩ := bind_eq_ok_iff.mp h
  dsimp only at h
  split at h
  · cases h
    obtain ⟨ds, hd, hl, -, hds, hv⟩ := exists_of_scanNumber (by decide) hk
    exact ⟨gap, ds, hg, ⟨hd, hl, hv⟩, by rw [← hds, ← hcs]⟩
  · cases h

end Part

section Year

variable {y : Int} {year : List Char}

/-- Neither a digit nor a sign is white space, so a year begins where white space ends. -/
theorem SpellsYear.exists_cons (h : SpellsYear y year) :
    ∃ c cs, year = c :: cs ∧ isBlank c = false := by
  cases h with
  | plain hd _ =>
    obtain ⟨c, cs, rfl⟩ := List.exists_cons_of_ne_nil hd.ne_nil
    exact ⟨c, cs, rfl, isBlank_of_isDigit (hd.isDigit c List.mem_cons_self)⟩
  | plus _ => exact ⟨'+', _, rfl, by decide⟩
  | minus _ => exact ⟨'-', _, rfl, by decide⟩

/-- What is read of a year behind white space, before its range is looked at. -/
def scanSigned (cs : List Char) : Except TextError (Int × List Char) :=
  match cs with
  | '-' :: r => (scanNumber r.length r).map fun (n, rest) => (-(n : Int), rest)
  | '+' :: r => (scanNumber r.length r).map fun (n, rest) => ((n : Int), rest)
  | r => (scanNumber 4 r).map fun (n, rest) => ((n : Int), rest)

theorem scanYear_eq (cs : List Char) : scanYear cs =
    (scanSigned (skipBlank cs)).bind fun (y, rest) =>
      if -2147483648 ≤ y ∧ y ≤ 2147483647 then .ok (y, rest) else .error .outOfRange := by
  unfold scanYear scanSigned
  cases skipBlank cs with
  | nil => rfl
  | cons c r =>
    by_cases hminus : c = '-'
    · subst hminus
      rfl
    by_cases hplus : c = '+'
    · subst hplus
      rfl
    · simp only [List.cons.injEq, hminus, hplus, false_and, imp_self, implies_true]
      rfl

theorem scanSigned_of_digit {c : Char} (hc : c.isDigit = true) (cs : List Char) :
    scanSigned (c :: cs) = (scanNumber 4 (c :: cs)).map fun (n, rest) => ((n : Int), rest) := by
  have hminus : c ≠ '-' := by
    rintro rfl
    cases hc
  have hplus : c ≠ '+' := by
    rintro rfl
    cases hc
  unfold scanSigned
  split
  · rename_i he
    exact absurd (List.cons.inj he).1 hminus
  · rename_i he
    exact absurd (List.cons.inj he).1 hplus
  · rfl

theorem scanSigned_append (h : SpellsYear y year) (hs : NoDigit rest)
    (hy : -2147483648 ≤ y ∧ y ≤ 2147483647) : scanSigned (year ++ rest) = .ok (y, rest) := by
  have hnumber {ds : List Char} (hd : Digits ds) (hb : ofDigits ds < 9223372036854775808) :
      scanNumber (ds ++ rest).length (ds ++ rest) = .ok (ofDigits ds, rest) :=
    scanNumber_append hd (List.length_append ▸ Nat.le_add_right _ _) (.inr hs) hb
  cases h with
  | plain hd hl =>
    have hscan : scanNumber 4 (year ++ rest) = .ok (ofDigits year, rest) :=
      scanNumber_append hd hl (.inr hs) (by omega)
    obtain ⟨c, ds, rfl⟩ := List.exists_cons_of_ne_nil hd.ne_nil
    rw [List.cons_append] at hscan ⊢
    rw [scanSigned_of_digit (hd.isDigit c List.mem_cons_self), hscan]
    rfl
  | plus hd =>
    rw [List.cons_append, scanSigned, hnumber hd (by omega)]
    rfl
  | minus hd =>
    rw [List.cons_append, scanSigned, hnumber hd (by omega)]
    rfl

theorem exists_of_scanSigned (h : scanSigned cs = .ok (y, rest)) :
    ∃ year, SpellsYear y year ∧ cs = year ++ rest := by
  unfold scanSigned at h
  split at h
  · rename_i r
    obtain ⟨⟨n, rest⟩, hn, ⟨⟩⟩ := map_eq_ok_iff.mp h
    have hr : 0 < r.length := List.length_pos_iff.mpr fun hr => by
      rw [hr] at hn
      cases hn
    obtain ⟨ds, hd, -, -, hcs, rfl⟩ := exists_of_scanNumber hr hn
    exact ⟨_, .minus hd, congrArg _ hcs⟩
  · rename_i r
    obtain ⟨⟨n, rest⟩, hn, ⟨⟩⟩ := map_eq_ok_iff.mp h
    have hr : 0 < r.length := List.length_pos_iff.mpr fun hr => by
      rw [hr] at hn
      cases hn
    obtain ⟨ds, hd, -, -, hcs, rfl⟩ := exists_of_scanNumber hr hn
    exact ⟨_, .plus hd, congrArg _ hcs⟩
  · obtain ⟨⟨n, rest⟩, hn, ⟨⟩⟩ := map_eq_ok_iff.mp h
    obtain ⟨ds, hd, hl, -, hcs, rfl⟩ := exists_of_scanNumber (by decide) hn
    exact ⟨_, .plain hd hl, hcs⟩

theorem scanYear_append (hg : Blank gap) (h : SpellsYear y year) (hs : NoDigit rest)
    (hy : -2147483648 ≤ y ∧ y ≤ 2147483647) :
    scanYear (gap ++ (year ++ rest)) = .ok (y, rest) := by
  have hskip : skipBlank (gap ++ (year ++ rest)) = year ++ rest := by
    obtain ⟨c, cs, rfl, hc⟩ := h.exists_cons
    exact skipBlank_append_cons hg hc _
  rw [scanYear_eq, hskip, scanSigned_append h hs hy]
  exact if_pos hy

theorem exists_of_scanYear (h : scanYear cs = .ok (y, rest)) :
    ∃ gap year, Blank gap ∧ SpellsYear y year ∧ cs = gap ++ (year ++ rest) := by
  obtain ⟨gap, hg, hcs⟩ := exists_blank cs
  rw [scanYear_eq] at h
  obtain ⟨⟨z, r⟩, hz, h⟩ := bind_eq_ok_iff.mp h
  dsimp only at h
  split at h
  · cases h
    obtain ⟨year, hyear, hr⟩ := exists_of_scanSigned hz
    exact ⟨gap, year, hg, hyear, by rw [← hr, ← hcs]⟩
  · cases h

end Year

theorem scanMark_append (hg : Blank gap) {mark : Char} (hm : isBlank mark = false)
    (rest : List Char) : scanMark mark (gap ++ mark :: rest) = .ok rest := by
  rw [scanMark, skipBlank_append_cons hg hm]
  exact if_pos rfl

theorem exists_of_scanMark {mark : Char} (h : scanMark mark cs = .ok rest) :
    ∃ gap, Blank gap ∧ cs = gap ++ mark :: rest := by
  obtain ⟨gap, hg, hcs⟩ := exists_blank cs
  rw [scanMark] at h
  split at h
  · cases h
  · rename_i hskip
    split at h
    · rename_i hc
      cases h
      exact ⟨gap, hg, by rw [← hc, ← hskip, ← hcs]⟩
    · cases h

theorem scanEnd_eq_ok_iff : scanEnd cs = .ok () ↔ Blank cs := by
  have hskip : skipBlank cs = [] ↔ Blank cs := by
    rw [skipBlank, List.dropWhile_eq_nil_iff]
    rfl
  rw [scanEnd, ← hskip, ← List.isEmpty_iff]
  cases (skipBlank cs).isEmpty <;> simp

end Takings.Calendar
