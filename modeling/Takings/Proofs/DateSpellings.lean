import Takings.Calendar.DateText
import Takings.Proofs.DaysBack
import Takings.Proofs.ScannedParts

/-!
# Spellings of dates

A day can be spelled in many ways: with a sign before the year, with or without zeros before the
numbers, and with white space around the dashes. A text is read as a day exactly if it spells that
day. One of the spellings of a day is canonical, and days are written in that one.
-/
namespace Takings

open Calendar Text

/-! ### Padded numbers -/

namespace Text

/-- Digits of a number with zeros in front up to a width, and none beyond it. -/
structure SpellsPadded (width n : Nat) (ds : List Char) : Prop where
  digits : Digits ds
  value : ofDigits ds = n
  length : ds.length = width ∨ width < ds.length ∧ ds.head? ≠ some '0'

variable {width n : Nat} {ds : List Char}

theorem digits_digits (n : Nat) : Digits (digits n) :=
  ⟨digits_ne_nil n, fun _ hc => isDigit_of_mem_digits hc⟩

theorem digits_padded (width n : Nat) : Digits (padded width n) where
  ne_nil h := digits_ne_nil n (List.append_eq_nil_iff.mp h).2
  isDigit c hc := by
    rcases List.mem_append.mp hc with hc | hc
    · rw [List.eq_of_mem_replicate hc]
      rfl
    · exact isDigit_of_mem_digits hc

theorem ofDigits_zeros_append (k : Nat) (ds : List Char) :
    ofDigits (List.replicate k '0' ++ ds) = ofDigits ds := by
  induction k with
  | zero => rfl
  | succ k ih => exact ih

theorem ofDigits_padded (width n : Nat) : ofDigits (padded width n) = n := by
  rw [padded, ofDigits_zeros_append, ofDigits_digits]

theorem length_padded (width n : Nat) :
    (padded width n).length = max width (digits n).length := by
  simp only [padded, List.length_append, List.length_replicate]
  omega

theorem length_digits_le_iff {k : Nat} (hk : 0 < k) : (digits n).length ≤ k ↔ n < 10 ^ k :=
  Nat.length_toDigits_le_iff (by decide) hk

/-- Numbers but zero do not begin with a zero. -/
theorem head?_digits_ne (hn : 0 < n) : (digits n).head? ≠ some '0' := by
  intro h
  obtain ⟨ds, hds⟩ := List.head?_eq_some_iff.mp h
  have hdigits := digits_digits n
  have hvalue := ofDigits_digits n
  rw [hds] at hdigits hvalue
  have hrest : ofDigits ds = n := hvalue
  cases ds with
  | nil =>
    cases hrest
    exact Nat.lt_irrefl _ hn
  | cons c ds =>
    have hd : Digits (c :: ds) :=
      ⟨List.cons_ne_nil _ _, fun d hd => hdigits.isDigit d (List.mem_cons_of_mem _ hd)⟩
    have hlt := hd.ofDigits_lt
    rw [hrest, ← length_digits_le_iff (k := (c :: ds).length) (Nat.succ_pos _), hds] at hlt
    exact Nat.not_succ_le_self _ hlt

/-- Digits with a zero in front only if there must be one are those of their number. -/
theorem digits_ofDigits_of_head (h : Digits ds) (h0 : ds.head? ≠ some '0') :
    digits (ofDigits ds) = ds := by
  refine digits_ofDigits ?_ h.isDigit
  obtain ⟨c, ds, rfl⟩ := List.exists_cons_of_ne_nil h.ne_nil
  have hc : c ≠ '0' := fun hc => h0 (hc ▸ rfl)
  cases ds <;> simp [Json.Numeral.properWhole, hc]

theorem padded_length_ofDigits (h : ∀ c ∈ ds, c.isDigit = true) (hne : ds ≠ []) :
    padded ds.length (ofDigits ds) = ds := by
  induction ds with
  | nil => exact absurd rfl hne
  | cons c ds ih =>
    obtain ⟨hc, hds⟩ := List.forall_mem_cons.mp h
    by_cases h0 : c = '0'
    · subst h0
      cases ds with
      | nil => rfl
      | cons d ds =>
        have hrest := ih hds (List.cons_ne_nil _ _)
        have hlength := length_padded (d :: ds).length (ofDigits (d :: ds))
        rw [hrest] at hlength
        have hzeros : ('0' :: d :: ds).length - (digits (ofDigits (d :: ds))).length =
            (d :: ds).length - (digits (ofDigits (d :: ds))).length + 1 := by
          rw [List.length_cons]
          omega
        have hvalue : ofDigits ('0' :: d :: ds) = ofDigits (d :: ds) := rfl
        rw [padded] at hrest ⊢
        rw [hvalue, hzeros, List.replicate_succ, List.cons_append, hrest]
    · have hd : Digits (c :: ds) := ⟨hne, h⟩
      have hdigits := digits_ofDigits_of_head hd fun hz => h0 (Option.some.inj hz)
      rw [padded, hdigits]
      simp

/-- A number has one padded spelling. -/
theorem spellsPadded_iff (hw : 0 < width) : SpellsPadded width n ds ↔ ds = padded width n := by
  constructor
  · rintro ⟨hd, rfl, rfl | ⟨hl, h0⟩⟩
    · exact (padded_length_ofDigits hd.isDigit hd.ne_nil).symm
    · rw [padded, digits_ofDigits_of_head hd h0, Nat.sub_eq_zero_of_le (Nat.le_of_lt hl)]
      rfl
  · rintro rfl
    refine ⟨digits_padded width n, ofDigits_padded width n, ?_⟩
    rw [length_padded]
    rcases Nat.lt_or_ge width (digits n).length with h | h
    · refine .inr ⟨by omega, ?_⟩
      have hn : 0 < n := by
        rw [← Nat.not_le, length_digits_le_iff hw, Nat.not_lt] at h
        exact Nat.lt_of_lt_of_le (Nat.pow_pos (by decide)) h
      rw [padded, Nat.sub_eq_zero_of_le (Nat.le_of_lt h)]
      exact head?_digits_ne hn
    · exact .inl (by omega)

theorem SpellsPadded.spellsPart (h : SpellsPadded 2 n ds) (hn : n < 100) : SpellsPart n ds where
  digits := h.digits
  length_le := by
    have hle := (length_digits_le_iff (k := 2) (by decide)).mpr hn
    rw [(spellsPadded_iff (by decide)).mp h, length_padded]
    omega
  value := h.value

end Text

/-! ### Dates -/

namespace Date

variable {d : Date} {cs : List Char}

/-- The spellings of a day: the year, the month and the day of the month with dashes between them,
and any white space around each. -/
inductive Spells (d : Date) : List Char → Prop
  | parts {before year afterYear beforeMonth month afterMonth beforeDay day after : List Char}
      (hy : SpellsYear d.year year) (hm : SpellsPart d.month month) (hd : SpellsPart d.day day)
      (hg : ∀ gap ∈ [before, afterYear, beforeMonth, afterMonth, beforeDay, after], Blank gap) :
      Spells d (before ++ (year ++ (afterYear ++ '-' :: (beforeMonth ++ (month ++
        (afterMonth ++ '-' :: (beforeDay ++ (day ++ after))))))))

/-- The canonical spelling of a year: four digits from 0 to 9999, else a sign and at least four. -/
inductive CanonicalYear : Int → List Char → Prop
  | plain {n : Nat} {ds : List Char} (h : SpellsPadded 4 n ds) (hn : n ≤ 9999) : CanonicalYear n ds
  | plus {n : Nat} {ds : List Char} (h : SpellsPadded 4 n ds) (hn : 9999 < n) :
      CanonicalYear n ('+' :: ds)
  | minus {n : Nat} {ds : List Char} (h : SpellsPadded 4 n ds) (hn : 0 < n) :
      CanonicalYear (-(n : Int)) ('-' :: ds)

/-- The canonical spelling of a day: no white space, and two digits for the month and the day. -/
inductive IsCanonical (d : Date) : List Char → Prop
  | parts {year month day : List Char} (hy : CanonicalYear d.year year)
      (hm : SpellsPadded 2 d.month month) (hd : SpellsPadded 2 d.day day) :
      IsCanonical d (year ++ '-' :: (month ++ '-' :: day))

/-! ### Reading -/

theorem ofParts?_eq_some_iff {year : Int} {month day : Nat} :
    ofParts? year month day = some d ↔ d.year = year ∧ d.month = month ∧ d.day = day := by
  constructor
  · intro h
    rw [ofParts?] at h
    split at h
    · split at h
      · cases h
        exact ⟨rfl, rfl, rfl⟩
      · cases h
    · cases h
  · rintro ⟨rfl, rfl, rfl⟩
    exact ofParts?_eq_some d.year_mem d.day_mem

theorem spells_of_read (h : read cs = .ok d) : d.Spells cs := by
  obtain ⟨⟨year, r⟩, hyear, h⟩ := bind_eq_ok_iff.mp h
  obtain ⟨r', hmark, h⟩ := bind_eq_ok_iff.mp h
  obtain ⟨⟨month, r''⟩, hmonth, h⟩ := bind_eq_ok_iff.mp h
  obtain ⟨r₃, hmark', h⟩ := bind_eq_ok_iff.mp h
  obtain ⟨⟨day, after⟩, hday, h⟩ := bind_eq_ok_iff.mp h
  obtain ⟨⟨⟩, hend, h⟩ := bind_eq_ok_iff.mp h
  split at h
  · rename_i hparts
    cases h
    obtain ⟨rfl, rfl, rfl⟩ := ofParts?_eq_some_iff.mp hparts
    obtain ⟨before, ys, hg₀, hy, rfl⟩ := exists_of_scanYear hyear
    obtain ⟨afterYear, hg₁, rfl⟩ := exists_of_scanMark hmark
    obtain ⟨beforeMonth, ms, hg₂, hm, rfl⟩ := exists_of_scanPart hmonth
    obtain ⟨afterMonth, hg₃, rfl⟩ := exists_of_scanMark hmark'
    obtain ⟨beforeDay, ds, hg₄, hd, rfl⟩ := exists_of_scanPart hday
    have hg₅ := scanEnd_eq_ok_iff.mp hend
    exact .parts hy hm hd (by simp [hg₀, hg₁, hg₂, hg₃, hg₄, hg₅])
  · cases h

theorem day_le (d : Date) : d.day ≤ 31 :=
  Nat.le_trans d.day_mem.2 (daysIn_mem d.year d.month_mem).2

theorem read_of_spells (h : d.Spells cs) : read cs = .ok d := by
  cases h with
  | parts hy hm hd hg =>
    simp only [List.forall_mem_cons] at hg
    obtain ⟨hg₀, hg₁, hg₂, hg₃, hg₄, hg₅, -⟩ := hg
    have hdash (r : List Char) : NoDigit ('-' :: r) := noDigit_cons (by decide) r
    have hyear := d.year_mem
    simp only [firstYear, lastYear] at hyear
    refine bind_eq_ok_iff.mpr ⟨_, scanYear_append hg₀ hy (noDigit_append hg₁ (hdash _))
      (by omega), ?_⟩
    refine bind_eq_ok_iff.mpr ⟨_, scanMark_append hg₁ (by decide) _, ?_⟩
    refine bind_eq_ok_iff.mpr ⟨_, scanPart_append hg₂ hm (noDigit_append hg₃ (hdash _))
      d.month_mem, ?_⟩
    refine bind_eq_ok_iff.mpr ⟨_, scanMark_append hg₃ (by decide) _, ?_⟩
    refine bind_eq_ok_iff.mpr ⟨_, scanPart_append hg₄ hd (noDigit_of_blank hg₅)
      ⟨d.day_mem.1, d.day_le⟩, ?_⟩
    refine bind_eq_ok_iff.mpr ⟨_, scanEnd_eq_ok_iff.mpr hg₅, ?_⟩
    rw [ofParts?_eq_some_iff.mpr ⟨rfl, rfl, rfl⟩]

/-- A text is read as a day exactly if it spells that day. -/
theorem read_eq_ok_iff : read cs = .ok d ↔ d.Spells cs :=
  ⟨spells_of_read, read_of_spells⟩

/-- A text that spells a day spells no other one. -/
theorem Spells.iff_eq (h : d.Spells cs) {e : Date} : e.Spells cs ↔ e = d := by
  rw [← read_eq_ok_iff, read_of_spells h, Except.ok.injEq, eq_comm]

/-! ### Writing -/

theorem canonicalYear_iff {y : Int} : CanonicalYear y cs ↔ cs = yearText y := by
  have hpadded {n : Nat} {ds : List Char} : SpellsPadded 4 n ds ↔ ds = padded 4 n :=
    spellsPadded_iff (by decide)
  constructor
  · rintro (⟨h, hn⟩ | ⟨h, hn⟩ | ⟨h, hn⟩)
    · rw [yearText, if_neg (by omega), if_pos (by omega), hpadded.mp h]
      rfl
    · rw [yearText, if_neg (by omega), if_neg (by omega), hpadded.mp h]
      rfl
    · rw [yearText, if_pos (by omega), hpadded.mp h, Int.natAbs_neg]
      rfl
  · rintro rfl
    rw [yearText]
    split
    · have hy : y = -(y.natAbs : Int) := by omega
      nth_rewrite 1 [hy]
      exact .minus (hpadded.mpr rfl) (by omega)
    · have hy : y = (y.natAbs : Int) := by omega
      split
      · nth_rewrite 1 [hy]
        exact .plain (hpadded.mpr rfl) (by omega)
      · nth_rewrite 1 [hy]
        exact .plus (hpadded.mpr rfl) (by omega)

/-- A day has one canonical spelling, and it is written so. -/
theorem isCanonical_iff : d.IsCanonical cs ↔ cs = d.write := by
  have hpadded {n : Nat} {ds : List Char} : SpellsPadded 2 n ds ↔ ds = padded 2 n :=
    spellsPadded_iff (by decide)
  constructor
  · rintro ⟨hy, hm, hd⟩
    rw [write, canonicalYear_iff.mp hy, hpadded.mp hm, hpadded.mp hd]
  · rintro rfl
    exact .parts (canonicalYear_iff.mpr rfl) (hpadded.mpr rfl) (hpadded.mpr rfl)

theorem CanonicalYear.spellsYear {y : Int} (h : CanonicalYear y cs) : SpellsYear y cs := by
  cases h with
  | plain h hn =>
    have hl := (length_digits_le_iff (k := 4) (by decide)).mpr (Nat.lt_succ_of_le hn)
    have hds := length_padded 4 (ofDigits cs)
    rw [← h.value] at hl ⊢
    rw [← (spellsPadded_iff (by decide)).mp (h.value ▸ h)] at hds
    exact .plain h.digits (by omega)
  | plus h _ =>
    rw [← h.value]
    exact .plus h.digits
  | minus h _ =>
    rw [← h.value]
    exact .minus h.digits

theorem IsCanonical.spells (h : d.IsCanonical cs) : d.Spells cs := by
  cases h with
  | @parts year month day hy hm hd =>
    have hmonth := d.month_mem
    have hday := d.day_le
    have h : d.Spells ([] ++ (year ++ ([] ++ '-' :: ([] ++ (month ++
        ([] ++ '-' :: ([] ++ (day ++ [])))))))) :=
      .parts hy.spellsYear (hm.spellsPart (by omega)) (hd.spellsPart (by omega))
        (by simp [blank_nil])
    simpa using h

/-- What is written for a day is its canonical spelling, and it is read as that day. -/
theorem isCanonical_text (d : Date) : d.IsCanonical d.text.toList := by
  rw [text, String.toList_ofList]
  exact isCanonical_iff.mpr rfl

end Date

end Takings
