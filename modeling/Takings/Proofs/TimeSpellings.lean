import Takings.Calendar.TimeOfDay
import Takings.Proofs.FixedOffsets
import Takings.Proofs.ScannedParts

/-!
# Spellings of times

A time can be spelled with or without its seconds, these with or without a fraction, and with white
space around the parts. A text is read as a time exactly if it spells that time.
-/
namespace Takings.TimeOfDay

open Calendar Text

/-- A fraction of a second: nothing, or a point and digits, of which nine count. -/
inductive SpellsFraction : Nat → List Char → Prop
  | none : SpellsFraction 0 []
  | digits {ds more : List Char} (hd : Digits ds) (hl : ds.length ≤ 9)
      (hm : ∀ c ∈ more, c.isDigit = true) (hs : ds.length = 9 ∨ more = []) :
      SpellsFraction (ofDigits ds * Nat.pow 10 (9 - ds.length)) ('.' :: (ds ++ more))

/-- What stands behind the minutes: white space, or a colon and the seconds with a fraction. -/
inductive SpellsSeconds : Nat → Nat → List Char → Prop
  | none {after : List Char} (hg : Blank after) : SpellsSeconds 0 0 after
  | seconds {second nano : Nat} {before gap ds fraction after : List Char}
      (hs : SpellsPart second ds) (hf : SpellsFraction nano fraction)
      (hg : ∀ g ∈ [before, gap, after], Blank g) :
      SpellsSeconds second nano (before ++ ':' :: (gap ++ (ds ++ (fraction ++ after))))

/-- The spellings of a time. -/
inductive Spells (t : TimeOfDay) : List Char → Prop
  | parts {h m second nano : Nat} {before hour afterHour gap minute seconds : List Char}
      (hh : SpellsPart h hour) (hm : SpellsPart m minute) (hs : SpellsSeconds second nano seconds)
      (ht : ofParts? h m second nano = some t)
      (hg : ∀ g ∈ [before, afterHour, gap], Blank g) :
      Spells t (before ++ (hour ++ (afterHour ++ ':' :: (gap ++ (minute ++ seconds)))))

variable {t : TimeOfDay} {cs rest fraction : List Char} {second nano : Nat}

/-! ### Fractions -/

theorem SpellsFraction.noDigit_append (h : SpellsFraction nano fraction) (hg : Blank rest) :
    NoDigit (fraction ++ rest) := by
  cases h with
  | none => exact noDigit_of_blank hg
  | digits => exact noDigit_cons (by decide) _

theorem scanFraction_of_blank (hg : Blank rest) : scanFraction rest = .ok (0, rest) := by
  unfold scanFraction
  split
  · exact absurd (hg '.' List.mem_cons_self) (by decide)
  · rfl

theorem scanFraction_append (h : SpellsFraction nano fraction) (hg : Blank rest) :
    scanFraction (fraction ++ rest) = .ok (nano, rest) := by
  cases h with
  | none => exact scanFraction_of_blank hg
  | @digits ds more hd hl hm hs =>
    have hstop : ds.length = 9 ∨ NoDigit (more ++ rest) := by
      refine hs.imp_right fun hmore => ?_
      rw [hmore]
      exact noDigit_of_blank hg
    have hlt := hd.ofDigits_lt_bound hl
    have hdrop : (more ++ rest).dropWhile Char.isDigit = rest := by
      rw [List.dropWhile_append_of_pos hm]
      cases rest with
      | nil => rfl
      | cons c rest => exact List.dropWhile_cons_of_neg (by simp [noDigit_of_blank hg c rfl])
    rw [List.cons_append, scanFraction, List.append_assoc, scanNumber_append hd hl hstop hlt]
    simp only [bind, Except.bind, hdrop, List.length_append, Nat.add_sub_cancel]

theorem exists_of_scanFraction (h : scanFraction cs = .ok (nano, rest)) :
    ∃ fraction, SpellsFraction nano fraction ∧ cs = fraction ++ rest := by
  unfold scanFraction at h
  split at h
  · rename_i r
    obtain ⟨⟨n, r'⟩, hn, ⟨⟩⟩ := bind_eq_ok_iff.mp h
    obtain ⟨ds, hd, hl, hs, rfl, rfl⟩ := exists_of_scanNumber (by decide) hn
    have hmore : ∀ c ∈ r'.takeWhile Char.isDigit, c.isDigit = true :=
      List.all_eq_true.mp List.all_takeWhile
    have hstop : ds.length = 9 ∨ r'.takeWhile Char.isDigit = [] := by
      refine hs.imp_right fun hr => ?_
      cases r' with
      | nil => rfl
      | cons c r' => exact List.takeWhile_cons_of_neg (by simp [hr c rfl])
    rw [List.length_append, Nat.add_sub_cancel]
    refine ⟨_, .digits hd hl hmore hstop, ?_⟩
    rw [List.cons_append, List.append_assoc, List.takeWhile_append_dropWhile]
  · cases h
    exact ⟨[], .none, rfl⟩

/-! ### Seconds -/

theorem scanSeconds_of_blank (hg : Blank cs) : scanSeconds cs = .error .endsEarly := by
  have hskip : skipBlank cs = [] := by
    rw [← List.append_nil cs, skipBlank_append_of_blank hg]
    rfl
  have hmark : scanMark ':' cs = .error .endsEarly := by
    rw [scanMark, hskip]
  rw [scanSeconds, hmark]
  rfl

/-- Seconds that are spelled are read, and those that are not written are none. -/
theorem scanSeconds_of_spells (h : SpellsSeconds second nano cs) (hs : second ≤ 60) :
    (∃ rest, scanSeconds cs = .ok (second, nano, rest) ∧ Blank rest) ∨
      scanSeconds cs = .error .endsEarly ∧ second = 0 ∧ nano = 0 ∧ Blank cs := by
  cases h with
  | none hg => exact .inr ⟨scanSeconds_of_blank hg, rfl, rfl, hg⟩
  | @seconds _ _ before gap ds fraction after hp hf hg =>
    simp only [List.forall_mem_cons] at hg
    obtain ⟨hbefore, hgap, hafter, -⟩ := hg
    refine .inl ⟨skipBlank after, ?_, blank_skipBlank_iff.mpr hafter⟩
    refine bind_eq_ok_iff.mpr ⟨_, scanMark_append hbefore (by decide) _, ?_⟩
    refine bind_eq_ok_iff.mpr ⟨_, scanPart_append hgap hp (hf.noDigit_append hafter)
      ⟨Nat.zero_le _, hs⟩, ?_⟩
    exact bind_eq_ok_iff.mpr ⟨_, scanFraction_append hf hafter, rfl⟩

theorem spells_of_scanSeconds (h : scanSeconds cs = .ok (second, nano, rest)) (hg : Blank rest) :
    SpellsSeconds second nano cs := by
  obtain ⟨r₁, hmark, h⟩ := bind_eq_ok_iff.mp h
  obtain ⟨⟨s, r₂⟩, hpart, h⟩ := bind_eq_ok_iff.mp h
  obtain ⟨⟨n, r₃⟩, hfraction, h⟩ := bind_eq_ok_iff.mp h
  cases h
  obtain ⟨before, hbefore, rfl⟩ := exists_of_scanMark hmark
  obtain ⟨gap, ds, hgap, hp, rfl⟩ := exists_of_scanPart hpart
  obtain ⟨fraction, hf, rfl⟩ := exists_of_scanFraction hfraction
  exact .seconds hp hf (by simp [hbefore, hgap, blank_skipBlank_iff.mp hg])

/-! ### Times -/

theorem SpellsSeconds.noDigit (h : SpellsSeconds second nano cs) : NoDigit cs := by
  cases h with
  | none hg => exact noDigit_of_blank hg
  | seconds _ _ hg => exact noDigit_append (hg _ List.mem_cons_self) (noDigit_cons (by decide) _)

theorem spells_of_read (h : read cs = .ok t) : t.Spells cs := by
  obtain ⟨⟨hour, r₁⟩, hhour, h⟩ := bind_eq_ok_iff.mp h
  obtain ⟨r₂, hmark, h⟩ := bind_eq_ok_iff.mp h
  obtain ⟨⟨minute, r₃⟩, hminute, h⟩ := bind_eq_ok_iff.mp h
  dsimp only at h
  obtain ⟨⟨⟩, hend, h⟩ := bind_eq_ok_iff.mp h
  have hrest := scanEnd_eq_ok_iff.mp hend
  split at h
  · rename_i t' ht
    cases h
    obtain ⟨before, hs, hg₀, hh, rfl⟩ := exists_of_scanPart hhour
    obtain ⟨afterHour, hg₁, rfl⟩ := exists_of_scanMark hmark
    obtain ⟨gap, ms, hg₂, hm, rfl⟩ := exists_of_scanPart hminute
    have hgaps : ∀ g ∈ [before, afterHour, gap], Blank g := by simp [hg₀, hg₁, hg₂]
    cases hseconds : scanSeconds r₃ with
    | ok r =>
      rw [hseconds] at hrest ht
      exact .parts hh hm (spells_of_scanSeconds hseconds hrest) ht hgaps
    | error e =>
      rw [hseconds] at hrest ht
      exact .parts hh hm (.none hrest) ht hgaps
  · cases h

theorem read_of_spells (h : t.Spells cs) : read cs = .ok t := by
  cases h with
  | parts hh hm hs ht hg =>
    simp only [List.forall_mem_cons] at hg
    obtain ⟨hg₀, hg₁, hg₂, -⟩ := hg
    obtain ⟨⟨hhour, hminute, hsecond, -⟩, -⟩ := ofParts?_eq_some_iff.mp ht
    refine bind_eq_ok_iff.mpr ⟨_, scanPart_append hg₀ hh
      (noDigit_append hg₁ (noDigit_cons (by decide) _)) ⟨Nat.zero_le _, by omega⟩, ?_⟩
    refine bind_eq_ok_iff.mpr ⟨_, scanMark_append hg₁ (by decide) _, ?_⟩
    refine bind_eq_ok_iff.mpr ⟨_, scanPart_append hg₂ hm hs.noDigit
      ⟨Nat.zero_le _, by omega⟩, ?_⟩
    obtain ⟨rest, hseconds, hrest⟩ | ⟨hseconds, rfl, rfl, hrest⟩ := scanSeconds_of_spells hs hsecond
    · simp only [hseconds]
      refine bind_eq_ok_iff.mpr ⟨_, scanEnd_eq_ok_iff.mpr hrest, ?_⟩
      rw [ht]
    · simp only [hseconds]
      refine bind_eq_ok_iff.mpr ⟨_, scanEnd_eq_ok_iff.mpr hrest, ?_⟩
      rw [ht]

/-- A text is read as a time exactly if it spells that time. -/
theorem read_eq_ok_iff : read cs = .ok t ↔ t.Spells cs :=
  ⟨spells_of_read, read_of_spells⟩

end Takings.TimeOfDay
