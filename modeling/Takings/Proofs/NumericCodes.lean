import Takings.Proofs.CompositeConditions
import Takings.Proofs.DecimalTexts

/-!
# Numeric codes

A composite filter whose value is a whole number. Numbers of 64 bits are compared as they are
written, like texts. Numbers that are greater, and zero with a minus sign, become numbers of binary
floating point first, and what is compared is the text of those. Of a greater number only the digits
that fit 64 bits count, and a power of ten stands for the others.
-/
namespace Takings

open Takings.Filter

/-! ### Whole numbers -/

namespace Json.Numeral

variable {n : Numeral}

/-- The number has 64 bits, with a sign if one is written, and is no zero with a minus sign. -/
def Exact (n : Numeral) : Prop :=
  n.negative = false ∧ Text.ofDigits n.whole < 18446744073709551616 ∨
    n.negative = true ∧ 0 < Text.ofDigits n.whole ∧ Text.ofDigits n.whole ≤ 9223372036854775808

instance : Decidable n.Exact :=
  inferInstanceAs (Decidable (_ ∨ _))

/-- Digits are cut in two where 64 bits end: the number in front of the cut fits them, and with one
digit more it would not. -/
structure CutAtWord (digits kept dropped : List Char) : Prop where
  append : digits = kept ++ dropped
  fits : Text.ofDigits kept < 18446744073709551616
  full : ∀ c ∈ dropped.head?, 18446744073709551616 ≤ Text.ofDigits (kept ++ [c])

/-- By induction on the digits, for any number in front of them that fits. -/
theorem exists_takeFitting (cs : List Char) {m : Nat} (hm : m < 18446744073709551616) :
    ∃ kept dropped, cs = kept ++ dropped ∧
      takeFitting m cs = (kept.foldl (fun n c => 10 * n + Text.digitValue c) m, dropped) ∧
      kept.foldl (fun n c => 10 * n + Text.digitValue c) m < 18446744073709551616 ∧
      ∀ c ∈ dropped.head?, 18446744073709551616 ≤
        10 * kept.foldl (fun n c => 10 * n + Text.digitValue c) m + Text.digitValue c := by
  induction cs generalizing m with
  | nil => exact ⟨[], [], rfl, rfl, hm, by simp⟩
  | cons c cs ih =>
    by_cases hnext : 10 * m + Text.digitValue c < 18446744073709551616
    · obtain ⟨kept, dropped, rfl, htake, hfits, hfull⟩ := ih hnext
      refine ⟨c :: kept, dropped, rfl, ?_, hfits, hfull⟩
      simp only [takeFitting, if_pos hnext, htake, List.foldl_cons]
    · refine ⟨[], c :: cs, rfl, ?_, hm, ?_⟩
      · simp only [takeFitting, if_neg hnext, List.foldl_nil]
      · intro d hd
        cases hd
        exact Nat.le_of_not_lt hnext

theorem exists_cutAtWord (digits : List Char) : ∃ kept dropped, CutAtWord digits kept dropped ∧
    takeFitting 0 digits = (Text.ofDigits kept, dropped) := by
  obtain ⟨kept, dropped, happend, htake, hfits, hfull⟩ :=
    exists_takeFitting digits (m := 0) (by decide)
  refine ⟨kept, dropped, ⟨happend, hfits, fun c hc => ?_⟩, htake⟩
  rw [Text.ofDigits, List.foldl_append]
  exact hfull c hc

theorem eq_of_isWhole (h : n.isWhole = true) : n = ⟨n.negative, n.whole, [], none⟩ := by
  obtain ⟨negative, whole, fraction, exponent⟩ := n
  simp only [isWhole, Bool.and_eq_true, List.isEmpty_iff, Option.isNone_iff_eq_none] at h
  rw [h.1, h.2]

theorem write_of_isWhole (h : n.isWhole = true) :
    n.write = (if n.negative then ['-'] else []) ++ n.whole := by
  rw [eq_of_isWhole h]
  simp [write]

theorem value?_of_exact (h : n.isWhole = true) (he : n.Exact) :
    n.value? = some (.int
      (if n.negative then -(Text.ofDigits n.whole : Int) else Text.ofDigits n.whole)) := by
  rcases he with ⟨hn, hlt⟩ | ⟨hn, hpos, hle⟩
  · have hp : n.isWhole = true ∧ (!n.negative) = true ∧
        Text.ofDigits n.whole < 18446744073709551616 :=
      ⟨h, by rw [hn]; rfl, hlt⟩
    simp only [value?, if_pos hp]
    rw [if_neg (by simp [hn])]
  · have hp : ¬ (n.isWhole = true ∧ (!n.negative) = true ∧
        Text.ofDigits n.whole < 18446744073709551616) := by
      simp [hn]
    have hm : n.isWhole = true ∧ n.negative = true ∧
        0 < Text.ofDigits n.whole ∧ Text.ofDigits n.whole ≤ 9223372036854775808 :=
      ⟨h, hn, hpos, hle⟩
    simp only [value?, if_neg hp, if_pos hm, if_pos hn]

theorem value?_of_not_exact (he : ¬ n.Exact) :
    n.value? = if hf : n.double.isFinite = true then some (.float n.double hf) else none := by
  simp only [Exact, not_or, not_and] at he
  obtain ⟨hpos, hneg⟩ := he
  have hp : ¬ (n.isWhole = true ∧ (!n.negative) = true ∧
      Text.ofDigits n.whole < 18446744073709551616) :=
    fun ⟨_, hn, hlt⟩ => hpos (by simpa using hn) hlt
  have hm : ¬ (n.isWhole = true ∧ n.negative = true ∧
      0 < Text.ofDigits n.whole ∧ Text.ofDigits n.whole ≤ 9223372036854775808) :=
    fun ⟨_, hn, hlt, hle⟩ => hneg hn hlt hle
  simp only [value?, hp, hm, if_false]

/-- The digits of a whole number that do not fit 64 bits only count by how many they are. -/
theorem exists_double_eq (h : n.isWhole = true) : ∃ kept dropped,
    CutAtWord n.whole kept dropped ∧ n.double =
      .ofDecimal n.negative (Text.ofDigits kept) (Word.wrapNarrow dropped.length) := by
  obtain ⟨kept, dropped, hcut, htake⟩ := exists_cutAtWord n.whole
  refine ⟨kept, dropped, hcut, ?_⟩
  rw [eq_of_isWhole h]
  simp [double, scaled, htake, takeFitting]

theorem digits_of_wellFormed (h : n.wellFormed = true) :
    (∀ c ∈ n.whole, c.isDigit = true) ∧ Text.digits (Text.ofDigits n.whole) = n.whole := by
  simp only [wellFormed, Bool.and_eq_true] at h
  have hd := List.all_eq_true.mp h.1.1.2
  exact ⟨hd, Text.digits_ofDigits h.1.1.1 hd⟩

theorem intText_of_exact (hf : n.wellFormed = true) (h : n.isWhole = true) (he : n.Exact) :
    Text.intText (if n.negative then -(Text.ofDigits n.whole : Int) else Text.ofDigits n.whole) =
      String.ofList n.write := by
  obtain ⟨-, hd⟩ := digits_of_wellFormed hf
  rw [write_of_isWhole h]
  rcases he with ⟨hn, -⟩ | ⟨hn, hpos, -⟩
  · rw [hn, if_neg Bool.false_ne_true, if_neg Bool.false_ne_true, List.nil_append]
    exact congrArg String.ofList hd
  · obtain ⟨k, hk⟩ := Nat.exists_eq_succ_of_ne_zero (Nat.ne_of_gt hpos)
    rw [hk] at hd
    rw [hn, if_pos rfl, if_pos rfl, hk, ← hd]
    exact String.ofList_append.symm

/-- Digits and a sign are all that whole numbers are written with. -/
theorem isNumeric_of_mem_write (hf : n.wellFormed = true) (h : n.isWhole = true) :
    ∀ c ∈ n.write, Text.isNumeric c = true ∧ c ≠ '.' ∧ c ≠ 'e' := by
  obtain ⟨hd, -⟩ := digits_of_wellFormed hf
  rw [write_of_isWhole h, List.forall_mem_append]
  constructor
  · split <;> simp [Text.isNumeric]
  · intro c hc
    refine ⟨Text.isNumeric_of_isDigit (hd c hc), ?_, ?_⟩ <;> rintro rfl <;> cases hd _ hc

theorem write_ne_nil (hf : n.wellFormed = true) : n.write ≠ [] := by
  obtain ⟨c, r, hc, -⟩ := Tree.exists_start_number hf
  rw [hc]
  exact List.cons_ne_nil c r

end Json.Numeral

/-! ### The filters of whole numbers -/

namespace Filter.Composite

open Json

variable {n : Numeral}

theorem active?_write (hw : n.isWhole = true) (hf : n.wellFormed = true) :
    active? (String.ofList n.write) = some (String.ofList n.write) :=
  active?_of_isNumeric (Numeral.write_ne_nil hf)
    fun c hc => (Numeral.isNumeric_of_mem_write hf hw c hc).1

variable {l : Level} {key text : String} {t : Tree} (hk : key ∈ l.keys)
  (ht : t.IsText text.toList) (hh : Holds t key (.number n)) (hw : n.isWhole = true)
  (hf : n.wellFormed = true)

include hk ht hh

/-- A whole number that is not exact filters by the text of the number of binary floating point that
it comes to, if that is finite. -/
theorem filter?_of_not_exact (he : ¬ n.Exact) : filter? l.hierarchy text =
    if n.double.isFinite then some ⟨l, String.ofList n.double.text⟩ else none := by
  rw [filter?_of_holds ht hh hk, valueText?, Numeral.value?_of_not_exact he]
  split
  · rename_i hfinite
    have hne : n.double.text ≠ [] := by
      rcases Binary64.mark_mem_text hfinite with hm | hm <;> exact List.ne_nil_of_mem hm
    rw [Option.bind_some, scalarText?, Option.bind_some,
      active?_of_isNumeric hne Binary64.isNumeric_of_mem_text, Option.map_some]
  · rfl

include hw hf

/-- A whole number of 64 bits filters by the text that it is written as. -/
theorem filter?_of_exact (he : n.Exact) :
    filter? l.hierarchy text = some ⟨l, String.ofList n.write⟩ := by
  have hv : valueText? (.number n) = some (String.ofList n.write) := by
    rw [valueText?, Numeral.value?_of_exact hw he, Option.bind_some, scalarText?,
      Numeral.intText_of_exact hf hw he]
  rw [filter?_of_holds ht hh hk, hv, Option.bind_some, active?_write hw hf, Option.map_some]

theorem filter?_eq_write_iff :
    filter? l.hierarchy text = some ⟨l, String.ofList n.write⟩ ↔ n.Exact := by
  refine ⟨fun h => ?_, filter?_of_exact hk ht hh hw hf⟩
  by_contra he
  rw [filter?_of_not_exact hk ht hh he] at h
  split at h
  · rename_i hfinite
    have htext : n.double.text = n.write := by
      simpa [String.ofList_inj] using h
    -- What is not whole has a mark, and what is written as a whole number has none.
    rcases Binary64.mark_mem_text hfinite with hm | hm <;> rw [htext] at hm
    · exact (Numeral.isNumeric_of_mem_write hf hw _ hm).2.1 rfl
    · exact (Numeral.isNumeric_of_mem_write hf hw _ hm).2.2 rfl
  · cases h

end Filter.Composite

/-! ### Queries -/

theorem Template.binds_query (t : Template) (cs : List Condition) :
    (t.query cs).binds = cs.map Condition.value ++ t.limit?.toList.map .int := by
  rw [query, build, binds_number]

/-- The summary tells the values of filters on a hierarchy apart. -/
theorem Report.value_of_build?_summary {p : Params} {h : Hierarchy} {value value' : Option String}
    {today : Date} {w : Window} (hw : (Period.ofText p.timePeriod).window? today = some w)
    (hq : Report.build? .summary (p.setComposite h value) today =
      Report.build? .summary (p.setComposite h value') today) :
    (value.bind (Composite.filter? h)).map LevelFilter.value =
      (value'.bind (Composite.filter? h)).map LevelFilter.value := by
  obtain ⟨before, after, hc⟩ := Report.exists_conditions_setComposite .summary p h w
  have hbinds := congrArg (Option.map Query.binds) hq
  simp only [build?_setComposite hw, hc, Option.map_some, Template.binds_query, List.map_append,
    Option.some.injEq, List.append_cancel_left_eq, List.append_cancel_right_eq] at hbinds
  revert hbinds
  cases value.bind (Composite.filter? h) <;> cases value'.bind (Composite.filter? h) <;>
    simp [Report.excluded?, LevelFilter.condition, Option.filter]

/-- A numeric code filters by just the text that it is written as if it is a number of 64 bits and
no zero with a minus sign; then, and only then, every query is the one of that text as a string.
Else it filters by the text of the number of binary floating point that its digits up to the end of
64 bits make with the power of ten for the others, or not at all if that is not finite. -/
theorem numeric_code_binds_its_text_iff {l : Level} {key text : String} {t : Json.Tree}
    {n : Json.Numeral} (hk : key ∈ l.keys) (ht : t.IsText text.toList)
    (hh : Composite.Holds t key (.number n)) (hf : n.wellFormed = true) (hw : n.isWhole = true) :
    (Composite.filter? l.hierarchy text = some ⟨l, String.ofList n.write⟩ ↔ n.Exact) ∧
      (¬ n.Exact → ∃ kept dropped, Json.Numeral.CutAtWord n.whole kept dropped ∧
        let x := Binary64.ofDecimal n.negative (Text.ofDigits kept)
          (Word.wrapNarrow dropped.length)
        Composite.filter? l.hierarchy text =
          if x.isFinite then some ⟨l, String.ofList x.text⟩ else none) ∧
      ∀ (text' key' : String) (t' : Json.Tree) (s : Json.Literal), key' ∈ l.keys →
        t'.IsText text'.toList → Composite.Holds t' key' (.string s) → s.Denotes n.write →
        ((∀ (r : Report) (p : Params) (today : Date),
          r.build? (p.setComposite l.hierarchy (some text)) today =
            r.build? (p.setComposite l.hierarchy (some text')) today) ↔ n.Exact) := by
  refine ⟨Composite.filter?_eq_write_iff hk ht hh hw hf, fun he => ?_, ?_⟩
  · obtain ⟨kept, dropped, hcut, hdouble⟩ := Json.Numeral.exists_double_eq hw
    refine ⟨kept, dropped, hcut, ?_⟩
    rw [Composite.filter?_of_not_exact hk ht hh he, hdouble]
  intro text' key' t' s hk' ht' hh' hs
  have hstring : Composite.filter? l.hierarchy text' = some ⟨l, String.ofList n.write⟩ := by
    have hv : Composite.valueText? (.string s) = some (String.ofList n.write) :=
      Composite.valueText?_eq_some_iff.mpr (.string (by rwa [String.toList_ofList]))
    rw [Composite.filter?_of_holds ht' hh' hk', hv, Option.bind_some,
      Composite.active?_write hw hf, Option.map_some]
  constructor
  · intro hq
    let day : Date := ⟨2025, 6, 1, by decide, by decide⟩
    have hwindow : (Period.ofText (some "today")).window? day = some ⟨day, day⟩ := rfl
    have hvalue := Report.value_of_build?_summary hwindow
      (hq .summary { Params.none with timePeriod := some "today" } day)
    rw [Option.bind_some, Option.bind_some, hstring, Option.map_some,
      Composite.filter?_of_holds ht hh hk] at hvalue
    rw [← Composite.filter?_eq_write_iff hk ht hh hw hf, Composite.filter?_of_holds ht hh hk]
    cases hv : (Composite.valueText? (.number n)).bind active? with
    | none => simp [hv] at hvalue
    | some v => simpa [hv] using hvalue
  · intro he r p today
    apply Report.build?_setComposite_congr
    rw [Option.bind_some, Option.bind_some, hstring, Composite.filter?_of_exact hk ht hh hw hf he]

/-- The text of an array without white space. -/
theorem Filter.Composite.isText_pair {ks : Json.Literal} {w : Json.Tree} {cs : List Char}
    (hk : ks.WellFormed) (hw : Json.Writes (.value w) cs) :
    (Json.Tree.array [.string ks, w]).IsText
      ('[' :: '"' :: (ks.write ++ ',' :: (cs ++ [']']))) := by
  have hgap : Json.Gap [] := by simp [Json.Gap]
  have hkey : Json.Writes (.element (.string ks)) ('"' :: ks.write) := by
    simpa using Json.Writes.element hgap (.string hk) hgap
  have hvalue : Json.Writes (.element w) cs := by
    simpa using Json.Writes.element hgap hw hgap
  have harray := Json.Writes.element hgap (.array (.moreElements hkey (.lastElement hvalue))) hgap
  simpa [Json.Tree.IsText] using harray

/-- The least number of 64 bits, and the same code as a string. -/
theorem least_code_binds :
    let plain (s : String) : Json.Literal := s.toList.map .plain
    let n : Json.Numeral := ⟨true, "9223372036854775808".toList, [], none⟩
    let t : Json.Tree := .array [.string (plain "item_code"), .number n]
    let t' : Json.Tree := .array [.string (plain "item_code"), .string (n.write.map .plain)]
    let text := "[\"item_code\",-9223372036854775808]"
    let text' := "[\"item_code\",\"-9223372036854775808\"]"
    n.Exact ∧ t.IsText text.toList ∧ t'.IsText text'.toList ∧
      Composite.filter? .product text = some ⟨.productId, "-9223372036854775808"⟩ ∧
      ∀ (r : Report) (p : Params) (today : Date),
        r.build? (p.setComposite .product (some text)) today =
          r.build? (p.setComposite .product (some text')) today := by
  intro plain n t t' text text'
  have he : n.Exact := by decide +kernel
  have hn : n.wellFormed = true := by decide +kernel
  have hplain : (plain "item_code").WellFormed := List.all_eq_true.mp (by decide +kernel)
  have hkey : (plain "item_code").Denotes "item_code".toList :=
    Json.Literal.denotes_of_text? (by decide +kernel)
  have hs : Json.Literal.Denotes (n.write.map .plain) n.write :=
    Json.Literal.denotes_of_text? (by decide +kernel)
  have hswf : Json.Literal.WellFormed (n.write.map .plain) :=
    List.all_eq_true.mp (by decide +kernel)
  have htext : text.toList = '[' :: '"' :: ((plain "item_code").write ++
      ',' :: (n.write ++ [']'])) := by decide +kernel
  have htext' : text'.toList = '[' :: '"' :: ((plain "item_code").write ++
      ',' :: ('"' :: Json.Literal.write (n.write.map .plain) ++ [']'])) := by decide +kernel
  have ht : t.IsText text.toList := htext ▸ Composite.isText_pair hplain (.number hn)
  have ht' : t'.IsText text'.toList := htext' ▸ Composite.isText_pair hplain (.string hswf)
  obtain ⟨hfilter, -, hquery⟩ := numeric_code_binds_its_text_iff (l := .productId) (n := n)
    (by decide) ht (.array hkey) hn (by decide +kernel)
  refine ⟨he, ht, ht', (hfilter.mpr he).trans (by decide +kernel), ?_⟩
  exact (hquery text' "item_code" t' _ (by decide) ht' (.array hkey) hs).mpr he

/-- Whole numbers that filter by another text than their own: zero with a minus sign, a number of 65
bits, one whose text is not even that of the nearest number of binary floating point, and one that
is beyond these, which does not filter at all. -/
theorem inexact_codes_bind_otherwise :
    let filter? (n : Json.Numeral) : Option LevelFilter :=
      Composite.filter? .product
        (String.ofList ("[\"item_code\",".toList ++ (n.write ++ [']'])))
    filter? ⟨true, ['0'], [], none⟩ = some ⟨.productId, "-0.0"⟩ ∧
      filter? ⟨false, "18446744073709551616".toList, [], none⟩ =
        some ⟨.productId, "1.8446744073709552e+19"⟩ ∧
      filter? ⟨false, "67071635982607948077".toList, [], none⟩ =
        some ⟨.productId, "6.707163598260794e+19"⟩ ∧
      filter? ⟨false, '1' :: List.replicate 309 '0', [], none⟩ = none := by
  intro filter?
  let ks : Json.Literal := "item_code".toList.map .plain
  have hplain : ks.WellFormed := List.all_eq_true.mp (by decide +kernel)
  have hkey : ks.Denotes "item_code".toList := Json.Literal.denotes_of_text? (by decide +kernel)
  have hfilter (n : Json.Numeral) (hn : n.wellFormed = true) (he : ¬ n.Exact) : filter? n =
        if n.double.isFinite then some ⟨.productId, String.ofList n.double.text⟩ else none := by
    refine Composite.filter?_of_not_exact (l := .productId) (t := .array [.string ks, .number n])
      (by decide) ?_ (.array hkey) he
    rw [String.toList_ofList]
    exact Composite.isText_pair hplain (.number hn)
  refine ⟨?_, ?_, ?_, ?_⟩
  · rw [hfilter _ (by decide +kernel) (by decide +kernel)]
    decide +kernel
  · rw [hfilter _ (by decide +kernel) (by decide +kernel)]
    decide +kernel
  · rw [hfilter _ (by decide +kernel) (by decide +kernel)]
    decide +kernel
  · rw [hfilter _ (by decide +kernel) (by decide +kernel)]
    decide +kernel

end Takings
