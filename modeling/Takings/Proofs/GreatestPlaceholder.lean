import Takings.Proofs.OccurringNumbers

/-!
# The greatest placeholder

One pass over the bytes of a text finds the greatest number that occurs in it. Each step is one of
four, and none of them changes what is found in the end, so the numbers that the scanner of
characters sees are those that the pass sees. If they are words, nothing that is computed on the way
is more than a word.
-/
namespace Takings.Placeholder

open Text

/-! ### Steps -/

theorem scan_of_ne {c : Char} (h : c ≠ '$') (cs : List Char) : scan (c :: cs) = scan cs := by
  rw [scan]
  exact h

theorem ne_dollar_of_isDigit {d : Char} (h : d.isDigit = true) : d ≠ '$' := by
  rintro rfl
  exact absurd h (by decide)

namespace Cursor

variable {bytes : List UInt8} {c c' : Cursor} {i : Nat}

/-- What lies ahead of a place. -/
def ahead (bytes : List UInt8) (i : Nat) : List Char :=
  (view bytes).drop i

theorem ahead_of_getElem? {b : UInt8} (h : bytes[i]? = some b) :
    ahead bytes i = charOf b :: ahead bytes (i + 1) := by
  have hv : (view bytes)[i]? = some (charOf b) := by
    rw [view, List.getElem?_map, h]
    rfl
  rw [ahead, List.drop_eq_getElem?_toList_append, hv]
  rfl

theorem ahead_of_getElem?_none (h : bytes[i]? = none) : ahead bytes i = [] := by
  rw [ahead, List.drop_eq_nil_iff, view, List.length_map]
  exact List.getElem?_eq_none_iff.mp h

/-- A cursor is at a digit exactly if the text goes on with one. -/
theorem digit?_eq_none_iff : c.digit? bytes = none ↔ NoDigitAhead (ahead bytes c.index) := by
  cases h : bytes[c.index]? with
  | none => simp [digit?, h, ahead_of_getElem?_none h, NoDigitAhead]
  | some b => simp [digit?, h, ahead_of_getElem? h, NoDigitAhead, isDigit_charOf]

theorem of_digit? {b : UInt8} (h : c.digit? bytes = some b) :
    isDigit b = true ∧ bytes[c.index]? = some b := by
  obtain ⟨hget, hb⟩ := Option.filter_eq_some_iff.mp h
  exact ⟨hb, hget⟩

/-- What a step from one cursor to the next can be, by what lies ahead. -/
inductive Moves (bytes : List UInt8) : Cursor → Cursor → Prop where
  | pass {i m : Nat} {x : Char} (h : ahead bytes i = x :: ahead bytes (i + 1))
      (hx : x = '$' → NoDigitAhead (ahead bytes (i + 1))) :
      Moves bytes ⟨i, m, none⟩ ⟨i + 1, m, none⟩
  | enter {i m : Nat} (h : ahead bytes i = '$' :: ahead bytes (i + 1))
      (hd : ¬ NoDigitAhead (ahead bytes (i + 1))) :
      Moves bytes ⟨i, m, none⟩ ⟨i + 1, m, some 0⟩
  | digit {i m n : Nat} {d : Char} (h : ahead bytes i = d :: ahead bytes (i + 1))
      (hd : d.isDigit = true) :
      Moves bytes ⟨i, m, some n⟩ ⟨i + 1, m, some (Word.wrap (10 * n + Text.digitValue d))⟩
  | leave {i m n : Nat} (h : NoDigitAhead (ahead bytes i)) :
      Moves bytes ⟨i, m, some n⟩ ⟨i, max m n, none⟩

theorem wrap_wrap_add (a b : Nat) : Word.wrap (Word.wrap a + b) = Word.wrap (a + b) := by
  simp only [Word.wrap]
  omega

theorem moves_of_step? (h : c.step? bytes = some c') : Moves bytes c c' := by
  obtain ⟨i, m, number⟩ := c
  cases number with
  | none =>
    cases hb : bytes[i]? with
    | none => simp [step?, hb] at h
    | some b =>
      have hahead := ahead_of_getElem? hb
      simp only [step?, hb] at h
      split at h
      · rename_i hdollar
        cases h
        rw [charOf_eq_dollar_iff.mpr hdollar.1] at hahead
        refine .enter hahead fun hno => ?_
        rw [digit?_eq_none_iff.mpr hno] at hdollar
        exact absurd hdollar.2 (by decide)
      · rename_i hdollar
        cases h
        refine .pass hahead fun hx => ?_
        refine (digit?_eq_none_iff (c := ⟨i + 1, m, none⟩)).mp ?_
        rw [← Option.not_isSome_iff_eq_none]
        exact fun hs => hdollar ⟨charOf_eq_dollar_iff.mp hx, hs⟩
  | some n =>
    cases hd : digit? bytes ⟨i, m, some n⟩ with
    | none =>
      simp only [step?, hd] at h
      cases h
      exact .leave (digit?_eq_none_iff.mp hd)
    | some b =>
      obtain ⟨hb, hget⟩ := of_digit? hd
      simp only [step?, hd] at h
      cases h
      rw [wrap_wrap_add, ← digitValue_charOf hb]
      exact .digit (ahead_of_getElem? hget) (by rw [isDigit_charOf, hb])

/-- A cursor comes to rest only outside of numbers, at the end of the text. -/
theorem of_step?_eq_none (h : c.step? bytes = none) :
    c.number = none ∧ ahead bytes c.index = [] := by
  obtain ⟨i, m, number⟩ := c
  cases number with
  | none =>
    cases hb : bytes[i]? with
    | none => exact ⟨rfl, ahead_of_getElem?_none hb⟩
    | some b =>
      simp only [step?, hb] at h
      split at h <;> cases h
  | some n =>
    simp only [step?] at h
    split at h <;> cases h

/-! ### Runs -/

/-- The greatest number that is found in the end. -/
def found (bytes : List UInt8) (c : Cursor) : Nat :=
  let rest := ahead bytes c.index
  match c.number with
  | none => (scan rest).foldl max c.greatest
  | some n =>
    let whole := (rest.takeWhile Char.isDigit).foldl
      (fun n d => Word.wrap (10 * n + Text.digitValue d)) n
    (scan rest).foldl max (max c.greatest whole)

theorem takeWhile_eq_nil {cs : List Char} (h : NoDigitAhead cs) :
    cs.takeWhile Char.isDigit = [] :=
  takeWhile_of_noDigitAhead (List.forall_mem_nil _) h

theorem scan_dollar {cs : List Char} (h : ¬ NoDigitAhead cs) :
    scan ('$' :: cs) = ofDigits (cs.takeWhile Char.isDigit) :: scan cs := by
  rw [scan, if_neg]
  intro hempty
  refine h fun d hd => ?_
  rw [List.isEmpty_iff, List.takeWhile_eq_nil_iff] at hempty
  obtain ⟨ds, rfl⟩ := List.head?_eq_some_iff.mp hd
  exact Bool.eq_false_iff.mpr (hempty (Nat.zero_lt_succ _))

theorem scan_dollar_of_noDigitAhead {cs : List Char} (h : NoDigitAhead cs) :
    scan ('$' :: cs) = scan cs := by
  rw [scan, takeWhile_eq_nil h]
  rfl

/-- No step changes what is found in the end. -/
theorem found_of_moves (h : Moves bytes c c') : found bytes c' = found bytes c := by
  cases h with
  | @pass i m x h hx =>
    have hscan : scan (x :: ahead bytes (i + 1)) = scan (ahead bytes (i + 1)) := by
      by_cases hd : x = '$'
      · rw [hd]
        exact scan_dollar_of_noDigitAhead (hx hd)
      · exact scan_of_ne hd _
    simp only [found, h, hscan]
  | enter h hd =>
    simp only [found, h, scan_dollar hd, List.foldl_cons]
    rfl
  | digit h hd =>
    simp only [found, h, scan_of_ne (ne_dollar_of_isDigit hd), List.takeWhile_cons_of_pos hd,
      List.foldl_cons]
  | leave h => simp only [found, takeWhile_eq_nil h, List.foldl_nil]

/-- What holds at the start and is kept by every step holds all along. -/
theorem after_induction {P : Cursor → Prop} (hstart : P start)
    (hmoves : ∀ {c c' : Cursor}, Moves bytes c c' → P c → P c') (k : Nat) : P (after bytes k) := by
  induction k with
  | zero => exact hstart
  | succ k ih =>
    rw [after]
    cases h : (after bytes k).step? bytes with
    | none => exact ih
    | some c' => exact hmoves (moves_of_step? h) ih

theorem found_after (k : Nat) : found bytes (after bytes k) = found bytes start :=
  after_induction (P := fun c => found bytes c = found bytes start) rfl
    (fun h hc => (found_of_moves h).trans hc) k

theorem lt_of_ahead {x : Char} {cs : List Char} (h : ahead bytes i = x :: cs) :
    i < bytes.length := by
  have hlength := congrArg List.length h
  rw [ahead, view, List.length_drop, List.length_map, List.length_cons] at hlength
  omega

theorem index_le_after (k : Nat) : (after bytes k).index ≤ bytes.length := by
  refine after_induction (P := fun c => c.index ≤ bytes.length) (Nat.zero_le _) ?_ k
  intro c c' h hc
  cases h with
  | pass h hx => exact lt_of_ahead h
  | enter h hd => exact lt_of_ahead h
  | digit h hd => exact lt_of_ahead h
  | leave h => exact hc

/-! ### The end -/

/-- How many steps are left at most: two for every byte, and one to leave a number. -/
def left (bytes : List UInt8) (c : Cursor) : Nat :=
  2 * (bytes.length - c.index) + if c.number.isSome then 1 else 0

theorem left_lt_of_moves (h : Moves bytes c c') : left bytes c' < left bytes c := by
  cases h with
  | pass h hx =>
    have hi := lt_of_ahead h
    simp only [left, Option.isSome_none, Bool.false_eq_true, if_false]
    omega
  | enter h hd =>
    have hi := lt_of_ahead h
    simp only [left, Option.isSome_some, Option.isSome_none, Bool.false_eq_true, if_false, if_true]
    omega
  | digit h hd =>
    have hi := lt_of_ahead h
    simp only [left, Option.isSome_some, if_true]
    omega
  | leave h => simp [left]

/-- A cursor comes to rest, after two steps for every byte at the latest. -/
theorem exists_rest (bytes : List UInt8) :
    ∃ k ≤ 2 * bytes.length, (after bytes k).step? bytes = none := by
  by_contra hnever
  -- each step takes one off what is left, so there are no more steps than were left at the start
  have hleft : ∀ k ≤ 2 * bytes.length + 1, left bytes (after bytes k) + k ≤ 2 * bytes.length := by
    intro k
    induction k with
    | zero => exact fun _ => Nat.le_refl _
    | succ k ih =>
      intro hk
      cases h : (after bytes k).step? bytes with
      | none => exact absurd ⟨k, by omega, h⟩ hnever
      | some c' =>
        have hlt := left_lt_of_moves (moves_of_step? h)
        have hle := ih (by omega)
        rw [after, h, Option.getD_some]
        omega
  have hlast := hleft (2 * bytes.length + 1) (Nat.le_refl _)
  omega

/-! ### Overflow -/

/-- The number so far is at most what the digits behind denote, back to a dollar sign. -/
def Within (bytes : List UInt8) (c : Cursor) : Prop :=
  ∀ n, c.number = some n → ∃ before ds, (view bytes).take c.index = before ++ '$' :: ds ∧
    (∀ d ∈ ds, d.isDigit = true) ∧ n ≤ Text.ofDigits ds

theorem take_succ_of_ahead {x : Char} {cs : List Char} (h : ahead bytes i = x :: cs) :
    (view bytes).take (i + 1) = (view bytes).take i ++ [x] := by
  have hx : (view bytes)[i]? = some x := by
    rw [← List.head?_drop]
    exact congrArg List.head? h
  rw [List.take_add_one, hx]
  rfl

theorem ofDigits_concat (ds : List Char) (d : Char) :
    Text.ofDigits (ds ++ [d]) = 10 * Text.ofDigits ds + Text.digitValue d := by
  rw [Text.ofDigits, List.foldl_append]
  rfl

theorem ofDigits_le_append (ds more : List Char) :
    Text.ofDigits ds ≤ Text.ofDigits (ds ++ more) := by
  rw [Text.ofDigits, Text.ofDigits, List.foldl_append]
  exact Text.le_foldl_digits _ more

theorem wrap_le (n : Nat) : Word.wrap n ≤ n :=
  Nat.mod_le _ _

theorem within_after (k : Nat) : Within bytes (after bytes k) := by
  refine after_induction ?_ ?_ k
  · intro n hn
    cases hn
  intro c c' h hc
  cases h with
  | pass h hx =>
    intro n hn
    cases hn
  | @enter i m h hd =>
    intro n hn
    cases hn
    exact ⟨(view bytes).take i, [], take_succ_of_ahead h,
      fun _ hd => absurd hd List.not_mem_nil, Nat.le_refl 0⟩
  | @digit i m n d h hd =>
    obtain ⟨before, ds, htake, hds, hn⟩ := hc n rfl
    intro n' hn'
    cases hn'
    refine ⟨before, ds ++ [d], ?_, ?_, ?_⟩
    · rw [take_succ_of_ahead h, htake, List.append_assoc, List.cons_append]
    · exact List.forall_mem_append.mpr ⟨hds, List.forall_mem_singleton.mpr hd⟩
    · rw [ofDigits_concat]
      exact Nat.le_trans (wrap_le _) (by omega)
  | leave h =>
    intro n hn
    cases hn

/-- Digits behind a cursor, back to a dollar sign, and a digit at it are part of a number that
occurs. -/
theorem exists_occurs_of_digit {before ds : List Char} {d : Char}
    (htake : (view bytes).take i = before ++ '$' :: ds) (hds : ∀ d ∈ ds, d.isDigit = true)
    (hahead : ahead bytes i = d :: ahead bytes (i + 1)) (hd : d.isDigit = true) :
    ∃ whole, Occurs (view bytes) whole ∧ 10 * Text.ofDigits ds + Text.digitValue d ≤ whole := by
  let more := (ahead bytes (i + 1)).takeWhile Char.isDigit
  let rest := (ahead bytes (i + 1)).dropWhile Char.isDigit
  have hview : view bytes = before ++ '$' :: ((ds ++ [d] ++ more) ++ rest) :=
    calc view bytes = (view bytes).take i ++ ahead bytes i := (List.take_append_drop ..).symm
      _ = (before ++ '$' :: ds) ++ d :: (more ++ rest) := by
        rw [htake, hahead, List.takeWhile_append_dropWhile]
      _ = before ++ '$' :: ((ds ++ [d] ++ more) ++ rest) := by simp
  have hdigits : ∀ x ∈ ds ++ [d] ++ more, x.isDigit = true := by
    intro x hx
    rcases List.mem_append.mp hx with hx | hx
    · exact List.forall_mem_append.mpr ⟨hds, List.forall_mem_singleton.mpr hd⟩ x hx
    · exact List.mem_takeWhile_imp hx
  refine ⟨_, ⟨before, _, rest, hview, by simp, hdigits, noDigitAhead_dropWhile _, rfl⟩, ?_⟩
  rw [← ofDigits_concat]
  exact ofDigits_le_append _ more

/-- What a step computes is at most a number that occurs in the text. -/
theorem exists_occurs_of_computed (hc : Within bytes c) {n : Nat} (hn : n ∈ c.computed bytes) :
    ∃ whole, Occurs (view bytes) whole ∧ n ≤ whole := by
  cases hnumber : c.number with
  | none => simp [computed, hnumber] at hn
  | some sofar =>
    cases hdigit : c.digit? bytes with
    | none => simp [computed, hnumber, hdigit] at hn
    | some b =>
      obtain ⟨hb, hget⟩ := of_digit? hdigit
      obtain ⟨before, ds, htake, hds, hsofar⟩ := hc sofar hnumber
      obtain ⟨whole, hwhole, hle⟩ := exists_occurs_of_digit htake hds (ahead_of_getElem? hget)
        (by rw [isDigit_charOf, hb])
      rw [digitValue_charOf hb] at hle
      simp only [computed, hnumber, hdigit, List.mem_cons, List.not_mem_nil, or_false] at hn
      exact ⟨whole, hwhole, by omega⟩

end Cursor

/-! ### The greatest number -/

/-- The pass over the bytes finds the greatest number, also where numbers wrap. -/
theorem exists_rest_at_greatest (sql : String) :
    let bytes := Utf8.encode sql.toList
    ∃ k ≤ 2 * bytes.length, (Cursor.after bytes k).step? bytes = none ∧
      (Cursor.after bytes k).greatest = greatest sql := by
  intro bytes
  obtain ⟨k, hk, hrest⟩ := Cursor.exists_rest bytes
  obtain ⟨hnumber, hahead⟩ := Cursor.of_step?_eq_none hrest
  refine ⟨k, hk, hrest, ?_⟩
  calc (Cursor.after bytes k).greatest = Cursor.found bytes (Cursor.after bytes k) := by
        simp only [Cursor.found, hnumber, hahead, scan, List.foldl_nil]
    _ = Cursor.found bytes Cursor.start := Cursor.found_after k
    _ = greatest sql := congrArg (List.foldl max 0) (scan_view_encode sql.toList)

theorem le_foldl_max {l : List Nat} {n : Nat} (h : n ∈ l) : n ≤ l.foldl max 0 := by
  rw [List.foldl_max]
  exact Nat.le_trans (List.le_max?_getD_of_mem h) (Nat.le_max_right _ _)

theorem foldl_max_mem {l : List Nat} (h : l ≠ []) : l.foldl max 0 ∈ l := by
  cases hm : l.max? with
  | none => exact absurd (List.max?_eq_none_iff.mp hm) h
  | some m =>
    rw [List.foldl_max, hm, Option.getD_some, Nat.max_eq_right (Nat.zero_le m)]
    exact List.max?_mem hm

theorem greatest_of_words {sql : String}
    (h : ∀ n, Occurs sql.toList n → n < 18446744073709551616) :
    greatest sql = (numbers sql.toList).foldl max 0 := by
  have hmap : (numbers sql.toList).map Word.wrap = numbers sql.toList := by
    rw [List.map_congr_left (g := id), List.map_id]
    exact fun n hn => Word.wrap_of_lt (h n (mem_numbers_iff.mp hn))
  rw [greatest, scan_eq_map_wrap, hmap]

/-- If every number behind a dollar sign is a word, the pass over the bytes ends, nothing that it
computes is more than a word, and it finds the greatest of the numbers, or zero if there is none. -/
theorem greatest_is_found_in_words (sql : String)
    (h : ∀ n, Occurs sql.toList n → n < 18446744073709551616) :
    let bytes := Utf8.encode sql.toList
    (∃ k ≤ 2 * bytes.length, (Cursor.after bytes k).step? bytes = none ∧
      (Cursor.after bytes k).greatest = greatest sql) ∧
    (∀ k, (Cursor.after bytes k).index ≤ bytes.length ∧
      ∀ n ∈ (Cursor.after bytes k).computed bytes, n < 18446744073709551616) ∧
    (∀ n, Occurs sql.toList n → n ≤ greatest sql) ∧
    ((∃ n, Occurs sql.toList n) → Occurs sql.toList (greatest sql)) ∧
    ((∀ n, ¬ Occurs sql.toList n) → greatest sql = 0) := by
  intro bytes
  refine ⟨exists_rest_at_greatest sql, fun k => ⟨Cursor.index_le_after k, ?_⟩, ?_⟩
  · intro n hn
    obtain ⟨whole, hwhole, hle⟩ := Cursor.exists_occurs_of_computed (Cursor.within_after k) hn
    exact Nat.lt_of_le_of_lt hle (h whole (occurs_view_encode.mp hwhole))
  · rw [greatest_of_words h]
    refine ⟨fun n hn => le_foldl_max (mem_numbers_iff.mpr hn), ?_, ?_⟩
    · rintro ⟨n, hn⟩
      exact mem_numbers_iff.mp (foldl_max_mem (List.ne_nil_of_mem (mem_numbers_iff.mpr hn)))
    · intro hnone
      have hnil : numbers sql.toList = [] := List.eq_nil_iff_forall_not_mem.mpr
        fun n hn => hnone n (mem_numbers_iff.mp hn)
      rw [hnil]
      rfl

/-- Dollar signs in a row, within quotes, between letters beyond ASCII and at the end of the text,
and a number that is the greatest word. -/
theorem greatest_word_is_found :
    let sql := "'$$1$22' \u00e9$18446744073709551615\u00e9$"
    numbers sql.toList = [1, 22, 18446744073709551615] ∧
      greatest sql = 18446744073709551615 ∧
      ∀ k, ∀ n ∈ (Cursor.after (Utf8.encode sql.toList) k).computed (Utf8.encode sql.toList),
        n < 18446744073709551616 := by
  intro sql
  have hnumbers : numbers sql.toList = [1, 22, 18446744073709551615] := by
    decide +kernel
  have hwords : ∀ n, Occurs sql.toList n → n < 18446744073709551616 := by
    intro n hn
    rw [← mem_numbers_iff, hnumbers] at hn
    simp only [List.mem_cons, List.not_mem_nil, or_false] at hn
    omega
  obtain ⟨-, hcomputed, hle, hoccurs, -⟩ := greatest_is_found_in_words sql hwords
  have hword : Occurs sql.toList 18446744073709551615 := by
    rw [← mem_numbers_iff, hnumbers]
    exact .tail _ (.tail _ (.head _))
  have hlast := hle _ hword
  have hbound := hwords _ (hoccurs ⟨_, hword⟩)
  exact ⟨hnumbers, by omega, fun k => (hcomputed k).2⟩

end Takings.Placeholder
