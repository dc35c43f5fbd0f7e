import Takings.Proofs.QueryText
import Takings.Query.Placeholder

/-!
# The placeholders of a text

The placeholders of a text are its dollar signs with digits after them, wherever they stand. They
can be read piece by piece, as long as no piece begins with a digit. The check of binds meets the
same ones in its single pass, so the greatest of consecutive numbers is the last.
-/
namespace Takings

namespace Placeholder

/-- The number of the placeholder that a text begins with. -/
def numberAt? : List Char → Option Nat
  | '$' :: cs =>
    let ds := cs.takeWhile Char.isDigit
    if ds.isEmpty then none else some (Text.ofDigits ds)
  | _ => none

/-- The numbers of the placeholders at all positions of a text, from left to right. -/
def numbers : List Char → List Nat
  | [] => []
  | c :: cs => (numberAt? (c :: cs)).toList ++ numbers cs

/-- The text does not go on with a digit. -/
def NoDigitAhead (cs : List Char) : Prop :=
  ∀ c ∈ cs.head?, c.isDigit = false

theorem takeWhile_isDigit_append (cs : List Char) {rest : List Char} (h : NoDigitAhead rest) :
    (cs ++ rest).takeWhile Char.isDigit = cs.takeWhile Char.isDigit := by
  have hr : rest.takeWhile Char.isDigit = [] := by
    cases rest with
    | nil => rfl
    | cons c cs => exact List.takeWhile_cons_of_neg (by simp [h c rfl])
  induction cs with
  | nil => exact hr
  | cons c cs ih =>
    rw [List.cons_append, List.takeWhile_cons, List.takeWhile_cons, ih]

theorem numberAt?_of_ne {c : Char} (h : c ≠ '$') (cs : List Char) : numberAt? (c :: cs) = none := by
  rw [numberAt?]
  intro ds he
  exact h (List.cons.inj he).1

theorem numbers_append_of_notMem {cs : List Char} (h : '$' ∉ cs) (rest : List Char) :
    numbers (cs ++ rest) = numbers rest := by
  induction cs with
  | nil => rfl
  | cons c cs ih =>
    have hc : c ≠ '$' := fun he => h (by rw [he]; exact List.mem_cons_self)
    rw [List.cons_append, numbers, numberAt?_of_ne hc, Option.toList_none, List.nil_append]
    exact ih fun hm => h (List.mem_cons_of_mem c hm)

theorem numbers_of_notMem {cs : List Char} (h : '$' ∉ cs) : numbers cs = [] := by
  have h' := numbers_append_of_notMem h []
  rwa [List.append_nil] at h'

theorem dollar_notMem_digits (n : Nat) : '$' ∉ Text.digits n := by
  intro h
  have hd := Text.isDigit_of_mem_digits h
  revert hd
  decide

/-- A placeholder is read back as its number if no further digit follows. -/
theorem numbers_placeholder_append (n : Nat) {rest : List Char} (h : NoDigitAhead rest) :
    numbers ((placeholder n).toList ++ rest) = n :: numbers rest := by
  have ht : (placeholder n).toList = '$' :: Text.digits n := by
    rw [placeholder, String.toList_append, Text.natText, String.toList_ofList]
    simp
  have hw : (Text.digits n ++ rest).takeWhile Char.isDigit = Text.digits n := by
    have ha : (Text.digits n ++ []).takeWhile Char.isDigit = Text.digits n ++ [] :=
      List.takeWhile_append_of_pos fun _ => Text.isDigit_of_mem_digits
    rw [takeWhile_isDigit_append _ h]
    simpa using ha
  have hd : (Text.digits n).isEmpty = false := List.isEmpty_eq_false_iff.mpr (Text.digits_ne_nil n)
  rw [ht, List.cons_append, numbers, numbers_append_of_notMem (dollar_notMem_digits n)]
  simp only [numberAt?, hw, hd, Bool.false_eq_true, if_false, Text.ofDigits_digits,
    Option.toList_some, List.cons_append, List.nil_append]

/-! ### The scanner -/

theorem ofDigits_eq_wrap (ds : List Char) : ofDigits ds = Word.wrap (Text.ofDigits ds) := by
  have h (n : Nat) : ds.foldl (fun n c => Word.wrap (10 * n + Text.digitValue c)) (Word.wrap n) =
      Word.wrap (ds.foldl (fun n c => 10 * n + Text.digitValue c) n) := by
    induction ds generalizing n with
    | nil => rfl
    | cons c ds ih =>
      have hw : Word.wrap (10 * Word.wrap n + Text.digitValue c) =
          Word.wrap (10 * n + Text.digitValue c) := by
        simp only [Word.wrap]
        omega
      rw [List.foldl_cons, List.foldl_cons, hw, ih]
  exact h 0

/-- The scanner sees every placeholder, as a word. -/
theorem scan_eq_map_wrap (cs : List Char) : scan cs = (numbers cs).map Word.wrap := by
  induction cs with
  | nil => rfl
  | cons c cs ih =>
    by_cases hc : c = '$'
    · subst hc
      simp only [scan, numbers, numberAt?]
      split
      · rw [ih, Option.toList_none, List.nil_append]
      · rw [ih, Option.toList_some, List.singleton_append, List.map_cons, ofDigits_eq_wrap]
    · have hs : scan (c :: cs) = scan cs := by
        rw [scan]
        exact hc
      rw [hs, ih, numbers, numberAt?_of_ne hc, Option.toList_none, List.nil_append]

theorem foldl_max_range' (first n m : Nat) (hm : m ≤ first) :
    (List.range' first (n + 1)).foldl max m = first + n := by
  induction n generalizing first m with
  | zero =>
    rw [List.range'_one, List.foldl_cons, List.foldl_nil]
    omega
  | succ n ih =>
    rw [List.range'_succ, List.foldl_cons, Nat.max_eq_right hm, ih (first + 1) first (by omega)]
    omega

theorem greatest_of_numbers {sql : String} {first n : Nat}
    (h : numbers sql.toList = List.range' first (n + 1))
    (hw : first + n < 18446744073709551616) : greatest sql = first + n := by
  have hm : (List.range' first (n + 1)).map Word.wrap = List.range' first (n + 1) := by
    rw [List.map_congr_left (g := id), List.map_id]
    intro i hi
    have := List.mem_range'_1.mp hi
    exact Word.wrap_of_lt (by omega)
  rw [greatest, scan_eq_map_wrap, h, hm, foldl_max_range' first n 0 (Nat.zero_le _)]

end Placeholder

end Takings
