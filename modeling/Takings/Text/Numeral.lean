/-!
# Numerals

Decimal digits as numbers, numbers as decimal digits, and the reading of whole numbers that
must fit a given bound.
-/
namespace Takings.Text

def digitValue (c : Char) : Nat :=
  c.toNat - '0'.toNat

/-- The number that a run of decimal digits denotes. -/
def ofDigits (cs : List Char) : Nat :=
  cs.foldl (fun n c => 10 * n + digitValue c) 0

def digits (n : Nat) : List Char :=
  Nat.toDigits 10 n

theorem isDigit_of_mem_digits {n : Nat} {c : Char} (h : c ∈ digits n) : c.isDigit = true :=
  Nat.isDigit_of_mem_toDigits (by decide) (by decide) h

theorem digits_ne_nil (n : Nat) : digits n ≠ [] :=
  Nat.toDigits_ne_nil

theorem ofDigits_digits (n : Nat) : ofDigits (digits n) = n := by
  have h : ofDigits (digits n) = Nat.ofDigitChars 10 (Nat.toDigits 10 n) 0 := by
    rw [Nat.ofDigitChars_eq_foldl]
    rfl
  rw [h, Nat.ofDigitChars_ten_toDigits]

def natText (n : Nat) : String :=
  String.ofList (digits n)

def intText (i : Int) : String :=
  match i with
  | .ofNat n => natText n
  | .negSucc n => "-" ++ natText (n + 1)

/-- Digits with zeros in front up to a width. -/
def padded (width n : Nat) : List Char :=
  let ds := digits n
  List.replicate (width - ds.length) '0' ++ ds

/-- Why a text is no whole number within a bound. -/
inductive NumeralError where
  | empty
  | badDigit
  | tooLarge
  deriving DecidableEq, Repr

namespace NumeralError

def message : NumeralError → String
  | .empty => "cannot parse integer from empty string"
  | .badDigit => "invalid digit found in string"
  | .tooLarge => "number too large to fit in target type"

end NumeralError

/-- Reads digits from the left; at each one a wrong character is noticed before an overflow. -/
def readDigits (bound : Nat) : Nat → List Char → Except NumeralError Nat
  | n, [] => .ok n
  | n, c :: cs =>
    if c.isDigit then
      if 10 * n + digitValue c ≤ bound then readDigits bound (10 * n + digitValue c) cs
      else .error .tooLarge
    else .error .badDigit

/-- Reads a whole number of at most `bound`, with or without a plus sign in front. -/
def readNat (bound : Nat) (s : String) : Except NumeralError Nat :=
  match s.toList with
  | [] => .error .empty
  | ['+'] => .error .badDigit
  | '+' :: cs => readDigits bound 0 cs
  | cs => readDigits bound 0 cs

/-- Reads a whole number of 64 bits with its sign. -/
def readInt64 (s : String) : Except NumeralError Int :=
  match s.toList with
  | ['-'] => .error .badDigit
  | '-' :: cs => (readDigits 9223372036854775808 0 cs).map fun n => -(n : Int)
  | _ => (readNat 9223372036854775807 s).map fun n => (n : Int)

theorem le_foldl_digits (n : Nat) (cs : List Char) :
    n ≤ cs.foldl (fun n c => 10 * n + digitValue c) n := by
  induction cs generalizing n with
  | nil => exact Nat.le_refl n
  | cons c cs ih =>
    have hle := ih (10 * n + digitValue c)
    rw [List.foldl_cons]
    omega

theorem readDigits_eq_ok {bound n : Nat} {cs : List Char} (hd : ∀ c ∈ cs, c.isDigit = true)
    (hb : cs.foldl (fun n c => 10 * n + digitValue c) n ≤ bound) :
    readDigits bound n cs = .ok (cs.foldl (fun n c => 10 * n + digitValue c) n) := by
  induction cs generalizing n with
  | nil => rfl
  | cons c cs ih =>
    obtain ⟨hc, hcs⟩ := List.forall_mem_cons.mp hd
    rw [List.foldl_cons] at hb ⊢
    have hle := Nat.le_trans (le_foldl_digits _ cs) hb
    rw [readDigits, if_pos hc, if_pos hle, ih hcs hb]

/-- A number is read from its digits, if it is within the bound. -/
theorem readNat_natText {bound n : Nat} (h : n ≤ bound) : readNat bound (natText n) = .ok n := by
  have hd : ∀ c ∈ digits n, c.isDigit = true := fun c hc => isDigit_of_mem_digits hc
  have hread : readDigits bound 0 (digits n) = .ok n := by
    have hn : (digits n).foldl (fun n c => 10 * n + digitValue c) 0 = n := ofDigits_digits n
    rw [readDigits_eq_ok hd (by rwa [hn]), hn]
  rw [readNat, natText, String.toList_ofList]
  split
  · rename_i hnil
    exact absurd hnil (digits_ne_nil n)
  · rename_i hplus
    rw [hplus] at hd
    exact absurd (hd '+' (.head _)) (by decide)
  · rename_i hplus
    rw [hplus] at hd
    exact absurd (hd '+' (.head _)) (by decide)
  · exact hread

end Takings.Text
