import Takings.Http.Form
import Takings.Proofs.TextBytes

/-!
# Writing form data

The ways of writing names and values into a query. Characters may stand for themselves, a plus sign
for a blank, and any byte may be percent-encoded with digits of either case. Whatever way is taken,
the names and values are read back.
-/
namespace Takings

/-! ### Separators -/

namespace Text

variable {sep : Char} {before : List Char}

theorem cutFirst?_append (h : sep ∉ before) (after : List Char) :
    cutFirst? sep (before ++ sep :: after) = some (before, after) := by
  induction before with
  | nil => rw [List.nil_append, cutFirst?, if_pos rfl]
  | cons c before ih =>
    rw [List.mem_cons, not_or] at h
    rw [List.cons_append, cutFirst?, if_neg (Ne.symm h.1), ih h.2]
    rfl

theorem cutFirst?_eq_none (h : sep ∉ before) : cutFirst? sep before = none := by
  induction before with
  | nil => rfl
  | cons c before ih =>
    rw [List.mem_cons, not_or] at h
    rw [cutFirst?, if_neg (Ne.symm h.1), ih h.2]
    rfl

theorem split_append (h : sep ∉ before) (after : List Char) :
    split sep (before ++ sep :: after) = before :: split sep after := by
  induction before with
  | nil => rw [List.nil_append, split, if_pos rfl]
  | cons c before ih =>
    rw [List.mem_cons, not_or] at h
    rw [List.cons_append, split, if_neg (Ne.symm h.1), ih h.2]

theorem split_eq_singleton (h : sep ∉ before) : split sep before = [before] := by
  induction before with
  | nil => rfl
  | cons c before ih =>
    rw [List.mem_cons, not_or] at h
    rw [split, if_neg (Ne.symm h.1), ih h.2]

end Text

/-! ### Percent encoding -/

namespace Text.Percent

open Utf8

theorem decode_cons_of_ne {b : UInt8} (h : b ≠ 0x25) (r : List UInt8) :
    decode (b :: r) = b :: decode r := by
  match r with
  | [] => rfl
  | [_] => rfl
  | _ :: _ :: _ => rw [decode, if_neg h]

theorem decode_append {bs : List UInt8} (h : ∀ b ∈ bs, b ≠ 0x25) (r : List UInt8) :
    decode (bs ++ r) = bs ++ decode r := by
  induction bs with
  | nil => rfl
  | cons b bs ih =>
    rw [List.forall_mem_cons] at h
    rw [List.cons_append, decode_cons_of_ne h.1, ih h.2, List.cons_append]

theorem decode_encoded {h l : UInt8} {x y : Nat} (hh : hexByte h = some x) (hl : hexByte l = some y)
    (r : List UInt8) : decode (0x25 :: h :: l :: r) = UInt8.ofNat (16 * x + y) :: decode r := by
  rw [decode, if_pos rfl, hh, hl]

/-- Only ASCII characters have bytes below 128. -/
theorem eq_of_mem_encodeChar {c : Char} {b : UInt8} (h : b ∈ String.utf8EncodeChar c)
    (hb : b.toNat < 128) : c.toNat = b.toNat := by
  have hv : c.val.toNat = c.toNat := rfl
  rw [String.utf8EncodeChar] at h
  simp only [hv] at h
  split at h
  · rw [List.mem_singleton.mp h, UInt8.toNat_ofNat']
    omega
  -- every other byte has its highest bit set
  exfalso
  revert hb
  split at h
  all_goals try split at h
  all_goals
    simp only [List.mem_cons, List.not_mem_nil, or_false] at h
    rcases h with rfl | rfl | h
  all_goals try rcases h with rfl | rfl
  all_goals
    simp only [UInt8.toNat_ofNat']
    omega

theorem encodeChar_of_lt {c : Char} (h : c.toNat < 128) :
    String.utf8EncodeChar c = [UInt8.ofNat c.toNat] := by
  have hv : c.val.toNat = c.toNat := rfl
  rw [String.utf8EncodeChar]
  simp only [hv]
  rw [if_pos (by omega)]

end Text.Percent

namespace Http.Form

open Text Text.Utf8

/-! ### Words -/

/-- A character that stands for itself in a query. -/
def isPlain (c : Char) : Prop :=
  c ≠ '&' ∧ c ≠ '+' ∧ c ≠ '%' ∧ c ≠ '#'

/-- What is written spells bytes. -/
inductive Spells : List Char → List UInt8 → Prop
  | nil : Spells [] []
  | plain {c : Char} {w : List Char} {bs : List UInt8} (hc : isPlain c) (h : Spells w bs) :
    Spells (c :: w) (String.utf8EncodeChar c ++ bs)
  | blank {w : List Char} {bs : List UInt8} (h : Spells w bs) :
    Spells ('+' :: w) (String.utf8EncodeChar ' ' ++ bs)
  | encoded {high low : Char} {x y : Nat} {w : List Char} {bs : List UInt8}
    (hx : hexValue high = some x) (hy : hexValue low = some y) (h : Spells w bs) :
    Spells ('%' :: high :: low :: w) (UInt8.ofNat (16 * x + y) :: bs)

/-- The bytes of a query, where plus signs are blanks. -/
def bytes (w : List Char) : List UInt8 :=
  Percent.bytes (w.map fun c => if c = '+' then ' ' else c)

theorem bytes_plain {c : Char} (hc : isPlain c) (w : List Char) :
    bytes (c :: w) = String.utf8EncodeChar c ++ bytes w := by
  rw [bytes, List.map_cons, if_neg hc.2.1, Percent.bytes, encode_cons, Percent.decode_append]
  · rfl
  · rintro b hb rfl
    have hn : c.toNat = 37 := Percent.eq_of_mem_encodeChar hb (by decide)
    exact hc.2.2.1 (Char.toNat_inj.mp hn)

theorem bytes_blank (w : List Char) : bytes ('+' :: w) = String.utf8EncodeChar ' ' ++ bytes w := by
  rw [← bytes_plain (by simp [isPlain])]
  rfl

theorem toNat_lt_of_hexValue {c : Char} {x : Nat} (h : hexValue c = some x) : c.toNat < 128 := by
  have hle {d : Char} (hd : c ≤ d) : c.toNat ≤ d.toNat := hd
  rw [hexValue] at h
  split at h
  · rename_i hc
    exact Nat.lt_of_le_of_lt (hle hc.2) (by decide)
  · split at h
    · rename_i hc
      exact Nat.lt_of_le_of_lt (hle hc.2) (by decide)
    · split at h
      · rename_i hc
        exact Nat.lt_of_le_of_lt (hle hc.2) (by decide)
      · cases h

/-- A hexadecimal digit is none of the characters that have a meaning in a query. -/
theorem isPlain_of_hexValue {c : Char} {x : Nat} (h : hexValue c = some x) : isPlain c := by
  refine ⟨?_, ?_, ?_, ?_⟩ <;> rintro rfl <;> simp [hexValue] at h

theorem hexByte_ofNat {c : Char} {x : Nat} (h : hexValue c = some x) :
    Percent.hexByte (UInt8.ofNat c.toNat) = some x := by
  have hc := toNat_lt_of_hexValue h
  have hn : (UInt8.ofNat c.toNat).toNat = c.toNat := by
    rw [UInt8.toNat_ofNat']
    omega
  rw [Percent.hexByte, hn, Char.ofNat_toNat, h]

theorem bytes_encoded {high low : Char} {x y : Nat} (hx : hexValue high = some x)
    (hy : hexValue low = some y) (w : List Char) :
    bytes ('%' :: high :: low :: w) = UInt8.ofNat (16 * x + y) :: bytes w := by
  have hhigh := (isPlain_of_hexValue hx).2.1
  have hlow := (isPlain_of_hexValue hy).2.1
  rw [bytes, List.map_cons, List.map_cons, List.map_cons, if_neg (by decide), if_neg hhigh,
    if_neg hlow, Percent.bytes, encode_cons, encode_cons, encode_cons,
    Percent.encodeChar_of_lt (toNat_lt_of_hexValue hx),
    Percent.encodeChar_of_lt (toNat_lt_of_hexValue hy)]
  exact Percent.decode_encoded (hexByte_ofNat hx) (hexByte_ofNat hy) _

theorem bytes_of_spells {w : List Char} {bs : List UInt8} (h : Spells w bs) : bytes w = bs := by
  induction h with
  | nil => rfl
  | plain hc _ ih => rw [bytes_plain hc, ih]
  | blank _ ih => rw [bytes_blank, ih]
  | encoded hx hy _ ih => rw [bytes_encoded hx hy, ih]

theorem decode_of_spells {w : List Char} {s : String} (h : Spells w (encode s.toList)) :
    decode w = s := by
  have hd : decode w = String.ofList (decodeLossy (bytes w)) := rfl
  rw [hd, bytes_of_spells h, decodeLossy_encode, String.ofList_toList]

/-! ### Pairs -/

/-- What is written between two ampersands spells a name and a value. Without an equals sign the
value is empty. -/
inductive SpellsPair : List Char → String × String → Prop
  | full {name value : String} {n v : List Char} (hn : Spells n (encode name.toList))
    (hv : Spells v (encode value.toList)) (he : '=' ∉ n) : SpellsPair (n ++ '=' :: v) (name, value)
  | bare {name : String} {n : List Char} (hn : Spells n (encode name.toList)) (he : '=' ∉ n)
    (hne : n ≠ []) : SpellsPair n (name, "")

/-- A query spells pairs, with ampersands between them. -/
inductive Writes : List Char → List (String × String) → Prop
  | nil : Writes [] []
  | skip {q : List Char} {pairs : List (String × String)} (h : Writes q pairs) :
    Writes ('&' :: q) pairs
  | last {piece : List Char} {pair : String × String} (hp : SpellsPair piece pair) :
    Writes piece [pair]
  | cons {piece q : List Char} {pair : String × String} {pairs : List (String × String)}
    (hp : SpellsPair piece pair) (h : Writes q pairs) : Writes (piece ++ '&' :: q) (pair :: pairs)

theorem notMem_of_spells {w : List Char} {bs : List UInt8} (h : Spells w bs) :
    '&' ∉ w ∧ '#' ∉ w := by
  induction h with
  | nil => simp
  | plain hc _ ih => simp [ih, Ne.symm hc.1, Ne.symm hc.2.2.2]
  | blank _ ih => simp [ih]
  | encoded hx hy _ ih =>
    have hhigh := isPlain_of_hexValue hx
    have hlow := isPlain_of_hexValue hy
    simp [ih, Ne.symm hhigh.1, Ne.symm hhigh.2.2.2, Ne.symm hlow.1, Ne.symm hlow.2.2.2]

theorem notMem_of_spellsPair {piece : List Char} {pair : String × String}
    (h : SpellsPair piece pair) : '&' ∉ piece ∧ '#' ∉ piece := by
  cases h with
  | full hn hv _ =>
    have hn := notMem_of_spells hn
    have hv := notMem_of_spells hv
    simp [hn, hv]
  | bare hn _ _ => exact notMem_of_spells hn

theorem pair_of_spellsPair {piece : List Char} {e : String × String} (h : SpellsPair piece e) :
    pair piece = e := by
  cases h with
  | full hn hv he =>
    rw [pair, cutFirst?_append he]
    simp only [decode_of_spells hn, decode_of_spells hv]
  | bare hn he _ =>
    rw [pair, cutFirst?_eq_none he]
    simp only [decode_of_spells hn]

theorem ne_nil_of_spellsPair {piece : List Char} {pair : String × String}
    (h : SpellsPair piece pair) : piece ≠ [] := by
  cases h with
  | full _ _ _ => simp
  | bare _ _ hne => exact hne

/-- The pairs that a query spells are read from it. -/
theorem pairs_of_writes {q : List Char} {l : List (String × String)} (h : Writes q l) :
    ((split '&' q).filter fun p => !p.isEmpty).map pair = l := by
  induction h with
  | nil => rfl
  | skip _ ih =>
    rw [split, if_pos rfl]
    exact ih
  | last hp =>
    have hne := ne_nil_of_spellsPair hp
    rw [split_eq_singleton (notMem_of_spellsPair hp).1]
    simp [hne, pair_of_spellsPair hp]
  | cons hp _ ih =>
    have hne := ne_nil_of_spellsPair hp
    rw [split_append (notMem_of_spellsPair hp).1]
    simp [hne, pair_of_spellsPair hp, ih]

/-! ### The usual way of writing -/

/-- A byte with a percent sign and upper-case digits. -/
def writeByte (b : UInt8) : List Char :=
  ['%', (hexDigit (b.toNat / 16)).toUpper, (hexDigit (b.toNat % 16)).toUpper]

/-- Letters, digits and four marks stand for themselves, a plus sign for a blank. -/
def writeChar (c : Char) : List Char :=
  if c.isAlphanum ∨ c ∈ ['*', '-', '.', '_'] then [c]
  else if c = ' ' then ['+']
  else (String.utf8EncodeChar c).flatMap writeByte

def write (s : String) : List Char :=
  s.toList.flatMap writeChar

def writePair (e : String × String) : List Char :=
  write e.1 ++ '=' :: write e.2

def writePairs : List (String × String) → List Char
  | [] => []
  | e :: l => writePair e ++ '&' :: writePairs l

theorem spells_writeBytes (bs : List UInt8) {w : List Char} {rest : List UInt8}
    (h : Spells w rest) : Spells (bs.flatMap writeByte ++ w) (bs ++ rest) := by
  have hdigit : ∀ n < 16, hexValue (hexDigit n).toUpper = some n := by decide
  induction bs with
  | nil => exact h
  | cons b bs ih =>
    have hb := b.toNat_lt
    have hbyte : UInt8.ofNat (16 * (b.toNat / 16) + b.toNat % 16) = b := by
      rw [Nat.div_add_mod, UInt8.ofNat_toNat]
    have hs := Spells.encoded (hdigit (b.toNat / 16) (by omega))
      (hdigit (b.toNat % 16) (by omega)) ih
    rwa [hbyte] at hs

theorem spells_writeChar (c : Char) {w : List Char} {bs : List UInt8} (h : Spells w bs) :
    Spells (writeChar c ++ w) (String.utf8EncodeChar c ++ bs) := by
  rw [writeChar]
  split
  · rename_i hc
    refine .plain ?_ h
    refine ⟨?_, ?_, ?_, ?_⟩ <;> rintro rfl <;> revert hc <;> decide
  · split
    · rename_i hc
      rw [hc]
      exact .blank h
    · exact spells_writeBytes _ h

theorem spells_write (s : String) : Spells (write s) (encode s.toList) := by
  rw [write]
  induction s.toList with
  | nil => exact .nil
  | cons c cs ih => exact spells_writeChar c ih

theorem equals_notMem_writeByte (b : UInt8) : '=' ∉ writeByte b := by
  have hdigit : ∀ n < 16, '=' ≠ (hexDigit n).toUpper := by decide
  have hb := b.toNat_lt
  simp [writeByte, hdigit (b.toNat / 16) (by omega), hdigit (b.toNat % 16) (by omega)]

theorem equals_notMem_write (s : String) : '=' ∉ write s := by
  intro h
  obtain ⟨c, -, hc⟩ := List.mem_flatMap.mp h
  rw [writeChar] at hc
  split at hc
  · rename_i hp
    rw [← List.mem_singleton.mp hc] at hp
    revert hp
    decide
  · split at hc
    · revert hc
      decide
    · obtain ⟨b, -, hb⟩ := List.mem_flatMap.mp hc
      exact equals_notMem_writeByte b hb

theorem writes_writePairs (l : List (String × String)) : Writes (writePairs l) l := by
  induction l with
  | nil => exact .nil
  | cons e l ih =>
    exact .cons (.full (spells_write e.1) (spells_write e.2) (equals_notMem_write e.1)) ih

end Http.Form

end Takings
