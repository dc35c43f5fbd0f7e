import Takings.Proofs.CompositeText

/-!
# The tokens of JSON

White space, strings and numbers as they are written. Each is told from what follows it, and what
is taken off the front of a text is what was written there. The text that a string denotes is
given by rules, one for each kind of piece.
-/
namespace Takings.Json

/-- White space between tokens. -/
def Gap (cs : List Char) : Prop :=
  ∀ c ∈ cs, Tree.isGap c = true

/-! ### White space -/

namespace Tree

theorem skipGap_append_of_gap {gap : List Char} (h : Gap gap) (cs : List Char) :
    skipGap (gap ++ cs) = skipGap cs :=
  List.dropWhile_append_of_pos h

theorem skipGap_cons {c : Char} (h : isGap c = false) (cs : List Char) :
    skipGap (c :: cs) = c :: cs :=
  List.dropWhile_cons_of_neg (by simp [h])

theorem skipGap_append_cons {gap : List Char} (h : Gap gap) {c : Char} (hc : isGap c = false)
    (cs : List Char) : skipGap (gap ++ c :: cs) = c :: cs := by
  rw [skipGap_append_of_gap h, skipGap_cons hc]

theorem skipGap_of_gap {gap : List Char} (h : Gap gap) : skipGap gap = [] := by
  rw [← List.append_nil gap, skipGap_append_of_gap h]
  rfl

theorem skipGap_append_of_cons {cs r : List Char} {c : Char} (h : skipGap cs = c :: r)
    (ds : List Char) : skipGap (cs ++ ds) = c :: (r ++ ds) := by
  rw [skipGap, List.dropWhile_append, show cs.dropWhile isGap = c :: r from h]
  rfl

/-- White space comes off the front of any text. -/
theorem exists_gap (cs : List Char) : ∃ gap, Gap gap ∧ cs = gap ++ skipGap cs :=
  ⟨cs.takeWhile isGap, List.all_eq_true.mp List.all_takeWhile,
    List.takeWhile_append_dropWhile.symm⟩

theorem isGap_of_skipGap {cs r : List Char} {c : Char} (h : skipGap cs = c :: r) :
    isGap c = false := by
  induction cs with
  | nil => cases h
  | cons d ds ih =>
    cases hd : isGap d with
    | true =>
      rw [skipGap, List.dropWhile_cons_of_pos hd] at h
      exact ih h
    | false =>
      rw [skipGap_cons hd] at h
      cases h
      exact hd

theorem eq_cons_of_readKey {cs : List Char} {x : Literal × List Char} (h : readKey cs = some x) :
    ∃ r, cs = '"' :: r ∧ Literal.read r = some x := by
  rw [readKey.eq_def] at h
  split at h
  · exact ⟨_, rfl, h⟩
  · cases h

theorem skipGap_skipGap (cs : List Char) : skipGap (skipGap cs) = skipGap cs := by
  cases h : skipGap cs with
  | nil => rfl
  | cons c r => exact skipGap_cons (isGap_of_skipGap h) r

end Tree

/-! ### Literals -/

namespace Literal

def WellFormed (s : Literal) : Prop :=
  ∀ p ∈ s, p.wellFormed = true

theorem write_cons (p : Piece) (s : Literal) : write (p :: s) = p.write ++ s.write := by
  simp [write]

theorem eq_write_of_map_read {p : Piece} {r rest : List Char} {s : Literal}
    (hp : p.wellFormed = true)
    (ih : ∀ {s : Literal}, read r = some (s, rest) → r = s.write ++ rest ∧ s.WellFormed)
    (h : (read r).map (fun (ps, rest) => (p :: ps, rest)) = some (s, rest)) :
    p.write ++ r = s.write ++ rest ∧ s.WellFormed := by
  obtain ⟨⟨ps, _⟩, hr, he⟩ := Option.map_eq_some_iff.mp h
  cases he
  obtain ⟨rfl, hw⟩ := ih hr
  exact ⟨by simp [write], List.forall_mem_cons.mpr ⟨hp, hw⟩⟩

theorem eq_write_of_read {cs rest : List Char} {s : Literal} (h : read cs = some (s, rest)) :
    cs = s.write ++ rest ∧ s.WellFormed := by
  induction cs using Literal.read.induct generalizing s with
  | case1 => cases h
  | case2 r =>
    cases h
    exact ⟨rfl, by simp [WellFormed]⟩
  | case3 a b c d r hp ih =>
    rw [read, if_pos hp] at h
    exact eq_write_of_map_read hp ih h
  | case4 a b c d r hp =>
    rw [read, if_neg hp] at h
    cases h
  | case5 c r hu hp ih =>
    rw [read, if_pos hp] at h
    · exact eq_write_of_map_read hp ih h
    · exact hu
  | case6 c r hu hp =>
    rw [read, if_neg hp] at h
    · cases h
    · exact hu
  | case7 c r hq hu hb hp ih =>
    rw [read, if_pos hp] at h
    · exact eq_write_of_map_read (show (Piece.plain c).wellFormed = true from hp) ih h
    · exact hq
    · exact hu
    · exact hb
  | case8 c r hq hu hb hp =>
    rw [read, if_neg hp] at h
    · cases h
    · exact hq
    · exact hu
    · exact hb

/-! ### Texts of literals -/

/-- The texts that literals denote. An escape of four digits is a code unit of UTF-16, and a
character beyond those is the pair of its two halves. -/
inductive Denotes : Literal → List Char → Prop
  | nil : Denotes [] []
  | plain {c : Char} {s : Literal} {cs : List Char} (h : Denotes s cs) :
    Denotes (.plain c :: s) (c :: cs)
  | short {x c : Char} {s : Literal} {cs : List Char} (hc : Piece.meaning x = some c)
    (h : Denotes s cs) : Denotes (.short x :: s) (c :: cs)
  | code {w x y z c : Char} {s : Literal} {cs : List Char}
    (hc : Piece.codeUnit w x y z = some c.toNat) (h : Denotes s cs) :
    Denotes (.code w x y z :: s) (c :: cs)
  | pair {w x y z w' x' y' z' c : Char} {u v : Nat} {s : Literal} {cs : List Char}
    (hu : Piece.codeUnit w x y z = some u) (hv : Piece.codeUnit w' x' y' z' = some v)
    (hhigh : 0xD800 ≤ u ∧ u < 0xDC00) (hlow : 0xDC00 ≤ v ∧ v < 0xE000)
    (hc : c.toNat = 0x10000 + 0x400 * (u - 0xD800) + (v - 0xDC00)) (h : Denotes s cs) :
    Denotes (.code w x y z :: .code w' x' y' z' :: s) (c :: cs)

theorem isHigh_iff {u : Nat} : isHigh u = true ↔ 0xD800 ≤ u ∧ u < 0xDC00 := by
  simp [isHigh]

theorem isLow_iff {u : Nat} : isLow u = true ↔ 0xDC00 ≤ u ∧ u < 0xE000 := by
  simp [isLow]

/-- No character is half of a surrogate pair. -/
theorem not_surrogate (c : Char) : isHigh c.toNat = false ∧ isLow c.toNat = false := by
  have hvalid : c.toNat < 0xD800 ∨ 0xDFFF < c.toNat ∧ c.toNat < 0x110000 := c.valid
  simp only [isHigh, isLow, Bool.and_eq_false_iff, decide_eq_false_iff_not]
  omega

theorem toNat_ofNat {n : Nat} (h : n < 0xD800 ∨ 0xDFFF < n ∧ n < 0x110000) :
    (Char.ofNat n).toNat = n := by
  rw [Char.ofNat, dif_pos h]
  rfl

theorem codeUnit_lt {w x y z : Char} {u : Nat} (h : Piece.codeUnit w x y z = some u) :
    u < 0x10000 := by
  have hdigit {c : Char} {n : Nat} (h : Text.hexValue c = some n) : n < 16 := by
    simp only [Text.hexValue, Char.le_def, UInt32.le_iff_toNat_le, Char.toNat] at h
    have h9 : '9'.val.toNat = '0'.val.toNat + 9 := rfl
    have hf : 'f'.val.toNat = 'a'.val.toNat + 5 := rfl
    have hF : 'F'.val.toNat = 'A'.val.toNat + 5 := rfl
    split at h
    · cases h
      omega
    · split at h
      · cases h
        omega
      · split at h
        · cases h
          omega
        · cases h
  simp only [Piece.codeUnit, Option.bind_eq_bind, Option.bind_eq_some_iff] at h
  obtain ⟨a, ha, b, hb, c, hc, d, hd, ⟨⟩⟩ := h
  have := hdigit ha
  have := hdigit hb
  have := hdigit hc
  have := hdigit hd
  omega

theorem text?_of_denotes {s : Literal} {cs : List Char} (h : Denotes s cs) : s.text? = some cs := by
  induction h with
  | nil => rfl
  | plain h ih => simp [text?, ih]
  | short hc h ih => simp [text?, hc, ih]
  | @code w x y z c s cs hc h ih =>
    obtain ⟨hhigh, hlow⟩ := not_surrogate c
    simp [text?, hc, hhigh, hlow, ih]
  | pair hu hv hhigh hlow hc h ih =>
    rw [text?, hu, Option.bind_eq_bind, Option.bind_some, if_pos (isHigh_iff.mpr hhigh)]
    simp only [hv, isLow_iff.mpr hlow, ih, ← hc, Option.bind_eq_bind, Option.bind_some, if_true,
      Option.pure_def, Char.ofNat_toNat]

theorem denotes_of_text? {s : Literal} {cs : List Char} (h : s.text? = some cs) : Denotes s cs := by
  induction s using text?.induct generalizing cs with
  | case1 =>
    cases h
    exact .nil
  | case2 c s ih =>
    obtain ⟨cs, hcs, rfl⟩ := Option.map_eq_some_iff.mp h
    exact .plain (ih hcs)
  | case3 x s ih =>
    simp only [text?, Option.bind_eq_bind, Option.bind_eq_some_iff] at h
    obtain ⟨c, hc, cs, hcs, ⟨⟩⟩ := h
    exact .short hc (ih hcs)
  | case4 w x y z s ihpair ih =>
    simp only [text?, Option.bind_eq_bind, Option.bind_eq_some_iff] at h
    obtain ⟨u, hu, h⟩ := h
    split at h
    · rename_i hhigh
      split at h
      · simp only [Option.bind_eq_some_iff] at h
        obtain ⟨v, hv, h⟩ := h
        split at h
        · rename_i hlow
          obtain ⟨cs, hcs, ⟨⟩⟩ := Option.bind_eq_some_iff.mp h
          rw [isHigh_iff] at hhigh
          rw [isLow_iff] at hlow
          exact .pair hu hv hhigh hlow (toNat_ofNat (by omega)) (ihpair hcs)
        · cases h
      · cases h
    · split at h
      · cases h
      · rename_i hhigh hlow
        obtain ⟨cs, hcs, ⟨⟩⟩ := Option.bind_eq_some_iff.mp h
        have hlt := codeUnit_lt hu
        rw [isHigh_iff] at hhigh
        rw [isLow_iff] at hlow
        exact .code (by rw [hu, toNat_ofNat (by omega)]) (ih hcs)

theorem length_lt_of_denotes {s : Literal} {cs : List Char} (h : s.Denotes cs) :
    cs.length < s.write.length := by
  induction h with
  | nil => decide
  | plain _ ih | short _ _ ih | code _ _ ih | pair _ _ _ _ _ _ ih =>
    simp only [write_cons, Piece.write, List.length_append, List.length_cons] at ih ⊢
    omega

theorem text?_eq_some_iff {s : Literal} {cs : List Char} : s.text? = some cs ↔ Denotes s cs :=
  ⟨denotes_of_text?, text?_of_denotes⟩

end Literal

/-! ### Numerals -/

/-- A number cannot go on with this text. -/
def EndsNumber (rest : List Char) : Prop :=
  ∀ c ∈ rest.head?, c.isDigit = false ∧ c ≠ '.' ∧ c ≠ 'e' ∧ c ≠ 'E'

/-- Digits are told from what follows them. -/
theorem span_digits {ds rest : List Char} (hd : ds.all Char.isDigit = true)
    (hr : ∀ c ∈ rest.head?, c.isDigit = false) :
    (ds ++ rest).takeWhile Char.isDigit = ds ∧ (ds ++ rest).dropWhile Char.isDigit = rest := by
  have h : rest.takeWhile Char.isDigit = [] ∧ rest.dropWhile Char.isDigit = rest := by
    cases rest with
    | nil => exact ⟨rfl, rfl⟩
    | cons c cs => simp [hr c rfl]
  rw [List.takeWhile_append_of_pos (List.all_eq_true.mp hd), h.1, List.append_nil,
    List.dropWhile_append_of_pos (List.all_eq_true.mp hd), h.2]
  exact ⟨rfl, rfl⟩

namespace Exponent

theorem read_of_no_mark {c : Char} (h : ¬ (c = 'e' ∨ c = 'E')) (r : List Char) :
    read (c :: r) = some (none, c :: r) :=
  if_neg h

theorem read_of_sign {mark s : Char} (hm : mark = 'e' ∨ mark = 'E') (hs : s = '+' ∨ s = '-')
    (r : List Char) : read (mark :: s :: r) =
      if (r.takeWhile Char.isDigit).isEmpty then none
      else some (some ⟨mark, some s, r.takeWhile Char.isDigit⟩, r.dropWhile Char.isDigit) := by
  rcases hs with rfl | rfl <;> simp only [read, hm, if_true]

theorem read_of_no_sign {mark c : Char} (hm : mark = 'e' ∨ mark = 'E') (hp : c ≠ '+')
    (hn : c ≠ '-') (r : List Char) : read (mark :: c :: r) =
      if ((c :: r).takeWhile Char.isDigit).isEmpty then none
      else some (some ⟨mark, none, (c :: r).takeWhile Char.isDigit⟩,
        (c :: r).dropWhile Char.isDigit) := by
  rw [read, if_pos hm]
  · exact fun _ h => hp (List.cons.inj h).1
  · exact fun _ h => hn (List.cons.inj h).1

theorem read_write {e : Option Exponent} (h : e.all wellFormed = true) {rest : List Char}
    (hr : EndsNumber rest) : read ((e.map write).getD [] ++ rest) = some (e, rest) := by
  cases e with
  | none =>
    cases rest with
    | nil => rfl
    | cons c cs =>
      obtain ⟨-, -, he, hE⟩ := hr c rfl
      exact read_of_no_mark (fun h => h.elim he hE) cs
  | some e =>
    obtain ⟨mark, sign, digits⟩ := e
    simp only [Option.all_some, wellFormed, Bool.and_eq_true, Bool.or_eq_true, beq_iff_eq,
      Bool.not_eq_true'] at h
    obtain ⟨⟨⟨hm, hs⟩, hne⟩, hd⟩ := h
    obtain ⟨ht, hdr⟩ := span_digits hd fun c hc => (hr c hc).1
    cases sign with
    | some s =>
      simp only [Option.all_some, Bool.or_eq_true, beq_iff_eq] at hs
      have hread := read_of_sign hm hs (digits ++ rest)
      rwa [ht, hdr, hne, if_neg Bool.false_ne_true] at hread
    | none =>
      cases digits with
      | nil => simp at hne
      | cons c cs =>
        have hc : c.isDigit = true := List.all_eq_true.mp hd c List.mem_cons_self
        have hread := read_of_no_sign (c := c) hm (by rintro rfl; cases hc) (by rintro rfl; cases hc)
          (cs ++ rest)
        rw [← List.cons_append, ht, hdr, if_neg (by simp)] at hread
        exact hread

theorem eq_write_of_read {cs rest : List Char} {e : Option Exponent}
    (h : read cs = some (e, rest)) :
    cs = (e.map write).getD [] ++ rest ∧ e.all wellFormed = true := by
  cases cs with
  | nil =>
    cases h
    exact ⟨rfl, rfl⟩
  | cons mark r =>
    by_cases hm : mark = 'e' ∨ mark = 'E'
    · have hspan (sign : Option Char) (hs : (sign.all fun c => c == '+' || c == '-') = true)
          (r : List Char)
          (h : (if (r.takeWhile Char.isDigit).isEmpty then none else
            some (some (⟨mark, sign, r.takeWhile Char.isDigit⟩ : Exponent),
              r.dropWhile Char.isDigit)) = some (e, rest)) :
          mark :: (sign.toList ++ r) = (e.map write).getD [] ++ rest ∧
            e.all wellFormed = true := by
        split at h
        · cases h
        · rename_i hne
          cases h
          have hd : (r.takeWhile Char.isDigit).all Char.isDigit = true := List.all_takeWhile
          constructor
          · simp [write]
          · simp only [Option.all_some, wellFormed, hs, hd, hne]
            rcases hm with rfl | rfl <;> rfl
      cases r with
      | nil =>
        simp [read, hm] at h
      | cons c r =>
        by_cases hp : c = '+'
        · rw [read_of_sign hm (.inl hp)] at h
          exact hspan (some c) (by simp [hp]) r h
        · by_cases hn : c = '-'
          · rw [read_of_sign hm (.inr hn)] at h
            exact hspan (some c) (by simp [hn]) r h
          · rw [read_of_no_sign hm hp hn] at h
            exact hspan none rfl (c :: r) h
    · rw [read_of_no_mark hm] at h
      cases h
      exact ⟨rfl, rfl⟩

end Exponent

namespace Numeral

theorem readFraction_of_ne {c : Char} (h : c ≠ '.') (r : List Char) :
    readFraction (c :: r) = some ([], c :: r) := by
  rw [readFraction]
  intro _ he
  exact h (List.cons.inj he).1

/-- The text of an exponent goes on no number, and neither does what follows it. -/
theorem endsFraction_exponent {e : Option Exponent} (h : e.all Exponent.wellFormed = true)
    {rest : List Char} (hr : EndsNumber rest) (c : Char)
    (hc : c ∈ ((e.map Exponent.write).getD [] ++ rest).head?) : c.isDigit = false ∧ c ≠ '.' := by
  cases e with
  | none =>
    obtain ⟨hd, hp, -⟩ := hr c hc
    exact ⟨hd, hp⟩
  | some e =>
    simp only [Option.all_some, Exponent.wellFormed, Bool.and_eq_true, Bool.or_eq_true,
      beq_iff_eq] at h
    cases hc
    rcases h.1.1.1 with hm | hm <;> rw [hm] <;> decide

theorem readFraction_write {ds tail : List Char} (hd : ds.all Char.isDigit = true)
    (ht : ∀ c ∈ tail.head?, c.isDigit = false ∧ c ≠ '.') :
    readFraction ((if ds.isEmpty then [] else '.' :: ds) ++ tail) = some (ds, tail) := by
  cases ds with
  | nil =>
    cases tail with
    | nil => rfl
    | cons c cs => exact readFraction_of_ne (ht c rfl).2 cs
  | cons d ds =>
    obtain ⟨hw, hr⟩ := span_digits hd fun c hc => (ht c hc).1
    simp only [List.isEmpty_cons, Bool.false_eq_true, if_false, List.cons_append] at hw hr ⊢
    simp only [readFraction, hw, hr, List.isEmpty_cons, Bool.false_eq_true, if_false]

/-- Reads a number after its sign. -/
def readSize (negative : Bool) (r : List Char) : Option (Numeral × List Char) := do
  let whole := r.takeWhile Char.isDigit
  if !properWhole whole then none
  let (fraction, r) ← readFraction (r.dropWhile Char.isDigit)
  let (exponent, r) ← Exponent.read r
  return (⟨negative, whole, fraction, exponent⟩, r)

theorem read_of_minus (r : List Char) : read ('-' :: r) = readSize true r :=
  rfl

theorem read_of_no_minus {cs : List Char} (h : cs.head? ≠ some '-') :
    read cs = readSize false cs := by
  cases cs with
  | nil => rfl
  | cons c r =>
    have hc : c ≠ '-' := fun he => h (by rw [he]; rfl)
    rw [read]
    · rfl
    · exact fun _ he => hc (List.cons.inj he).1

theorem readSize_write {n : Numeral} (h : n.wellFormed = true) {rest : List Char}
    (hr : EndsNumber rest) (negative : Bool) :
    readSize negative (n.whole ++ ((if n.fraction.isEmpty then [] else '.' :: n.fraction) ++
      ((n.exponent.map Exponent.write).getD [] ++ rest))) =
        some (⟨negative, n.whole, n.fraction, n.exponent⟩, rest) := by
  simp only [wellFormed, Bool.and_eq_true] at h
  obtain ⟨⟨⟨hp, hw⟩, hf⟩, he⟩ := h
  have hexp := endsFraction_exponent he hr
  have htail : ∀ c ∈ ((if n.fraction.isEmpty then [] else '.' :: n.fraction) ++
      ((n.exponent.map Exponent.write).getD [] ++ rest)).head?, c.isDigit = false := by
    cases hfr : n.fraction with
    | nil => exact fun c hc => (hexp c hc).1
    | cons d ds =>
      intro c hc
      cases hc
      rfl
  obtain ⟨ht, hd⟩ := span_digits hw htail
  simp only [readSize, ht, hd, hp, Bool.not_true, Bool.false_eq_true, if_false,
    readFraction_write hf hexp, Option.bind_eq_bind, Option.bind_some, Exponent.read_write he hr,
    Option.pure_def]

theorem read_write {n : Numeral} (h : n.wellFormed = true) {rest : List Char}
    (hr : EndsNumber rest) : read (n.write ++ rest) = some (n, rest) := by
  have hs := readSize_write h hr
  obtain ⟨negative, whole, fraction, exponent⟩ := n
  cases negative with
  | true =>
    simpa [write, read_of_minus] using hs true
  | false =>
    have hm : (whole ++ ((if fraction.isEmpty then [] else '.' :: fraction) ++
        ((exponent.map Exponent.write).getD [] ++ rest))).head? ≠ some '-' := by
      simp only [wellFormed, Bool.and_eq_true] at h
      cases whole with
      | nil => simp [properWhole] at h
      | cons c cs =>
        have hc : c.isDigit = true := List.all_eq_true.mp h.1.1.2 c List.mem_cons_self
        rintro he
        cases he
        cases hc
    have hread := (read_of_no_minus hm).trans (hs false)
    simpa [write] using hread

theorem eq_write_of_readFraction {cs rest ds : List Char}
    (h : readFraction cs = some (ds, rest)) :
    cs = (if ds.isEmpty then [] else '.' :: ds) ++ rest ∧ ds.all Char.isDigit = true := by
  cases cs with
  | nil =>
    cases h
    exact ⟨rfl, rfl⟩
  | cons c r =>
    by_cases hc : c = '.'
    · subst hc
      simp only [readFraction] at h
      split at h
      · cases h
      · rename_i hne
        cases h
        exact ⟨by simp [hne], List.all_takeWhile⟩
    · rw [readFraction_of_ne hc] at h
      cases h
      exact ⟨rfl, rfl⟩

theorem eq_write_of_readSize {negative : Bool} {r rest : List Char} {n : Numeral}
    (h : readSize negative r = some (n, rest)) :
    (if negative then ['-'] else []) ++ r = n.write ++ rest ∧ n.wellFormed = true := by
  simp only [readSize] at h
  split at h
  · cases h
  · rename_i hp
    simp only [Option.bind_eq_bind, Option.bind_eq_some_iff] at h
    obtain ⟨⟨fraction, r₁⟩, hf, ⟨exponent, r₂⟩, he, hn⟩ := h
    cases hn
    obtain ⟨hr, hfd⟩ := eq_write_of_readFraction hf
    obtain ⟨rfl, hew⟩ := Exponent.eq_write_of_read he
    have hw : (r.takeWhile Char.isDigit).all Char.isDigit = true := List.all_takeWhile
    constructor
    · have hsplit : r = r.takeWhile Char.isDigit ++ r.dropWhile Char.isDigit :=
        List.takeWhile_append_dropWhile.symm
      rw [hr] at hsplit
      simpa [write] using hsplit
    · have hproper : properWhole (r.takeWhile Char.isDigit) = true := by simpa using hp
      simp only [wellFormed, hproper, hw, hfd, hew, Bool.and_self]

theorem eq_write_of_read {cs rest : List Char} {n : Numeral} (h : read cs = some (n, rest)) :
    cs = n.write ++ rest ∧ n.wellFormed = true := by
  by_cases hm : cs.head? = some '-'
  · obtain ⟨r, rfl⟩ := List.head?_eq_some_iff.mp hm
    rw [read_of_minus] at h
    exact eq_write_of_readSize h
  · rw [read_of_no_minus hm] at h
    exact eq_write_of_readSize h

end Numeral

end Takings.Json
