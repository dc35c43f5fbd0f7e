import Mathlib.Data.String.Basic
import Mathlib.Tactic.SplitIfs
import Takings.Text.Utf8

/-!
# Texts and their bytes

A text is read back from its bytes, and the order of texts is the order of their bytes.
-/
namespace Takings.Text.Utf8

theorem encode_cons (c : Char) (cs : List Char) :
    encode (c :: cs) = String.utf8EncodeChar c ++ encode cs :=
  List.flatMap_cons

/-! ### Reading back -/

/-- A byte in the range of those that continue a character. -/
def Follows (b : UInt8) : Prop :=
  0x80 ≤ b ∧ b ≤ 0xBF

theorem follows_ofNat (n : Nat) : Follows (UInt8.ofNat (n % 64 + 128)) := by
  simp only [Follows, UInt8.le_iff_toNat_le, UInt8.toNat_ofNat', UInt8.reduceToNat]
  omega

theorem takeFollowers_append {found : List UInt8} (h : ∀ b ∈ found, Follows b) (bs : List UInt8) :
    takeFollowers found.length 0x80 0xBF (found ++ bs) = (found, bs) := by
  induction found with
  | nil => rfl
  | cons b found ih =>
    rw [List.forall_mem_cons] at h
    rw [List.length_cons, List.cons_append, takeFollowers,
      if_pos (show 0x80 ≤ b ∧ b ≤ 0xBF from h.1),
      ih h.2]

/-- A leading byte with all of its followers makes a character. -/
theorem front_cons {b lo hi x : UInt8} {found : List UInt8} (hb : ¬ b < 0x80)
    (hf : followers b = some (found.length + 1, lo, hi)) (hx : lo ≤ x ∧ x ≤ hi)
    (hfound : ∀ y ∈ found, Follows y) {c : Char}
    (hc : (x :: found).foldl (fun v f => 64 * v + f.toNat % 64)
      (b.toNat % (64 >>> (found.length + 1))) = c.toNat) (bs : List UInt8) :
    front b (x :: found ++ bs) = (.char c, bs) := by
  rw [front, if_neg hb, hf]
  simp only [List.cons_append, takeFollowers, if_pos hx, takeFollowers_append hfound,
    List.length_cons, if_true, hc, Char.ofNat_toNat]

theorem not_lt_ofNat {n m : Nat} (h : 128 ≤ m) (h' : n + m < 256) :
    ¬ UInt8.ofNat (n + m) < 0x80 := by
  simp only [UInt8.lt_iff_toNat_lt, UInt8.toNat_ofNat', UInt8.reduceToNat]
  omega

theorem followers_two {n : Nat} (h : 2 ≤ n) (h' : n < 32) :
    followers (UInt8.ofNat (n + 192)) = some (1, 0x80, 0xBF) := by
  have hl : (0xC2 : UInt8) ≤ UInt8.ofNat (n + 192) ∧ UInt8.ofNat (n + 192) ≤ (0xDF : UInt8) := by
    simp only [UInt8.le_iff_toNat_le, UInt8.toNat_ofNat', UInt8.reduceToNat]
    omega
  rw [followers, if_pos hl]

/-- What may follow the first of three bytes: neither longer forms of characters that fit two bytes
nor surrogates. -/
theorem followers_three : ∀ n < 16, followers (UInt8.ofNat (n + 224)) =
    some (2, if n = 0 then 0xA0 else 0x80, if n = 13 then 0x9F else 0xBF) := by
  decide

/-- What may follow the first of four bytes. -/
theorem followers_four : ∀ n < 5, followers (UInt8.ofNat (n + 240)) =
    some (3, if n = 0 then 0x90 else 0x80, if n = 4 then 0x8F else 0xBF) := by
  decide

/-- The bytes of a character are read as that character, whatever comes after them. -/
theorem front_encodeChar (c : Char) (bs : List UInt8) :
    ∃ b rest, String.utf8EncodeChar c = b :: rest ∧ front b (rest ++ bs) = (.char c, bs) := by
  have hv : c.val.toNat = c.toNat := rfl
  have hvalid : c.toNat < 0xD800 ∨ 0xDFFF < c.toNat ∧ c.toNat < 0x110000 := c.valid
  rw [String.utf8EncodeChar]
  simp only [hv]
  split
  · refine ⟨_, [], rfl, ?_⟩
    have hn : (UInt8.ofNat c.toNat).toNat = c.toNat := by
      rw [UInt8.toNat_ofNat']
      omega
    have hb : UInt8.ofNat c.toNat < 0x80 := by
      rw [UInt8.lt_iff_toNat_lt, hn]
      exact Nat.lt_succ_of_le ‹_›
    rw [front, if_pos hb, hn, Char.ofNat_toNat]
    rfl
  split
  · refine ⟨_, _, rfl, ?_⟩
    refine front_cons (not_lt_ofNat (by decide) (by omega)) (followers_two (by omega) (by omega))
      (follows_ofNat _) (by simp) ?_ bs
    simp only [List.foldl_cons, List.foldl_nil, UInt8.toNat_ofNat', List.length_nil,
      Nat.reduceAdd, Nat.reduceShiftRight]
    omega
  split
  · refine ⟨_, _, rfl, ?_⟩
    refine front_cons (not_lt_ofNat (by decide) (by omega))
      (followers_three _ (Nat.mod_lt _ (by decide))) ?_
      (List.forall_mem_singleton.mpr (follows_ofNat _)) ?_ bs
    · simp only [UInt8.le_iff_toNat_le, UInt8.toNat_ofNat']
      split <;> split <;> simp only [UInt8.reduceToNat] <;> omega
    · simp only [List.foldl_cons, List.foldl_nil, UInt8.toNat_ofNat', List.length_cons,
        List.length_nil, Nat.reduceAdd, Nat.reduceShiftRight]
      omega
  · refine ⟨_, _, rfl, ?_⟩
    refine front_cons (not_lt_ofNat (by decide) (by omega)) (followers_four _ (by omega)) ?_
      (List.forall_mem_cons.mpr
        ⟨follows_ofNat _, List.forall_mem_singleton.mpr (follows_ofNat _)⟩) ?_ bs
    · simp only [UInt8.le_iff_toNat_le, UInt8.toNat_ofNat']
      split <;> split <;> simp only [UInt8.reduceToNat] <;> omega
    · simp only [List.foldl_cons, List.foldl_nil, UInt8.toNat_ofNat', List.length_cons,
        List.length_nil, Nat.reduceAdd, Nat.reduceShiftRight]
      omega

theorem decodeLossy_cons {b : UInt8} {bs rest : List UInt8} {c : Char}
    (h : front b bs = (.char c, rest)) : decodeLossy (b :: bs) = c :: decodeLossy rest := by
  rw [decodeLossy, h]

/-- A text is read back from its bytes. -/
theorem decodeLossy_encode (cs : List Char) : decodeLossy (encode cs) = cs := by
  induction cs with
  | nil => rw [encode, List.flatMap_nil, decodeLossy]
  | cons c cs ih =>
    obtain ⟨b, rest, hb, hf⟩ := front_encodeChar c (encode cs)
    rw [encode_cons, hb, List.cons_append, decodeLossy_cons hf, ih]

/-- Different strings have different bytes. -/
theorem encode_toList_inj {s t : String} : encode s.toList = encode t.toList ↔ s = t := by
  have hinj : Function.Injective encode := Function.LeftInverse.injective decodeLossy_encode
  rw [hinj.eq_iff, String.toList_inj]

/-! ### Order -/

theorem toNat_lt (c : Char) : c.toNat < 0x110000 := by
  rcases c.valid with h | h
  · exact Nat.lt_trans h (by decide)
  · exact h.2

/-- Of two characters the lesser one has the lesser bytes, whatever comes after them. -/
theorem encodeChar_append_lt {c d : Char} (h : c < d) (bs bs' : List UInt8) :
    String.utf8EncodeChar c ++ bs < String.utf8EncodeChar d ++ bs' := by
  have hlt : c.toNat < d.toNat := h
  have hd := toNat_lt d
  have hv : c.val.toNat = c.toNat := rfl
  have hw : d.val.toNat = d.toNat := rfl
  rw [String.utf8EncodeChar, String.utf8EncodeChar]
  simp only [hv, hw]
  split_ifs
  all_goals
    simp only [List.cons_append, List.nil_append, List.cons_lt_cons_iff, UInt8.lt_iff_toNat_lt,
      ← UInt8.toNat_inj, UInt8.toNat_ofNat']
    generalize (bs < bs') = rest
  any_goals omega
  -- Of two characters with four bytes, the first six bits that differ decide.
  have hfirst : c.toNat / 262144 < d.toNat / 262144 ∨
      c.toNat / 262144 = d.toNat / 262144 ∧ c.toNat / 4096 < d.toNat / 4096 ∨
      c.toNat / 4096 = d.toNat / 4096 ∧ c.toNat / 64 < d.toNat / 64 ∨
      c.toNat / 64 = d.toNat / 64 ∧ c.toNat % 64 < d.toNat % 64 := by omega
  rcases hfirst with h | h | h | h <;> omega

theorem encode_lt_encode {cs ds : List Char} (h : cs < ds) : encode cs < encode ds := by
  induction h with
  | nil =>
    rw [encode_cons]
    obtain ⟨b, rest, hb, -⟩ := front_encodeChar _ []
    rw [hb]
    exact List.nil_lt_cons _ _
  | cons h ih =>
    rw [encode_cons, encode_cons]
    exact List.append_left_lt ih
  | rel h =>
    rw [encode_cons, encode_cons]
    exact encodeChar_append_lt h _ _

/-- The order of texts is the order of their bytes. -/
theorem encode_lt_encode_iff {cs ds : List Char} : encode cs < encode ds ↔ cs < ds := by
  refine ⟨fun h => ?_, encode_lt_encode⟩
  rcases Std.lt_trichotomy cs ds with hlt | rfl | hgt
  · exact hlt
  · exact absurd h (List.lt_irrefl _)
  · exact absurd h (List.lt_asymm (encode_lt_encode hgt))

/-- The order of strings, too, is the order of their bytes. -/
theorem encode_toList_lt_iff {s t : String} : encode s.toList < encode t.toList ↔ s < t := by
  rw [encode_lt_encode_iff, String.lt_iff_toList_lt]

theorem encode_toList_le_iff {s t : String} : encode s.toList ≤ encode t.toList ↔ s ≤ t := by
  rw [← List.not_lt, encode_toList_lt_iff, not_lt]

end Takings.Text.Utf8
