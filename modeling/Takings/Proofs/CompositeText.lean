import Takings.Filter.Composite
import Takings.Json.Writer

/-!
# Texts of composite filters

What is written between quotes is read back piece by piece, so a key and a value that are written
into the text of a composite filter are the ones that are read from it.
-/
namespace Takings.Json

/-! ### Literals -/

namespace Piece

theorem codeUnit_hexDigit {n : Nat} (h : n < 0x20) :
    codeUnit '0' '0' (Text.hexDigit (n / 16)) (Text.hexDigit (n % 16)) = some n := by
  decide +revert

theorem wellFormed_code {a b c d : Char} {n : Nat} (h : codeUnit a b c d = some n) :
    (Piece.code a b c d).wellFormed = true := by
  simp only [codeUnit, Option.bind_eq_bind, Option.bind_eq_some_iff] at h
  obtain ⟨_, ha, _, hb, _, hc, _, hd, -⟩ := h
  simp [wellFormed, ha, hb, hc, hd]

/-- A character is written as a piece that denotes it. -/
theorem exists_write_eq_escape (c : Char) :
    ∃ p : Piece, p.write = escape c ∧ p.wellFormed = true ∧
      ∀ ps, Literal.text? (p :: ps) = (Literal.text? ps).map (c :: ·) := by
  have hshort (s : Char) (hs : meaning s = some c) (he : escape c = ['\\', s]) :
      ∃ p : Piece, p.write = escape c ∧ p.wellFormed = true ∧
        ∀ ps, Literal.text? (p :: ps) = (Literal.text? ps).map (c :: ·) := by
    refine ⟨.short s, he.symm, by simp [wellFormed, hs], ?_⟩
    intro ps
    cases ht : Literal.text? ps <;> simp [Literal.text?, hs, ht]
  unfold escape
  split
  · exact hshort '"' rfl rfl
  · exact hshort '\\' rfl rfl
  · exact hshort 'b' rfl rfl
  · exact hshort 'f' rfl rfl
  · exact hshort 'n' rfl rfl
  · exact hshort 'r' rfl rfl
  · exact hshort 't' rfl rfl
  · rename_i hq hb _ _ _ _ _
    split
    · rename_i hc
      have hu := codeUnit_hexDigit hc
      refine ⟨.code '0' '0' _ _, rfl, wellFormed_code hu, ?_⟩
      intro ps
      have hh : Literal.isHigh c.toNat = false := by
        simp [Literal.isHigh]
        omega
      have hl : Literal.isLow c.toNat = false := by
        simp [Literal.isLow]
        omega
      cases ht : Literal.text? ps <;> simp [Literal.text?, hu, hh, hl, ht]
    · rename_i hc
      refine ⟨.plain c, rfl, ?_, fun _ => rfl⟩
      simp [wellFormed, mayStand]
      exact ⟨⟨by omega, hq⟩, hb⟩

end Piece

namespace Literal

/-- One piece is read. -/
theorem read_write_append {p : Piece} (h : p.wellFormed = true) (rest : List Char) :
    read (p.write ++ rest) = (read rest).map fun (ps, rest) => (p :: ps, rest) := by
  cases p with
  | plain c =>
    have hc : c ≠ '"' ∧ c ≠ '\\' := by
      simp only [Piece.wellFormed, Piece.mayStand, Bool.and_eq_true, bne_iff_ne] at h
      exact ⟨h.1.2, h.2⟩
    have hm : Piece.mayStand c = true := h
    simp only [Piece.write, List.singleton_append]
    rw [read, if_pos hm]
    · exact hc.1
    · intro _ _ _ _ _ he _
      exact hc.2 he
    · intro _ _ he _
      exact hc.2 he
  | short c =>
    have hu : c ≠ 'u' := by
      rintro rfl
      cases h
    simp only [Piece.write, List.cons_append, List.nil_append]
    rw [read, if_pos h]
    intro _ _ _ _ _ he _
    exact hu he
  | code a b c d =>
    simp only [Piece.write, List.cons_append, List.nil_append]
    rw [read, if_pos h]

/-- Pieces are read back up to the quote that ends them. -/
theorem read_write {ps : Literal} (h : ∀ p ∈ ps, p.wellFormed = true) (rest : List Char) :
    read (ps.write ++ rest) = some (ps, rest) := by
  induction ps with
  | nil => rfl
  | cons p ps ih =>
    obtain ⟨hp, hps⟩ := List.forall_mem_cons.mp h
    have hr := ih hps
    simp only [write, List.flatMap_cons, List.append_assoc] at hr ⊢
    rw [read_write_append hp, hr]
    rfl

/-- A text is written as a literal that denotes it. -/
theorem exists_write_eq (cs : List Char) :
    ∃ ps : Literal, ps.write = cs.flatMap escape ++ ['"'] ∧
      (∀ p ∈ ps, p.wellFormed = true) ∧ ps.text? = some cs := by
  induction cs with
  | nil => exact ⟨[], rfl, by simp, rfl⟩
  | cons c cs ih =>
    obtain ⟨ps, hw, hf, ht⟩ := ih
    obtain ⟨p, hp, hpf, hpt⟩ := Piece.exists_write_eq_escape c
    refine ⟨p :: ps, ?_, List.forall_mem_cons.mpr ⟨hpf, hf⟩, ?_⟩
    · simp only [write, List.flatMap_cons, List.append_assoc, hp] at hw ⊢
      rw [hw]
    · rw [hpt, ht]
      rfl

/-- What is written of a text is read back. -/
theorem exists_read_quote (s : String) : ∃ ps : Literal, ps.text? = some s.toList ∧
    ∀ rest, Tree.readKey (quote s ++ rest) = some (ps, rest) := by
  obtain ⟨ps, hw, hf, ht⟩ := exists_write_eq s.toList
  refine ⟨ps, ht, ?_⟩
  intro rest
  have hr := read_write hf rest
  rw [hw] at hr
  exact hr

end Literal

/-! ### Objects of texts -/

namespace Tree

/-- A name that is read back as a literal. -/
def Spells (s : String) (ps : Literal) : Prop :=
  ∀ rest, readKey (quote s ++ rest) = some (ps, rest)

variable {k v : String} {ks vs : Literal}

theorem skipGap_quote (s : String) (rest : List Char) :
    skipGap (quote s ++ rest) = quote s ++ rest :=
  rfl

theorem readValue_quote (h : Spells v vs) (n : Nat) (rest : List Char) :
    readValue (n + 1) (quote v ++ rest) = some (.string vs, rest) := by
  have hr : readValue (n + 1) (quote v ++ rest) =
      (readKey (quote v ++ rest)).map fun (s, rest) => (.string s, rest) := rfl
  rw [hr, h]
  rfl

theorem readMembers_quote (hk : Spells k ks) (hv : Spells v vs) (n : Nat) (rest : List Char) :
    readMembers (n + 2) (quote k ++ ':' :: (quote v ++ ',' :: rest)) =
      (readMembers (n + 1) rest).map fun (l, rest) => ((ks, .string vs) :: l, rest) := by
  have hc : skipGap (':' :: (quote v ++ ',' :: rest)) = ':' :: (quote v ++ ',' :: rest) := rfl
  have hs : skipGap (',' :: rest) = ',' :: rest := rfl
  rw [readMembers, skipGap_quote, hk]
  simp only [hc, readValue_quote hv, hs]

theorem readMembers_quote_last (hk : Spells k ks) (hv : Spells v vs) (n : Nat)
    (rest : List Char) :
    readMembers (n + 2) (quote k ++ ':' :: (quote v ++ '\x7d' :: rest)) =
      some ([(ks, .string vs)], rest) := by
  have hc : skipGap (':' :: (quote v ++ '\x7d' :: rest)) = ':' :: (quote v ++ '\x7d' :: rest) := rfl
  have hs : skipGap ('\x7d' :: rest) = '\x7d' :: rest := rfl
  rw [readMembers, skipGap_quote, hk]
  simp only [hc, readValue_quote hv, hs]

end Tree

end Takings.Json

namespace Takings.Filter

open Json

theorem Level.ofKey?_eq_some_iff {h : Hierarchy} {key : String} {l : Level} :
    Level.ofKey? h key = some l ↔ l.hierarchy = h ∧ key ∈ l.keys := by
  constructor
  · intro hl
    simpa using List.find?_some hl
  · rintro ⟨rfl, hk⟩
    cases l <;> simp only [Level.keys, List.mem_cons, List.not_mem_nil, or_false] at hk <;>
      rcases hk with rfl | rfl <;> decide

namespace Composite

/-- The text of a composite filter with a key and a value. -/
def text (key value : String) : String :=
  Json.text (.obj [("type", .str key), ("value", .str value)])

/-- The text with the quotes that it holds. -/
theorem toList_text (key value : String) : (text key value).toList =
    '\x7b' :: (quote "type" ++ ':' :: (quote key ++ ',' :: (quote "value" ++
      ':' :: (quote value ++ ['\x7d'])))) := by
  simp [text, Json.text, write, writeMembers]

/-- The key and the value of a text are the ones that were written. -/
theorem read?_text (key value : String) : read? (text key value) = some (key, value) := by
  obtain ⟨ts, ht, htype⟩ := Literal.exists_read_quote "type"
  obtain ⟨vs, hv, hvalue⟩ := Literal.exists_read_quote "value"
  obtain ⟨ps, hp, hkey⟩ := Literal.exists_read_quote key
  obtain ⟨qs, hq, hval⟩ := Literal.exists_read_quote value
  have htree : Tree.read? (text key value).toList =
      some (.object [(ts, .string ps), (vs, .string qs)]) := by
    obtain ⟨n, hn⟩ : ∃ n, 2 * (text key value).toList.length + 2 = n + 4 := by
      refine ⟨2 * (text key value).toList.length - 2, ?_⟩
      rw [toList_text, List.length_cons]
      omega
    rw [Tree.read?, hn, toList_text]
    have hobject (cs : List Char) : Tree.readValue (n + 4) ('\x7b' :: (quote "type" ++ cs)) =
        (Tree.readMembers (n + 3) (quote "type" ++ cs)).map fun (l, rest) => (.object l, rest) := rfl
    rw [hobject, Tree.readMembers_quote htype hkey, Tree.readMembers_quote_last hvalue hval]
    rfl
  rw [read?, htree]
  simp [parts?, ht, hv, hp, hq, single?, valueText?]

/-! ### Texts that hold a key and a value -/

theorem bracket_mem_of_readValue {n : Nat} {cs rest : List Char} {t : Tree}
    (h : Tree.readValue n cs = some (t, rest)) (hp : (parts? t).isSome = true) :
    '[' ∈ cs ∨ '\x7b' ∈ cs := by
  have hmem {c : Char} {r : List Char} (he : Tree.skipGap cs = c :: r) : c ∈ cs := by
    have hm : c ∈ Tree.skipGap cs := by simp [he]
    exact (List.dropWhile_sublist Tree.isGap).subset hm
  have ht : (∃ items, t = .array items) ∨ ∃ members, t = .object members := by
    cases t with
    | array items => exact .inl ⟨items, rfl⟩
    | object members => exact .inr ⟨members, rfl⟩
    | null | bool _ | number _ | string _ => cases hp
  cases n with
  | zero => cases h
  | succ n =>
    rw [Tree.readValue] at h
    split at h
    case h_5 he => exact .inl (hmem he)
    case h_6 he => exact .inr (hmem he)
    -- What else can be read is neither an array nor an object.
    all_goals
      obtain ⟨_, rfl⟩ | ⟨_, rfl⟩ := ht <;> simp at h

theorem isActive_of_mem {c : Char} {text : String} (hc : Text.isBlank c = false)
    (ha : c.toLower ∉ "all".toList.map Char.toLower) (h : c ∈ text.toList) :
    isActive text = true := by
  have hi := Text.mem_trim hc h
  have he : (Text.trim text).isEmpty = false := by
    cases hn : (Text.trim text).isEmpty with
    | false => rfl
    | true =>
      rw [String.isEmpty_iff.mp hn] at hi
      cases hi
  have hs : Text.sameLetters (Text.trim text) "all" = false := by
    rw [Text.sameLetters, beq_eq_false_iff_ne]
    intro hs
    exact ha (hs ▸ List.mem_map_of_mem hi)
  rw [isActive, he, hs]
  rfl

/-- A text that holds a key and a value is neither blank nor the word for everything. -/
theorem isActive_of_read? {text : String} {x : String × String} (h : read? text = some x) :
    isActive text = true := by
  simp only [read?, Option.bind_eq_bind, Option.bind_eq_some_iff] at h
  obtain ⟨t, ht, ⟨k, v⟩, hp, -⟩ := h
  have hm : '[' ∈ text.toList ∨ '\x7b' ∈ text.toList := by
    rw [Tree.read?] at ht
    split at ht
    · rename_i hv
      split at ht
      · cases ht
        exact bracket_mem_of_readValue hv (by rw [hp]; rfl)
      · cases ht
    · cases ht
  rcases hm with hm | hm
  · exact isActive_of_mem (by decide) (by decide) hm
  · exact isActive_of_mem (by decide) (by decide) hm

theorem filter?_of_read? {text key value : String} {h : Hierarchy} {l : Level}
    (hr : read? text = some (key, value)) (hl : Level.ofKey? h key = some l) :
    filter? h text = (active? value).map fun v => ⟨l, v⟩ := by
  have hg : (guard (isActive text = true) : Option Unit) = some () :=
    if_pos (isActive_of_read? hr)
  rw [filter?, hg, hr]
  show (Level.ofKey? h key).bind (fun l =>
    (active? value).bind fun v => some (⟨l, v⟩ : LevelFilter)) = _
  rw [hl]
  cases active? value <;> rfl

end Composite

end Takings.Filter
