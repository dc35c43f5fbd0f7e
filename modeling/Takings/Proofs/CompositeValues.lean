import Takings.Proofs.JsonGrammar
import Takings.Proofs.Outcomes

/-!
# Values of composite filters

The value of a composite filter is a string or a number. It may be in an envelope, an object whose
only member has the reserved name: then the string in that member is a JSON text that holds the
value, and may be an envelope itself. There is no other way to write a value.
-/
namespace Takings

namespace Json

/-! ### The readers of the parts -/

namespace Reader

open Takings.Json.Tree (skipGap)

theorem string_eq_ok_iff {cs r : List Char} {s : String} :
    string cs = .ok (s, r) ↔ ∃ l : Literal, Literal.read cs = some (l, r) ∧ l.Denotes s.toList := by
  rw [string]
  constructor
  · intro h
    split at h
    · rename_i x hx
      cases h
      obtain ⟨⟨l, r⟩, hr, hl⟩ := Option.bind_eq_some_iff.mp hx
      obtain ⟨cs, hcs, ⟨⟩⟩ := Option.map_eq_some_iff.mp hl
      refine ⟨l, hr, ?_⟩
      rw [String.toList_ofList]
      exact Literal.denotes_of_text? hcs
    · cases h
  · rintro ⟨l, hr, hl⟩
    simp [hr, Literal.text?_of_denotes hl]

theorem number_eq_ok_iff {cs r : List Char} {j : Json} :
    number cs = .ok (j, r) ↔ ∃ n, Numeral.read cs = some (n, r) ∧ n.value? = some j := by
  rw [number]
  constructor
  · intro h
    split at h
    · cases h
    · rename_i n r hr
      split at h
      · cases h
      · rename_i j hj
        cases h
        exact ⟨n, hr, hj⟩
  · rintro ⟨n, hr, hj⟩
    simp [hr, hj]

theorem text_eq_ok_iff {inner : List Char → Except Fault Json} {cs : List Char} {j : Json} :
    text inner cs = .ok j ↔ ∃ r, value inner 127 cs = .ok (j, r) ∧ skipGap r = [] := by
  rw [text]
  constructor
  · intro h
    split at h
    · cases h
    · rename_i v r hv
      split at h
      · rename_i hr
        cases h
        exact ⟨r, hv, hr⟩
      · cases h
  · rintro ⟨r, hv, hr⟩
    simp [hv, hr]

theorem name_eq_ok_iff {cs r : List Char} {s : String} :
    name cs = .ok (s, r) ↔ ∃ l r', Tree.readKey cs = some (l, r') ∧ l.Denotes s.toList ∧
      skipGap r' = ':' :: r := by
  constructor
  · intro h
    unfold name at h
    split at h
    · cases h
    · rename_i q
      obtain ⟨⟨k, r'⟩, hs, h⟩ := bind_eq_ok_iff.mp h
      obtain ⟨l, hl, hd⟩ := string_eq_ok_iff.mp hs
      dsimp only at h
      split at h
      · cases h
      · rename_i hr
        cases h
        exact ⟨l, r', hl, hd, hr⟩
      · cases h
    · cases h
  · rintro ⟨l, r', hl, hd, hr⟩
    obtain ⟨q, rfl, hq⟩ := Tree.eq_cons_of_readKey hl
    have hs := string_eq_ok_iff.mpr ⟨l, hq, hd⟩
    show (string q).bind _ = _
    rw [hs]
    simp only [Except.bind, hr]

theorem envelope_eq_ok_iff {inner : List Char → Except Fault Json} {cs r : List Char} {j : Json} :
    envelope inner cs = .ok (j, r) ↔ ∃ l r' enclosed, Tree.readKey (skipGap cs) = some (l, r') ∧
      l.Denotes enclosed ∧ inner enclosed = .ok j ∧ skipGap r' = '\x7d' :: r := by
  rw [envelope]
  constructor
  · intro h
    split at h
    · rename_i q hq
      obtain ⟨⟨k, r'⟩, hs, h⟩ := bind_eq_ok_iff.mp h
      obtain ⟨l, hl, hd⟩ := string_eq_ok_iff.mp hs
      obtain ⟨v, hv, h⟩ := bind_eq_ok_iff.mp h
      split at h
      · cases h
      · rename_i hr
        cases h
        refine ⟨l, r', k.toList, by rw [hq]; exact hl, hd, ?_, hr⟩
        cases hi : inner k.toList with
        | error e =>
          rw [hi] at hv
          cases hv
        | ok w =>
          rw [hi] at hv
          cases hv
          rfl
      · cases h
      · cases h
    · cases h
    · cases h
    · obtain ⟨⟨v, r'⟩, -, h⟩ := bind_eq_ok_iff.mp h
      cases h
  · rintro ⟨l, r', enclosed, hl, hd, hi, hr⟩
    obtain ⟨q, hq, hq'⟩ := Tree.eq_cons_of_readKey hl
    have hs : string q = .ok (String.ofList enclosed, r') :=
      string_eq_ok_iff.mpr ⟨l, hq', by rwa [String.toList_ofList]⟩
    rw [hq]
    show (string q).bind _ = _
    rw [hs]
    simp only [Except.bind, String.toList_ofList, hi, hr]
    rfl

theorem eq_of_word {v j : Json} {ws cs r : List Char} (h : word v ws cs = .ok (j, r)) : j = v := by
  induction ws generalizing cs with
  | nil =>
    cases h
    rfl
  | cons w ws ih =>
    cases cs with
    | nil => cases h
    | cons c cs =>
      rw [word] at h
      split at h
      · exact ih h
      · cases h

end Reader

end Json

namespace Filter.Composite

open Json Json.Reader

/-- A tree holds the text of a value: it is a string, or a number in the text that it gets, or an
envelope whose text holds the value in turn. -/
inductive Carries : Tree → String → Prop
  | string {s : Literal} {value : String} (h : s.Denotes value.toList) : Carries (.string s) value
  | number {n : Numeral} {j : Json} {value : String} (hn : n.value? = some j)
    (hj : scalarText? j = some value) : Carries (.number n) value
  | envelope {name s : Literal} {cs : List Char} {t : Tree} {value : String}
    (hname : name.Denotes envelopeName.toList) (hs : s.Denotes cs) (ht : t.IsText cs)
    (h : Carries t value) : Carries (.object [(name, .string s)]) value

/-! ### What is read carries a value -/

variable {j : Json} {cs rest : List Char} {v : String}

/-- What was taken off the front of a text carries a value. -/
def Yields (cs rest : List Char) (v : String) : Prop :=
  ∃ t, Carries t v ∧ Tree.Takes (.value t) cs rest

theorem yields_of_scalar (h : scalar (Tree.skipGap cs) = .ok (j, rest))
    (hj : scalarText? j = some v) : Yields cs rest v := by
  generalize hr : Tree.skipGap cs = r at h
  have hword {w : Json} (hw : scalarText? w = none) {ws r : List Char} :
      word w ws r ≠ .ok (j, rest) := by
    intro h
    rw [eq_of_word h, hw] at hj
    cases hj
  unfold scalar at h
  split at h
  · cases h
  · exact absurd h (hword rfl)
  · exact absurd h (hword rfl)
  · exact absurd h (hword rfl)
  · obtain ⟨⟨s, r⟩, hs, ⟨⟩⟩ := map_eq_ok_iff.mp h
    obtain ⟨l, hl, hd⟩ := string_eq_ok_iff.mp hs
    obtain ⟨rfl, hw⟩ := Literal.eq_write_of_read hl
    cases hj
    exact ⟨_, .string hd, Tree.takes_of_skipGap (.string hw) hr⟩
  · split at h
    · obtain ⟨n, hn, hv⟩ := number_eq_ok_iff.mp h
      obtain ⟨he, hw⟩ := Numeral.eq_write_of_read hn
      exact ⟨_, .number hv hj, Tree.takes_of_skipGap (.number hw) (hr.trans he)⟩
    · cases h

/-- Whenever a text is read as a string or number, its tree carries the text of that. -/
def Sound (inner : List Char → Except Fault Json) : Prop :=
  ∀ {cs : List Char} {j : Json} {v : String}, inner cs = .ok j → scalarText? j = some v →
    ∃ t : Tree, t.IsText cs ∧ Carries t v

variable {inner : List Char → Except Fault Json}

theorem yields_of_envelope (hi : Sound inner) {r afterName : List Char}
    (hr : Tree.skipGap cs = '\x7b' :: r)
    (hn : name (Tree.skipGap r) = .ok (envelopeName, afterName))
    (h : envelope inner afterName = .ok (j, rest)) (hj : scalarText? j = some v) :
    Yields cs rest v := by
  obtain ⟨l, colon, hl, hname, hcolon⟩ := name_eq_ok_iff.mp hn
  obtain ⟨s, brace, enclosed, hs, hd, he, hbrace⟩ := envelope_eq_ok_iff.mp h
  obtain ⟨t, ht, hc⟩ := hi he hj
  refine ⟨_, .envelope hname hd ht hc, ?_⟩
  obtain ⟨q, hq, hread⟩ := Tree.eq_cons_of_readKey hs
  obtain ⟨rfl, hw⟩ := Literal.eq_write_of_read hread
  obtain ⟨body, hbody, hafter⟩ := (Tree.takes_of_skipGap (.string hw) hq).element
  obtain ⟨first, hfirst, rfl⟩ := Tree.member_of_readKey hl hcolon hbody hafter
  refine Tree.takes_of_skipGap (.object (.lastMember hfirst)) ?_
  rw [hr, hbrace]
  simp

theorem scalarText?_of_array {value : Reader Json} (h : array value cs = .ok (j, rest)) :
    scalarText? j = none := by
  rw [array] at h
  split at h
  · cases h
  · cases h
    rfl
  · obtain ⟨_, -, ⟨⟩⟩ := map_eq_ok_iff.mp h
    rfl

/-- An object of which a text is made is an envelope. -/
theorem envelope_of_object {value : Reader Json} (h : Reader.object inner value cs = .ok (j, rest))
    (hj : scalarText? j = some v) : ∃ afterName,
      name (Tree.skipGap cs) = .ok (envelopeName, afterName) ∧
        envelope inner afterName = .ok (j, rest) := by
  rw [Reader.object] at h
  split at h
  · cases h
  · cases h
    cases hj
  · obtain ⟨⟨k, afterName⟩, hn, h⟩ := bind_eq_ok_iff.mp h
    dsimp only at h
    split at h
    · rename_i hk
      rw [hk] at hn
      exact ⟨afterName, hn, h⟩
    · obtain ⟨_, -, ⟨⟩⟩ := map_eq_ok_iff.mp h
      cases hj

theorem yields_of_value (hi : Sound inner) {depth : Nat}
    (h : Reader.value inner (depth + 1) cs = .ok (j, rest)) (hj : scalarText? j = some v) :
    Yields cs rest v := by
  rw [Reader.value] at h
  split at h
  · rw [scalarText?_of_array h] at hj
    cases hj
  · rename_i hr
    obtain ⟨afterName, hn, he⟩ := envelope_of_object h hj
    exact yields_of_envelope hi hr hn he hj
  · exact yields_of_scalar h hj

theorem sound_nested (n : Nat) : Sound (nested n) := by
  induction n with
  | zero =>
    intro cs j v h
    cases h
  | succ n ih =>
    intro cs j v h hj
    obtain ⟨r, hv, hr⟩ := text_eq_ok_iff.mp h
    obtain ⟨t, hc, ht⟩ := yields_of_value ih hv hj
    obtain ⟨body, hw, hcs⟩ := ht.element
    rw [hr, List.append_nil] at hcs
    exact ⟨t, by rwa [Tree.IsText, hcs], hc⟩

/-! ### What carries a value is read -/

/-- A text is one scalar, if that begins like no array and no object. -/
theorem text_of_scalar {before after r : List Char} {c : Char} (hb : Gap before) (ha : Gap after)
    (hc : Tree.isGap c = false ∧ c ≠ '[' ∧ c ≠ '\x7b')
    (h : scalar (c :: (r ++ after)) = .ok (j, after)) :
    Reader.text inner (before ++ (c :: r ++ after)) = .ok j := by
  refine text_eq_ok_iff.mpr ⟨after, ?_, Tree.skipGap_of_gap ha⟩
  rw [Reader.value, List.cons_append, Tree.skipGap_append_cons hb hc.1]
  split
  · rename_i he
    exact absurd (List.cons.inj he).1 hc.2.1
  · rename_i he
    exact absurd (List.cons.inj he).1 hc.2.2
  · exact h

theorem scalar_of_number {c : Char} (hc : c = '-' ∨ c.isDigit = true) (r : List Char) :
    scalar (c :: r) = Reader.number (c :: r) := by
  rw [scalar, if_pos hc]
  all_goals exact Tree.ne_of_number hc (by decide)

theorem object_of_envelope {value : Reader Json} {afterName : List Char}
    (hn : name (Tree.skipGap cs) = .ok (envelopeName, afterName))
    (he : envelope inner afterName = .ok (j, rest)) :
    Reader.object inner value cs = .ok (j, rest) := by
  obtain ⟨l, r, hl, -, -⟩ := name_eq_ok_iff.mp hn
  obtain ⟨q, hq, -⟩ := Tree.eq_cons_of_readKey hl
  rw [hq] at hn
  rw [Reader.object, hq]
  exact bind_eq_ok_iff.mpr ⟨_, hn, (if_pos rfl).trans he⟩

/-- How an object of one string is written. -/
theorem exists_gaps_of_writes {l s : Literal} (h : Writes (.value (.object [(l, .string s)])) cs) :
    ∃ g₁ g₂ g₃ g₄, (Gap g₁ ∧ Gap g₂ ∧ Gap g₃ ∧ Gap g₄) ∧ (l.WellFormed ∧ s.WellFormed) ∧
      cs = '\x7b' :: (g₁ ++ '"' :: (l.write ++ (g₂ ++ ':' :: (g₃ ++ '"' :: (s.write ++
        (g₄ ++ ['\x7d'])))))) := by
  cases h with
  | object hms =>
    cases hms with
    | moreMembers _ hms => cases hms
    | lastMember hm =>
      cases hm with
      | member h₁ hl h₂ he =>
        cases he with
        | element h₃ hv h₄ =>
          cases hv with
          | string hs => exact ⟨_, _, _, _, ⟨h₁, h₂, h₃, h₄⟩, ⟨hl, hs⟩, by simp⟩

theorem value_of_envelope {l s : Literal} {enclosed before : List Char} {depth : Nat}
    (hw : Writes (.value (.object [(l, .string s)])) cs) (hname : l.Denotes envelopeName.toList)
    (hs : s.Denotes enclosed) (hi : inner enclosed = .ok j) (hb : Gap before) :
    Reader.value inner (depth + 1) (before ++ (cs ++ rest)) = .ok (j, rest) := by
  obtain ⟨g₁, g₂, g₃, g₄, ⟨h₁, h₂, h₃, h₄⟩, ⟨hl, hsw⟩, rfl⟩ := exists_gaps_of_writes hw
  have hcolon : name (Tree.skipGap (g₁ ++ '"' :: (l.write ++ (g₂ ++ ':' :: (g₃ ++ '"' ::
      (s.write ++ (g₄ ++ '\x7d' :: rest))))))) =
        .ok (envelopeName, g₃ ++ '"' :: (s.write ++ (g₄ ++ '\x7d' :: rest))) := by
    rw [Tree.skipGap_append_cons h₁ rfl]
    exact name_eq_ok_iff.mpr
      ⟨l, _, Literal.read_write hl _, hname, Tree.skipGap_append_cons h₂ rfl _⟩
  have hbrace : envelope inner (g₃ ++ '"' :: (s.write ++ (g₄ ++ '\x7d' :: rest))) =
      .ok (j, rest) := by
    refine envelope_eq_ok_iff.mpr ⟨s, _, enclosed, ?_, hs, hi, Tree.skipGap_append_cons h₄ rfl _⟩
    rw [Tree.skipGap_append_cons h₃ rfl]
    exact Literal.read_write hsw _
  rw [List.cons_append, Reader.value, Tree.skipGap_append_cons hb rfl]
  have hv : Reader.object inner (Reader.value inner depth) _ = _ :=
    object_of_envelope hcolon hbrace
  simpa using hv

/-- By induction on the envelopes: the text in one is shorter than the text around it, so as many
calls are left as it needs. -/
theorem nested_of_carries {t : Tree} (h : Carries t v) (ht : t.IsText cs) {n : Nat}
    (hn : cs.length < n) : ∃ j, nested n cs = .ok j ∧ scalarText? j = some v := by
  obtain _ | n := n
  · cases hn
  induction h generalizing cs n with
  | @string s value h =>
    cases ht with
    | @element _ before body after hb hw ha =>
      cases hw with
      | string hs =>
        have hread := string_eq_ok_iff.mpr ⟨s, Literal.read_write hs after, h⟩
        exact ⟨.str value,
          text_of_scalar hb ha (by decide) (map_eq_ok_iff.mpr ⟨_, hread, rfl⟩), rfl⟩
  | @number x j value hx hj =>
    cases ht with
    | @element _ before body after hb hw ha =>
      cases hw with
      | number hw =>
        obtain ⟨c, r, hc, hstart⟩ := Tree.exists_start_number hw
        have hread := Numeral.read_write hw (Tree.endsNumber_of_gap ha)
        have hfirst : Tree.isGap c = false ∧ c ≠ '[' ∧ c ≠ '\x7b' :=
          ⟨Tree.isGap_of_number hstart, Tree.ne_of_number hstart (by decide),
            Tree.ne_of_number hstart (by decide)⟩
        rw [hc] at hread ⊢
        refine ⟨j, text_of_scalar hb ha hfirst ?_, hj⟩
        rw [scalar_of_number hstart]
        exact number_eq_ok_iff.mpr ⟨x, hread, hx⟩
  | @envelope name s enclosed t value hname hs ht' h ih =>
    cases ht with
    | @element _ before body after hb hw ha =>
      obtain ⟨n, rfl, hlt⟩ : ∃ m, n = m + 1 ∧ enclosed.length < m + 1 := by
        obtain ⟨g₁, g₂, g₃, g₄, -, -, rfl⟩ := exists_gaps_of_writes hw
        have hlen := Literal.length_lt_of_denotes hs
        simp only [List.length_append, List.length_cons] at hn
        exact ⟨n - 1, by omega, by omega⟩
      obtain ⟨j, hj, hv⟩ := ih ht' n hlt
      exact ⟨j, text_eq_ok_iff.mpr
        ⟨after, value_of_envelope hw hname hs hj hb, Tree.skipGap_of_gap ha⟩, hv⟩

theorem toOption_eq_some_iff {ε α : Type} {x : Except ε α} {a : α} :
    x.toOption = some a ↔ x = .ok a := by
  cases x <;> simp [Except.toOption]

/-- The value of a composite filter is what its tree carries. -/
theorem valueText?_eq_some_iff {t : Tree} : valueText? t = some v ↔ Carries t v := by
  constructor
  · intro h
    unfold valueText? at h
    split at h
    · obtain ⟨cs, hcs, rfl⟩ := Option.map_eq_some_iff.mp h
      exact .string (by simpa using Literal.denotes_of_text? hcs)
    · obtain ⟨j, hn, hj⟩ := Option.bind_eq_some_iff.mp h
      exact .number hn hj
    · split at h
      · rename_i hname
        obtain ⟨enclosed, hs, h⟩ := Option.bind_eq_some_iff.mp h
        obtain ⟨j, hread, hj⟩ := Option.bind_eq_some_iff.mp h
        rw [toOption_eq_some_iff, Json.read, String.toList_ofList] at hread
        obtain ⟨t, ht, hc⟩ := sound_nested _ hread hj
        exact .envelope (Literal.denotes_of_text? hname) (Literal.denotes_of_text? hs) ht hc
      · cases h
    · cases h
  · intro h
    cases h with
    | string h => simp [valueText?, Literal.text?_of_denotes h]
    | number hn hj => simp [valueText?, hn, hj]
    | @envelope name s cs t _ hname hs ht h =>
      obtain ⟨j, hj, hv⟩ := nested_of_carries h ht (Nat.lt_succ_self cs.length)
      have hread : (Json.read (String.ofList cs)).toOption = some j := by
        rw [toOption_eq_some_iff, Json.read, String.length_ofList, String.toList_ofList]
        exact hj
      simp [valueText?, Literal.text?_of_denotes hname, Literal.text?_of_denotes hs, hread, hv]

end Filter.Composite

end Takings
