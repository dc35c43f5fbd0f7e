import Takings.Proofs.JsonTokens

/-!
# The grammar of JSON

The texts of JSON as a grammar: what each phrase is made of and where white space may stand. The
reader takes exactly the texts of the grammar, and what it reads from one is what was written.
-/
namespace Takings.Json

/-- The phrases of the grammar. An element is a value with white space around it. -/
inductive Phrase where
  | value (t : Tree)
  | element (t : Tree)
  | elements (ts : List Tree)
  | member (name : Literal) (t : Tree)
  | members (ms : List (Literal × Tree))

/-- The ways of writing a phrase. -/
inductive Writes : Phrase → List Char → Prop
  | null : Writes (.value .null) ['n', 'u', 'l', 'l']
  | true : Writes (.value (.bool true)) ['t', 'r', 'u', 'e']
  | false : Writes (.value (.bool false)) ['f', 'a', 'l', 's', 'e']
  | number {n : Numeral} (h : n.wellFormed = true) : Writes (.value (.number n)) n.write
  | string {s : Literal} (h : s.WellFormed) : Writes (.value (.string s)) ('"' :: s.write)
  | emptyArray {gap : List Char} (h : Gap gap) :
    Writes (.value (.array [])) ('[' :: (gap ++ [']']))
  | array {ts : List Tree} {cs : List Char} (h : Writes (.elements ts) cs) :
    Writes (.value (.array ts)) ('[' :: (cs ++ [']']))
  | emptyObject {gap : List Char} (h : Gap gap) :
    Writes (.value (.object [])) ('\x7b' :: (gap ++ ['\x7d']))
  | object {ms : List (Literal × Tree)} {cs : List Char} (h : Writes (.members ms) cs) :
    Writes (.value (.object ms)) ('\x7b' :: (cs ++ ['\x7d']))
  | element {t : Tree} {before cs after : List Char} (hb : Gap before)
    (h : Writes (.value t) cs) (ha : Gap after) : Writes (.element t) (before ++ (cs ++ after))
  | lastElement {t : Tree} {cs : List Char} (h : Writes (.element t) cs) :
    Writes (.elements [t]) cs
  | moreElements {t : Tree} {ts : List Tree} {cs ds : List Char} (h : Writes (.element t) cs)
    (hs : Writes (.elements ts) ds) : Writes (.elements (t :: ts)) (cs ++ ',' :: ds)
  | member {name : Literal} {t : Tree} {before after cs : List Char} (hb : Gap before)
    (hn : name.WellFormed) (ha : Gap after) (h : Writes (.element t) cs) :
    Writes (.member name t) (before ++ '"' :: (name.write ++ (after ++ ':' :: cs)))
  | lastMember {name : Literal} {t : Tree} {cs : List Char} (h : Writes (.member name t) cs) :
    Writes (.members [(name, t)]) cs
  | moreMembers {name : Literal} {t : Tree} {ms : List (Literal × Tree)} {cs ds : List Char}
    (h : Writes (.member name t) cs) (hs : Writes (.members ms) ds) :
    Writes (.members ((name, t) :: ms)) (cs ++ ',' :: ds)

/-- The text is a value with white space around it, and nothing else. -/
def Tree.IsText (t : Tree) (cs : List Char) : Prop :=
  Writes (.element t) cs

/-! ### What is written is read -/

namespace Tree

/-- What follows an element: nothing, or a comma or closing bracket. -/
def Closes (rest : List Char) : Prop :=
  ∀ c ∈ rest.head?, c = ',' ∨ c = ']' ∨ c = '\x7d'

theorem skipGap_of_closes {rest : List Char} (h : Closes rest) : skipGap rest = rest := by
  cases rest with
  | nil => rfl
  | cons c cs =>
    apply skipGap_cons
    rcases h c rfl with rfl | rfl | rfl <;> rfl

theorem endsNumber_append {gap rest : List Char} (hg : Gap gap) (h : Closes rest) :
    EndsNumber (gap ++ rest) := by
  intro c hc
  cases gap with
  | nil => rcases h c hc with rfl | rfl | rfl <;> decide
  | cons g gs =>
    cases hc
    have hgap := hg c List.mem_cons_self
    simp only [isGap, Bool.or_eq_true, beq_iff_eq] at hgap
    rcases hgap with ((rfl | rfl) | rfl) | rfl <;> decide

theorem endsNumber_of_gap {gap : List Char} (h : Gap gap) : EndsNumber gap := by
  have hnil : Closes [] := by simp [Closes]
  simpa using endsNumber_append h hnil

theorem exists_start_number {n : Numeral} (h : n.wellFormed = true) :
    ∃ c r, n.write = c :: r ∧ (c = '-' ∨ c.isDigit = true) := by
  obtain ⟨negative, whole, fraction, exponent⟩ := n
  simp only [Numeral.wellFormed, Bool.and_eq_true] at h
  cases negative with
  | true => exact ⟨'-', _, rfl, .inl rfl⟩
  | false =>
    cases whole with
    | nil => simp [Numeral.properWhole] at h
    | cons c cs =>
      exact ⟨c, _, rfl, .inr (List.all_eq_true.mp h.1.1.2 c List.mem_cons_self)⟩

theorem ne_of_number {c d : Char} (h : c = '-' ∨ c.isDigit = true)
    (hd : ¬ (d = '-' ∨ d.isDigit = true)) : c ≠ d := by
  rintro rfl
  exact hd h

theorem isGap_of_number {c : Char} (h : c = '-' ∨ c.isDigit = true) : isGap c = false := by
  rcases h with rfl | h
  · rfl
  · rw [Bool.eq_false_iff]
    intro hg
    simp only [isGap, Bool.or_eq_true, beq_iff_eq] at hg
    rcases hg with ((rfl | rfl) | rfl) | rfl <;> cases h

/-- A phrase starts with a token, and not with one that closes. -/
theorem exists_start {p : Phrase} {cs : List Char} (h : Writes p cs) :
    ∃ c r, skipGap cs = c :: r ∧ c ≠ ']' ∧ c ≠ '\x7d' := by
  have happend {cs : List Char} (h : ∃ c r, skipGap cs = c :: r ∧ c ≠ ']' ∧ c ≠ '\x7d')
      (ds : List Char) : ∃ c r, skipGap (cs ++ ds) = c :: r ∧ c ≠ ']' ∧ c ≠ '\x7d' := by
    obtain ⟨c, r, hs, hc⟩ := h
    exact ⟨c, r ++ ds, skipGap_append_of_cons hs ds, hc⟩
  induction h with
  | null => exact ⟨'n', _, rfl, by decide⟩
  | true => exact ⟨'t', _, rfl, by decide⟩
  | false => exact ⟨'f', _, rfl, by decide⟩
  | number h =>
    obtain ⟨c, r, hw, hc⟩ := exists_start_number h
    refine ⟨c, r, by rw [hw, skipGap_cons (isGap_of_number hc)], ?_⟩
    constructor <;> rintro rfl <;> revert hc <;> decide
  | string h => exact ⟨'"', _, rfl, by decide⟩
  | emptyArray h => exact ⟨'[', _, rfl, by decide⟩
  | array h ih => exact ⟨'[', _, rfl, by decide⟩
  | emptyObject h => exact ⟨'\x7b', _, rfl, by decide⟩
  | object h ih => exact ⟨'\x7b', _, rfl, by decide⟩
  | element hb h ha ih =>
    rw [skipGap_append_of_gap hb]
    exact happend ih _
  | lastElement h ih => exact ih
  | moreElements h hs ih ihs => exact happend ih _
  | member hb hn ha h ih =>
    rw [skipGap_append_cons hb rfl]
    exact ⟨'"', _, rfl, by decide⟩
  | lastMember h ih => exact ih
  | moreMembers h hs ih ihs => exact happend ih _

/-! White space in front of what is read does not count. -/

theorem readValue_skipGap (n : Nat) (cs : List Char) :
    readValue n (skipGap cs) = readValue n cs := by
  cases n with
  | zero => rfl
  | succ n => rw [readValue, readValue, skipGap_skipGap]

theorem readItems_skipGap (n : Nat) (cs : List Char) :
    readItems n (skipGap cs) = readItems n cs := by
  cases n with
  | zero => rfl
  | succ n => rw [readItems, readItems, readValue_skipGap]

theorem readMembers_skipGap (n : Nat) (cs : List Char) :
    readMembers n (skipGap cs) = readMembers n cs := by
  cases n with
  | zero => rfl
  | succ n => rw [readMembers, readMembers, skipGap_skipGap]

theorem readValue_number (n : Nat) {c : Char} (h : c = '-' ∨ c.isDigit = true) (r : List Char) :
    readValue (n + 1) (c :: r) =
      (Numeral.read (c :: r)).map fun (x, rest) => (.number x, rest) := by
  rw [readValue, skipGap_cons (isGap_of_number h)]
  split
  case h_7 => rfl
  all_goals
    rename_i he
    exact absurd (List.cons.inj he).1 (ne_of_number h (by decide))

theorem readValue_quoted (n : Nat) (cs : List Char) : readValue (n + 1) ('"' :: cs) =
    (Literal.read cs).map fun (s, rest) => (.string s, rest) :=
  rfl

theorem readValue_bracket (n : Nat) (cs : List Char) :
    readValue (n + 1) ('[' :: cs) = match skipGap cs with
      | ']' :: r => some (.array [], r)
      | r => (readItems n r).map fun (l, rest) => (.array l, rest) :=
  rfl

theorem readValue_brace (n : Nat) (cs : List Char) :
    readValue (n + 1) ('\x7b' :: cs) = match skipGap cs with
      | '\x7d' :: r => some (.object [], r)
      | r => (readMembers n r).map fun (l, rest) => (.object l, rest) :=
  rfl

theorem readValue_array (n : Nat) {cs : List Char} {c : Char} {r : List Char}
    (h : skipGap cs = c :: r) (hc : c ≠ ']') :
    readValue (n + 1) ('[' :: cs) = (readItems n cs).map fun (l, rest) => (.array l, rest) := by
  rw [readValue_bracket, ← readItems_skipGap, h]
  split
  · rename_i he
    exact absurd (List.cons.inj he).1 hc
  · rfl

theorem readValue_object (n : Nat) {cs : List Char} {c : Char} {r : List Char}
    (h : skipGap cs = c :: r) (hc : c ≠ '\x7d') :
    readValue (n + 1) ('\x7b' :: cs) =
      (readMembers n cs).map fun (l, rest) => (.object l, rest) := by
  rw [readValue_brace, ← readMembers_skipGap, h]
  split
  · rename_i he
    exact absurd (List.cons.inj he).1 hc
  · rfl

/-- How a reader takes a phrase off the front of a text, if it may call itself often enough. -/
def IsRead (cs : List Char) : Phrase → Prop
  | .value t => ∀ n rest, 2 * cs.length ≤ n → EndsNumber rest →
    readValue n (cs ++ rest) = some (t, rest)
  | .element t => ∀ n rest, 2 * cs.length ≤ n → Closes rest →
    ∃ r, readValue n (cs ++ rest) = some (t, r) ∧ skipGap r = rest
  | .elements ts => ∀ n rest, 2 * cs.length + 2 ≤ n →
    readItems n (cs ++ ']' :: rest) = some (ts, rest)
  | .member name t => ∀ n rest, 2 * cs.length ≤ n → Closes rest →
    ∃ r r' r'', readKey (skipGap (cs ++ rest)) = some (name, r) ∧ skipGap r = ':' :: r' ∧
      readValue n r' = some (t, r'') ∧ skipGap r'' = rest
  | .members ms => ∀ n rest, 2 * cs.length + 2 ≤ n →
    readMembers n (cs ++ '\x7d' :: rest) = some (ms, rest)

theorem closes_cons {c : Char} (h : c = ',' ∨ c = ']' ∨ c = '\x7d') (rest : List Char) :
    Closes (c :: rest) := by
  rintro d ⟨⟩
  exact h

/-- By induction on how the phrase is written: each bracket costs the reader two calls, which its
two characters pay for. -/
theorem isRead_of_writes {p : Phrase} {cs : List Char} (h : Writes p cs) : IsRead cs p := by
  induction h with
  | null =>
    rintro (_ | n) rest hn -
    · simp at hn
    · rfl
  | true =>
    rintro (_ | n) rest hn -
    · simp at hn
    · rfl
  | false =>
    rintro (_ | n) rest hn -
    · simp at hn
    · rfl
  | @number x h =>
    obtain ⟨c, r, hw, hc⟩ := exists_start_number h
    rintro (_ | n) rest hn hr
    · simp [hw] at hn
    · rw [hw, List.cons_append, readValue_number n hc, ← List.cons_append, ← hw,
        Numeral.read_write h hr]
      rfl
  | @string s h =>
    rintro (_ | n) rest hn -
    · simp at hn
    · rw [List.cons_append, readValue_quoted, Literal.read_write h]
      rfl
  | @emptyArray gap h =>
    rintro (_ | n) rest hn -
    · simp at hn
    · rw [List.cons_append, readValue_bracket, List.append_assoc, List.singleton_append,
        skipGap_append_cons h rfl]
      rfl
  | @array ts cs h ih =>
    obtain ⟨c, r, hs, hc, -⟩ := exists_start h
    rintro (_ | n) rest hn -
    · simp at hn
    · simp only [List.length_append, List.length_cons] at hn
      rw [List.cons_append, List.append_assoc, List.singleton_append,
        readValue_array n (skipGap_append_of_cons hs _) hc, ih n rest (by omega)]
      rfl
  | @emptyObject gap h =>
    rintro (_ | n) rest hn -
    · simp at hn
    · rw [List.cons_append, readValue_brace, List.append_assoc, List.singleton_append,
        skipGap_append_cons h rfl]
      rfl
  | @object ms cs h ih =>
    obtain ⟨c, r, hs, -, hc⟩ := exists_start h
    rintro (_ | n) rest hn -
    · simp at hn
    · simp only [List.length_append, List.length_cons] at hn
      rw [List.cons_append, List.append_assoc, List.singleton_append,
        readValue_object n (skipGap_append_of_cons hs _) hc, ih n rest (by omega)]
      rfl
  | @element t before cs after hb h ha ih =>
    intro n rest hn hr
    refine ⟨after ++ rest, ?_, by rw [skipGap_append_of_gap ha, skipGap_of_closes hr]⟩
    rw [← readValue_skipGap, List.append_assoc, skipGap_append_of_gap hb, readValue_skipGap,
      List.append_assoc]
    simp only [List.length_append] at hn
    exact ih n _ (by omega) (endsNumber_append ha hr)
  | @lastElement t cs h ih =>
    rintro (_ | n) rest hn
    · simp at hn
    · obtain ⟨r, hr, hs⟩ := ih n (']' :: rest) (by omega) (closes_cons (by decide) rest)
      rw [readItems, hr]
      simp only [hs]
  | @moreElements t ts cs ds h hs ih ihs =>
    rintro (_ | n) rest hn
    · simp at hn
    · simp only [List.length_append, List.length_cons] at hn
      obtain ⟨r, hr, hgap⟩ := ih n (',' :: (ds ++ ']' :: rest)) (by omega)
        (closes_cons (by decide) _)
      rw [List.append_assoc, List.cons_append, readItems, hr]
      simp only [hgap]
      rw [ihs n rest (by omega)]
      rfl
  | @member name t before after cs hb hn ha h ih =>
    intro n rest hlen hr
    simp only [List.length_append, List.length_cons] at hlen
    obtain ⟨r, hv, hs⟩ := ih n rest (by omega) hr
    refine ⟨after ++ ':' :: (cs ++ rest), cs ++ rest, r, ?_, skipGap_append_cons ha rfl _, hv, hs⟩
    rw [List.append_assoc, List.cons_append, skipGap_append_cons hb rfl, List.append_assoc,
      List.append_assoc, List.cons_append]
    exact Literal.read_write hn _
  | @lastMember name t cs h ih =>
    rintro (_ | n) rest hn
    · simp at hn
    · obtain ⟨r, r', r'', hk, hc, hv, hs⟩ := ih n ('\x7d' :: rest) (by omega)
        (closes_cons (by decide) rest)
      rw [readMembers, hk]
      simp only [hc, hv, hs]
  | @moreMembers name t ms cs ds h hs ih ihs =>
    rintro (_ | n) rest hn
    · simp at hn
    · simp only [List.length_append, List.length_cons] at hn
      obtain ⟨r, r', r'', hk, hc, hv, hgap⟩ := ih n (',' :: (ds ++ '\x7d' :: rest)) (by omega)
        (closes_cons (by decide) _)
      rw [List.append_assoc, List.cons_append, readMembers, hk]
      simp only [hc, hv, hgap]
      rw [ihs n rest (by omega)]
      rfl

/-! ### What is read is written -/

/-- What is read is white space, a phrase, and the rest. -/
def Takes (p : Phrase) (cs rest : List Char) : Prop :=
  ∃ gap body, Gap gap ∧ Writes p body ∧ cs = gap ++ (body ++ rest)

theorem takes_of_skipGap {p : Phrase} {cs rest body : List Char} (h : Writes p body)
    (he : skipGap cs = body ++ rest) : Takes p cs rest := by
  obtain ⟨gap, hg, hcs⟩ := exists_gap cs
  exact ⟨gap, body, hg, h, by rw [← he, ← hcs]⟩

/-- A value and the white space on either side make an element. -/
theorem Takes.element {t : Tree} {cs rest : List Char} (h : Takes (.value t) cs rest) :
    ∃ body, Writes (.element t) body ∧ cs = body ++ skipGap rest := by
  obtain ⟨gap, body, hg, hw, rfl⟩ := h
  obtain ⟨after, ha, hr⟩ := exists_gap rest
  refine ⟨gap ++ (body ++ after), .element hg hw ha, ?_⟩
  rw [List.append_assoc, List.append_assoc, ← hr]

/-- A name, a colon and an element make a member. -/
theorem member_of_readKey {name : Literal} {t : Tree} {cs r r' body rest : List Char}
    (hk : readKey (skipGap cs) = some (name, r)) (hr : skipGap r = ':' :: r')
    (hb : Writes (.element t) body) (he : r' = body ++ rest) :
    ∃ first, Writes (.member name t) first ∧ cs = first ++ rest := by
  obtain ⟨before, hbefore, hcs⟩ := exists_gap cs
  obtain ⟨after, hafter, hgap⟩ := exists_gap r
  obtain ⟨q, hq, hk⟩ := eq_cons_of_readKey hk
  obtain ⟨rfl, hn⟩ := Literal.eq_write_of_read hk
  refine ⟨_, .member hbefore hn hafter hb, ?_⟩
  rw [hcs, hq, hgap, hr, he]
  simp

mutual

theorem takes_of_readValue {n : Nat} {cs rest : List Char} {t : Tree}
    (h : readValue n cs = some (t, rest)) : Takes (.value t) cs rest := by
  cases n with
  | zero => cases h
  | succ n =>
    rw [readValue] at h
    split at h
    · rename_i he
      cases h
      exact takes_of_skipGap .null he
    · rename_i he
      cases h
      exact takes_of_skipGap .true he
    · rename_i he
      cases h
      exact takes_of_skipGap .false he
    · rename_i r he
      obtain ⟨⟨s, _⟩, hr, heq⟩ := Option.map_eq_some_iff.mp h
      cases heq
      obtain ⟨rfl, hs⟩ := Literal.eq_write_of_read hr
      exact takes_of_skipGap (.string hs) he
    · rename_i r he
      split at h
      · rename_i r' hr
        cases h
        obtain ⟨gap, hg, hcs⟩ := exists_gap r
        refine takes_of_skipGap (.emptyArray hg) ?_
        rw [he, hcs, hr]
        simp
      · obtain ⟨⟨ts, _⟩, hr, heq⟩ := Option.map_eq_some_iff.mp h
        cases heq
        rw [readItems_skipGap] at hr
        obtain ⟨body, hw, rfl⟩ := elements_of_readItems hr
        refine takes_of_skipGap (.array hw) ?_
        rw [he]
        simp
    · rename_i r he
      split at h
      · rename_i r' hr
        cases h
        obtain ⟨gap, hg, hcs⟩ := exists_gap r
        refine takes_of_skipGap (.emptyObject hg) ?_
        rw [he, hcs, hr]
        simp
      · obtain ⟨⟨ms, _⟩, hr, heq⟩ := Option.map_eq_some_iff.mp h
        cases heq
        rw [readMembers_skipGap] at hr
        obtain ⟨body, hw, rfl⟩ := members_of_readMembers hr
        refine takes_of_skipGap (.object hw) ?_
        rw [he]
        simp
    · obtain ⟨⟨x, _⟩, hr, heq⟩ := Option.map_eq_some_iff.mp h
      cases heq
      obtain ⟨he, hx⟩ := Numeral.eq_write_of_read hr
      exact takes_of_skipGap (.number hx) he

theorem elements_of_readItems {n : Nat} {cs rest : List Char} {ts : List Tree}
    (h : readItems n cs = some (ts, rest)) :
    ∃ body, Writes (.elements ts) body ∧ cs = body ++ ']' :: rest := by
  cases n with
  | zero => cases h
  | succ n =>
    rw [readItems] at h
    split at h
    · cases h
    · rename_i v r hv
      obtain ⟨body, hw, hcs⟩ := (takes_of_readValue hv).element
      split at h
      · rename_i r' hr
        obtain ⟨⟨vs, _⟩, hvs, heq⟩ := Option.map_eq_some_iff.mp h
        cases heq
        obtain ⟨body', hw', rfl⟩ := elements_of_readItems hvs
        refine ⟨body ++ ',' :: body', .moreElements hw hw', ?_⟩
        rw [hcs, hr]
        simp
      · rename_i r' hr
        cases h
        exact ⟨body, .lastElement hw, by rw [hcs, hr]⟩
      · cases h

theorem members_of_readMembers {n : Nat} {cs rest : List Char} {ms : List (Literal × Tree)}
    (h : readMembers n cs = some (ms, rest)) :
    ∃ body, Writes (.members ms) body ∧ cs = body ++ '\x7d' :: rest := by
  cases n with
  | zero => cases h
  | succ n =>
    rw [readMembers] at h
    split at h
    · cases h
    · rename_i k r hk
      split at h
      · rename_i r' hr
        split at h
        · cases h
        · rename_i v r'' hv
          obtain ⟨body, hw, hcs⟩ := (takes_of_readValue hv).element
          obtain ⟨first, hm, rfl⟩ := member_of_readKey hk hr hw hcs
          split at h
          · rename_i s hs
            obtain ⟨⟨ms, _⟩, hms, heq⟩ := Option.map_eq_some_iff.mp h
            cases heq
            obtain ⟨body', hw', rfl⟩ := members_of_readMembers hms
            refine ⟨first ++ ',' :: body', .moreMembers hm hw', ?_⟩
            rw [hs]
            simp
          · rename_i s hs
            cases h
            exact ⟨first, .lastMember hm, by rw [hs]⟩
          · cases h
      · cases h

end

/-- The reader takes exactly the texts of the grammar. -/
theorem read?_eq_some_iff {cs : List Char} {t : Tree} : read? cs = some t ↔ t.IsText cs := by
  rw [read?]
  constructor
  · intro h
    split at h
    · rename_i t' r hr
      split at h
      · rename_i he
        cases h
        obtain ⟨body, hw, hcs⟩ := (takes_of_readValue hr).element
        rw [List.isEmpty_iff.mp he, List.append_nil] at hcs
        rwa [IsText, hcs]
      · cases h
    · cases h
  · intro h
    obtain ⟨r, hr, hs⟩ := isRead_of_writes h (2 * cs.length + 2) [] (by omega) (by simp [Closes])
    rw [List.append_nil] at hr
    simp [hr, hs]

end Tree

end Takings.Json
