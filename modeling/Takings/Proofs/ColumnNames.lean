import Takings.Proofs.QueryShape

/-!
# Names of columns in a text

The names in a text are its longest runs of name characters. A text names a dimension if one of
them begins with the dimension's reference and a point. What a query writes between two names is
no name character, so the dimensions that it names can be found piece by piece: they are those of
the columns that the pieces are made of.
-/
namespace Takings

/-- The names in a text, some of them empty. -/
def words (cs : List Char) : List (List Char) :=
  cs.splitOnP fun c => !isNameChar c

/-- A text names a column of a dimension. -/
def Dimension.NamedIn (d : Dimension) (cs : List Char) : Prop :=
  ∃ w ∈ words cs, (d.reference.toList ++ ['.']).isPrefixOf w = true

instance (d : Dimension) (cs : List Char) : Decidable (d.NamedIn cs) :=
  inferInstanceAs (Decidable (∃ w ∈ words cs, _))

/-- Where two texts meet, no name goes on. -/
def Apart (cs ds : List Char) : Prop :=
  (∀ c ∈ cs.getLast?, isNameChar c = false) ∨ ∀ c ∈ ds.head?, isNameChar c = false

theorem apart_left {cs ds : List Char} (h : (cs.getLast?.all fun c => !isNameChar c) = true) :
    Apart cs ds := by
  left
  intro c hc
  simpa [Option.mem_def.mp hc] using h

theorem apart_right {cs ds : List Char} (h : (ds.head?.all fun c => !isNameChar c) = true) :
    Apart cs ds := by
  right
  intro c hc
  simpa [Option.mem_def.mp hc] using h

namespace Dimension

variable {d : Dimension} {cs ds : List Char}

@[simp] theorem not_namedIn_nil : ¬ d.NamedIn [] := by
  cases d <;> decide

theorem namedIn_append_cons {c : Char} (h : isNameChar c = false) :
    d.NamedIn (cs ++ c :: ds) ↔ d.NamedIn cs ∨ d.NamedIn ds := by
  have hw : words (cs ++ c :: ds) = words cs ++ words ds :=
    List.splitOnP_append_cons cs ds (by simp [h])
  simp [NamedIn, hw, or_and_right, exists_or]

theorem namedIn_cons {c : Char} (h : isNameChar c = false) :
    d.NamedIn (c :: cs) ↔ d.NamedIn cs := by
  have ha : d.NamedIn ([] ++ c :: cs) ↔ d.NamedIn [] ∨ d.NamedIn cs := namedIn_append_cons h
  simpa using ha

theorem namedIn_append (h : Apart cs ds) : d.NamedIn (cs ++ ds) ↔ d.NamedIn cs ∨ d.NamedIn ds := by
  obtain h | h := h
  · rcases List.eq_nil_or_concat cs with rfl | ⟨init, c, rfl⟩
    · simp
    · have hc : isNameChar c = false := h c (by simp)
      have hi : d.NamedIn (init ++ [c]) ↔ d.NamedIn init := by
        simp [namedIn_append_cons hc]
      rw [List.concat_eq_append, hi, List.append_assoc, List.singleton_append,
        namedIn_append_cons hc]
  · cases ds with
    | nil => simp
    | cons c ds =>
      have hc : isNameChar c = false := h c rfl
      rw [namedIn_append_cons hc, namedIn_cons hc]

/-- A word that names nothing before a text. -/
theorem namedIn_word {word text : String}
    (hl : (word.toList.getLast?.all fun c => !isNameChar c) = true) (hw : ¬ d.NamedIn word.toList) :
    d.NamedIn (word ++ text).toList ↔ d.NamedIn text.toList := by
  rw [String.toList_append, namedIn_append (apart_left hl), or_iff_right hw]

/-- Texts that are joined by other characters than those of names. -/
theorem namedIn_intercalate {α : Type} {sep : String} {f : α → String} {xs : List α}
    (hs : sep.toList ≠ []) (ha : (sep.toList.all fun c => !isNameChar c) = true) :
    d.NamedIn (sep.intercalate (xs.map f)).toList ↔ ∃ x ∈ xs, d.NamedIn (f x).toList := by
  have hskip : ∀ seps : List Char, (seps.all fun c => !isNameChar c) = true →
      ∀ rest, d.NamedIn (seps ++ rest) ↔ d.NamedIn rest := by
    intro seps h rest
    induction seps with
    | nil => rfl
    | cons c seps ih =>
      simp only [List.all_cons, Bool.and_eq_true, Bool.not_eq_true'] at h
      rw [List.cons_append, namedIn_cons h.1]
      exact ih h.2
  obtain ⟨c, seps, hc⟩ := List.exists_cons_of_ne_nil hs
  simp only [hc, List.all_cons, Bool.and_eq_true, Bool.not_eq_true'] at ha
  induction xs with
  | nil => simp
  | cons x xs ih =>
    cases xs with
    | nil => simp
    | cons y ys =>
      rw [List.map_cons, List.map_cons, String.intercalate_cons_cons, String.toList_append,
        String.toList_append, hc, List.append_assoc, List.cons_append, namedIn_append_cons ha.1,
        hskip seps ha.2, ← List.map_cons]
      have hm : (∃ z ∈ x :: y :: ys, d.NamedIn (f z).toList) ↔
          d.NamedIn (f x).toList ∨ ∃ z ∈ y :: ys, d.NamedIn (f z).toList := by simp
      exact (or_congr_right ih).trans hm.symm

/-- A text that is one name. -/
theorem namedIn_of_isNameChar (h : ∀ c ∈ cs, isNameChar c = true) :
    d.NamedIn cs ↔ (d.reference.toList ++ ['.']).isPrefixOf cs = true := by
  have hw : words cs = [cs] := List.splitOnP_eq_singleton fun c hc => by simp [h c hc]
  simp [NamedIn, hw]

/-- A name without a point is not that of a column. -/
theorem not_namedIn_of_notMem (h : ∀ c ∈ cs, isNameChar c = true) (hp : '.' ∉ cs) :
    ¬ d.NamedIn cs := by
  rw [namedIn_of_isNameChar h, List.isPrefixOf_iff_prefix]
  intro hd
  exact hp (hd.subset (by simp))

/-- Lines name what their text names. -/
theorem exists_namedIn_splitOn :
    (∃ line ∈ cs.splitOn '\n', d.NamedIn line) ↔ d.NamedIn cs := by
  have h (lines : List (List Char)) (hl : lines ≠ []) :
      d.NamedIn (['\n'].intercalate lines) ↔ ∃ line ∈ lines, d.NamedIn line := by
    induction lines with
    | nil => exact absurd rfl hl
    | cons line lines ih =>
      cases lines with
      | nil => simp
      | cons next lines =>
        rw [List.intercalate_cons_cons, List.append_assoc, List.singleton_append,
          namedIn_append_cons (by decide), ih (List.cons_ne_nil _ _)]
        simp
  rw [← h _ (List.splitOn_ne_nil _ _), List.intercalate_splitOn]

end Dimension

/-! ### Pieces of a query -/

variable (d : Dimension)

theorem Column.namedIn_sql (c : Column) : d.NamedIn c.sql.toList ↔ c.dimension? = some d := by
  rw [Dimension.namedIn_of_isNameChar c.isNameChar_of_mem_sql]
  cases d <;> cases c <;> decide

theorem not_namedIn_natText (n : Nat) : ¬ d.NamedIn (Text.natText n).toList := by
  apply Dimension.not_namedIn_of_notMem (isNameChar_of_mem_natText n)
  intro h
  rw [Text.natText, String.toList_ofList] at h
  exact absurd (Text.isDigit_of_mem_digits h) (by decide)

/-- The name of a column between words that name nothing. -/
theorem namedIn_between {before after : String} (c : Column)
    (hb : (before.toList.getLast?.all fun c => !isNameChar c) = true)
    (ha : (after.toList.head?.all fun c => !isNameChar c) = true)
    (hn : ¬ d.NamedIn before.toList ∧ ¬ d.NamedIn after.toList) :
    d.NamedIn (before ++ c.sql ++ after).toList ↔ c.dimension? = some d := by
  rw [String.toList_append, String.toList_append, Dimension.namedIn_append (apart_right ha),
    Dimension.namedIn_append (apart_left hb), Column.namedIn_sql]
  simp [hn]

theorem Expr.namedIn_sql (e : Expr) : d.NamedIn e.sql.toList ↔ e.source.dimension? = some d := by
  cases e with
  | column c => exact c.namedIn_sql d
  | sum c | sumOrZero c | countDistinct c | hour c =>
    exact namedIn_between d c (by decide) (by decide) (by cases d <;> decide)
  | label c =>
    have hs : (label c).sql =
        "COALESCE(" ++ c.sql ++ ("::text, '" ++ (unknownLabel ++ "') COLLATE \"C\"")) := by
      rw [← String.append_assoc, ← String.append_assoc]
      rfl
    rw [hs]
    exact namedIn_between d c (by decide) (by decide) (by cases d <;> decide)

theorem Clause.namedIn_sql (c : Clause) :
    d.NamedIn c.sql.toList ↔ c.column.dimension? = some d := by
  have hs : c.sql.toList = c.column.sql.toList ++
      ' ' :: (c.comparison.sql.toList ++ ' ' :: '$' :: (Text.natText c.index).toList) := by
    simp only [Clause.sql, placeholder, String.toList_append, String.reduceToList,
      List.append_assoc, List.cons_append, List.nil_append]
  have hc : ¬ d.NamedIn c.comparison.sql.toList := by
    cases c.comparison <;> cases d <;> decide
  rw [hs, Dimension.namedIn_append_cons (by decide), Dimension.namedIn_append_cons (by decide),
    Dimension.namedIn_cons (by decide), Column.namedIn_sql]
  simp [hc, not_namedIn_natText]

end Takings
