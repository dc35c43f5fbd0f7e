import Takings.Query.Template

/-!
# The text of a query, section by section

A text that is joined from pieces is the first piece followed by each other one after the
separator, so the text of a statement can be taken apart from left to right. What a template
writes into it holds neither the mark of a placeholder nor, in its last lines, a line break.
-/
namespace Takings

theorem toList_intercalate_cons (sep x : String) (xs : List String) :
    (sep.intercalate (x :: xs)).toList =
      x.toList ++ xs.flatMap fun y => sep.toList ++ y.toList := by
  induction xs generalizing x with
  | nil => simp
  | cons y ys ih =>
    rw [String.intercalate_cons_cons, String.toList_append, String.toList_append, ih,
      List.flatMap_cons]
    simp only [List.append_assoc]

theorem notMem_append {c : Char} {s t : String} (hs : c ∉ s.toList) (ht : c ∉ t.toList) :
    c ∉ (s ++ t).toList := by
  rw [String.toList_append, List.mem_append]
  exact not_or.mpr ⟨hs, ht⟩

/-- Joining brings in no character but those of the pieces and of the separator. -/
theorem notMem_intercalate {c : Char} {sep : String} {xs : List String} (hs : c ∉ sep.toList)
    (hx : ∀ x ∈ xs, c ∉ x.toList) : c ∉ (sep.intercalate xs).toList := by
  cases xs with
  | nil => simp
  | cons x xs =>
    intro h
    rw [toList_intercalate_cons, List.mem_append, List.mem_flatMap] at h
    rcases h with h | ⟨y, hy, h⟩
    · exact hx x List.mem_cons_self h
    · rcases List.mem_append.mp h with h | h
      · exact hs h
      · exact hx y (List.mem_cons_of_mem x hy) h

/-! ### Names -/

/-- The characters of the names that a query may hold. -/
def isNameChar (c : Char) : Bool :=
  c.isAlphanum || c == '.' || c == '_'

theorem notMem_of_isNameChar {cs : List Char} (h : ∀ c ∈ cs, isNameChar c = true) {x : Char}
    (hx : isNameChar x = false) : x ∉ cs := by
  intro hm
  rw [h x hm] at hx
  cases hx

theorem Column.isNameChar_of_mem_sql (k : Column) : ∀ c ∈ k.sql.toList, isNameChar c = true := by
  apply List.all_eq_true.mp
  cases k <;> decide

theorem isNameChar_of_mem_natText (n : Nat) :
    ∀ c ∈ (Text.natText n).toList, isNameChar c = true := by
  intro c hc
  rw [Text.natText, String.toList_ofList] at hc
  simp [isNameChar, Char.isAlphanum, Text.isDigit_of_mem_digits hc]

/-- Neither a placeholder nor a line break is in an expression. -/
theorem Expr.notMem_sql (e : Expr) {x : Char} (hx : x = '$' ∨ x = '\n') : x ∉ e.sql.toList := by
  have hk (k : Column) : x ∉ k.sql.toList :=
    notMem_of_isNameChar k.isNameChar_of_mem_sql (by rcases hx with rfl | rfl <;> decide)
  cases e with
  | column k => exact hk k
  | sum k | sumOrZero k | countDistinct k | hour k =>
    refine notMem_append (notMem_append ?_ (hk k)) ?_ <;> rcases hx with rfl | rfl <;> decide
  | label k =>
    refine notMem_append (notMem_append (notMem_append (notMem_append ?_ (hk k)) ?_) ?_) ?_ <;>
      rcases hx with rfl | rfl <;> decide

namespace Template

theorem isNameChar_of_mem_name (t : Template) :
    ∀ s ∈ t.select, ∀ n ∈ s.name, ∀ c ∈ n.toList, isNameChar c = true := by
  cases t <;> simp [select, Selection.plain, Selection.named, totalSales, totalSalesOrZero,
    totalOrders, totalInvoices] <;> decide

/-- Rows are grouped and ordered by columns and by what is selected. -/
theorem key_cases (t : Template) {k : Key} (hk : k ∈ t.group ++ t.order.map Order.key) :
    (∃ c, k = .column c) ∨ (∃ n, k = .place n) ∨ k = .name "total_sales" ∨ k = .name "label" := by
  cases t <;> simp only [group, order, Order.rising, Order.falling, List.map_cons, List.map_nil,
    List.cons_append, List.nil_append, List.mem_cons, List.not_mem_nil, or_false] at hk <;> grind

theorem isNameChar_of_mem_key (t : Template) {k : Key} (hk : k ∈ t.group ++ t.order.map Order.key) :
    ∀ c ∈ k.sql.toList, isNameChar c = true := by
  rcases t.key_cases hk with ⟨c, rfl⟩ | ⟨n, rfl⟩ | rfl | rfl
  · exact c.isNameChar_of_mem_sql
  · exact isNameChar_of_mem_natText n
  · exact List.all_eq_true.mp (by decide)
  · exact List.all_eq_true.mp (by decide)

end Template

/-! ### Sections -/

namespace Statement

/-- The section of the selected expressions. -/
def selection (s : Statement) : String :=
  "SELECT\n    " ++ ",\n    ".intercalate (s.select.map Selection.sql)

/-- The lines that group and order the rows. -/
def arrangement (s : Statement) : List String :=
  (if s.group.isEmpty then [] else ["GROUP BY " ++ ", ".intercalate (s.group.map Key.sql)]) ++
    (if s.order.isEmpty then [] else ["ORDER BY " ++ ", ".intercalate (s.order.map Order.sql)])

/-- The line of the limit, if there is one. -/
def cut (s : Statement) : List String :=
  s.limit.toList.map fun index => "LIMIT " ++ placeholder index

theorem sections_eq (s : Statement) (h : s.predicate.clauses ≠ []) :
    s.sections = s.selection :: s.joins.sql :: s.predicate.sql :: (s.arrangement ++ s.cut) := by
  have hp : s.predicate.clauses.isEmpty = false := List.isEmpty_eq_false_iff.mpr h
  cases hl : s.limit <;> simp only [sections, selection, arrangement, cut, hl, hp,
    Bool.false_eq_true, if_false, List.cons_append, List.nil_append, List.append_assoc,
    Option.toList, List.map_cons, List.map_nil]

/-- Lines, each after a line break. -/
def broken (lines : List String) : List Char :=
  lines.flatMap fun line => '\n' :: line.toList

theorem broken_cons (line : String) (lines : List String) :
    broken (line :: lines) = '\n' :: line.toList ++ broken lines := by
  rw [broken, List.flatMap_cons]
  rfl

theorem broken_append (lines rest : List String) :
    broken (lines ++ rest) = broken lines ++ broken rest := by
  rw [broken, List.flatMap_append]
  rfl

theorem exists_toList_selection (s : Statement) : ∃ cs, s.selection.toList = 'S' :: cs := by
  have hs : "SELECT\n    ".toList = 'S' :: "ELECT\n    ".toList := by decide
  rw [selection, String.toList_append, hs]
  exact ⟨_, rfl⟩

theorem toList_sql (s : Statement) (h : s.predicate.clauses ≠ []) :
    s.sql.toList = s.selection.toList ++
      broken (s.joins.sql :: s.predicate.sql :: (s.arrangement ++ s.cut)) := by
  have hn : "\n".toList = ['\n'] := by decide
  rw [sql, s.sections_eq h, toList_intercalate_cons, hn]
  rfl

end Statement

theorem Predicate.toList_sql {c : Clause} {cs : List Clause} :
    (Predicate.mk (c :: cs)).sql.toList =
      "WHERE ".toList ++ c.sql.toList ++ cs.flatMap fun d => "\n  AND ".toList ++ d.sql.toList := by
  simp only [sql, List.isEmpty_cons, Bool.false_eq_true, if_false]
  rw [String.toList_append, List.map_cons, toList_intercalate_cons, List.flatMap_map,
    List.append_assoc]

/-! ### What a template writes -/

theorem Joins.dollar_notMem_sql (j : Joins) : '$' ∉ j.sql.toList := by
  refine notMem_intercalate (by decide) ?_
  intro x hx
  rcases List.mem_cons.mp hx with rfl | hx
  · decide
  · obtain ⟨d, -, rfl⟩ := List.mem_map.mp hx
    cases d <;> decide

namespace Template

theorem notMem_select (t : Template) {x : Char} (hx : x = '$' ∨ x = '\n') :
    ∀ s ∈ t.select, x ∉ s.sql.toList := by
  intro s hs
  have he := s.expr.notMem_sql hx
  rw [Selection.sql]
  cases hn : s.name with
  | none => exact he
  | some n =>
    have hw : x ∉ " AS ".toList := by rcases hx with rfl | rfl <;> decide
    have hc : x ∉ n.toList :=
      notMem_of_isNameChar (t.isNameChar_of_mem_name s hs n hn)
        (by rcases hx with rfl | rfl <;> decide)
    exact notMem_append (notMem_append he hw) hc

theorem dollar_notMem_selection (t : Template) (p : Predicate) (next : Nat) :
    '$' ∉ (t.build p next).statement.selection.toList := by
  refine notMem_append (by decide) (notMem_intercalate (by decide) ?_)
  intro x hx
  obtain ⟨s, hs, rfl⟩ := List.mem_map.mp hx
  exact t.notMem_select (.inl rfl) s hs

/-- Neither a placeholder nor a line break is in the lines that group and order. -/
theorem notMem_arrangement (t : Template) (p : Predicate) (next : Nat) {c : Char}
    (hc : c = '$' ∨ c = '\n') :
    ∀ line ∈ (t.build p next).statement.arrangement, c ∉ line.toList := by
  have hn : isNameChar c = false := by rcases hc with rfl | rfl <;> decide
  have hs : c ∉ ", ".toList := by rcases hc with rfl | rfl <;> decide
  have hk {k : Key} (h : k ∈ t.group ++ t.order.map Order.key) : c ∉ k.sql.toList :=
    notMem_of_isNameChar (t.isNameChar_of_mem_key h) hn
  intro line hl
  rcases List.mem_append.mp hl with hl | hl
  · have hw : c ∉ "GROUP BY ".toList := by rcases hc with rfl | rfl <;> decide
    obtain rfl := List.mem_singleton.mp (List.mem_ite_nil_left.mp hl).2
    refine notMem_append hw (notMem_intercalate hs ?_)
    intro x hx
    obtain ⟨k, hm, rfl⟩ := List.mem_map.mp hx
    exact hk (List.mem_append_left _ hm)
  · have hw : c ∉ "ORDER BY ".toList := by rcases hc with rfl | rfl <;> decide
    have hd : c ∉ " DESC".toList := by rcases hc with rfl | rfl <;> decide
    have ha : c ∉ " ASC".toList := by rcases hc with rfl | rfl <;> decide
    obtain rfl := List.mem_singleton.mp (List.mem_ite_nil_left.mp hl).2
    refine notMem_append hw (notMem_intercalate hs ?_)
    intro x hx
    obtain ⟨o, hm, rfl⟩ := List.mem_map.mp hx
    have ho := hk (List.mem_append_right t.group (List.mem_map_of_mem hm))
    rw [Order.sql]
    split
    · exact notMem_append ho hd
    · exact notMem_append ho ha

end Template

end Takings
