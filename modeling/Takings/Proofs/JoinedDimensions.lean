import Mathlib.Data.List.Count
import Mathlib.Data.List.Nodup
import Mathlib.Logic.Basic
import Takings.Proofs.ColumnNames
import Takings.Query.Script

/-!
# Joined dimensions

A template declares the dimensions that it joins beside the columns that it selects, groups and
orders by, and every filter may need one more. The FROM section of a query joins exactly the
dimensions that its other sections name, each once and in a fixed order.
-/
namespace Takings

/-! ### The sections of a text -/

/-- The FROM section of a query: its lines from the one that begins with FROM to the conditions. -/
def fromLines (sql : String) : List (List Char) :=
  ((sql.toList.splitOn '\n').dropWhile fun line => !"FROM ".toList.isPrefixOf line).takeWhile
    fun line => !"WHERE ".toList.isPrefixOf line

/-- The other lines: what is selected, the conditions, and how rows are grouped, ordered and cut. -/
def otherLines (sql : String) : List (List Char) :=
  ((sql.toList.splitOn '\n').takeWhile fun line => !"FROM ".toList.isPrefixOf line) ++
    ((sql.toList.splitOn '\n').dropWhile fun line => !"FROM ".toList.isPrefixOf line).dropWhile
      fun line => !"WHERE ".toList.isPrefixOf line

/-- A query names a column of a dimension outside its FROM section. -/
def Query.Names (q : Query) (d : Dimension) : Prop :=
  ∃ line ∈ otherLines q.sql, d.NamedIn line

instance (q : Query) (d : Dimension) : Decidable (q.Names d) :=
  inferInstanceAs (Decidable (∃ line ∈ otherLines q.sql, _))

theorem head?_of_mem_indented {x : String} {xs : List String}
    (h : ∀ y ∈ x :: xs, '\n' ∉ y.toList) :
    ∀ line ∈ ("    ".toList ++ (",\n    ".intercalate (x :: xs)).toList).splitOn '\n',
      line.head? = some ' ' := by
  have hi : "    ".toList = [' ', ' ', ' ', ' '] := by decide
  have hs : ",\n    ".toList = ',' :: '\n' :: "    ".toList := by decide
  induction xs generalizing x with
  | nil =>
    have hx : '\n' ∉ "    ".toList ++ x.toList := by
      have := h x List.mem_cons_self
      simp [hi, this]
    rw [String.intercalate_singleton, List.splitOn_eq_singleton hx]
    simp [hi]
  | cons y ys ih =>
    have hx : '\n' ∉ "    ".toList ++ x.toList ++ [','] := by
      have := h x List.mem_cons_self
      simp [hi, this]
    have ht : "    ".toList ++ (",\n    ".intercalate (x :: y :: ys)).toList =
        "    ".toList ++ x.toList ++ [','] ++
          '\n' :: ("    ".toList ++ (",\n    ".intercalate (y :: ys)).toList) := by
      rw [String.intercalate_cons_cons, String.toList_append, String.toList_append, hs]
      simp
    rw [ht, List.splitOn_append_cons_self_of_not_mem hx]
    intro line hl
    rcases List.mem_cons.mp hl with rfl | hl
    · simp [hi]
    · exact ih (fun z hz => h z (List.mem_cons_of_mem x hz)) line hl

namespace Template

variable (t : Template) (p : Predicate) (next : Nat)

/-- The selected expressions begin with their word, and the other lines of them are indented. -/
theorem head?_of_mem_selection :
    ∀ line ∈ (t.build p next).statement.selection.toList.splitOn '\n',
      line.head? = some 'S' ∨ line.head? = some ' ' := by
  have hw : "SELECT\n    ".toList = "SELECT".toList ++ '\n' :: "    ".toList := by decide
  obtain ⟨s, ss, hs⟩ : ∃ s ss, t.select = s :: ss := by
    cases t <;> exact ⟨_, _, rfl⟩
  have hn : ∀ y ∈ s.sql :: ss.map Selection.sql, '\n' ∉ y.toList := by
    rw [← List.map_cons, ← hs, List.forall_mem_map]
    exact t.notMem_select (.inr rfl)
  have ht : (t.build p next).statement.selection.toList = "SELECT".toList ++
      '\n' :: ("    ".toList ++ (",\n    ".intercalate (s.sql :: ss.map Selection.sql)).toList) := by
    rw [Statement.selection, build, hs, String.toList_append, hw, List.append_assoc,
      List.cons_append, List.map_cons]
  rw [ht, List.splitOn_append_cons_self_of_not_mem (by decide)]
  intro line hl
  rcases List.mem_cons.mp hl with rfl | hl
  · left
    decide
  · exact .inr (head?_of_mem_indented hn line hl)

variable {p}

theorem splitOn_sql (h : p.clauses ≠ []) :
    (t.build p next).sql.toList.splitOn '\n' =
      (t.build p next).statement.selection.toList.splitOn '\n' ++
        (t.build p next).statement.lines.map String.toList := by
  have hb := Statement.splitOn_broken (t.newline_notMem_lines p next)
  rw [Query.sql, Statement.toList_sql_eq_lines _ h]
  rw [Statement.lines, List.cons_append, List.cons_append, Statement.broken_cons,
    List.cons_append] at hb ⊢
  rw [List.splitOn_append_cons_self]
  rw [← List.nil_append (_ :: _), List.splitOn_append_cons_self, List.splitOn_nil,
    List.singleton_append] at hb
  rw [(List.cons.inj hb).2]

variable {next}

theorem not_from_of_mem_selection {line : List Char}
    (h : line ∈ (t.build p next).statement.selection.toList.splitOn '\n') :
    (!"FROM ".toList.isPrefixOf line) = true := by
  have hw : "FROM ".toList = 'F' :: "ROM ".toList := by decide
  cases line with
  | nil => rw [hw]; rfl
  | cons c cs =>
    have hc : c ≠ 'F' := by
      rintro rfl
      exact (t.head?_of_mem_selection p next _ h).elim (by simp) (by simp)
    simp [hw, List.isPrefixOf, hc.symm]

theorem dropWhile_sql (h : p.clauses ≠ []) :
    (((t.build p next).sql.toList.splitOn '\n').dropWhile
      fun line => !"FROM ".toList.isPrefixOf line) =
        (t.build p next).statement.lines.map String.toList := by
  rw [t.splitOn_sql next h,
    List.dropWhile_append_of_pos fun _ => t.not_from_of_mem_selection, Statement.lines,
    List.cons_append, List.cons_append, List.map_cons, List.dropWhile_cons_of_neg (by decide)]

theorem takeWhile_sql (h : p.clauses ≠ []) :
    (((t.build p next).sql.toList.splitOn '\n').takeWhile
      fun line => !"FROM ".toList.isPrefixOf line) =
        (t.build p next).statement.selection.toList.splitOn '\n' := by
  rw [t.splitOn_sql next h,
    List.takeWhile_append_of_pos fun _ => t.not_from_of_mem_selection, Statement.lines,
    List.cons_append, List.cons_append, List.map_cons, List.takeWhile_cons_of_neg (by decide),
    List.append_nil]

end Template

theorem Joins.not_where_of_mem_lines (j : Joins) :
    ∀ line ∈ ("FROM fact_sales fs" :: j.toList.map Dimension.sql).map String.toList,
      (!"WHERE ".toList.isPrefixOf line) = true := by
  intro line hl
  obtain ⟨text, ht, rfl⟩ := List.mem_map.mp hl
  rcases List.mem_cons.mp ht with rfl | ht
  · decide
  · obtain ⟨d, -, rfl⟩ := List.mem_map.mp ht
    cases d <;> decide

theorem Predicate.exists_lines_eq_cons {p : Predicate} (h : p.clauses ≠ []) :
    ∃ line rest, p.lines = line :: rest ∧
      ¬ (!"WHERE ".toList.isPrefixOf line.toList) = true := by
  obtain ⟨_ | ⟨c, cs⟩⟩ := p
  · exact absurd rfl h
  · refine ⟨_, _, rfl, ?_⟩
    have hw : "WHERE ".toList.isPrefixOf ("WHERE ".toList ++ c.sql.toList) = true :=
      List.isPrefixOf_iff_prefix.mpr (List.prefix_append _ _)
    rw [String.toList_append, hw]
    decide

namespace Template

variable (t : Template) {p : Predicate} {next : Nat}

theorem fromLines_sql (h : p.clauses ≠ []) :
    fromLines (t.build p next).sql =
      ("FROM fact_sales fs" :: (t.build p next).statement.joins.toList.map Dimension.sql).map
        String.toList := by
  obtain ⟨line, rest, hp, hw⟩ := Predicate.exists_lines_eq_cons h
  have hb : (t.build p next).statement.predicate.lines = line :: rest := hp
  rw [fromLines, t.dropWhile_sql h, Statement.lines, hb, List.append_assoc, List.map_append,
    List.takeWhile_append_of_pos (Joins.not_where_of_mem_lines _), List.cons_append,
    List.map_cons (a := line),
    List.takeWhile_cons_of_neg (p := fun line => !"WHERE ".toList.isPrefixOf line) hw,
    List.append_nil]

theorem otherLines_sql (h : p.clauses ≠ []) :
    otherLines (t.build p next).sql =
      (t.build p next).statement.selection.toList.splitOn '\n' ++
        (p.lines ++ ((t.build p next).statement.arrangement ++ (t.build p next).statement.cut)).map
          String.toList := by
  obtain ⟨line, rest, hp, hw⟩ := Predicate.exists_lines_eq_cons h
  have hb : (t.build p next).statement.predicate.lines = line :: rest := hp
  rw [otherLines, t.takeWhile_sql h, t.dropWhile_sql h, Statement.lines, hb, hp, List.append_assoc,
    List.map_append, List.dropWhile_append_of_pos (Joins.not_where_of_mem_lines _),
    List.cons_append, List.map_cons (a := line),
    List.dropWhile_cons_of_neg (p := fun line => !"WHERE ".toList.isPrefixOf line) hw]

end Template

/-! ### What the sections name -/

namespace Template

variable (t : Template) (p : Predicate) (next : Nat) (d : Dimension)

theorem not_namedIn_name : ∀ s ∈ t.select, ∀ n ∈ s.name, ¬ d.NamedIn n.toList := by
  have hp : ∀ s ∈ t.select, ∀ n ∈ s.name, '.' ∉ n.toList := by
    cases t <;> simp [select, Selection.plain, Selection.named, totalSales, totalSalesOrZero,
      totalOrders, totalInvoices]
  intro s hs n hn
  exact Dimension.not_namedIn_of_notMem (t.isNameChar_of_mem_name s hs n hn) (hp s hs n hn)

theorem namedIn_select : ∀ s ∈ t.select,
    (d.NamedIn s.sql.toList ↔ s.expr.source.dimension? = some d) := by
  intro s hs
  rw [Selection.sql]
  cases hn : s.name with
  | none => exact s.expr.namedIn_sql d
  | some n =>
    have hw : ¬ d.NamedIn " AS ".toList := by cases d <;> decide
    have hc : " AS ".toList = ' ' :: "AS ".toList := by decide
    have hr : ((" AS ".toList ++ n.toList).head?.all fun c => !isNameChar c) = true := by
      rw [hc]
      rfl
    have hr : Apart s.expr.sql.toList (" AS ".toList ++ n.toList) := apart_right hr
    simp only [String.toList_append, List.append_assoc]
    rw [Dimension.namedIn_append hr, Dimension.namedIn_append (apart_left (by decide)),
      s.expr.namedIn_sql d, or_iff_left]
    exact not_or.mpr ⟨hw, t.not_namedIn_name d s hs n hn⟩

theorem namedIn_selection :
    d.NamedIn (t.build p next).statement.selection.toList ↔
      ∃ s ∈ t.select, s.expr.source.dimension? = some d := by
  have hw : ¬ d.NamedIn "SELECT\n    ".toList := by cases d <;> decide
  rw [Statement.selection, Dimension.namedIn_word (by decide) hw,
    Dimension.namedIn_intercalate (by decide) (by decide)]
  exact exists_congr fun s => and_congr_right fun hs => t.namedIn_select d s hs

theorem Order.namedIn_sql (o : Order) : d.NamedIn o.sql.toList ↔ d.NamedIn o.key.sql.toList := by
  have hd : ¬ d.NamedIn " DESC".toList := by cases d <;> decide
  have ha : ¬ d.NamedIn " ASC".toList := by cases d <;> decide
  rw [Order.sql, String.toList_append, Dimension.namedIn_append (apart_right ?_), or_iff_left]
  · split
    · exact hd
    · exact ha
  · split <;> decide

/-- A line with a word and a list, left out if the list is empty. -/
theorem namedIn_listing {α : Type} {word : String} {f : α → String} {xs : List α}
    (hl : (word.toList.getLast?.all fun c => !isNameChar c) = true) (hw : ¬ d.NamedIn word.toList) :
    (∃ line ∈ (if xs.isEmpty then [] else [word ++ ", ".intercalate (xs.map f)]),
      d.NamedIn line.toList) ↔ ∃ x ∈ xs, d.NamedIn (f x).toList := by
  cases xs with
  | nil => simp
  | cons x xs =>
    simp only [List.isEmpty_cons, Bool.false_eq_true, if_false, List.mem_singleton, exists_eq_left]
    rw [Dimension.namedIn_word hl hw, Dimension.namedIn_intercalate (by decide) (by decide)]

theorem namedIn_arrangement :
    (∃ line ∈ (t.build p next).statement.arrangement, d.NamedIn line.toList) ↔
      (∃ k ∈ t.group, d.NamedIn k.sql.toList) ∨ ∃ o ∈ t.order, d.NamedIn o.key.sql.toList := by
  have hg : ¬ d.NamedIn "GROUP BY ".toList := by cases d <;> decide
  have ho : ¬ d.NamedIn "ORDER BY ".toList := by cases d <;> decide
  simp only [Statement.arrangement, List.mem_append, or_and_right, exists_or,
    ← Order.namedIn_sql]
  exact or_congr (namedIn_listing d (by decide) hg) (namedIn_listing d (by decide) ho)

theorem namedIn_lines :
    (∃ line ∈ p.lines, d.NamedIn line.toList) ↔ ∃ c ∈ p.clauses, c.column.dimension? = some d := by
  have hw : ¬ d.NamedIn "WHERE ".toList := by cases d <;> decide
  have ha : ¬ d.NamedIn "  AND ".toList := by cases d <;> decide
  have hwhere (c : Clause) :
      d.NamedIn ("WHERE " ++ c.sql).toList ↔ c.column.dimension? = some d := by
    rw [Dimension.namedIn_word (by decide) hw, c.namedIn_sql]
  have hand (c : Clause) :
      d.NamedIn ("  AND " ++ c.sql).toList ↔ c.column.dimension? = some d := by
    rw [Dimension.namedIn_word (by decide) ha, c.namedIn_sql]
  obtain ⟨_ | ⟨c, cs⟩⟩ := p
  · simp [Predicate.lines]
  · simp only [Predicate.lines, List.mem_cons, List.mem_map, or_and_right, exists_or,
      exists_eq_left, exists_exists_and_eq_and, hwhere, hand]

theorem not_namedIn_cut : ∀ line ∈ (t.build p next).statement.cut, ¬ d.NamedIn line.toList := by
  intro line hl
  obtain ⟨index, -, rfl⟩ := List.mem_map.mp hl
  have hw : ¬ d.NamedIn "LIMIT $".toList := by cases d <;> decide
  have hs : "LIMIT " ++ placeholder index = "LIMIT $" ++ Text.natText index :=
    String.append_assoc.symm
  rw [hs, Dimension.namedIn_word (by decide) hw]
  exact not_namedIn_natText d index

/-- A query names the dimensions of the columns that its template and its clauses are about. -/
theorem names_build (h : p.clauses ≠ []) :
    (t.build p next).Names d ↔ (∃ s ∈ t.select, s.expr.source.dimension? = some d) ∨
      (∃ c ∈ p.clauses, c.column.dimension? = some d) ∨
        (∃ k ∈ t.group, d.NamedIn k.sql.toList) ∨ ∃ o ∈ t.order, d.NamedIn o.key.sql.toList := by
  have hcut : ¬ ∃ line ∈ (t.build p next).statement.cut, d.NamedIn line.toList := by
    rintro ⟨line, hl, hd⟩
    exact t.not_namedIn_cut p next d line hl hd
  rw [← namedIn_arrangement t p next, ← namedIn_lines, ← t.namedIn_selection p next,
    ← Dimension.exists_namedIn_splitOn]
  simp only [Query.Names, t.otherLines_sql h, List.mem_append, List.mem_map, or_and_right,
    exists_or, exists_exists_and_eq_and, hcut, or_false]

end Template

/-! ### What is joined -/

namespace Joins

theorem contains_require (j : Joins) (c : Column) (d : Dimension) :
    (j.require c).contains d = true ↔ j.contains d = true ∨ c.dimension? = some d := by
  rw [require]
  cases c.dimension? with
  | none => simp
  | some e => simp [contains_insert]

theorem contains_foldl (j : Joins) (cs : List Column) (d : Dimension) :
    (cs.foldl require j).contains d = true ↔
      j.contains d = true ∨ ∃ c ∈ cs, c.dimension? = some d := by
  induction cs generalizing j with
  | nil => simp
  | cons c cs ih => simp [ih, contains_require, or_assoc]

theorem contains_ofColumns (cs : List Column) (d : Dimension) :
    (ofColumns cs).contains d = true ↔ ∃ c ∈ cs, c.dimension? = some d := by
  have he : empty.contains d = false := by cases d <;> rfl
  simp [ofColumns, contains_foldl, he]

end Joins

/-- The dimensions that a template declares are those that it names itself. -/
theorem Template.contains_joins (t : Template) (d : Dimension) :
    (t.joins.insert .time).contains d = true ↔ d = .time ∨
      (∃ s ∈ t.select, s.expr.source.dimension? = some d) ∨
        (∃ k ∈ t.group, d.NamedIn k.sql.toList) ∨ ∃ o ∈ t.order, d.NamedIn o.key.sql.toList := by
  cases t with
  | breakdown g limit =>
    simp only [joins, select, group, order]
    cases g <;> cases d <;> decide
  | itemized | summary | dailyTrend | hourlyTrend | storeSummary => cases d <;> decide

theorem Filter.Scalar.dimension?_ne_node (f : Filter.Scalar) :
    f.column.dimension? ≠ some .node := by
  cases f <;> decide

theorem Filter.Level.dimension?_ne_node (l : Filter.Level) :
    l.column.dimension? ≠ some .node := by
  cases l <;> decide

section Compiled

variable (s : Filter.Spec) (w : Window) (start : Nat) (t : Template) (d : Dimension)

theorem contains_joins_compile :
    (t.build (compile s w start).predicate (compile s w start).next).statement.joins.contains d =
      true ↔ (t.build (compile s w start).predicate (compile s w start).next).Names d := by
  have hp : (compile s w start).predicate.joins.contains d = true ↔
      ∃ c ∈ (compile s w start).predicate.clauses, c.column.dimension? = some d := by
    simp [Predicate.joins, Joins.contains_ofColumns]
  have htime : ∃ c ∈ (compile s w start).predicate.clauses, c.column.dimension? = some .time :=
    ⟨_, List.mem_cons_self, rfl⟩
  rw [t.names_build _ _ d (clauses_compile_ne_nil s w start), Template.build, Joins.contains_union,
    Bool.or_eq_true, hp, t.contains_joins]
  constructor
  · rintro ((rfl | h | h) | h)
    · exact .inr (.inl htime)
    · exact .inl h
    · exact .inr (.inr h)
    · exact .inr (.inl h)
  · rintro (h | h | h)
    · exact .inl (.inr (.inl h))
    · exact .inr h
    · exact .inl (.inr (.inr h))

theorem dimension?_ne_node : ∀ c ∈ s.columns, c.dimension? ≠ some .node := by
  intro c hc
  rcases List.mem_append.mp hc with hc | hc
  · obtain ⟨⟨f, v⟩, -, rfl⟩ := List.mem_map.mp hc
    exact f.dimension?_ne_node
  · obtain ⟨⟨l, v⟩, -, rfl⟩ := List.mem_map.mp hc
    exact l.dimension?_ne_node

/-- No filter needs the dimension of machines. -/
theorem names_node_compile :
    (t.build (compile s w start).predicate (compile s w start).next).Names .node ↔
      t = .itemized := by
  have hn : ¬ ∃ c ∈ (compile s w start).predicate.clauses, c.column.dimension? = some .node := by
    rintro ⟨c, hc, hd⟩
    have hm := List.mem_map_of_mem (f := fun c => c.column) hc
    rw [columns_compile] at hm
    rcases List.mem_cons.mp hm with he | hm
    · rw [he] at hd
      cases hd
    · rcases List.mem_cons.mp hm with he | hm
      · rw [he] at hd
        cases hd
      · exact dimension?_ne_node s _ hm hd
  have ht : (∃ s ∈ t.select, s.expr.source.dimension? = some .node) ∨
      (∃ k ∈ t.group, Dimension.node.NamedIn k.sql.toList) ∨
        (∃ o ∈ t.order, Dimension.node.NamedIn o.key.sql.toList) ↔ t = .itemized := by
    have hj := t.contains_joins .node
    simp only [reduceCtorEq, false_or] at hj
    rw [← hj]
    cases t with
    | breakdown g limit =>
      cases g <;> simp [Template.joins, Joins.insert, Joins.contains, Joins.require, Joins.empty,
        Grouping.column, Column.dimension?]
    | itemized | summary | dailyTrend | hourlyTrend | storeSummary => decide
  rw [t.names_build _ _ .node (clauses_compile_ne_nil s w start), ← ht]
  simp only [hn, false_or]

end Compiled

/-- The FROM section of a query: the fact table, then the dimensions that the other sections name
in joining order, none of them twice. Machines are joined for single sales only. -/
structure JoinsNamed (t : Template) (q : Query) : Prop where
  lines : fromLines q.sql =
    ("FROM fact_sales fs" :: (Dimension.all.filter fun d => q.Names d).map Dimension.sql).map
      String.toList
  once : ∀ d : Dimension, (fromLines q.sql).count d.sql.toList = if q.Names d then 1 else 0
  machines : (fromLines q.sql).filter (fun line => occurs "dim_node".toList line) =
    if t = .itemized then ["LEFT JOIN dim_node dn ON fs.node_id = dn.node_id".toList] else []

namespace Dimension

theorem toList_sql_injective : Function.Injective fun d : Dimension => d.sql.toList := by
  intro d e h
  have hn : (all.map sql).Nodup := by decide
  exact List.inj_on_of_nodup_map hn (by cases d <;> decide) (by cases e <;> decide)
    (String.toList_inj.mp h)

theorem count_joins (f : Dimension → Bool) (d : Dimension) :
    (("FROM fact_sales fs" :: (all.filter f).map sql).map String.toList).count d.sql.toList =
      if f d then 1 else 0 := by
  have hf : "FROM fact_sales fs".toList ≠ d.sql.toList := by cases d <;> decide
  have ha : all.count d = 1 := by cases d <;> decide
  rw [List.map_cons, List.count_cons_of_ne hf, List.map_map]
  rw [show String.toList ∘ sql = fun d : Dimension => d.sql.toList from rfl,
    List.count_map_of_injective _ _ toList_sql_injective]
  cases hd : f d with
  | true => simp [List.count_filter hd, ha]
  | false => simp [List.count_eq_zero, hd]

theorem occurs_machines (d : Dimension) :
    occurs "dim_node".toList d.sql.toList = decide (d = .node) := by
  cases d <;> decide +kernel

theorem filter_machines (f : Dimension → Bool) :
    (("FROM fact_sales fs" :: (all.filter f).map sql).map String.toList).filter
      (fun line => occurs "dim_node".toList line) = if f .node then [node.sql.toList] else [] := by
  have hf : ¬ occurs "dim_node".toList "FROM fact_sales fs".toList = true := by decide +kernel
  have ha : (all.filter f).filter (fun d => decide (d = .node)) =
      if f .node then [.node] else [] := by
    rw [List.filter_filter]
    cases h : f .node <;> simp [all, h]
  rw [List.map_cons, List.filter_cons_of_neg hf, List.map_map, List.filter_map]
  simp only [Function.comp_def, occurs_machines, ha]
  split <;> rfl

end Dimension

theorem joinsNamed_compile (t : Template) (s : Filter.Spec) (w : Window) (start : Nat) :
    JoinsNamed t (t.build (compile s w start).predicate (compile s w start).next) := by
  have hlines : fromLines (t.build _ (compile s w start).next).sql = _ :=
    t.fromLines_sql (clauses_compile_ne_nil s w start)
  have hjoins : (t.build (compile s w start).predicate
      (compile s w start).next).statement.joins.toList =
        Dimension.all.filter fun d =>
          (t.build (compile s w start).predicate (compile s w start).next).Names d := by
    apply List.filter_congr
    intro d _
    rw [Bool.eq_iff_iff, decide_eq_true_iff]
    exact contains_joins_compile s w start t d
  rw [hjoins] at hlines
  constructor
  · exact hlines
  · intro d
    rw [hlines, Dimension.count_joins]
    simp only [decide_eq_true_eq]
  · rw [hlines, Dimension.filter_machines]
    simp only [decide_eq_true_eq, names_node_compile]
    rfl

/-- Whatever its filters and its window, a template joins exactly what it names; so does every
report, whatever its parameters and its day. -/
theorem from_joins_named :
    (∀ (t : Template) (s : Filter.Spec) (w : Window) (start : Nat),
      JoinsNamed t (t.build (compile s w start).predicate (compile s w start).next)) ∧
    ∀ (r : Report) (p : Filter.Params) (today : Date) (q : Query),
      r.build? p today = some q → JoinsNamed r.template q := by
  constructor
  · exact joinsNamed_compile
  · intro r p today q h
    obtain ⟨w, -, rfl⟩ := Option.map_eq_some_iff.mp h
    exact joinsNamed_compile r.template (r.spec p) w 1

/-- The top products of a city and a machine: the city and the names of the products are joined,
the machine is a column of the sales. -/
theorem top_products_of_city_and_machine :
    let day : Date := ⟨2025, 6, 1, by decide, by decide⟩
    let p := { Filter.Params.none with
      timePeriod := some "today", machineId := some "M1", store := some "[\"city\", \"Austin\"]" }
    ∃ q, Report.build? .byProduct p day = some q ∧ JoinsNamed (Report.template .byProduct) q ∧
      fromLines q.sql =
        ["FROM fact_sales fs".toList, Dimension.time.sql.toList, Dimension.store.sql.toList,
          Dimension.item.sql.toList] := by
  intro day p
  obtain ⟨q, hq⟩ : ∃ q, Report.build? .byProduct p day = some q := ⟨_, rfl⟩
  refine ⟨q, hq, from_joins_named.2 _ _ _ _ hq, ?_⟩
  obtain ⟨w, hw, rfl⟩ := Option.map_eq_some_iff.mp hq
  rw [Template.fromLines_sql _ (clauses_compile_ne_nil _ _ _)]
  cases hw
  decide +kernel

end Takings
