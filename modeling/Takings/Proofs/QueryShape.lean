import Takings.Proofs.QueryText
import Takings.Report.Catalogue

/-!
# What the text of a query tells

The text of a query is made of the columns and comparisons of its clauses, whatever they are
compared with, and the columns can be read from its lines. So the texts of two queries of one
report are the same exactly if they filter on the same columns in the same order.
-/
namespace Takings

/-- The columns of the filters in the order of their clauses. -/
def Filter.Spec.columns (s : Filter.Spec) : List Column :=
  s.scalars.map (fun (f, _) => f.column) ++ s.levels.map fun l => l.level.column

/-! ### From columns to text -/

/-- What a condition brings into the text. -/
def Condition.shape (c : Condition) : Column × Comparison :=
  (c.column, c.comparison)

theorem shape_ofSpec (s : Filter.Spec) :
    (Condition.ofSpec s).map Condition.shape = s.columns.map fun k => (k, .equal) := by
  simp only [Condition.ofSpec, Filter.Spec.columns, List.map_append, List.map_map]
  rfl

/-- Numbering looks at no value. -/
theorem number_congr {cs ds : List Condition}
    (h : cs.map Condition.shape = ds.map Condition.shape) (next : Nat) :
    (number next cs).next = (number next ds).next ∧
      (number next cs).predicate.clauses.map Clause.sql =
        (number next ds).predicate.clauses.map Clause.sql := by
  induction cs generalizing ds next with
  | nil =>
    rw [List.map_nil, eq_comm, List.map_eq_nil_iff] at h
    rw [h]
    exact ⟨rfl, rfl⟩
  | cons c cs ih =>
    obtain ⟨d, ds, rfl, hs, ht⟩ := List.map_eq_cons_iff.mp h.symm
    obtain ⟨hk, hc⟩ := Prod.mk.inj hs
    obtain ⟨hn, hm⟩ := ih ht.symm (Word.wrap (next + 1))
    refine ⟨hn, ?_⟩
    rw [number, number, List.map_cons, List.map_cons, hm, Clause.sql, Clause.sql, hk, hc]

theorem columns_number (next : Nat) (cs : List Condition) :
    (number next cs).predicate.clauses.map (fun c => c.column) = cs.map Condition.column := by
  have h := congrArg (List.map Condition.column) (conditions_number next cs)
  rwa [List.map_map] at h

/-- The text depends on the texts of the clauses and the columns that are joined for them. -/
theorem Template.sql_build_congr (t : Template) {p p' : Predicate} (next : Nat)
    (hs : p.clauses.map Clause.sql = p'.clauses.map Clause.sql)
    (hk : p.clauses.map (fun c => c.column) = p'.clauses.map fun c => c.column) :
    (t.build p next).sql = (t.build p' next).sql := by
  have he : p.clauses.isEmpty = p'.clauses.isEmpty := by
    rw [← List.isEmpty_map (f := Clause.sql), hs, List.isEmpty_map]
  have hp : p.sql = p'.sql := by rw [Predicate.sql, Predicate.sql, he, hs]
  have hj : p.joins = p'.joins := by rw [Predicate.joins, Predicate.joins, hk]
  simp only [Query.sql, Statement.sql, Statement.sections, build, hp, he, hj]
  rfl

theorem sql_compile_congr (t : Template) {s s' : Filter.Spec} (w w' : Window) (start : Nat)
    (h : s.columns = s'.columns) :
    (t.build (compile s w start).predicate (compile s w start).next).sql =
      (t.build (compile s' w' start).predicate (compile s' w' start).next).sql := by
  have hshape : (Condition.ofWindow w ++ Condition.ofSpec s).map Condition.shape =
      (Condition.ofWindow w' ++ Condition.ofSpec s').map Condition.shape := by
    rw [List.map_append, List.map_append, shape_ofSpec, shape_ofSpec, h]
    rfl
  have hcolumns : (Condition.ofWindow w ++ Condition.ofSpec s).map Condition.column =
      (Condition.ofWindow w' ++ Condition.ofSpec s').map Condition.column := by
    have hf := congrArg (List.map Prod.fst) hshape
    rwa [List.map_map, List.map_map] at hf
  obtain ⟨hnext, hsql⟩ := number_congr hshape (max start 1)
  rw [compile, compile, hnext]
  apply t.sql_build_congr
  · exact hsql
  · rw [columns_number, columns_number, hcolumns]

/-! ### From text to columns -/

theorem Column.sql_injective {c d : Column} (h : c.sql = d.sql) : c = d := by
  have hf : ∀ k : Column, (Column.all.find? fun l => l.sql = k.sql) = some k := by
    intro k
    cases k <;> simp [Column.all, Column.sql]
  have hc := hf c
  rw [h, hf d] at hc
  exact (Option.some.inj hc).symm

namespace Statement

theorem broken_eq_intercalate (lines : List String) :
    broken lines = ['\n'].intercalate ([] :: lines.map String.toList) := by
  induction lines with
  | nil => rfl
  | cons line lines ih =>
    rw [broken_cons, ih, List.map_cons]
    cases lines with
    | nil => simp
    | cons next lines => simp

/-- Lines without line breaks can be told apart again. -/
theorem splitOn_broken {lines : List String} (h : ∀ line ∈ lines, '\n' ∉ line.toList) :
    (broken lines).splitOn '\n' = [] :: lines.map String.toList := by
  rw [broken_eq_intercalate]
  refine List.splitOn_intercalate '\n' ?_ (List.cons_ne_nil _ _)
  intro cs hcs
  rcases List.mem_cons.mp hcs with rfl | hcs
  · exact List.not_mem_nil
  · obtain ⟨line, hl, rfl⟩ := List.mem_map.mp hcs
    exact h line hl

/-- A section that has lines of its own. -/
theorem broken_section (line : String) (lines rest : List String) :
    broken ("\n".intercalate (line :: lines) :: rest) = broken (line :: (lines ++ rest)) := by
  have hn : "\n".toList = ['\n'] := by decide
  rw [broken_cons, broken_cons, broken_append, toList_intercalate_cons, hn, ← List.cons_append,
    List.append_assoc]
  rfl

/-- The name of the column that a line compares, if it is a line of a condition. -/
def compared? : List Char → Option (List Char)
  | 'W' :: 'H' :: 'E' :: 'R' :: 'E' :: ' ' :: cs
  | ' ' :: ' ' :: 'A' :: 'N' :: 'D' :: ' ' :: cs => some (cs.takeWhile (· ≠ ' '))
  | _ => none

theorem compared?_eq_none {cs : List Char} (hw : cs.head? ≠ some 'W') (hb : cs.head? ≠ some ' ') :
    compared? cs = none := by
  unfold compared?
  split
  · exact absurd rfl hw
  · exact absurd rfl hb
  · rfl

theorem compared?_append {c : Char} {word : String} {cs : List Char} (h : word.toList = c :: cs)
    (hw : c ≠ 'W') (hb : c ≠ ' ') (rest : String) : compared? (word ++ rest).toList = none := by
  rw [String.toList_append, h]
  apply compared?_eq_none
  · simpa using hw
  · simpa using hb

end Statement

namespace Clause

variable (c : Clause)

theorem takeWhile_sql : c.sql.toList.takeWhile (· ≠ ' ') = c.column.sql.toList := by
  have hs : c.sql.toList =
      c.column.sql.toList ++ ' ' :: (c.comparison.sql ++ " " ++ placeholder c.index).toList := by
    simp only [sql, String.toList_append, String.reduceToList, List.append_assoc,
      List.cons_append, List.nil_append]
  have hn : ' ' ∉ c.column.sql.toList :=
    notMem_of_isNameChar c.column.isNameChar_of_mem_sql (by decide)
  rw [hs, List.takeWhile_append_of_pos, List.takeWhile_cons]
  · simp
  · intro x hx
    have hne : x ≠ ' ' := by
      rintro rfl
      exact hn hx
    simpa using hne

theorem newline_notMem_sql : '\n' ∉ c.sql.toList := by
  have hk : '\n' ∉ c.column.sql.toList :=
    notMem_of_isNameChar c.column.isNameChar_of_mem_sql (by decide)
  have hc : '\n' ∉ c.comparison.sql.toList := by cases c.comparison <;> decide
  have hi : '\n' ∉ (Text.natText c.index).toList :=
    notMem_of_isNameChar (isNameChar_of_mem_natText c.index) (by decide)
  have hp : '\n' ∉ (placeholder c.index).toList := notMem_append (by decide) hi
  exact notMem_append (notMem_append (notMem_append (notMem_append hk (by decide)) hc)
    (by decide)) hp

end Clause

namespace Predicate

/-- The lines of the conditions. -/
def lines : Predicate → List String
  | ⟨[]⟩ => []
  | ⟨c :: cs⟩ => ("WHERE " ++ c.sql) :: cs.map fun d => "  AND " ++ d.sql

theorem broken_sql {p : Predicate} (h : p.clauses ≠ []) (rest : List String) :
    Statement.broken (p.sql :: rest) = Statement.broken (p.lines ++ rest) := by
  obtain ⟨clauses⟩ := p
  obtain ⟨c, cs, rfl⟩ := List.exists_cons_of_ne_nil h
  have hn : "\n  AND ".toList = '\n' :: "  AND ".toList := by decide
  have hrest : Statement.broken (cs.map fun d => "  AND " ++ d.sql) =
      cs.flatMap fun d => "\n  AND ".toList ++ d.sql.toList := by
    rw [Statement.broken, List.flatMap_map, hn]
    congr 1
    funext d
    rw [String.toList_append, List.cons_append]
  rw [lines, Statement.broken_append, Statement.broken_cons, Statement.broken_cons, hrest,
    toList_sql, String.toList_append]
  simp only [List.append_assoc, List.cons_append]

theorem compared?_lines (p : Predicate) :
    (p.lines.map String.toList).filterMap Statement.compared? =
      p.clauses.map fun c => c.column.sql.toList := by
  have hwhere (c : Clause) :
      Statement.compared? ("WHERE " ++ c.sql).toList = some c.column.sql.toList := by
    rw [← c.takeWhile_sql, String.toList_append]
    rfl
  have hand (c : Clause) :
      Statement.compared? ("  AND " ++ c.sql).toList = some c.column.sql.toList := by
    rw [← c.takeWhile_sql, String.toList_append]
    rfl
  obtain ⟨_ | ⟨c, cs⟩⟩ := p
  · rfl
  · have hrest : Statement.compared? ∘ String.toList ∘ (fun d : Clause => "  AND " ++ d.sql) =
        some ∘ fun d => d.column.sql.toList := funext hand
    rw [lines, List.map_cons, List.filterMap_cons_some (hwhere c), List.map_map,
      List.filterMap_map, hrest, List.filterMap_eq_map, List.map_cons]

theorem newline_notMem_lines (p : Predicate) : ∀ line ∈ p.lines, '\n' ∉ line.toList := by
  intro line hl
  obtain ⟨_ | ⟨c, cs⟩⟩ := p
  · cases hl
  · rcases List.mem_cons.mp hl with rfl | hl
    · exact notMem_append (by decide) c.newline_notMem_sql
    · obtain ⟨d, -, rfl⟩ := List.mem_map.mp hl
      exact notMem_append (by decide) d.newline_notMem_sql

end Predicate

theorem Joins.compared?_lines (j : Joins) :
    ∀ line ∈ "FROM fact_sales fs" :: j.toList.map Dimension.sql,
      Statement.compared? line.toList = none := by
  intro line hl
  rcases List.mem_cons.mp hl with rfl | hl
  · decide
  · obtain ⟨d, -, rfl⟩ := List.mem_map.mp hl
    cases d <;> decide

namespace Statement

theorem compared?_end (s : Statement) :
    ∀ line ∈ s.arrangement ++ s.cut, compared? line.toList = none := by
  intro line hl
  rcases List.mem_append.mp hl with hl | hl
  · rcases List.mem_append.mp hl with hl | hl
    · obtain rfl := List.mem_singleton.mp (List.mem_ite_nil_left.mp hl).2
      exact compared?_append (show "GROUP BY ".toList = 'G' :: "ROUP BY ".toList by decide)
        (by decide) (by decide) _
    · obtain rfl := List.mem_singleton.mp (List.mem_ite_nil_left.mp hl).2
      exact compared?_append (show "ORDER BY ".toList = 'O' :: "RDER BY ".toList by decide)
        (by decide) (by decide) _
  · obtain ⟨index, -, rfl⟩ := List.mem_map.mp hl
    exact compared?_append (show "LIMIT ".toList = 'L' :: "IMIT ".toList by decide)
      (by decide) (by decide) _

/-- The lines of the text after the selected expressions. -/
def lines (s : Statement) : List String :=
  "FROM fact_sales fs" :: s.joins.toList.map Dimension.sql ++ s.predicate.lines ++
    (s.arrangement ++ s.cut)

theorem toList_sql_eq_lines (s : Statement) (h : s.predicate.clauses ≠ []) :
    s.sql.toList = s.selection.toList ++ broken s.lines := by
  rw [toList_sql s h, Joins.sql, broken_section, ← List.cons_append, broken_append,
    Predicate.broken_sql h, lines]
  simp only [broken_append, List.append_assoc]

end Statement

namespace Template

variable (t : Template) (p : Predicate) (next : Nat)

theorem newline_notMem_lines :
    ∀ line ∈ (t.build p next).statement.lines, '\n' ∉ line.toList := by
  intro line hl
  rcases List.mem_append.mp hl with hl | hl
  · rcases List.mem_append.mp hl with hl | hl
    · rcases List.mem_cons.mp hl with rfl | hl
      · decide
      · obtain ⟨d, -, rfl⟩ := List.mem_map.mp hl
        cases d <;> decide
    · exact p.newline_notMem_lines line hl
  · rcases List.mem_append.mp hl with hl | hl
    · exact t.notMem_arrangement p next (.inr rfl) line hl
    · obtain ⟨index, -, rfl⟩ := List.mem_map.mp hl
      exact notMem_append (by decide) (notMem_append (by decide)
        (notMem_of_isNameChar (isNameChar_of_mem_natText index) (by decide)))

/-- The lines tell the columns that are compared, in order. -/
theorem compared?_lines :
    ((t.build p next).statement.lines.map String.toList).filterMap Statement.compared? =
      p.clauses.map fun c => c.column.sql.toList := by
  generalize hs : (t.build p next).statement = s
  have hp : s.predicate = p := by rw [← hs, build]
  have hfrom : (("FROM fact_sales fs" :: s.joins.toList.map Dimension.sql).map
      String.toList).filterMap Statement.compared? = [] := by
    rw [List.filterMap_eq_nil_iff, List.forall_mem_map]
    exact s.joins.compared?_lines
  have hend : ((s.arrangement ++ s.cut).map String.toList).filterMap Statement.compared? = [] := by
    rw [List.filterMap_eq_nil_iff, List.forall_mem_map]
    exact s.compared?_end
  rw [Statement.lines, List.map_append, List.map_append, List.filterMap_append,
    List.filterMap_append, hfrom, hend, hp, Predicate.compared?_lines, List.nil_append,
    List.append_nil]

theorem columns_eq_of_sql_eq {p p' : Predicate} {next next' : Nat} (hp : p.clauses ≠ [])
    (hp' : p'.clauses ≠ []) (h : (t.build p next).sql = (t.build p' next').sql) :
    p.clauses.map (fun c => c.column) = p'.clauses.map fun c => c.column := by
  have ht := congrArg String.toList h
  rw [Query.sql, Query.sql, Statement.toList_sql_eq_lines _ hp, Statement.toList_sql_eq_lines _ hp']
    at ht
  have hl := congrArg (List.splitOn '\n') (List.append_cancel_left ht)
  rw [Statement.splitOn_broken (t.newline_notMem_lines p next),
    Statement.splitOn_broken (t.newline_notMem_lines p' next')] at hl
  have hc := congrArg (List.filterMap Statement.compared?) (List.cons.inj hl).2
  rw [t.compared?_lines, t.compared?_lines] at hc
  have hk : (p.clauses.map fun c => c.column).map (fun k => k.sql.toList) =
      (p'.clauses.map fun c => c.column).map fun k => k.sql.toList := by
    rw [List.map_map, List.map_map]
    exact hc
  exact (List.map_inj_right fun _ _ he => Column.sql_injective (String.toList_inj.mp he)).mp hk

end Template

theorem columns_compile (s : Filter.Spec) (w : Window) (start : Nat) :
    (compile s w start).predicate.clauses.map (fun c => c.column) =
      .businessDate :: .businessDate :: s.columns := by
  have hs : (Condition.ofSpec s).map Condition.column = s.columns := by
    have h := congrArg (List.map Prod.fst) (shape_ofSpec s)
    simpa [Function.comp_def, Condition.shape] using h
  rw [compile, columns_number, List.map_append, hs]
  rfl

theorem clauses_compile_ne_nil (s : Filter.Spec) (w : Window) (start : Nat) :
    (compile s w start).predicate.clauses ≠ [] := by
  intro h
  have hc := columns_compile s w start
  rw [h] at hc
  cases hc

/-- Two requests for a report have the same text exactly if their filters that count for the
report are on the same columns in the same order, whatever the values, the periods and the days. -/
theorem sql_eq_iff_columns_eq {r : Report} {p p' : Filter.Params} {today today' : Date}
    {q q' : Query} (h : r.build? p today = some q) (h' : r.build? p' today' = some q') :
    q.sql = q'.sql ↔ (r.spec p).columns = (r.spec p').columns := by
  obtain ⟨w, -, rfl⟩ := Option.map_eq_some_iff.mp h
  obtain ⟨w', -, rfl⟩ := Option.map_eq_some_iff.mp h'
  constructor
  · intro hsql
    have hk := r.template.columns_eq_of_sql_eq (clauses_compile_ne_nil _ _ _)
      (clauses_compile_ne_nil _ _ _) hsql
    rw [columns_compile, columns_compile] at hk
    exact (List.cons.inj (List.cons.inj hk).2).2
  · exact sql_compile_congr r.template w w' 1

/-- A pod and a city, once with values that try to break out of the text: the texts are the same.
With a state for the city the text is another one. -/
theorem hostile_values_share_text :
    let day : Date := ⟨2025, 6, 1, by decide, by decide⟩
    let p := { Filter.Params.none with
      timePeriod := some "today", pod := some "P1", store := some "[\"city\", \"Austin\"]" }
    let hostile := { Filter.Params.none with
      timePeriod := some "yesterday", pod := some "$9; DROP TABLE fact_sales; --"
      store := some "[\"city\", \"x\\n  AND ds.state = $9\"]" }
    let other := { p with store := some "[\"state\", \"Austin\"]" }
    ∃ q q' q'', Report.build? .byProduct p day = some q ∧
      Report.build? .byProduct hostile day = some q' ∧
      Report.build? .byProduct other day = some q'' ∧ q.sql = q'.sql ∧ q.sql ≠ q''.sql := by
  intro day p hostile other
  obtain ⟨q, hq⟩ : ∃ q, Report.build? .byProduct p day = some q := ⟨_, rfl⟩
  obtain ⟨q', hq'⟩ : ∃ q, Report.build? .byProduct hostile day = some q := ⟨_, rfl⟩
  obtain ⟨q'', hq''⟩ : ∃ q, Report.build? .byProduct other day = some q := ⟨_, rfl⟩
  refine ⟨q, q', q'', hq, hq', hq'', (sql_eq_iff_columns_eq hq hq').mpr (by decide +kernel), ?_⟩
  intro h
  exact absurd ((sql_eq_iff_columns_eq hq hq'').mp h) (by decide +kernel)

end Takings
