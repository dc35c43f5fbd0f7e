import Takings.Proofs.FilterSpec
import Takings.Proofs.Placeholders
import Takings.Report.Catalogue

/-!
# Where bound values stand in a query

A query takes a value at each of its clauses and at its limit. Its text is laid out from these
sites in order, with texts without placeholders between them, so the placeholders number the
bound values, and the check of binds accepts exactly the queries that start to number at one.
-/
namespace Takings

open Placeholder

/-- A part of a query that takes a bound value: a clause, or the limit of the rows. -/
inductive Site where
  | clause (c : Clause)
  | limit (index : Nat) (rows : Int)

namespace Site

def index : Site → Nat
  | clause c => c.index
  | limit index _ => index

def value : Site → Bind
  | clause c => c.value
  | limit _ rows => .int rows

def sql : Site → String
  | clause c => c.sql
  | limit index _ => "LIMIT " ++ placeholder index

theorem sql_clause (c : Clause) : (clause c).sql = c.sql :=
  rfl

/-- The text of a site is its one placeholder after words that hold none. -/
theorem exists_words (s : Site) :
    ∃ words : String, '$' ∉ words.toList ∧ s.sql = words ++ placeholder s.index := by
  cases s with
  | limit index rows => exact ⟨"LIMIT ", by decide, rfl⟩
  | clause c =>
    refine ⟨c.column.sql ++ " " ++ c.comparison.sql ++ " ", ?_, rfl⟩
    have hk : '$' ∉ c.column.sql.toList :=
      notMem_of_isNameChar c.column.isNameChar_of_mem_sql (by decide)
    have hc : '$' ∉ c.comparison.sql.toList := by cases c.comparison <;> decide
    exact notMem_append (notMem_append (notMem_append hk (by decide)) hc) (by decide)

theorem numbers_sql_append (s : Site) {rest : List Char} (h : NoDigitAhead rest) :
    numbers (s.sql.toList ++ rest) = s.index :: numbers rest := by
  obtain ⟨words, hw, hs⟩ := s.exists_words
  rw [hs, String.toList_append, List.append_assoc, numbers_append_of_notMem hw,
    numbers_placeholder_append _ h]

end Site

/-- A text in which sites stand in order. What is between them holds no placeholder and begins
with no digit. -/
inductive Laid : List Site → List Char → Prop
  | done {t : List Char} (ht : '$' ∉ t) (hd : NoDigitAhead t) : Laid [] t
  | site {c : Char} {gap t : List Char} (s : Site) {sites : List Site} (hc : c.isDigit = false)
      (hg : '$' ∉ c :: gap) (ht : Laid sites t) :
      Laid (s :: sites) (c :: gap ++ (s.sql.toList ++ t))

namespace Laid

variable {sites : List Site} {t : List Char}

theorem noDigitAhead (h : Laid sites t) : NoDigitAhead t := by
  cases h with
  | done _ hd => exact hd
  | site s hc _ _ =>
    intro d hd
    obtain rfl := Option.some.inj hd
    exact hc

/-- A text without placeholders may come before. -/
theorem after {c : Char} {cs : List Char} (hc : c.isDigit = false) (hs : '$' ∉ c :: cs)
    (h : Laid sites t) : Laid sites (c :: cs ++ t) := by
  have hd : NoDigitAhead (c :: cs ++ t) := by
    intro d hd
    obtain rfl := Option.some.inj hd
    exact hc
  cases h with
  | done ht _ => exact .done (fun hm => (List.mem_append.mp hm).elim hs ht) hd
  | site s hc' hg ht =>
    rw [← List.append_assoc]
    exact .site s hc (fun hm => (List.mem_append.mp hm).elim hs hg) ht

theorem after_lines {lines : List String} (hl : ∀ line ∈ lines, '$' ∉ line.toList)
    (h : Laid sites t) : Laid sites (Statement.broken lines ++ t) := by
  induction lines with
  | nil => exact h
  | cons line lines ih =>
    have hn : '$' ∉ '\n' :: line.toList := by
      rw [List.mem_cons]
      exact not_or.mpr ⟨by decide, hl line List.mem_cons_self⟩
    have hr := ih fun x hx => hl x (List.mem_cons_of_mem line hx)
    rw [Statement.broken_cons, List.append_assoc]
    exact after (by decide) hn hr

theorem numbers_eq (h : Laid sites t) : numbers t = sites.map Site.index := by
  induction h with
  | done ht _ => exact numbers_of_notMem ht
  | site s hc hg ht ih =>
    rw [numbers_append_of_notMem hg, s.numbers_sql_append ht.noDigitAhead, ih, List.map_cons]

/-- The clauses after the first one, each in its line. -/
theorem clauses (cs : List Clause) (h : Laid sites t) :
    Laid (cs.map .clause ++ sites)
      ((cs.flatMap fun d => "\n  AND ".toList ++ d.sql.toList) ++ t) := by
  induction cs with
  | nil => exact h
  | cons d cs ih =>
    have hn : "\n  AND ".toList = '\n' :: "  AND ".toList := by decide
    have hs := Laid.site (.clause d) (by decide) (show '$' ∉ '\n' :: "  AND ".toList by decide) ih
    rw [List.flatMap_cons, List.map_cons, List.cons_append]
    simpa only [hn, List.append_assoc, Site.sql_clause] using hs

theorem limit (rows : Option Int) (next : Nat) :
    Laid (rows.toList.map (.limit next))
      (Statement.broken (rows.toList.map fun _ => "LIMIT " ++ placeholder next)) := by
  have hd : NoDigitAhead [] := fun _ h => by cases h
  cases rows with
  | none => exact .done List.not_mem_nil hd
  | some rows =>
    have h := Laid.site (.limit next rows) (show '\n'.isDigit = false by decide)
      (show '$' ∉ ['\n'] by decide) (.done List.not_mem_nil hd)
    simpa [Statement.broken, Site.sql] using h

/-- Each site has the placeholders of the sites before it to its left and those of the sites
after it to its right. -/
theorem exists_around (h : Laid sites t) {k : Nat} {s : Site} (hk : sites[k]? = some s) :
    ∃ before after, t = before ++ s.sql.toList ++ after ∧ NoDigitAhead before ∧
      numbers before = (sites.take k).map Site.index ∧
      numbers after = (sites.drop (k + 1)).map Site.index := by
  induction h generalizing k with
  | done _ _ => simp at hk
  | @site c gap t s' sites hc hg ht ih =>
    cases k with
    | zero =>
      obtain rfl := Option.some.inj hk
      refine ⟨c :: gap, t, by simp, ?_, numbers_of_notMem hg, ht.numbers_eq⟩
      intro d hd
      obtain rfl := Option.some.inj hd
      exact hc
    | succ k =>
      obtain ⟨before, after, rfl, hb, hl, hr⟩ := ih hk
      refine ⟨c :: gap ++ (s'.sql.toList ++ before), after, by simp, ?_, ?_, hr⟩
      · intro d hd
        obtain rfl := Option.some.inj hd
        exact hc
      · rw [numbers_append_of_notMem hg, s'.numbers_sql_append hb, hl, List.take_succ_cons,
          List.map_cons]

end Laid

/-! ### The layout of a query -/

namespace Template

/-- The sites of a query in the order of its text. -/
def sites (t : Template) (p : Predicate) (next : Nat) : List Site :=
  p.clauses.map .clause ++ t.limit?.toList.map (.limit next)

theorem map_value_sites (t : Template) (p : Predicate) (next : Nat) :
    (t.sites p next).map Site.value = (t.build p next).binds := by
  simp only [sites, build, Predicate.binds, List.map_append, List.map_map]
  rfl

/-- The text of a query that has a clause is laid out from its sites. -/
theorem laid (t : Template) (c : Clause) (cs : List Clause) (next : Nat) :
    Laid (t.sites ⟨c :: cs⟩ next) (t.build ⟨c :: cs⟩ next).sql.toList := by
  generalize hs : (t.build ⟨c :: cs⟩ next).statement = s
  have hp : s.predicate = ⟨c :: cs⟩ := by rw [← hs, build]
  have hcut : s.cut = t.limit?.toList.map fun _ => "LIMIT " ++ placeholder next := by
    rw [← hs, build, Statement.cut]
    cases t.limit? <;> rfl
  have hend : Laid (t.limit?.toList.map (.limit next))
      (Statement.broken (s.arrangement ++ s.cut)) := by
    rw [Statement.broken_append, hcut]
    exact (Laid.limit _ _).after_lines (hs ▸ t.notMem_arrangement _ _ (.inl rfl))
  have hwhere : Laid (t.sites ⟨c :: cs⟩ next)
      (Statement.broken (s.predicate.sql :: (s.arrangement ++ s.cut))) := by
    have h := Laid.site (.clause c) (by decide) (show '$' ∉ '\n' :: "WHERE ".toList by decide)
      (hend.clauses cs)
    rw [Statement.broken_cons, hp, Predicate.toList_sql, sites, List.map_cons, List.cons_append]
    simpa only [List.cons_append, List.append_assoc, Site.sql_clause] using h
  have hfrom := hwhere.after_lines (List.forall_mem_singleton.mpr s.joins.dollar_notMem_sql)
  obtain ⟨head, hh⟩ := s.exists_toList_selection
  have hd : '$' ∉ 'S' :: head := by
    rw [← hh, ← hs]
    exact t.dollar_notMem_selection _ _
  rw [Query.sql, hs, Statement.toList_sql s (by rw [hp]; simp), hh]
  rw [← Statement.broken_append] at hfrom
  exact hfrom.after (by decide) hd

end Template

/-! ### Numbering -/

theorem length_number (next : Nat) (cs : List Condition) :
    (number next cs).predicate.clauses.length = cs.length := by
  rw [← List.length_map (f := Clause.toCondition), conditions_number]

/-- The sites are numbered without a gap as long as the numbers are words. -/
theorem Template.indices_sites (t : Template) {next : Nat} {cs : List Condition} {sites : List Site}
    (hs : t.sites (number next cs).predicate (number next cs).next = sites)
    (h : next + sites.length ≤ 18446744073709551616) :
    sites.map Site.index = List.range' next sites.length := by
  have hc : (number next cs).predicate.clauses.map (Site.index ∘ Site.clause) =
      (number next cs).predicate.clauses.map Clause.index := rfl
  subst hs
  cases hl : t.limit? with
  | none =>
    simp only [sites, hl, Option.toList_none, List.map_nil, List.append_nil, List.length_map,
      length_number, List.map_map] at h ⊢
    rw [hc, indices_number h]
  | some rows =>
    simp only [sites, hl, Option.toList_some, List.map_cons, List.map_nil, List.length_append,
      List.length_map, length_number, List.length_singleton, List.map_append, List.map_map] at h ⊢
    rw [hc, indices_number (by omega), List.range'_1_concat, Site.index, next_number (by omega)]

section Compiled

variable {s : Filter.Spec} {w : Window} {start : Nat} {n : Numbered} (t : Template)

theorem laid_compile (hn : compile s w start = n) :
    Laid (t.sites n.predicate n.next) (t.build n.predicate n.next).sql.toList := by
  obtain ⟨c, cs, hp⟩ : ∃ c cs, n.predicate = ⟨c :: cs⟩ := by
    rw [← hn]
    exact ⟨_, _, rfl⟩
  rw [hp]
  exact t.laid c cs n.next

theorem length_sites (p : Predicate) (next : Nat) :
    (t.sites p next).length = (t.build p next).binds.length := by
  rw [← t.map_value_sites p next, List.length_map]

/-- A compiled query has the two days of its window to bind at least. -/
theorem two_le_length_binds (hn : compile s w start = n) :
    2 ≤ (t.build n.predicate n.next).binds.length := by
  have hc : n.predicate.clauses.length = 2 + (Condition.ofSpec s).length := by
    rw [← hn, compile, length_number, List.length_append]
    rfl
  simp only [Template.build, Predicate.binds, List.length_append, List.length_map, hc]
  omega

theorem indices_compile (hn : compile s w start = n)
    (hb : max start 1 + (t.build n.predicate n.next).binds.length ≤ 18446744073709551616) :
    (t.sites n.predicate n.next).map Site.index =
      List.range' (max start 1) (t.build n.predicate n.next).binds.length := by
  rw [← length_sites] at hb ⊢
  exact t.indices_sites (by rw [← hn, compile]) hb

theorem greatest_compile (hn : compile s w start = n)
    (hb : max start 1 + (t.build n.predicate n.next).binds.length ≤ 18446744073709551616) :
    Placeholder.greatest (t.build n.predicate n.next).sql =
      max start 1 + (t.build n.predicate n.next).binds.length - 1 := by
  have htwo := two_le_length_binds t hn
  have hi := indices_compile t hn hb
  generalize (t.build n.predicate n.next).binds.length = len at *
  obtain ⟨m, rfl⟩ : ∃ m, len = m + 1 := ⟨len - 1, by omega⟩
  rw [greatest_of_numbers ((laid_compile t hn).numbers_eq.trans hi) (by omega)]
  omega

theorem check_compile_iff (hn : compile s w start = n)
    (hb : max start 1 + (t.build n.predicate n.next).binds.length ≤ 18446744073709551616) :
    Placeholder.check (t.build n.predicate n.next).sql (t.build n.predicate n.next).binds = .ok () ↔
      start ≤ 1 := by
  have htwo := two_le_length_binds t hn
  rw [Placeholder.check, greatest_compile t hn hb]
  split
  · simp only [true_iff]
    omega
  · simp only [reduceCtorEq, false_iff]
    omega

end Compiled

/-- A report binds at most the window, every scalar filter, both hierarchies and the limit. -/
theorem length_binds_report (r : Report) (p : Filter.Params) (w : Window) :
    (r.template.build (compile (r.spec p) w 1).predicate
      (compile (r.spec p) w 1).next).binds.length ≤ 13 := by
  have hs : (r.spec p).scalars.length ≤ 8 ∧ (r.spec p).levels.length ≤ 2 := by
    have h₁ := Filter.Spec.length_scalars_ofParams p
    have h₂ := Filter.Spec.length_levels_ofParams p
    rw [Report.spec]
    split
    · exact ⟨Nat.le_trans (List.length_filter_le _ _) h₁,
        Nat.le_trans (List.length_filter_le _ _) h₂⟩
    · exact ⟨h₁, h₂⟩
  have hl : r.template.limit?.toList.length ≤ 1 := by cases r.template.limit? <;> simp
  have hc : (compile (r.spec p) w 1).predicate.clauses.length =
      2 + ((r.spec p).scalars.length + (r.spec p).levels.length) := by
    rw [compile, length_number, List.length_append, Condition.ofSpec, List.length_append,
      List.length_map, List.length_map]
    rfl
  simp only [Template.build, Predicate.binds, List.length_append, List.length_map, hc]
  omega

/-- The placeholders of a compiled query are numbered in reading order, each stands in the site
of the value bound to it, and the check of binds accepts exactly the numbering from one. -/
theorem placeholders_follow_binds :
    (∀ (s : Filter.Spec) (w : Window) (start : Nat) (t : Template),
      let n := compile s w start
      let q := t.build n.predicate n.next
      let first := max start 1
      first + q.binds.length ≤ 18446744073709551616 →
        numbers q.sql.toList = List.range' first q.binds.length ∧
        (∀ k value, q.binds[k]? = some value →
          ∃ site before after, (t.sites n.predicate n.next)[k]? = some site ∧ site.value = value ∧
            site.index = first + k ∧ q.sql.toList = before ++ site.sql.toList ++ after ∧
            numbers before = List.range' first k ∧
            numbers after = List.range' (first + (k + 1)) (q.binds.length - (k + 1))) ∧
        Placeholder.greatest q.sql = first + q.binds.length - 1 ∧
        (Placeholder.check q.sql q.binds = .ok () ↔ start ≤ 1)) ∧
    ∀ (r : Report) (p : Filter.Params) (today : Date) (q : Query), r.build? p today = some q →
      Placeholder.check q.sql q.binds = .ok () := by
  refine ⟨?_, ?_⟩
  · intro s w start t n q first hb
    have hn : compile s w start = n := rfl
    have hi : (t.sites n.predicate n.next).map Site.index = List.range' first q.binds.length :=
      indices_compile t hn hb
    have hl := laid_compile t hn
    refine ⟨hl.numbers_eq.trans hi, ?_, greatest_compile t hn hb, check_compile_iff t hn hb⟩
    intro k value hk
    have hv : ((t.sites n.predicate n.next).map Site.value)[k]? = some value := by
      rw [t.map_value_sites]
      exact hk
    rw [List.getElem?_map, Option.map_eq_some_iff] at hv
    obtain ⟨site, hs, hv⟩ := hv
    have hk : k < q.binds.length := (List.getElem?_eq_some_iff.mp hk).1
    obtain ⟨before, after, ht, -, hbefore, hafter⟩ := hl.exists_around hs
    refine ⟨site, before, after, hs, hv, ?_, ht, ?_, ?_⟩
    · have hj : ((t.sites n.predicate n.next).map Site.index)[k]? = some site.index := by
        rw [List.getElem?_map, hs, Option.map_some]
      rw [hi, List.getElem?_range' hk, Option.some.injEq] at hj
      omega
    · rw [hbefore, List.map_take, hi, List.take_range'_of_length_ge (Nat.le_of_lt hk)]
    · rw [hafter, List.map_drop, hi, List.drop_range', Nat.mul_one]
  · intro r p today q hq
    obtain ⟨w, -, rfl⟩ := Option.map_eq_some_iff.mp hq
    have hb := length_binds_report r p w
    exact (check_compile_iff r.template rfl (by omega)).mpr (Nat.le_refl 1)

/-- The best five products of a store in a city, numbered from four, and a report whose numbers
begin at one. -/
theorem products_of_city_numbered_from_four :
    (let n := compile ⟨[(.restaurant, "S1")], [⟨.storeCity, "Austin"⟩]⟩
        ⟨⟨2025, 6, 1, by decide, by decide⟩, ⟨2025, 6, 7, by decide, by decide⟩⟩ 4
      let q := (Template.breakdown .productName (some 5)).build n.predicate n.next
      max 4 1 + q.binds.length ≤ 18446744073709551616 ∧ numbers q.sql.toList = [4, 5, 6, 7, 8] ∧
        Placeholder.greatest q.sql = 8 ∧ Placeholder.check q.sql q.binds ≠ .ok ()) ∧
    ∃ q, Report.build? .sales { Filter.Params.none with timePeriod := some "today" }
        ⟨2025, 6, 1, by decide, by decide⟩ = some q ∧ Placeholder.check q.sql q.binds = .ok () := by
  constructor
  · intro n q
    have hb : max 4 1 + q.binds.length ≤ 18446744073709551616 := by decide
    obtain ⟨hn, -, hg, hc⟩ := placeholders_follow_binds.1 _ _ 4 _ hb
    exact ⟨hb, hn, hg, fun h => absurd (hc.mp h) (by decide)⟩
  · obtain ⟨q, hq⟩ : ∃ q,
        Report.build? .sales { Filter.Params.none with timePeriod := some "today" }
          ⟨2025, 6, 1, by decide, by decide⟩ = some q := ⟨_, rfl⟩
    exact ⟨q, hq, placeholders_follow_binds.2 _ _ _ q hq⟩

end Takings
