import Takings.Proofs.CanonicalPredicate

/-!
# Full spreads

A breakdown without a limit shows all values of the column that it groups by: no condition is on
that column, the filters on the breakdown's own axis make no difference, and every other active
filter counts.
-/
namespace Takings

open Takings.Filter

/-! ### The axis of a breakdown -/

namespace Grouping

/-- The axis whose filters would narrow the values that a breakdown tells apart. -/
def axis : Grouping → Axis
  | restaurant => .store
  | productName => .productName
  | familyGroup => .familyGroup
  | dayPart => .dayPart
  | saleType => .saleType
  | deliveryChannel => .deliveryChannel
  | pod => .pod

end Grouping

theorem Filter.Scalar.axis_eq_iff {f : Scalar} {g : Grouping} :
    f.axis = g.axis ↔ f.column = g.column := by
  cases f <;> cases g <;> decide

/-- The totals of stores leave out the whole store hierarchy, other breakdowns one column. -/
theorem Filter.Level.axis_eq_iff {l : Level} {g : Grouping} :
    l.axis = g.axis ↔ l.column = g.column ∨ g = .restaurant ∧ l.hierarchy = .store := by
  cases l <;> cases g <;> decide

namespace Report

variable {r : Report} {g : Grouping} {p : Params}

theorem excluded?_of_breakdown (h : r.template = .breakdown g none) :
    r.excluded? = some g.axis := by
  cases r <;> cases h <;> rfl

/-! ### The conditions of a breakdown -/

theorem scalarCondition?_eq_some {f : Scalar} {value : String} (hv : p.scalar f = some value)
    (hs : Selective value) (ha : r.excluded? ≠ some f.axis) :
    r.scalarCondition? p f = some ⟨f.column, .equal, .text (Text.trim value)⟩ := by
  simp [scalarCondition?, hv, hs, ha]

theorem levelCondition?_eq_some {h : Hierarchy} {text : String} {l : LevelFilter}
    (ht : p.composite h = some text) (hl : Composite.filter? h text = some l)
    (ha : r.excluded? ≠ some l.level.axis) :
    r.levelCondition? p h = some ⟨l.level.column, .equal, .text l.value⟩ := by
  simp [levelCondition?, ht, hl, ha]

/-- The condition of a scalar filter is on a column of an axis that is not left out. -/
theorem column_of_scalarCondition? {f : Scalar} {c : Condition}
    (h : r.scalarCondition? p f = some c) : r.excluded? ≠ some f.axis ∧ c.column = f.column := by
  rw [scalarCondition?] at h
  split at h
  · split at h
    · rename_i ha
      cases h
      exact ⟨ha.1, rfl⟩
    · cases h
  · cases h

theorem column_of_levelCondition? {h : Hierarchy} {c : Condition}
    (hc : r.levelCondition? p h = some c) :
    ∃ l : Level, r.excluded? ≠ some l.axis ∧ c.column = l.column := by
  rw [levelCondition?] at hc
  split at hc
  · split at hc
    · rename_i l _ ha
      cases hc
      exact ⟨l.level, ha, rfl⟩
    · cases hc
  · cases hc

/-- A condition is on the day of sale, or it is that of a filter which is not left out. -/
theorem mem_conditions {w : Window} {c : Condition} : c ∈ r.conditions p w ↔
    c ∈ Condition.ofWindow w ∨ (∃ f, r.scalarCondition? p f = some c) ∨
      ∃ h, r.levelCondition? p h = some c := by
  have hh (h : Hierarchy) : h ∈ [Hierarchy.store, .product] := by
    cases h <;> decide
  simp only [conditions, List.mem_append, List.mem_filterMap, Scalar.mem_all, hh, true_and,
    or_assoc]
  rfl

theorem column_ne_of_mem_conditions (hr : r.template = .breakdown g none) {w : Window}
    {c : Condition} (hc : c ∈ r.conditions p w) : c.column ≠ g.column := by
  rcases mem_conditions.mp hc with hc | ⟨f, hf⟩ | ⟨h, hh⟩
  · have hd : c.column = .businessDate := by
      rcases List.mem_cons.mp hc with rfl | hc
      · rfl
      · rw [List.mem_singleton.mp hc]
    rw [hd]
    cases g <;> decide
  · obtain ⟨ha, hcol⟩ := column_of_scalarCondition? hf
    rw [excluded?_of_breakdown hr] at ha
    rw [hcol]
    exact fun he => ha (congrArg some (Scalar.axis_eq_iff.mpr he).symm)
  · obtain ⟨l, ha, hcol⟩ := column_of_levelCondition? hh
    rw [excluded?_of_breakdown hr] at ha
    rw [hcol]
    exact fun he => ha (congrArg some (Level.axis_eq_iff.mpr (.inl he)).symm)

/-! ### Parameters that differ on the axis -/

/-- Parameters of one time period that have the same active filters, apart from those on the axis
that a report leaves out. -/
structure AgreeOffAxis (r : Report) (p p' : Params) : Prop where
  timePeriod : p'.timePeriod = p.timePeriod
  scalars : ∀ f, r.excluded? ≠ some f.axis →
    (p'.scalar f).bind active? = (p.scalar f).bind active?
  composites : ∀ h l, r.excluded? ≠ some l.level.axis →
    ((p'.composite h).bind (Composite.filter? h) = some l ↔
      (p.composite h).bind (Composite.filter? h) = some l)

theorem AgreeOffAxis.conditions_eq {p' : Params} (h : r.AgreeOffAxis p p') :
    r.conditions p' = r.conditions p := by
  apply conditions_congr
  · intro f
    by_cases ha : r.excluded? = some f.axis
    · rw [scalarCondition?, scalarCondition?]
      cases p'.scalar f <;> cases p.scalar f <;> simp [ha]
    · exact scalarCondition?_congr (h.scalars f ha)
  · intro k
    rw [← map_filter?, ← map_filter?]
    congr 1
    ext l
    by_cases ha : r.excluded? = some l.level.axis
    · simp [Option.filter_eq_some_iff, ha]
    · simp [Option.filter_eq_some_iff, ha, h.composites k l ha]

end Report

/-- A breakdown without a limit has no condition on the column that it groups by. Its query is the
same for all parameters that agree off its axis, and each active filter off its axis is there as a
clause. The axis is that column; for totals of stores it is the store hierarchy with it. -/
theorem breakdown_shows_full_spread {r : Report} {g : Grouping}
    (hr : r.template = .breakdown g none) {p : Params} {today : Date} {w : Window}
    (hw : (Period.ofText p.timePeriod).window? today = some w) :
    ∃ q, r.build? p today = some q ∧
      q.statement.group = [.column g.column] ∧
      (∀ c ∈ q.statement.predicate.clauses, c.column ≠ g.column) ∧
      (∀ p', r.AgreeOffAxis p p' → r.build? p' today = some q) ∧
      (∀ f value, p.scalar f = some value → Selective value → r.excluded? ≠ some f.axis →
        ∃ c ∈ q.statement.predicate.clauses,
          c.toCondition = ⟨f.column, .equal, .text (Text.trim value)⟩) ∧
      (∀ h text l, p.composite h = some text → Composite.filter? h text = some l →
        r.excluded? ≠ some l.level.axis →
          ∃ c ∈ q.statement.predicate.clauses,
            c.toCondition = ⟨l.level.column, .equal, .text l.value⟩) ∧
      (∀ f : Scalar, r.excluded? = some f.axis ↔ f.column = g.column) ∧
      ∀ l : Level, r.excluded? = some l.axis ↔
        l.column = g.column ∨ g = .restaurant ∧ l.hierarchy = .store := by
  have hbuild (p' : Params) (ht : p'.timePeriod = p.timePeriod) : r.build? p' today =
      some (r.template.build (number 1 (r.conditions p' w)).predicate
        (number 1 (r.conditions p' w)).next) :=
    Report.build?_of_window (by rw [ht, hw])
  have hmem (c : Condition) (hc : c ∈ r.conditions p w) :
      ∃ d ∈ (number 1 (r.conditions p w)).predicate.clauses, d.toCondition = c := by
    rw [← conditions_number 1 (r.conditions p w)] at hc
    exact List.mem_map.mp hc
  refine ⟨_, hbuild p rfl, ?_, ?_, ?_, ?_, ?_, ?_, ?_⟩
  · rw [hr]
    rfl
  · intro c hc
    have hd : c.toCondition ∈ r.conditions p w := by
      rw [← conditions_number 1 (r.conditions p w)]
      exact List.mem_map_of_mem hc
    exact Report.column_ne_of_mem_conditions hr hd
  · intro p' ha
    rw [hbuild p' ha.timePeriod, ha.conditions_eq]
  · intro f value hv hs ha
    apply hmem
    exact Report.mem_conditions.mpr
      (.inr (.inl ⟨f, Report.scalarCondition?_eq_some hv hs ha⟩))
  · intro h text l ht hl ha
    apply hmem
    exact Report.mem_conditions.mpr
      (.inr (.inr ⟨h, Report.levelCondition?_eq_some ht hl ha⟩))
  · intro f
    rw [Report.excluded?_of_breakdown hr, Option.some_inj, eq_comm]
    exact Scalar.axis_eq_iff
  · intro l
    rw [Report.excluded?_of_breakdown hr, Option.some_inj, eq_comm]
    exact Level.axis_eq_iff

/-- The totals of family groups for a product, asked with a family group and with one that does not
count, and the totals of stores for an owner, asked with a store and with a city. -/
theorem spreads_of_product_and_owner :
    let day : Date := ⟨2025, 6, 1, by decide, by decide⟩
    let p := { Params.none with
      timePeriod := some "today", productId := some " P1", omEmailId := some "om@x.io" }
    let tea := { p with product := some "[\"family_group\", \"Tea\"]" }
    let all := { p with product := some "[\"family_group\", \"all\"]", productId := some "P1" }
    let store := { p with restaurantId := some "S1" }
    let city := { p with store := some "[\"city\", \"Austin\"]" }
    (Period.ofText p.timePeriod).window? day = some ⟨day, day⟩ ∧
      (∃ q, Report.build? .byFamilyGroup tea day = some q ∧
        Report.build? .byFamilyGroup all day = some q ∧
        ∃ c ∈ q.statement.predicate.clauses, c.toCondition = ⟨.itemCode, .equal, .text "P1"⟩) ∧
      ∃ q, Report.build? .byRestaurant store day = some q ∧
        Report.build? .byRestaurant city day = some q ∧
        ∃ c ∈ q.statement.predicate.clauses,
          c.toCondition = ⟨.omEmail, .equal, .text "om@x.io"⟩ := by
  intro day p tea all store city
  have hw : (Period.ofText p.timePeriod).window? day = some ⟨day, day⟩ := rfl
  have htea : (tea.composite .product).bind (Composite.filter? .product) =
      some ⟨.familyGroup, "Tea"⟩ := by decide +kernel
  have hall : (all.composite .product).bind (Composite.filter? .product) = none := by
    decide +kernel
  have hstore : (store.composite .store).bind (Composite.filter? .store) = none := rfl
  have hcity : (city.composite .store).bind (Composite.filter? .store) =
      some ⟨.storeCity, "Austin"⟩ := by decide +kernel
  have hgroups : Report.AgreeOffAxis .byFamilyGroup tea all := by
    refine ⟨rfl, ?_, ?_⟩
    · intro f _
      cases f <;> decide +kernel
    · intro h l ha
      cases h with
      | store => exact Iff.rfl
      | product =>
        rw [htea, hall]
        refine iff_of_false (by simp) ?_
        intro hl
        rw [← Option.some.inj hl] at ha
        exact ha rfl
  have hstores : Report.AgreeOffAxis .byRestaurant store city := by
    refine ⟨rfl, ?_, ?_⟩
    · intro f ha
      cases f with
      | restaurant => exact absurd rfl ha
      | _ => rfl
    · intro h l ha
      cases h with
      | product => exact Iff.rfl
      | store =>
        rw [hcity, hstore]
        refine iff_of_false ?_ (by simp)
        intro hl
        rw [← Option.some.inj hl] at ha
        exact ha rfl
  obtain ⟨q, hq, -, -, hsame, hscalar, -⟩ :=
    breakdown_shows_full_spread (r := .byFamilyGroup) (p := tea) rfl hw
  obtain ⟨q', hq', -, -, hsame', hscalar', -⟩ :=
    breakdown_shows_full_spread (r := .byRestaurant) (p := store) rfl hw
  refine ⟨hw, ⟨q, hq, hsame all hgroups, ?_⟩, q', hq', hsame' city hstores, ?_⟩
  · exact hscalar .productId " P1" rfl (by decide) (by decide)
  · exact hscalar' .omEmail "om@x.io" rfl (by decide) (by decide)

end Takings
