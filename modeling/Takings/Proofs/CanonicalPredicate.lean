import Takings.Proofs.FilterSpec
import Takings.Report.Catalogue

/-!
# The canonical predicate

All reports filter by one list of conditions: the window, the scalar filters in their order and
the filters on the two hierarchies. A report only leaves out what is on its own axis, and a
parameter that selects nothing counts as absent.
-/
namespace Takings

open Takings.Filter

/-! ### The list of conditions -/

namespace Filter

/-- A value selects something: without the white space around it, it is neither empty nor the word
`all` in letters of any case. -/
def Selective (value : String) : Prop :=
  Text.trim value ≠ "" ∧ (Text.trim value).toList.map Char.toLower ≠ ['a', 'l', 'l']

instance (value : String) : Decidable (Selective value) :=
  inferInstanceAs (Decidable (_ ∧ _))

theorem isActive_iff {value : String} : isActive value = true ↔ Selective value := by
  simp [isActive, Selective, Text.sameLetters]

theorem active?_eq (value : String) :
    active? value = if Selective value then some (Text.trim value) else none := by
  simp only [active?, isActive_iff]

theorem active?_pad {before after : String} (hb : ∀ c ∈ before.toList, Text.isBlank c = true)
    (ha : ∀ c ∈ after.toList, Text.isBlank c = true) (value : String) :
    active? (before ++ value ++ after) = active? value := by
  rw [active?, active?, isActive, isActive, Text.trim_pad hb ha]

theorem Composite.filter?_of_not_selective {value : String} (h : ¬ Selective value)
    (k : Hierarchy) : Composite.filter? k value = none := by
  rw [← isActive_iff, Bool.not_eq_true] at h
  rw [Composite.filter?, h]
  rfl

end Filter

namespace Report

variable (r : Report) (p : Params)

/-- The condition that a scalar parameter adds to a report. -/
def scalarCondition? (f : Scalar) : Option Condition :=
  match p.scalar f with
  | some value =>
    if r.excluded? ≠ some f.axis ∧ Selective value
    then some ⟨f.column, .equal, .text (Text.trim value)⟩
    else none
  | none => none

/-- The condition that a composite parameter adds to a report. -/
def levelCondition? (h : Hierarchy) : Option Condition :=
  match (p.composite h).bind (Composite.filter? h) with
  | some l =>
    if r.excluded? ≠ some l.level.axis then some ⟨l.level.column, .equal, .text l.value⟩ else none
  | none => none

/-- The conditions of a report for the days of a window, in order. -/
def conditions (w : Window) : List Condition :=
  [⟨.businessDate, .atLeast, .date w.first⟩, ⟨.businessDate, .atMost, .date w.last⟩] ++
    Scalar.all.filterMap (r.scalarCondition? p) ++
      [Hierarchy.store, .product].filterMap (r.levelCondition? p)

/-- A report keeps the filters that are not on its axis. -/
theorem spec_eq : r.spec p =
    ⟨(Spec.ofParams p).scalars.filter fun e => r.excluded? ≠ some e.1.axis,
      (Spec.ofParams p).levels.filter fun l => r.excluded? ≠ some l.level.axis⟩ := by
  rw [spec]
  cases r.excluded? with
  | none => rw [List.filter_eq_self.mpr (by simp), List.filter_eq_self.mpr (by simp)]
  | some a => simp [Spec.without, eq_comm]

theorem map_entry? (f : Scalar) :
    ((p.entry? f).filter fun e => r.excluded? ≠ some e.1.axis).map
      (fun (f, v) => (⟨f.column, .equal, .text v⟩ : Condition)) = r.scalarCondition? p f := by
  rw [Params.entry?, scalarCondition?]
  cases p.scalar f with
  | none => rfl
  | some value =>
    rw [Option.bind_some, active?_eq]
    by_cases hs : Selective value <;> by_cases ha : r.excluded? = some f.axis <;>
      simp [hs, ha, Option.filter]

theorem map_filter? (h : Hierarchy) :
    (((p.composite h).bind (Composite.filter? h)).filter fun l =>
        r.excluded? ≠ some l.level.axis).map
      (fun l => (⟨l.level.column, .equal, .text l.value⟩ : Condition)) =
        r.levelCondition? p h := by
  rw [levelCondition?]
  cases (p.composite h).bind (Composite.filter? h) with
  | none => rfl
  | some l => by_cases ha : r.excluded? = some l.level.axis <;> simp [ha, Option.filter]

theorem ofSpec_spec (w : Window) :
    Condition.ofWindow w ++ Condition.ofSpec (r.spec p) = r.conditions p w := by
  have hscalars : ((r.spec p).scalars.map fun (f, v) => (⟨f.column, .equal, .text v⟩ : Condition)) =
      Scalar.all.filterMap (r.scalarCondition? p) := by
    rw [spec_eq, Spec.scalars_ofParams, List.filter_filterMap, List.map_filterMap]
    congr 1
    funext f
    exact r.map_entry? p f
  have hlevels : ((r.spec p).levels.map fun l =>
      (⟨l.level.column, .equal, .text l.value⟩ : Condition)) =
        [Hierarchy.store, .product].filterMap (r.levelCondition? p) := by
    rw [spec_eq, Spec.levels_ofParams, List.filter_filterMap, List.map_filterMap]
    congr 1
    funext h
    exact r.map_filter? p h
  rw [Condition.ofSpec, hscalars, hlevels, conditions, List.append_assoc]
  rfl

/-- The query of a report is its template over its conditions. -/
theorem build?_eq (today : Date) :
    r.build? p today = ((Period.ofText p.timePeriod).window? today).map fun w =>
      let n := number 1 (r.conditions p w)
      r.template.build n.predicate n.next := by
  rw [build?]
  congr 1
  funext w
  rw [← ofSpec_spec, compile]
  rfl

theorem build?_of_window {r : Report} {p : Params} {today : Date} {w : Window}
    (hw : (Period.ofText p.timePeriod).window? today = some w) :
    r.build? p today = some (r.template.build (number 1 (r.conditions p w)).predicate
      (number 1 (r.conditions p w)).next) := by
  rw [build?_eq, hw]
  rfl

/-! ### Parameters that make the same query -/

variable {r p} {r' : Report} {p' : Params}

theorem conditions_congr (hs : ∀ f, r.scalarCondition? p f = r'.scalarCondition? p' f)
    (hl : ∀ h, r.levelCondition? p h = r'.levelCondition? p' h) :
    r.conditions p = r'.conditions p' := by
  funext w
  rw [conditions, conditions, funext hs, funext hl]

/-- Reports that leave nothing out have the same conditions. -/
theorem conditions_of_excluded?_none (h : r.excluded? = none) (h' : r'.excluded? = none) :
    r.conditions p = r'.conditions p := by
  apply conditions_congr
  · intro f
    rw [scalarCondition?, scalarCondition?, h, h']
  · intro k
    rw [levelCondition?, levelCondition?, h, h']

theorem scalarCondition?_congr {f : Scalar}
    (h : (p.scalar f).bind active? = (p'.scalar f).bind active?) :
    r.scalarCondition? p f = r.scalarCondition? p' f := by
  rw [← map_entry?, ← map_entry?, Params.entry?, Params.entry?, h]

theorem levelCondition?_congr {h : Hierarchy}
    (hl : (p.composite h).bind (Composite.filter? h) =
      (p'.composite h).bind (Composite.filter? h)) :
    r.levelCondition? p h = r.levelCondition? p' h := by
  rw [levelCondition?, levelCondition?, hl]

theorem build?_congr (ht : p.timePeriod = p'.timePeriod)
    (hs : ∀ f, (p.scalar f).bind active? = (p'.scalar f).bind active?)
    (hl : ∀ h, (p.composite h).bind (Composite.filter? h) =
      (p'.composite h).bind (Composite.filter? h)) (today : Date) :
    r.build? p today = r.build? p' today := by
  have hc : r.conditions p = r.conditions p' := by
    apply conditions_congr
    · intro f
      exact scalarCondition?_congr (hs f)
    · intro h
      exact levelCondition?_congr (hl h)
  simp only [build?_eq, ht, hc]

end Report

namespace Filter.Params

/-- Gives the parameter of a scalar filter another value. -/
def setScalar (p : Params) (f : Scalar) (value : Option String) : Params :=
  match f with
  | .restaurant => { p with restaurantId := value }
  | .productId => { p with productId := value }
  | .machine => { p with machineId := value }
  | .saleType => { p with transactionType := value }
  | .deliveryChannel => { p with deliveryChannel := value }
  | .pod => { p with pod := value }
  | .ocEmail => { p with ocEmailId := value }
  | .omEmail => { p with omEmailId := value }

/-- Gives the parameter of a composite filter another value. -/
def setComposite (p : Params) (h : Hierarchy) (value : Option String) : Params :=
  match h with
  | .store => { p with store := value }
  | .product => { p with product := value }

variable (p : Params) (value : Option String)

theorem scalar_setScalar (f g : Scalar) :
    (p.setScalar f value).scalar g = if g = f then value else p.scalar g := by
  cases f <;> cases g <;> rfl

theorem composite_setScalar (f : Scalar) (h : Hierarchy) :
    (p.setScalar f value).composite h = p.composite h := by
  cases f <;> cases h <;> rfl

theorem timePeriod_setScalar (f : Scalar) : (p.setScalar f value).timePeriod = p.timePeriod := by
  cases f <;> rfl

theorem composite_setComposite (h k : Hierarchy) :
    (p.setComposite h value).composite k = if k = h then value else p.composite k := by
  cases h <;> cases k <;> rfl

theorem scalar_setComposite (h : Hierarchy) (f : Scalar) :
    (p.setComposite h value).scalar f = p.scalar f := by
  cases h <;> cases f <;> rfl

theorem timePeriod_setComposite (h : Hierarchy) :
    (p.setComposite h value).timePeriod = p.timePeriod := by
  cases h <;> rfl

end Filter.Params

namespace Report

variable {r : Report} {p : Params} {value value' : Option String}

theorem build?_setScalar_congr {f : Scalar} (h : value.bind active? = value'.bind active?)
    (today : Date) :
    r.build? (p.setScalar f value) today = r.build? (p.setScalar f value') today := by
  apply build?_congr
  · rw [Params.timePeriod_setScalar, Params.timePeriod_setScalar]
  · intro g
    rw [Params.scalar_setScalar, Params.scalar_setScalar]
    split
    · exact h
    · rfl
  · intro k
    rw [Params.composite_setScalar, Params.composite_setScalar]

theorem build?_setComposite_congr {h : Hierarchy}
    (hl : value.bind (Composite.filter? h) = value'.bind (Composite.filter? h)) (today : Date) :
    r.build? (p.setComposite h value) today = r.build? (p.setComposite h value') today := by
  apply build?_congr
  · rw [Params.timePeriod_setComposite, Params.timePeriod_setComposite]
  · intro f
    rw [Params.scalar_setComposite, Params.scalar_setComposite]
  · intro k
    rw [Params.composite_setComposite, Params.composite_setComposite]
    split
    · rename_i hk
      rw [hk]
      exact hl
    · rfl

end Report

/-- Every report filters by one canonical list of conditions and binds their values, then its
limit. Reports that leave nothing out share the predicate; a parameter that selects nothing counts
as absent, and white space around a scalar value does not count. -/
theorem predicate_canonical {r : Report} {p : Params} {today : Date} {w : Window}
    (hw : (Period.ofText p.timePeriod).window? today = some w) :
    ∃ q, r.build? p today = some q ∧
      q.statement.predicate.clauses.map Clause.toCondition = r.conditions p w ∧
      q.binds = (r.conditions p w).map Condition.value ++ r.template.limit?.toList.map .int ∧
      (∀ r' : Report, r.excluded? = none → r'.excluded? = none →
        ∃ q', r'.build? p today = some q' ∧
          q'.statement.predicate.sql = q.statement.predicate.sql ∧
          q'.statement.predicate.binds = q.statement.predicate.binds) ∧
      (∀ f value, ¬ Selective value →
        r.build? (p.setScalar f (some value)) today = r.build? (p.setScalar f none) today) ∧
      (∀ h value, ¬ Selective value ∨ Composite.filter? h value = none →
        r.build? (p.setComposite h (some value)) today =
          r.build? (p.setComposite h none) today) ∧
      ∀ f (before value after : String), (∀ c ∈ before.toList, Text.isBlank c = true) →
        (∀ c ∈ after.toList, Text.isBlank c = true) →
        r.build? (p.setScalar f (some (before ++ value ++ after))) today =
          r.build? (p.setScalar f (some value)) today := by
  have hbuild (r : Report) := Report.build?_of_window (r := r) hw
  refine ⟨_, hbuild r, conditions_number 1 _, ?_, ?_, ?_, ?_, ?_⟩
  · rw [Template.build, binds_number]
  · intro r' h h'
    refine ⟨_, hbuild r', ?_, ?_⟩
    · rw [Template.build, Template.build, Report.conditions_of_excluded?_none h h']
    · rw [Template.build, Template.build, Report.conditions_of_excluded?_none h h']
  · intro f value h
    apply Report.build?_setScalar_congr
    rw [Option.bind_some, active?_eq, if_neg h]
    rfl
  · intro h value hn
    apply Report.build?_setComposite_congr
    rw [Option.bind_some]
    exact hn.elim (fun hs => Composite.filter?_of_not_selective hs h) id
  · intro f before value after hb ha
    apply Report.build?_setScalar_congr
    rw [Option.bind_some, Option.bind_some, active?_pad hb ha]

/-- A store and a city in padded letters, a pod that is not selective, and a family group, which
the totals of the family groups leave out. -/
theorem family_groups_of_city :
    let day : Date := ⟨2025, 6, 1, by decide, by decide⟩
    let p := { Params.none with
      timePeriod := some "today", restaurantId := some "\t S1 ", pod := some " aLL"
      store := some "[\"city\", \" Austin\"]", product := some "[\"family_group\", \"Tea\"]" }
    (Period.ofText p.timePeriod).window? day = some ⟨day, day⟩ ∧
      (∃ q, Report.build? .byFamilyGroup p day = some q ∧
        q.statement.predicate.clauses.map Clause.toCondition =
          [⟨.businessDate, .atLeast, .date day⟩, ⟨.businessDate, .atMost, .date day⟩,
            ⟨.storeId, .equal, .text "S1"⟩, ⟨.storeCity, .equal, .text "Austin"⟩]) ∧
      (∃ q q', Report.build? .byProduct p day = some q ∧ Report.build? .summary p day = some q' ∧
        q'.statement.predicate.sql = q.statement.predicate.sql ∧
        q'.statement.predicate.binds = q.statement.predicate.binds) ∧
      Report.build? .byProduct (p.setScalar .pod (some "All ")) day =
        Report.build? .byProduct (p.setScalar .pod none) day ∧
      Report.build? .byProduct (p.setComposite .store (some "")) day =
        Report.build? .byProduct (p.setComposite .store none) day ∧
      Report.build? .byProduct (p.setScalar .pod (some (" " ++ "P1" ++ "\t"))) day =
        Report.build? .byProduct (p.setScalar .pod (some "P1")) day := by
  intro day p
  have hw : (Period.ofText p.timePeriod).window? day = some ⟨day, day⟩ := rfl
  obtain ⟨q, hq, hc, -⟩ := predicate_canonical (r := .byFamilyGroup) hw
  obtain ⟨q', hq', -, -, hshare, hscalar, hcomposite, hpad⟩ :=
    predicate_canonical (r := .byProduct) hw
  obtain ⟨q'', hq'', hsql, hbinds⟩ := hshare .summary rfl rfl
  refine ⟨hw, ⟨q, hq, hc.trans (by decide +kernel)⟩, ⟨q', q'', hq', hq'', hsql, hbinds⟩, ?_, ?_, ?_⟩
  · exact hscalar .pod "All " (by decide)
  · exact hcomposite .store "" (.inl (by decide))
  · exact hpad .pod " " "P1" "\t" (List.all_eq_true.mp (by decide))
      (List.all_eq_true.mp (by decide))

end Takings
