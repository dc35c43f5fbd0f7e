import Takings.Proofs.CompositeForms
import Takings.Proofs.FilterHistory

/-!
# Conditions of composite filters

What the text of a composite filter does to the query of a report. It adds just one condition, or it
is as if the parameter had been left out: there is no third outcome, however the text is malformed.
-/
namespace Takings

open Takings.Filter

/-- The columns that the filter on a hierarchy can compare. -/
def Filter.Hierarchy.columns : Hierarchy → List Column
  | store => [.storeId, .storeCode, .storeState, .storeCity]
  | product =>
    [.itemCode, .itemDescription, .hierarchyLevel1, .hierarchyLevel2, .hierarchyLevel3,
      .hierarchyLevel4, .familyGroup, .dayPart]

theorem Filter.Level.column_mem_columns (l : Level) : l.column ∈ l.hierarchy.columns := by
  cases l <;> decide

theorem Filter.Composite.Denotes.plain {text : String} {f : LevelFilter}
    (h : Composite.Denotes text f) : Plain f.value := by
  obtain ⟨t, w, key, value, -, -, -, hs, hv⟩ := h
  rw [hv]
  exact hs.plain_trim

/-- The condition of a filter on a level. -/
def Filter.LevelFilter.condition (f : LevelFilter) : Condition :=
  ⟨f.level.column, .equal, .text f.value⟩

/-- The query of a template for conditions. -/
def Template.query (t : Template) (cs : List Condition) : Query :=
  let n := number 1 cs
  t.build n.predicate n.next

namespace Report

variable {r : Report} {p : Params} {h : Hierarchy} {text : String} {today : Date} {w : Window}

theorem build?_setComposite {value : Option String}
    (hw : (Period.ofText p.timePeriod).window? today = some w) :
    r.build? (p.setComposite h value) today =
      some (r.template.query (r.conditions (p.setComposite h value) w)) :=
  build?_of_window (by rw [Params.timePeriod_setComposite, hw])

theorem levelCondition?_setComposite (value : Option String) (k : Hierarchy) :
    r.levelCondition? (p.setComposite h value) k =
      if k = h then
        ((value.bind (Composite.filter? h)).filter fun f =>
          r.excluded? ≠ some f.level.axis).map LevelFilter.condition
      else r.levelCondition? p k := by
  rw [← map_filter?, ← map_filter?, Params.composite_setComposite]
  split
  · rename_i hk
    rw [hk]
    rfl
  · rfl

theorem scalarCondition?_setComposite (value : Option String) (f : Scalar) :
    r.scalarCondition? (p.setComposite h value) f = r.scalarCondition? p f :=
  scalarCondition?_congr (by rw [Params.scalar_setComposite])

theorem conditions_eq (r : Report) (p : Params) (w : Window) : r.conditions p w =
    Condition.ofWindow w ++ Scalar.all.filterMap (r.scalarCondition? p) ++
      ((r.levelCondition? p .store).toList ++ (r.levelCondition? p .product).toList) := by
  have hpair : [Hierarchy.store, .product].filterMap (r.levelCondition? p) =
      (r.levelCondition? p .store).toList ++ (r.levelCondition? p .product).toList := by
    cases hs : r.levelCondition? p .store <;> cases hp : r.levelCondition? p .product <;>
      simp [hs, hp]
  rw [conditions, hpair]
  rfl

/-- The place of a composite filter among the conditions: no text of it changes what is around. -/
theorem exists_conditions_setComposite (r : Report) (p : Params) (h : Hierarchy) (w : Window) :
    ∃ before after, ∀ value, r.conditions (p.setComposite h value) w =
      before ++ (((value.bind (Composite.filter? h)).filter fun f =>
        r.excluded? ≠ some f.level.axis).map LevelFilter.condition).toList ++ after := by
  have hscalars (value : Option String) :
      Scalar.all.filterMap (r.scalarCondition? (p.setComposite h value)) =
        Scalar.all.filterMap (r.scalarCondition? p) := by
    rw [funext (scalarCondition?_setComposite value)]
  cases h with
  | store =>
    refine ⟨Condition.ofWindow w ++ Scalar.all.filterMap (r.scalarCondition? p),
      (r.levelCondition? p .product).toList, ?_⟩
    intro value
    rw [conditions_eq, hscalars, levelCondition?_setComposite, levelCondition?_setComposite,
      if_pos rfl, if_neg (by decide), List.append_assoc _ _ (Option.toList _)]
  | product =>
    refine ⟨Condition.ofWindow w ++ Scalar.all.filterMap (r.scalarCondition? p) ++
      (r.levelCondition? p .store).toList, [], ?_⟩
    intro value
    rw [conditions_eq, hscalars, levelCondition?_setComposite, levelCondition?_setComposite,
      if_neg (by decide), if_pos rfl, List.append_nil, List.append_assoc _ (Option.toList _)]

/-- A text that denotes a filter adds its condition to the reports that keep the axis. -/
theorem build?_of_filter? {f : LevelFilter}
    (hw : (Period.ofText p.timePeriod).window? today = some w)
    (hf : Composite.filter? h text = some f) (r : Report) :
    if r.excluded? = some f.level.axis then
      r.build? (p.setComposite h (some text)) today = r.build? (p.setComposite h none) today
    else ∃ before after,
      r.build? (p.setComposite h none) today = some (r.template.query (before ++ after)) ∧
      r.build? (p.setComposite h (some text)) today =
        some (r.template.query (before ++ ⟨f.level.column, .equal, .text f.value⟩ :: after)) := by
  obtain ⟨before, after, hc⟩ := r.exists_conditions_setComposite p h w
  have homitted := hc none
  have hgiven := hc (some text)
  rw [Option.bind_some, hf] at hgiven
  rw [build?_setComposite hw, build?_setComposite hw, homitted, hgiven]
  split
  · rename_i ha
    simp [ha, Option.filter]
  · rename_i ha
    exact ⟨before, after, by simp, by simp [ha, Option.filter, LevelFilter.condition]⟩

end Report

/-- The text of a composite filter is of no account for any report, or it denotes a filter on its
own hierarchy. That adds just one condition to every report, always in the same place, and to none
that leaves out the filters on its axis. -/
theorem composite_adds_one_condition_or_none {p : Params} {today : Date} {w : Window}
    (hw : (Period.ofText p.timePeriod).window? today = some w) (h : Hierarchy) (text : String) :
    let given := p.setComposite h (some text)
    let omitted := p.setComposite h none
    (∀ r : Report, ∃ q, r.build? omitted today = some q) ∧
    ((¬ ∃ f : LevelFilter, f.level.hierarchy = h ∧ Composite.Denotes text f) ∧
        (∀ r : Report, r.build? given today = r.build? omitted today) ∨
      ∃ f : LevelFilter, f.level.hierarchy = h ∧ Composite.Denotes text f ∧
        f.level.column ∈ h.columns ∧ Plain f.value ∧ ∀ r : Report,
          if r.excluded? = some f.level.axis then r.build? given today = r.build? omitted today
          else ∃ before after,
            r.build? omitted today = some (r.template.query (before ++ after)) ∧
            r.build? given today = some (r.template.query (before ++
              ⟨f.level.column, .equal, .text f.value⟩ :: after))) := by
  intro given omitted
  refine ⟨fun r => ⟨_, Report.build?_setComposite hw⟩, ?_⟩
  cases hf : Composite.filter? h text with
  | none =>
    refine .inl ⟨?_, fun r => Report.build?_setComposite_congr ?_ today⟩
    · rintro ⟨f, hl, hd⟩
      rw [Composite.filter?_eq_some_iff.mpr ⟨hd, hl⟩] at hf
      cases hf
    · rw [Option.bind_some, hf, Option.bind_none]
  | some f =>
    obtain ⟨hd, hl⟩ := Composite.filter?_eq_some_iff.mp hf
    exact .inr ⟨f, hl, hd, hl ▸ f.level.column_mem_columns, hd.plain,
      Report.build?_of_filter? hw hf⟩

/-- A text and the same text truncated: the one adds a condition, and the other none. -/
theorem first_level_or_nothing :
    let day : Date := ⟨2025, 6, 1, by decide, by decide⟩
    let p := { Params.none with timePeriod := some "today", store := some "[\"city\",\"Rome\"]" }
    let given (text : String) := p.setComposite .product (some text)
    (∃ before after,
      Report.build? .summary p day = some (Template.summary.query (before ++ after)) ∧
      Report.build? .summary (given "[\"level1\",\" x\"]") day = some (Template.summary.query
        (before ++ ⟨.hierarchyLevel1, .equal, .text "x"⟩ :: after))) ∧
      ∀ r, Report.build? r (given "[\"level1\",\" x\"") day = r.build? p day := by
  intro day p given
  have hw : (Period.ofText p.timePeriod).window? day = some ⟨day, day⟩ := rfl
  have hfilter (text : String) {f : LevelFilter} (hl : f.level.hierarchy = .product)
      (hd : Composite.Denotes text f) : Composite.filter? .product text = some f :=
    Composite.filter?_eq_some_iff.mpr ⟨hd, hl⟩
  constructor
  · have hf : Composite.filter? .product "[\"level1\",\" x\"]" = some ⟨.productLevel1, "x"⟩ := by
      decide +kernel
    obtain ⟨-, ⟨hn, -⟩ | ⟨f, hl, hd, -, -, h⟩⟩ :=
      composite_adds_one_condition_or_none hw .product "[\"level1\",\" x\"]"
    · obtain ⟨hd, hl⟩ := Composite.filter?_eq_some_iff.mp hf
      exact absurd ⟨_, hl, hd⟩ hn
    · cases hf.symm.trans (hfilter _ hl hd)
      exact h .summary
  · obtain ⟨-, ⟨-, h⟩ | ⟨f, hl, hd, -⟩⟩ :=
      composite_adds_one_condition_or_none hw .product "[\"level1\",\" x\""
    · exact h
    · have hf : Composite.filter? .product "[\"level1\",\" x\"" = none := by decide +kernel
      cases hf.symm.trans (hfilter _ hl hd)

/-- An object is no string and no number, but one in the form of an envelope filters. -/
theorem enveloped_value_filters :
    let day : Date := ⟨2025, 6, 1, by decide, by decide⟩
    let text := "\x7b\"type\":\"level1\",\"value\":" ++
      "\x7b\"$serde_json::private::RawValue\": \"\\\"x\\\"\"\x7d\x7d"
    let p := { Params.none with timePeriod := some "today" }
    (¬ ∃ (t w : Json.Tree) (key : String), t.IsText text.toList ∧ Composite.Holds t key w ∧
      ((∃ s, w = .string s) ∨ ∃ n, w = .number n)) ∧
      ∃ before after,
        Report.build? .summary p day = some (Template.summary.query (before ++ after)) ∧
        Report.build? .summary (p.setComposite .product (some text)) day =
          some (Template.summary.query
            (before ++ ⟨.hierarchyLevel1, .equal, .text "x"⟩ :: after)) := by
  intro day text p
  constructor
  · rintro ⟨t, w, key, ht, hh, hw⟩
    obtain ⟨ks, hp, -⟩ := Composite.parts?_eq_some_iff.mpr hh
    have hobject : ((Json.Tree.read? text.toList).bind Composite.parts?).all
        (fun x => match x.2 with | .object _ => true | _ => false) = true := by decide +kernel
    rw [Json.Tree.read?_eq_some_iff.mpr ht, Option.bind_some, hp] at hobject
    obtain ⟨s, rfl⟩ | ⟨n, rfl⟩ := hw <;> cases hobject
  · have hf : Composite.filter? .product text = some ⟨.productLevel1, "x"⟩ := by decide +kernel
    have hw : (Period.ofText p.timePeriod).window? day = some ⟨day, day⟩ := rfl
    exact Report.build?_of_filter? hw hf .summary

end Takings
