import Takings.Proofs.CanonicalPredicate
import Takings.Proofs.CompositeText
import Takings.Proofs.LookupRows

/-!
# Offered filters

The filter options offer values of columns. A value that is sent back as the parameter of its
filter compares that column with just this value, which is what the rows carry without the white
space around it. Only the word for everything is offered in vain.
-/
namespace Takings

open Json Takings.Filter

/-- A list of values among the filter options. -/
inductive Offer where
  | machines
  | transactionTypes
  | deliveryChannels
  | pods
  | ocEmailIds
  | omEmailIds
  | states
  | cities
  | familyGroups
  | dayParts
  deriving DecidableEq, Repr

namespace Offer

/-- The values that are offered. -/
def values (o : Options) : Offer → List String
  | machines => o.machines
  | transactionTypes => o.transactionTypes
  | deliveryChannels => o.deliveryChannels
  | pods => o.pods
  | ocEmailIds => o.ocEmailIds
  | omEmailIds => o.omEmailIds
  | states => o.states
  | cities => o.cities
  | familyGroups => o.familyGroups
  | dayParts => o.dayParts

/-- The lookup whose rows carry the values. -/
def lookup : Offer → Lookup
  | machines => .machines
  | transactionTypes => .saleTypes
  | deliveryChannels => .deliveryChannels
  | pods => .pods
  | ocEmailIds | omEmailIds | states | cities => .stores
  | familyGroups | dayParts => .products

/-- The names under which rows of the lookup have the values. -/
def names : Offer → List String
  | machines | transactionTypes | deliveryChannels | pods => ["value"]
  | ocEmailIds => ["ocEmailId", "oc_email_id"]
  | omEmailIds => ["omEmailId", "om_email_id"]
  | states => ["state"]
  | cities => ["city"]
  | familyGroups => ["item_family_group"]
  | dayParts => ["item_day_part"]

/-- The place at which rows that are arrays have the values. -/
def place : Offer → Nat
  | machines | transactionTypes | deliveryChannels | pods => 0
  | states | familyGroups => 2
  | cities | dayParts => 3
  | ocEmailIds => 4
  | omEmailIds => 5

/-- The value that is read of a row of the lookup. -/
def raw? (offer : Offer) (row : Json) : Option String :=
  match offer with
  | machines | transactionTypes | deliveryChannels | pods => (readValue row).toOption.join
  | ocEmailIds => (StoreOption.read row).toOption.bind StoreOption.ocEmailId
  | omEmailIds => (StoreOption.read row).toOption.bind StoreOption.omEmailId
  | states => (StoreOption.read row).toOption.bind StoreOption.state
  | cities => (StoreOption.read row).toOption.bind StoreOption.city
  | familyGroups => (ProductOption.read row).toOption.bind ProductOption.familyGroup
  | dayParts => (ProductOption.read row).toOption.bind ProductOption.dayPart

/-- The column whose values are offered. -/
def column : Offer → Column
  | machines => .nodeId
  | transactionTypes => .saleType
  | deliveryChannels => .deliveryChannel
  | pods => .pod
  | ocEmailIds => .ocEmail
  | omEmailIds => .omEmail
  | states => .storeState
  | cities => .storeCity
  | familyGroups => .familyGroup
  | dayParts => .dayPart

/-- The filter that takes a value back, a scalar one or one on a level. -/
def filter : Offer → Scalar ⊕ Level
  | machines => .inl .machine
  | transactionTypes => .inl .saleType
  | deliveryChannels => .inl .deliveryChannel
  | pods => .inl .pod
  | ocEmailIds => .inl .ocEmail
  | omEmailIds => .inl .omEmail
  | states => .inr .storeState
  | cities => .inr .storeCity
  | familyGroups => .inr .familyGroup
  | dayParts => .inr .dayPart

/-- Some row of the lookup has a value in the column. -/
def Carries (offer : Offer) (db : Database) (raw : String) : Prop :=
  ∃ row, offer.lookup.Gives db row ∧ row.cell? offer.names offer.place = some (.str raw)

/-- The value is the only parameter of a request: the parameter of the scalar filter, or, in any
text that holds it with a key of the level, the parameter of the hierarchy. -/
inductive SentBack (offer : Offer) (value : String) : Params → Prop
  | scalar (f : Scalar) (h : offer.filter = .inl f) :
    SentBack offer value (Params.none.setScalar f (some value))
  | composite (l : Level) (h : offer.filter = .inr l) (key text : String) (hk : key ∈ l.keys)
    (ht : Composite.read? text = some (key, value)) :
    SentBack offer value (Params.none.setComposite l.hierarchy (some text))

theorem exists_sentBack (offer : Offer) (value : String) : ∃ p, SentBack offer value p := by
  cases h : offer.filter with
  | inl f => exact ⟨_, .scalar f h⟩
  | inr l =>
    obtain ⟨key, hk⟩ : ∃ key, key ∈ l.keys := by
      cases l <;> exact ⟨_, List.mem_cons_self⟩
    exact ⟨_, .composite l h key _ hk (Composite.read?_text key value)⟩

/-! ### What is offered -/

/-- What is read of a row is what it has in the column. -/
theorem raw?_eq_some_iff {offer : Offer} {row : Json} {raw : String}
    (h : offer.lookup.rowFault? row = none) :
    offer.raw? row = some raw ↔ row.cell? offer.names offer.place = some (.str raw) := by
  cases offer with
  | machines | transactionTypes | deliveryChannels | pods =>
    obtain ⟨x, hx⟩ := fault?_eq_none_iff.mp h
    rw [raw?, hx]
    exact eq_some_iff_of_textOrNull (textOrNull_of_readValue hx)
  | ocEmailIds =>
    obtain ⟨s, hs⟩ := fault?_eq_none_iff.mp h
    obtain ⟨-, -, -, -, hoc, -⟩ := StoreOption.areCells_of_read hs
    rw [raw?, hs]
    exact eq_some_iff_of_textOrNull (Field.textOrNull_of_gets (Field.gets_called.mp hoc))
  | omEmailIds =>
    obtain ⟨s, hs⟩ := fault?_eq_none_iff.mp h
    obtain ⟨-, -, -, -, -, hom, -⟩ := StoreOption.areCells_of_read hs
    rw [raw?, hs]
    exact eq_some_iff_of_textOrNull (Field.textOrNull_of_gets (Field.gets_called.mp hom))
  | states =>
    obtain ⟨s, hs⟩ := fault?_eq_none_iff.mp h
    obtain ⟨-, -, hstate, -⟩ := StoreOption.areCells_of_read hs
    rw [raw?, hs]
    exact eq_some_iff_of_textOrNull (Field.textOrNull_of_gets hstate)
  | cities =>
    obtain ⟨s, hs⟩ := fault?_eq_none_iff.mp h
    obtain ⟨-, -, -, hcity, -⟩ := StoreOption.areCells_of_read hs
    rw [raw?, hs]
    exact eq_some_iff_of_textOrNull (Field.textOrNull_of_gets hcity)
  | familyGroups =>
    obtain ⟨p, hp⟩ := fault?_eq_none_iff.mp h
    obtain ⟨_, _, _, _, -, -, -, hfamily, -⟩ := ProductOption.areCells_of_read hp
    rw [raw?, hp]
    exact eq_some_iff_of_textOrNull (Field.textOrNull_of_gets hfamily)
  | dayParts =>
    obtain ⟨p, hp⟩ := fault?_eq_none_iff.mp h
    obtain ⟨_, _, _, _, -, -, -, -, hpart, -⟩ := ProductOption.areCells_of_read hp
    rw [raw?, hp]
    exact eq_some_iff_of_textOrNull (Field.textOrNull_of_gets hpart)

theorem mem_distinct_map {α : Type} {read : Json → Except DecodeError α} {l : Lookup}
    {db : Database} {xs : List α} (field : α → Option String)
    (hxs : ∀ x, x ∈ xs ↔ ∃ row, l.Gives db row ∧ read row = .ok x) {value : String} :
    value ∈ distinct (xs.map field) ↔
      ∃ raw, (∃ row, l.Gives db row ∧ (read row).toOption.bind field = some raw) ∧
        Text.trim raw = value ∧ value ≠ "" := by
  have hread (row : Json) (raw : String) : (read row).toOption.bind field = some raw ↔
      ∃ x, read row = .ok x ∧ field x = some raw := by
    cases read row <;> simp [Except.toOption]
  rw [mem_distinct]
  apply exists_congr
  intro raw
  apply and_congr_left
  intro _
  simp only [List.mem_map, hxs, hread]
  constructor
  · rintro ⟨x, ⟨row, hg, hr⟩, hf⟩
    exact ⟨row, hg, x, hr, hf⟩
  · rintro ⟨row, hg, x, hr, hf⟩
    exact ⟨x, ⟨row, hg, hr⟩, hf⟩

theorem mem_iff_of_lists {l : Lookup} {db : Database} {texts : List String}
    (h : Options.Lists db l texts) {value : String} :
    value ∈ texts ↔ ∃ raw, (∃ row, l.Gives db row ∧ (readValue row).toOption.join = some raw) ∧
      Text.trim raw = value ∧ value ≠ "" := by
  obtain ⟨values, rfl, hv⟩ := h
  have hm : value ∈ distinct (values.map id) ↔ _ := mem_distinct_map id hv
  rwa [List.map_id] at hm

/-- The offered values are those that are read, without the white space around them and not
blank. -/
theorem mem_values_iff_raw? {db : Database} {o : Options} (h : Options.LoadedFrom db o)
    (offer : Offer) {value : String} : value ∈ offer.values o ↔
      ∃ raw, (∃ row, offer.lookup.Gives db row ∧ offer.raw? row = some raw) ∧
        Text.trim raw = value ∧ value ≠ "" := by
  cases offer with
  | machines => exact mem_iff_of_lists h.machines
  | transactionTypes => exact mem_iff_of_lists h.transactionTypes
  | deliveryChannels => exact mem_iff_of_lists h.deliveryChannels
  | pods => exact mem_iff_of_lists h.pods
  | ocEmailIds => exact mem_distinct_map StoreOption.ocEmailId h.stores
  | omEmailIds => exact mem_distinct_map StoreOption.omEmailId h.stores
  | states => exact mem_distinct_map StoreOption.state h.stores
  | cities => exact mem_distinct_map StoreOption.city h.stores
  | familyGroups => exact mem_distinct_map ProductOption.familyGroup h.products
  | dayParts => exact mem_distinct_map ProductOption.dayPart h.products

/-- The offered values are the carried ones, without the white space around them and not blank. -/
theorem mem_values_iff {db : Database} {o : Options} (ho : (Options.load db).outcome = .ok o)
    (offer : Offer) {value : String} : value ∈ offer.values o ↔
      ∃ raw, offer.Carries db raw ∧ Text.trim raw = value ∧ value ≠ "" := by
  rw [offer.mem_values_iff_raw? (Options.loadedFrom_of_ok ho)]
  refine exists_congr fun raw => and_congr_left fun _ => exists_congr fun row => ?_
  exact and_congr_right fun hg => raw?_eq_some_iff (Options.rowFault?_of_ok ho hg)

/-! ### What is sent back -/

theorem Spec.eq_mk {s : Spec} {scalars : List (Scalar × String)} {levels : List LevelFilter}
    (hs : s.scalars = scalars) (hl : s.levels = levels) : s = ⟨scalars, levels⟩ := by
  rw [← hs, ← hl]

/-- A scalar parameter alone. -/
theorem ofParams_setScalar (f : Scalar) (value : String) :
    Spec.ofParams (Params.none.setScalar f (some value)) =
      ⟨((active? value).map fun v => (f, v)).toList, []⟩ := by
  have hentry (g : Scalar) : Params.entry? (Params.none.setScalar f (some value)) g =
      if g = f then (active? value).map fun v => (f, v) else none := by
    rw [Params.entry?, Params.scalar_setScalar]
    split
    · rename_i hg
      rw [hg, Option.bind_some]
    · cases g <;> rfl
  have hs : (Spec.ofParams (Params.none.setScalar f (some value))).scalars =
      ((active? value).map fun v => (f, v)).toList := by
    rw [Spec.scalars_ofParams, funext hentry]
    cases f <;> cases active? value <;> rfl
  have hl : (Spec.ofParams (Params.none.setScalar f (some value))).levels = [] := by
    rw [Spec.levels_ofParams]
    cases f <;> rfl
  exact Spec.eq_mk hs hl

/-- A composite parameter alone. -/
theorem ofParams_setComposite (h : Hierarchy) (text : String) :
    Spec.ofParams (Params.none.setComposite h (some text)) =
      ⟨[], (Composite.filter? h text).toList⟩ := by
  have hs : (Spec.ofParams (Params.none.setComposite h (some text))).scalars = [] := by
    rw [Spec.scalars_ofParams]
    cases h <;> rfl
  have hl : (Spec.ofParams (Params.none.setComposite h (some text))).levels =
      (Composite.filter? h text).toList := by
    refine Spec.levels_of_composite (by rw [Params.composite_setComposite, if_pos rfl]) ?_
    intro k hk
    rw [Params.composite_setComposite, if_neg hk]
    cases k <;> rfl
  exact Spec.eq_mk hs hl

theorem column_eq (offer : Offer) :
    offer.filter.elim Scalar.column Level.column = offer.column := by
  cases offer <;> rfl

/-- A value that is sent back is compared with the offered column, if it is active. -/
theorem conditions_of_sentBack {offer : Offer} {value : String} {p : Params}
    (h : SentBack offer value p) (w : Window) (start : Nat) :
    (compile (Spec.ofParams p) w start).predicate.clauses.map Clause.toCondition =
      Condition.ofWindow w ++
        ((active? value).map fun v => (⟨offer.column, .equal, .text v⟩ : Condition)).toList := by
  have hs : Condition.ofSpec (Spec.ofParams p) =
      ((active? value).map fun v => (⟨offer.column, .equal, .text v⟩ : Condition)).toList := by
    have hc := offer.column_eq
    cases h with
    | scalar f hf =>
      rw [hf] at hc
      rw [ofParams_setScalar, ← hc]
      cases active? value <;> rfl
    | composite l hl key text hk ht =>
      rw [hl] at hc
      rw [ofParams_setComposite,
        Composite.filter?_of_read? ht (Level.ofKey?_eq_some_iff.mpr ⟨rfl, hk⟩), ← hc]
      cases active? value <;> rfl
  rw [compile, conditions_number, hs]

/-- An offered value is active unless it is the word for everything. -/
theorem active?_of_trim {raw value : String} (h : Text.trim raw = value) (hn : value ≠ "") :
    active? value = if Text.sameLetters value "all" then none else some value := by
  have ht : Text.trim value = value := by
    rw [← h, Text.trim_trim]
  have he : value.isEmpty = false := by simp [hn]
  rw [active?, isActive, ht, he]
  cases Text.sameLetters value "all" <;> rfl

end Offer

/-- Every offered value is what some row carries without the white space around it. Sent back in
any form it is the only condition beside the window: its column is compared with just this value.
The word for everything, in letters of any case, makes no condition. -/
theorem offered_value_filters {db : Database} {o : Options} {offer : Offer} {value : String}
    (h : (Options.load db).outcome = .ok o) (hv : value ∈ offer.values o) :
    (∃ raw, offer.Carries db raw ∧ Text.trim raw = value) ∧ (∃ p, offer.SentBack value p) ∧
      ∀ p, offer.SentBack value p → ∀ w start,
        (compile (Spec.ofParams p) w start).predicate.clauses.map Clause.toCondition =
          Condition.ofWindow w ++
            if Text.sameLetters value "all" then [] else [⟨offer.column, .equal, .text value⟩] := by
  obtain ⟨raw, hc, ht, hn⟩ := (offer.mem_values_iff h).mp hv
  refine ⟨⟨raw, hc, ht⟩, offer.exists_sentBack value, ?_⟩
  intro p hp w start
  rw [Offer.conditions_of_sentBack hp, Offer.active?_of_trim ht hn]
  split <;> rfl

/-- A city with white space around it is offered without, and filters stores by what is offered. -/
theorem padded_city_filters :
    let day : Date := ⟨2025, 6, 1, by decide, by decide⟩
    let row : Json := .obj [("city", .str " Austin "), ("store_id", .str "S1")]
    let db : Database := fun c => if c = Lookup.stores.call then .ok [row] else .ok []
    let p := Params.none.setComposite .store (some (Composite.text "city" "Austin"))
    ∃ o, (Options.load db).outcome = .ok o ∧ "Austin" ∈ Offer.values o .cities ∧
      (compile (Spec.ofParams p) ⟨day, day⟩ 1).predicate.clauses.map Clause.toCondition =
        Condition.ofWindow ⟨day, day⟩ ++ [⟨.storeCity, .equal, .text "Austin"⟩] := by
  intro day row db p
  obtain ⟨o, ho⟩ : ∃ o, (Options.load db).outcome = .ok o := ⟨_, rfl⟩
  have hcarries : Offer.cities.Carries db " Austin " :=
    ⟨row, ⟨[row], rfl, List.mem_cons_self⟩, rfl⟩
  have hv : "Austin" ∈ Offer.values o .cities :=
    (Offer.cities.mem_values_iff ho).mpr
      ⟨" Austin ", hcarries, by decide, by decide⟩
  have hp : Offer.cities.SentBack "Austin" p :=
    .composite .storeCity rfl "city" _ (by decide) (Composite.read?_text _ _)
  exact ⟨o, ho, hv, (offered_value_filters ho hv).2.2 p hp _ _⟩

/-- A machine called `all` is offered but makes no condition, and one with white space around its
name is compared with a text that no row carries. -/
theorem offered_in_vain :
    let rows : List Json := [.obj [("value", .str "all")], .obj [("value", .str " M1 ")]]
    let db : Database := fun c => if c = Lookup.machines.call then .ok rows else .ok []
    let sent (value : String) := Params.none.setScalar .machine (some value)
    ∃ o, (Options.load db).outcome = .ok o ∧ "all" ∈ o.machines ∧ "M1" ∈ o.machines ∧
      (∀ w start, (compile (Spec.ofParams (sent "all")) w start).predicate.clauses.map
        Clause.toCondition = Condition.ofWindow w) ∧
      (∀ w start, (compile (Spec.ofParams (sent "M1")) w start).predicate.clauses.map
        Clause.toCondition = Condition.ofWindow w ++ [⟨.nodeId, .equal, .text "M1"⟩]) ∧
      ¬ Offer.machines.Carries db "M1" := by
  intro rows db sent
  obtain ⟨o, ho⟩ : ∃ o, (Options.load db).outcome = .ok o := ⟨_, rfl⟩
  have hoffered {value raw : String} (hr : Offer.machines.Carries db raw)
      (ht : Text.trim raw = value ∧ value ≠ "") : value ∈ o.machines :=
    (Offer.machines.mem_values_iff ho).mpr ⟨raw, hr, ht⟩
  have hcarries {raw : String} : Offer.machines.Carries db raw ↔ raw = "all" ∨ raw = " M1 " := by
    have hgives (row : Json) : Offer.machines.lookup.Gives db row ↔ row ∈ rows := by
      simp [Lookup.Gives, Offer.lookup, db]
    constructor
    · rintro ⟨row, hg, hr⟩
      rw [hgives, List.mem_cons, List.mem_singleton] at hg
      rcases hg with rfl | rfl
      · exact .inl (Json.str.inj (Option.some.inj hr)).symm
      · exact .inr (Json.str.inj (Option.some.inj hr)).symm
    · rintro (rfl | rfl)
      · exact ⟨_, (hgives _).mpr List.mem_cons_self, rfl⟩
      · exact ⟨_, (hgives _).mpr (List.mem_cons_of_mem _ List.mem_cons_self), rfl⟩
  have hall : active? "all" = none := by decide
  have hone : active? "M1" = some "M1" := by decide
  have hsent (value : String) : Offer.machines.SentBack value (sent value) := .scalar .machine rfl
  refine ⟨o, ho, hoffered (hcarries.mpr (.inl rfl)) (by decide),
    hoffered (hcarries.mpr (.inr rfl)) (by decide), ?_, ?_, ?_⟩
  · intro w start
    rw [Offer.conditions_of_sentBack (hsent "all"), hall]
    exact List.append_nil _
  · intro w start
    rw [Offer.conditions_of_sentBack (hsent "M1"), hone]
    rfl
  · rw [hcarries]
    decide

end Takings
