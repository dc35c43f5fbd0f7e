import Takings.Options

/-!
# Lookups

Loading the filter options fails exactly if one of the lookups does, with the failure of the first
one. Options that are loaded are those that the rows of the lookups carry.
-/
namespace Takings

open Json

section Rows

variable {α : Type} {what : String} {read : Json → Except DecodeError α} {rows : List Json}

/-- Why a value could not be read. -/
def fault? : Except DecodeError α → Option DecodeError
  | .error e => some e
  | .ok _ => none

theorem fault?_eq_none_iff {x : Except DecodeError α} : fault? x = none ↔ ∃ a, x = .ok a := by
  cases x <;> simp [fault?]

theorem readRows_of_fault {e : DecodeError}
    (h : rows.findSome? (fun row => fault? (read row)) = some e) :
    readRows what read rows = .error (.query ("unexpected " ++ what ++ ": " ++ e.message)) := by
  induction rows with
  | nil => cases h
  | cons row rows ih =>
    rw [readRows, List.mapM_cons]
    cases hr : read row with
    | error f =>
      simp only [List.findSome?_cons, hr, fault?, Option.some.injEq] at h
      rw [h]
      rfl
    | ok a =>
      simp only [List.findSome?_cons, hr, fault?] at h
      have hrest := ih h
      rw [readRows] at hrest
      rw [hrest]
      rfl

/-- Rows without a fault are all read, and nothing else is. -/
theorem readRows_of_no_fault (h : rows.findSome? (fun row => fault? (read row)) = none) :
    ∃ xs, readRows what read rows = .ok xs ∧ ∀ x, x ∈ xs ↔ ∃ row ∈ rows, read row = .ok x := by
  induction rows with
  | nil => exact ⟨[], rfl, by simp⟩
  | cons row rows ih =>
    rw [List.findSome?_cons] at h
    cases hr : read row with
    | error f =>
      rw [hr] at h
      cases h
    | ok a =>
      rw [hr] at h
      obtain ⟨xs, hxs, hm⟩ := ih h
      refine ⟨a :: xs, ?_, ?_⟩
      · rw [readRows] at hxs ⊢
        rw [List.mapM_cons, hr, hxs]
        rfl
      · intro x
        simp [hm, hr, eq_comm]

end Rows

namespace Run

variable {α β : Type}

@[simp] theorem outcome_bind (r : Run α) (next : α → Run β) :
    (r >>= next).outcome = r.outcome.bind fun a => (next a).outcome := by
  show (r.andThen next).outcome = _
  rw [andThen]
  cases r.outcome <;> rfl

theorem calls_bind_ne_nil {r : Run α} (h : r.calls ≠ []) (next : α → Run β) :
    (r >>= next).calls ≠ [] := by
  show (r.andThen next).calls ≠ []
  cases ho : r.outcome with
  | error e => rwa [calls_andThen_of_error ho]
  | ok a =>
    rw [calls_andThen_of_ok ho]
    exact List.append_ne_nil_of_left_ne_nil h _

/-- A run that goes well had every call answered. -/
def Answered (db : Database) (r : Run α) : Prop :=
  ∀ a, r.outcome = .ok a → ∀ c ∈ r.calls, ∃ rows, db c = .ok rows

theorem answered_query (db : Database) (c : Call) : (query db c).Answered db := by
  intro rows h d hd
  obtain rfl := List.mem_singleton.mp hd
  exact ⟨rows, h⟩

theorem answered_of_calls_nil {db : Database} {r : Run α} (h : r.calls = []) : r.Answered db := by
  intro a _ c hc
  rw [h] at hc
  cases hc

theorem Answered.bind {db : Database} {r : Run α} {next : α → Run β} (hr : r.Answered db)
    (hn : ∀ a, (next a).Answered db) : (r >>= next).Answered db := by
  intro b h c hc
  rw [outcome_bind] at h
  cases ho : r.outcome with
  | error e =>
    rw [ho] at h
    cases h
  | ok a =>
    rw [ho] at h
    have hs : (r >>= next).calls = r.calls ++ (next a).calls := calls_andThen_of_ok ho next
    rw [hs] at hc
    rcases List.mem_append.mp hc with hc | hc
    · exact hr a ho c hc
    · exact hn a b h c hc

end Run

namespace Lookup

/-- The fault of a row that a lookup cannot read. -/
def rowFault? (l : Lookup) (row : Json) : Option DecodeError :=
  match l with
  | stores => fault? (StoreOption.read row)
  | products => fault? (ProductOption.read row)
  | machines | saleTypes | deliveryChannels | pods => fault? (readValue row)

/-- Why a lookup fails: its query does, or its first row that cannot be read. -/
def failure? (l : Lookup) (db : Database) : Option Failure :=
  match db l.call with
  | .error e => some e
  | .ok rows =>
    (rows.findSome? l.rowFault?).map fun e =>
      .query ("unexpected " ++ l.rowTitle ++ ": " ++ e.message)

/-- A row that a database gives for a lookup. -/
def Gives (l : Lookup) (db : Database) (row : Json) : Prop :=
  ∃ rows, db l.call = .ok rows ∧ row ∈ rows

variable {α : Type} {l : Lookup} {read : Json → Except DecodeError α} {db : Database}

theorem calls_fetch_ne_nil : (l.fetch read db).calls ≠ [] :=
  Run.calls_bind_ne_nil (List.cons_ne_nil _ _) _

theorem outcome_fetch_of_failure (hl : l.rowFault? = fun row => fault? (read row)) {f : Failure}
    (h : l.failure? db = some f) : (l.fetch read db).outcome = .error f := by
  rw [fetch, Run.outcome_bind]
  show (db l.call).bind (fun rows => readRows l.rowTitle read rows) = .error f
  rw [failure?] at h
  cases hdb : db l.call with
  | error e =>
    rw [hdb] at h
    cases h
    rfl
  | ok rows =>
    rw [hdb, hl] at h
    obtain ⟨e, he, rfl⟩ := Option.map_eq_some_iff.mp h
    exact readRows_of_fault he

theorem outcome_fetch_of_no_failure (hl : l.rowFault? = fun row => fault? (read row))
    (h : l.failure? db = none) :
    ∃ xs, (l.fetch read db).outcome = .ok xs ∧
      ∀ x, x ∈ xs ↔ ∃ row, l.Gives db row ∧ read row = .ok x := by
  rw [fetch, Run.outcome_bind]
  show ∃ xs, (db l.call).bind (fun rows => readRows l.rowTitle read rows) = .ok xs ∧ _
  rw [failure?] at h
  cases hdb : db l.call with
  | error e =>
    rw [hdb] at h
    cases h
  | ok rows =>
    rw [hdb, hl] at h
    obtain ⟨xs, hxs, hm⟩ := readRows_of_no_fault (Option.map_eq_none_iff.mp h)
    refine ⟨xs, hxs, ?_⟩
    intro x
    simp [hm, Gives, hdb]

theorem answered_fetch : (l.fetch read db).Answered db := by
  apply (Run.answered_query db l.call).bind
  intro rows
  exact Run.answered_of_calls_nil rfl

/-- Lookups decide a run: it fails with the failure of the first of them that fails, and else its
value has a property. -/
def Decide {β : Type} (ls : List Lookup) (db : Database) (r : Run β) (P : β → Prop) : Prop :=
  match ls.findSome? fun l => l.failure? db with
  | some f => r.outcome = .error f
  | none => ∃ b, r.outcome = .ok b ∧ P b

/-- A lookup comes before others. -/
theorem Decide.fetch {β : Type} {ls : List Lookup} {next : List α → Run β} {P : β → Prop}
    (hl : l.rowFault? = fun row => fault? (read row))
    (h : ∀ xs, (∀ x, x ∈ xs ↔ ∃ row, l.Gives db row ∧ read row = .ok x) →
      Decide ls db (next xs) P) :
    Decide (l :: ls) db (l.fetch read db >>= next) P := by
  rw [Decide, List.findSome?_cons, Run.outcome_bind]
  cases hf : l.failure? db with
  | some f =>
    rw [outcome_fetch_of_failure hl hf]
    rfl
  | none =>
    obtain ⟨xs, hxs, hm⟩ := outcome_fetch_of_no_failure hl hf
    rw [hxs]
    exact h xs hm

end Lookup

namespace Options

variable {db : Database}

/-- A list of the distinct values that the rows of a lookup carry. -/
def Lists (db : Database) (l : Lookup) (texts : List String) : Prop :=
  ∃ values, texts = distinct values ∧ ∀ v, v ∈ values ↔ ∃ row, l.Gives db row ∧ readValue row = .ok v

/-- Options that are made of the rows of all lookups. -/
structure LoadedFrom (db : Database) (o : Options) : Prop where
  stores : ∀ s, s ∈ o.stores ↔ ∃ row, Lookup.stores.Gives db row ∧ StoreOption.read row = .ok s
  products : ∀ p, p ∈ o.products ↔
    ∃ row, Lookup.products.Gives db row ∧ ProductOption.read row = .ok p
  machines : Lists db .machines o.machines
  transactionTypes : Lists db .saleTypes o.transactionTypes
  deliveryChannels : Lists db .deliveryChannels o.deliveryChannels
  pods : Lists db .pods o.pods

theorem calls_load_ne_nil : (load db).calls ≠ [] :=
  Run.calls_bind_ne_nil Lookup.calls_fetch_ne_nil _

theorem answered_load : (load db).Answered db := by
  apply Lookup.answered_fetch.bind
  intro stores
  apply Lookup.answered_fetch.bind
  intro products
  apply Lookup.answered_fetch.bind
  intro machines
  apply Lookup.answered_fetch.bind
  intro saleTypes
  apply Lookup.answered_fetch.bind
  intro deliveryChannels
  apply Lookup.answered_fetch.bind
  intro pods
  exact Run.answered_of_calls_nil rfl

/-- The lookups decide what loading comes to. -/
theorem decide_load (db : Database) : Lookup.Decide Lookup.all db (load db) (LoadedFrom db) := by
  apply Lookup.Decide.fetch rfl
  intro stores hstores
  apply Lookup.Decide.fetch rfl
  intro products hproducts
  apply Lookup.Decide.fetch rfl
  intro machines hmachines
  apply Lookup.Decide.fetch rfl
  intro saleTypes hsaleTypes
  apply Lookup.Decide.fetch rfl
  intro deliveryChannels hdeliveryChannels
  apply Lookup.Decide.fetch rfl
  intro pods hpods
  refine ⟨_, rfl, ?_⟩
  constructor
  · intro s
    rw [List.mem_mergeSort, hstores]
  · intro p
    rw [List.mem_mergeSort, hproducts]
  · exact ⟨machines, rfl, hmachines⟩
  · exact ⟨saleTypes, rfl, hsaleTypes⟩
  · exact ⟨deliveryChannels, rfl, hdeliveryChannels⟩
  · exact ⟨pods, rfl, hpods⟩

/-- A load fails exactly with the failure of the first lookup that fails. -/
theorem outcome_load_eq_error_iff {f : Failure} :
    (load db).outcome = .error f ↔
      Lookup.all.findSome? (fun l => l.failure? db) = some f := by
  have h := decide_load db
  rw [Lookup.Decide] at h
  cases hf : Lookup.all.findSome? fun l => l.failure? db with
  | some g =>
    rw [hf] at h
    simp [h]
  | none =>
    rw [hf] at h
    obtain ⟨o, ho, -⟩ := h
    simp [ho]

theorem findSome?_failure?_of_ok {o : Options} (ho : (load db).outcome = .ok o) :
    Lookup.all.findSome? (fun l => l.failure? db) = none := by
  cases hf : Lookup.all.findSome? fun l => l.failure? db with
  | none => rfl
  | some f =>
    rw [← outcome_load_eq_error_iff, ho] at hf
    cases hf

/-- All rows of a load that goes well are read. -/
theorem rowFault?_of_ok {o : Options} (ho : (load db).outcome = .ok o) {l : Lookup} {row : Json}
    (hg : l.Gives db row) : l.rowFault? row = none := by
  obtain ⟨rows, hdb, hrow⟩ := hg
  have hl : l ∈ Lookup.all := by
    cases l <;> decide
  have hf := List.findSome?_eq_none_iff.mp (findSome?_failure?_of_ok ho) l hl
  rw [Lookup.failure?, hdb] at hf
  exact List.findSome?_eq_none_iff.mp (Option.map_eq_none_iff.mp hf) row hrow

theorem loadedFrom_of_ok {o : Options} (ho : (load db).outcome = .ok o) : LoadedFrom db o := by
  have h := decide_load db
  rw [Lookup.Decide, findSome?_failure?_of_ok ho, ho] at h
  obtain ⟨_, he, hl⟩ := h
  cases he
  exact hl

end Options

end Takings
