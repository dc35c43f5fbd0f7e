import Mathlib.Data.List.Sort
import Takings.Proofs.ObjectMembers
import Takings.Proofs.OfferedFilters
import Takings.Proofs.Outcomes
import Takings.Proofs.Sorting
import Takings.Proofs.TextBytes

/-!
# Loaded options

A load makes the calls of its lookups one after the other, up to the first that fails. If none does,
stores and products are the rows that were read in the order of their ids and codes, and every list
of values has each value once, in ascending order. So the order of the rows does not matter there.
-/
namespace Takings

open Json Sorting Text

/-! ### Lists of distinct values -/

theorem pairwise_addDistinct {s : String} {l : List String} (h : l.Pairwise (· < ·)) :
    (addDistinct s l).Pairwise (· < ·) := by
  induction l with
  | nil => exact List.pairwise_singleton _ _
  | cons t l ih =>
    rw [List.pairwise_cons] at h
    rw [addDistinct]
    split
    · rename_i hlt
      refine List.pairwise_cons.mpr ⟨fun u hu => ?_, List.pairwise_cons.mpr h⟩
      rcases List.mem_cons.mp hu with rfl | hu
      · exact hlt
      · exact hlt.trans (h.1 u hu)
    · rename_i hnlt
      split
      · exact List.pairwise_cons.mpr h
      · rename_i hne
        refine List.pairwise_cons.mpr ⟨fun u hu => ?_, ih h.2⟩
        rcases mem_addDistinct.mp hu with rfl | hu
        · exact lt_of_le_of_ne (not_lt.mp hnlt) (Ne.symm hne)
        · exact h.1 u hu

theorem pairwise_distinct (values : List (Option String)) :
    (distinct values).Pairwise (· < ·) := by
  have hfold {texts l : List String} (h : l.Pairwise (· < ·)) :
      (texts.foldl (fun l s => if s.isEmpty then l else addDistinct s l) l).Pairwise (· < ·) := by
    induction texts generalizing l with
    | nil => exact h
    | cons s texts ih =>
      rw [List.foldl_cons]
      split
      · exact ih h
      · exact ih (pairwise_addDistinct h)
  exact hfold List.Pairwise.nil

/-- What is distinct depends on the values alone, not on their order. -/
theorem distinct_congr {values values' : List (Option String)}
    (h : ∀ v, v ∈ values ↔ v ∈ values') : distinct values = distinct values' := by
  refine (pairwise_distinct values).eq_of_mem_iff (pairwise_distinct values') fun t => ?_
  simp only [mem_distinct, h]

/-! ### Lists in the order of names -/

/-- A list in the ascending order of names, byte by byte, in which those with one name stand as they
stand in another one. -/
structure IsOrderedBy {α : Type} (name : α → String) (l ordered : List α) : Prop where
  perm : ordered.Perm l
  ascending : ordered.Pairwise fun a b =>
    Utf8.encode (name a).toList ≤ Utf8.encode (name b).toList
  stable : ∀ s, ordered.filter (fun a => name a = s) = l.filter fun a => name a = s

theorem mergeSort_name {α : Type} (name : α → String) (l : List α) :
    l.mergeSort (fun a b => name a ≤ name b) = sortBy name l :=
  mergeSort_eq_sortBy fun _ _ _ _ => decide_eq_decide.mpr Iff.rfl

theorem isOrderedBy_mergeSort {α : Type} (name : α → String) (l : List α) :
    IsOrderedBy name l (l.mergeSort fun a b => name a ≤ name b) := by
  rw [mergeSort_name]
  exact ⟨perm_sortBy name l,
    (pairwise_sortBy name l).imp fun h => Utf8.encode_toList_le_iff.mpr h, filter_sortBy name l⟩

/-! ### Lookups -/

namespace Lookup

variable {α β : Type} {l : Lookup} {read : Json → Except DecodeError α} {db : Database}
  {ls : List Lookup}

theorem mem_all (l : Lookup) : l ∈ all := by
  cases l <;> decide

/-- All rows of a lookup are read, one by one. -/
def Reads (l : Lookup) (read : Json → Except DecodeError α) (db : Database) (xs : List α) : Prop :=
  ∃ rows, db l.call = .ok rows ∧ List.Forall₂ (fun row x => read row = .ok x) rows xs

theorem outcome_fetch_eq_ok_iff {xs : List α} :
    (l.fetch read db).outcome = .ok xs ↔ l.Reads read db xs := by
  have ho : (l.fetch read db).outcome = db l.call >>= readRows l.rowTitle read :=
    Run.outcome_bind _ _
  rw [ho, bind_eq_ok_iff]
  simp only [readRows_eq_ok_iff]
  rfl

theorem calls_fetch : (l.fetch read db).calls = [l.call] := by
  show ((Run.query db l.call).andThen _).calls = _
  cases h : (Run.query db l.call).outcome with
  | error e => exact Run.calls_andThen_of_error h _
  | ok rows =>
    rw [Run.calls_andThen_of_ok h]
    rfl

/-- The lookups up to the first that fails. -/
def issued (db : Database) : List Lookup → List Lookup
  | [] => []
  | l :: ls => l :: if (l.failure? db).isSome then [] else issued db ls

theorem issued_of_no_failure (h : ∀ l ∈ ls, l.failure? db = none) : issued db ls = ls := by
  induction ls with
  | nil => rfl
  | cons l ls ih =>
    obtain ⟨hl, hls⟩ := List.forall_mem_cons.mp h
    rw [issued, hl, ih hls]
    rfl

theorem issued_append_cons {before after : List Lookup} {f : Failure}
    (h : ∀ m ∈ before, m.failure? db = none) (hf : l.failure? db = some f) :
    issued db (before ++ l :: after) = before ++ [l] := by
  induction before with
  | nil =>
    rw [List.nil_append, issued, hf]
    rfl
  | cons m before ih =>
    obtain ⟨hm, hbefore⟩ := List.forall_mem_cons.mp h
    rw [List.cons_append, issued, hm, ih hbefore]
    rfl

/-- A run makes the calls of lookups up to the first that fails. -/
def Issues (ls : List Lookup) (db : Database) (r : Run β) : Prop :=
  r.calls = (issued db ls).map call

/-- A lookup comes before others. -/
theorem Issues.fetch {next : List α → Run β} (hl : l.rowFault? = fun row => fault? (read row))
    (h : ∀ xs, Issues ls db (next xs)) : Issues (l :: ls) db (l.fetch read db >>= next) := by
  rw [Issues, issued, List.map_cons]
  show ((l.fetch read db).andThen next).calls = _
  -- Its own call is made in any case, those of the others only if it does not fail.
  cases hf : l.failure? db with
  | some f =>
    rw [Run.calls_andThen_of_error (outcome_fetch_of_failure hl hf), calls_fetch]
    rfl
  | none =>
    obtain ⟨xs, hxs, -⟩ := outcome_fetch_of_no_failure hl hf
    have hnext : (next xs).calls = (issued db ls).map call := h xs
    rw [Run.calls_andThen_of_ok hxs, calls_fetch, hnext]
    rfl

/-- A lookup is answered with rows that it can read. -/
def IsAnswered (l : Lookup) (db : Database) : Prop :=
  ∃ rows, db l.call = .ok rows ∧ ∀ row ∈ rows, l.Admits row

/-- A lookup fails because its query does, or because of its first row that it cannot read. -/
inductive FailsWith (l : Lookup) (db : Database) : Failure → Prop
  | query {f : Failure} (h : db l.call = .error f) : FailsWith l db f
  | row {good after : List Json} {bad : Json} {e : DecodeError}
    (h : db l.call = .ok (good ++ bad :: after)) (hg : ∀ row ∈ good, l.Admits row)
    (hb : l.rowFault? bad = some e) :
    FailsWith l db (.query ("unexpected " ++ l.rowTitle ++ ": " ++ e.message))

theorem failure?_eq_none_iff : l.failure? db = none ↔ l.IsAnswered db := by
  simp only [IsAnswered, ← rowFault?_eq_none_iff]
  rw [failure?]
  cases db l.call with
  | error e => simp
  | ok rows => simp [List.findSome?_eq_none_iff]

theorem failure?_eq_some_iff {f : Failure} : l.failure? db = some f ↔ l.FailsWith db f := by
  rw [failure?]
  constructor
  · intro h
    cases hdb : db l.call with
    | error e =>
      rw [hdb] at h
      cases h
      exact .query hdb
    | ok rows =>
      rw [hdb] at h
      obtain ⟨e, he, rfl⟩ := Option.map_eq_some_iff.mp h
      obtain ⟨good, bad, after, rfl, hb, hg⟩ := List.findSome?_eq_some_iff.mp he
      exact .row hdb (fun row hrow => rowFault?_eq_none_iff.mp (hg row hrow)) hb
  · rintro (hdb | ⟨hdb, hg, hb⟩)
    · rw [hdb]
    · rw [hdb]
      refine Option.map_eq_some_iff.mpr ⟨_, List.findSome?_eq_some_iff.mpr ?_, rfl⟩
      exact ⟨_, _, _, rfl, hb, fun row hrow => rowFault?_eq_none_iff.mpr (hg row hrow)⟩

/-- Rows that come in another order are read all the same. -/
theorem Reads.of_perm {db' : Database} {xs : List α} {rows rows' : List Json}
    (h : l.Reads read db xs) (hdb : db l.call = .ok rows) (hdb' : db' l.call = .ok rows')
    (hp : rows'.Perm rows) : ∃ xs', l.Reads read db' xs' ∧ xs'.Perm xs := by
  obtain ⟨_, hrows, hxs⟩ := h
  cases hdb.symm.trans hrows
  obtain ⟨xs', hxs', hperm⟩ := List.perm_comp_forall₂ hp hxs
  exact ⟨xs', ⟨rows', hdb', hxs'⟩, hperm⟩

end Lookup

/-- The name under which values are served. -/
def Offer.name : Offer → String
  | machines => "machines"
  | transactionTypes => "transactionTypes"
  | deliveryChannels => "deliveryChannels"
  | pods => "pods"
  | ocEmailIds => "ocEmailIds"
  | omEmailIds => "omEmailIds"
  | states => "states"
  | cities => "cities"
  | familyGroups => "itemFamilyGroups"
  | dayParts => "itemDayParts"

/-! ### Loading -/

namespace Options

variable {db db' : Database} {o : Options}

theorem calls_load (db : Database) :
    (load db).calls = (Lookup.issued db Lookup.all).map Lookup.call := by
  apply Lookup.Issues.fetch rfl
  intro stores
  apply Lookup.Issues.fetch rfl
  intro products
  apply Lookup.Issues.fetch rfl
  intro machines
  apply Lookup.Issues.fetch rfl
  intro saleTypes
  apply Lookup.Issues.fetch rfl
  intro deliveryChannels
  apply Lookup.Issues.fetch rfl
  intro pods
  rfl

/-- Options are loaded exactly if the rows of all lookups are read. -/
theorem outcome_load_eq_ok_iff : (load db).outcome = .ok o ↔
    ∃ stores, Lookup.stores.Reads StoreOption.read db stores ∧
      ∃ products, Lookup.products.Reads ProductOption.read db products ∧
        ∃ machines, Lookup.machines.Reads readValue db machines ∧
          ∃ saleTypes, Lookup.saleTypes.Reads readValue db saleTypes ∧
            ∃ channels, Lookup.deliveryChannels.Reads readValue db channels ∧
              ∃ pods, Lookup.pods.Reads readValue db pods ∧
                o = ⟨stores.mergeSort fun a b => a.storeId ≤ b.storeId,
                  products.mergeSort fun a b => a.code ≤ b.code, distinct machines,
                  distinct saleTypes, distinct channels, distinct pods⟩ := by
  have hbind {α β : Type} {r : Run α} {next : α → Run β} {b : β} :
      (r >>= next).outcome = .ok b ↔ ∃ a, r.outcome = .ok a ∧ (next a).outcome = .ok b := by
    rw [Run.outcome_bind]
    exact bind_eq_ok_iff
  have hpure {a b : Options} : (pure a : Run Options).outcome = .ok b ↔ b = a :=
    ⟨fun h => (Except.ok.inj h).symm, fun h => congrArg Except.ok h.symm⟩
  simp only [load, hbind, hpure, Lookup.outcome_fetch_eq_ok_iff]

/-- The single-value lookups are answered with the same rows in another order. -/
structure Reorders (db db' : Database) : Prop where
  same : ∀ l ∈ [Lookup.stores, .products], db' l.call = db l.call
  perm : ∀ l ∈ [Lookup.machines, .saleTypes, .deliveryChannels, .pods],
    ∃ rows rows', db l.call = .ok rows ∧ db' l.call = .ok rows' ∧ rows'.Perm rows

/-- Loading ends with the first lookup that fails. -/
theorem outcome_load_eq_error_iff_exists {f : Failure} :
    (load db).outcome = .error f ↔ ∃ before l after, Lookup.all = before ++ l :: after ∧
      (∀ m ∈ before, m.IsAnswered db) ∧ l.FailsWith db f ∧
        (load db).calls = (before ++ [l]).map Lookup.call := by
  simp only [← Lookup.failure?_eq_none_iff, ← Lookup.failure?_eq_some_iff]
  rw [outcome_load_eq_error_iff, List.findSome?_eq_some_iff]
  constructor
  · rintro ⟨before, l, after, hall, hf, hbefore⟩
    refine ⟨before, l, after, hall, hbefore, hf, ?_⟩
    rw [calls_load, hall, Lookup.issued_append_cons hbefore hf]
  · rintro ⟨before, l, after, hall, hbefore, hf, -⟩
    exact ⟨before, l, after, hall, hf, hbefore⟩

theorem exists_outcome_load_iff :
    (∃ o, (load db).outcome = .ok o) ↔ ∀ l : Lookup, l.IsAnswered db := by
  simp only [← Lookup.failure?_eq_none_iff]
  constructor
  · rintro ⟨o, ho⟩ l
    exact List.findSome?_eq_none_iff.mp (findSome?_failure?_of_ok ho) l l.mem_all
  · intro h
    cases ho : (load db).outcome with
    | ok o => exact ⟨o, rfl⟩
    | error f =>
      obtain ⟨l, -, hf⟩ := List.exists_of_findSome?_eq_some (outcome_load_eq_error_iff.mp ho)
      rw [h l] at hf
      cases hf

theorem calls_load_of_ok (ho : (load db).outcome = .ok o) :
    (load db).calls = Lookup.all.map Lookup.call := by
  have hf := exists_outcome_load_iff.mp ⟨o, ho⟩
  rw [calls_load, Lookup.issued_of_no_failure fun l _ => Lookup.failure?_eq_none_iff.mpr (hf l)]

/-- Stores that are loaded show the rows that were read. -/
theorem exists_stores_of_load (ho : (load db).outcome = .ok o) :
    ∃ rows stores, db Lookup.stores.call = .ok rows ∧
      List.Forall₂ (fun row (s : StoreOption) => s.Shows row) rows stores ∧
      IsOrderedBy StoreOption.storeId stores o.stores := by
  obtain ⟨stores, ⟨rows, hdb, hread⟩, _, -, _, -, _, -, _, -, _, -, rfl⟩ :=
    outcome_load_eq_ok_iff.mp ho
  exact ⟨rows, stores, hdb, hread.imp fun _ _ => StoreOption.shows_of_read,
    isOrderedBy_mergeSort _ _⟩

theorem exists_products_of_load (ho : (load db).outcome = .ok o) :
    ∃ rows products, db Lookup.products.call = .ok rows ∧
      List.Forall₂ (fun row (p : ProductOption) => p.Shows row) rows products ∧
      IsOrderedBy ProductOption.code products o.products := by
  obtain ⟨_, -, products, ⟨rows, hdb, hread⟩, _, -, _, -, _, -, _, -, rfl⟩ :=
    outcome_load_eq_ok_iff.mp ho
  exact ⟨rows, products, hdb, hread.imp fun _ _ => ProductOption.shows_of_read,
    isOrderedBy_mergeSort _ _⟩

/-- The order of the rows with single values is lost. -/
theorem outcome_load_of_reorders (hr : Reorders db db') (ho : (load db).outcome = .ok o) :
    (load db').outcome = .ok o := by
  obtain ⟨stores, hstores, products, hproducts, machines, hmachines, types, htypes, channels,
    hchannels, pods, hpods, rfl⟩ := outcome_load_eq_ok_iff.mp ho
  have hvalues {l : Lookup} {values : List (Option String)}
      (hl : l ∈ [Lookup.machines, .saleTypes, .deliveryChannels, .pods])
      (h : l.Reads readValue db values) :
      ∃ values', l.Reads readValue db' values' ∧ distinct values = distinct values' := by
    obtain ⟨rows, rows', hdb, hdb', hp⟩ := hr.perm l hl
    obtain ⟨values', h', hperm⟩ := h.of_perm hdb hdb' hp
    exact ⟨values', h', distinct_congr fun v => hperm.mem_iff.symm⟩
  obtain ⟨machines', hmachines', hm⟩ := hvalues (by decide) hmachines
  obtain ⟨types', htypes', ht⟩ := hvalues (by decide) htypes
  obtain ⟨channels', hchannels', hc⟩ := hvalues (by decide) hchannels
  obtain ⟨pods', hpods', hp⟩ := hvalues (by decide) hpods
  rw [Lookup.Reads, ← hr.same _ (by decide)] at hstores hproducts
  rw [hm, ht, hc, hp]
  exact outcome_load_eq_ok_iff.mpr ⟨stores, hstores, products, hproducts, machines', hmachines',
    types', htypes', channels', hchannels', pods', hpods', rfl⟩

end Options

theorem Offer.member?_name (offer : Offer) (o : Options) :
    o.toJson.member? offer.name = some (.arr ((offer.values o).map Json.str)) := by
  cases offer <;> rfl

theorem Offer.pairwise_values {db : Database} {o : Options} (ho : (Options.load db).outcome = .ok o)
    (offer : Offer) : (offer.values o).Pairwise (· < ·) := by
  obtain ⟨_, -, _, -, _, -, _, -, _, -, _, -, rfl⟩ := Options.outcome_load_eq_ok_iff.mp ho
  cases offer <;> exact pairwise_distinct _

/-- Loading fails exactly with the failure of the first lookup that fails, and makes no call after
that one. Options that are loaded are the stores and products of the rows, each with the columns of
its row, in the order of their ids and codes, and for each list of values the values that rows have
in its column, without the white space around them, each once and in ascending order; the order of
rows with single values does not matter. -/
theorem load_keeps_options (db : Database) :
    (∀ f, (Options.load db).outcome = .error f ↔
      ∃ before l after, Lookup.all = before ++ l :: after ∧
        (∀ m ∈ before, m.IsAnswered db) ∧ l.FailsWith db f ∧
          (Options.load db).calls = (before ++ [l]).map Lookup.call) ∧
    ((∃ o, (Options.load db).outcome = .ok o) ↔ ∀ l : Lookup, l.IsAnswered db) ∧
    ∀ o, (Options.load db).outcome = .ok o →
      (Options.load db).calls = Lookup.all.map Lookup.call ∧
      (∃ rows stores, db Lookup.stores.call = .ok rows ∧
        List.Forall₂ (fun row (s : StoreOption) => s.Shows row) rows stores ∧
        IsOrderedBy StoreOption.storeId stores o.stores) ∧
      (∃ rows products, db Lookup.products.call = .ok rows ∧
        List.Forall₂ (fun row (p : ProductOption) => p.Shows row) rows products ∧
        IsOrderedBy ProductOption.code products o.products) ∧
      o.toJson.member? "stores" = some (.arr (o.stores.map StoreOption.toJson)) ∧
      o.toJson.member? "restaurants" = some (.arr (o.stores.map fun s => Json.str s.storeId)) ∧
      o.toJson.member? "products" = some (.arr (o.products.map ProductOption.toJson)) ∧
      (∀ offer : Offer,
        o.toJson.member? offer.name = some (.arr ((offer.values o).map Json.str)) ∧
        (offer.values o).Pairwise (fun s t => Utf8.encode s.toList < Utf8.encode t.toList) ∧
        (∀ value ∈ offer.values o, trim value = value ∧ value ≠ "") ∧
        ∀ value, value ∈ offer.values o ↔
          ∃ raw, offer.Carries db raw ∧ trim raw = value ∧ value ≠ "") ∧
      ∀ db', Options.Reorders db db' → (Options.load db').outcome = .ok o := by
  refine ⟨fun f => Options.outcome_load_eq_error_iff_exists, Options.exists_outcome_load_iff,
    fun o ho => ?_⟩
  have hvalues (offer : Offer) (value : String) : value ∈ offer.values o ↔
      ∃ raw, offer.Carries db raw ∧ trim raw = value ∧ value ≠ "" :=
    offer.mem_values_iff ho
  refine ⟨Options.calls_load_of_ok ho, Options.exists_stores_of_load ho,
    Options.exists_products_of_load ho, rfl, ?_, rfl, fun offer => ⟨offer.member?_name o,
      ?_, ?_, hvalues offer⟩, fun db' hr => Options.outcome_load_of_reorders hr ho⟩
  · have hrestaurants : o.toJson.member? "restaurants" =
        some (.arr ((o.stores.map StoreOption.storeId).map Json.str)) := rfl
    rw [hrestaurants, List.map_map]
    rfl
  · exact (offer.pairwise_values ho).imp fun h => Utf8.encode_toList_lt_iff.mpr h
  · intro value hv
    obtain ⟨raw, -, rfl, hn⟩ := (hvalues offer value).mp hv
    exact ⟨trim_trim raw, hn⟩

/-- Stores come in the order of their ids, be their rows objects with names of either kind or
arrays, and machines without white space, repetition and blanks. -/
theorem options_of_mixed_rows :
    let db : Database := fun c =>
      if c = Lookup.stores.call then
        .ok [.obj [("city", .str " Austin "), ("store_id", .str "S2")], .arr [.str "S10", .null],
          .obj [("storeId", .str "S1")]]
      else if c = Lookup.machines.call then
        .ok [.obj [("value", .str " M2")], .obj [], .obj [("value", .str "M1")], .arr [.str "M2"],
          .obj [("value", .str " \t")]]
      else .ok []
    ∃ o, (Options.load db).outcome = .ok o ∧
      o.toJson.member? "restaurants" = some (.arr [.str "S1", .str "S10", .str "S2"]) ∧
      o.toJson.member? "machines" = some (.arr [.str "M1", .str "M2"]) ∧
      o.toJson.member? "cities" = some (.arr [.str "Austin"]) ∧
      (∃ raw, Offer.machines.Carries db raw ∧ trim raw = "M2") ∧
      ¬ ∃ raw, Offer.machines.Carries db raw ∧ trim raw = "M3" := by
  intro db
  let s₁ : StoreOption := ⟨"S1", none, none, none, none, none⟩
  let s₂ : StoreOption := ⟨"S2", none, none, some " Austin ", none, none⟩
  let s₁₀ : StoreOption := ⟨"S10", none, none, none, none, none⟩
  have hsorted : [s₁, s₁₀, s₂] = [s₂, s₁₀, s₁].mergeSort fun a b => a.storeId ≤ b.storeId := by
    rw [mergeSort_name]
    exact eq_sortBy (by decide) (by decide) (by decide)
  let o : Options := ⟨[s₁, s₁₀, s₂], [], ["M1", "M2"], [], [], []⟩
  have ho : (Options.load db).outcome = .ok o := by
    have hnone {l : Lookup} {α : Type} {read : Json → Except DecodeError α}
        (h : db l.call = .ok []) : l.Reads read db [] := ⟨[], h, .nil⟩
    refine Options.outcome_load_eq_ok_iff.mpr ⟨[s₂, s₁₀, s₁],
      ⟨_, rfl, .cons rfl (.cons rfl (.cons rfl .nil))⟩, [], hnone rfl,
      [some " M2", none, some "M1", some "M2", some " \t"],
      ⟨_, rfl, .cons rfl (.cons rfl (.cons rfl (.cons rfl (.cons rfl .nil))))⟩,
      [], hnone rfl, [], hnone rfl, [], hnone rfl, ?_⟩
    rw [← hsorted, List.mergeSort_nil]
    rfl
  obtain ⟨-, -, -, -, hrestaurants, -, hoffers, -⟩ := (load_keeps_options db).2.2 o ho
  obtain ⟨hmachines, -, -, hmem⟩ := hoffers .machines
  refine ⟨o, ho, hrestaurants, hmachines, (hoffers .cities).1, ?_, ?_⟩
  · obtain ⟨raw, hraw, htrim, -⟩ := (hmem "M2").mp (by decide)
    exact ⟨raw, hraw, htrim⟩
  · rintro ⟨raw, hraw, htrim⟩
    have hnot : "M3" ∉ o.machines := by decide
    exact hnot ((hmem "M3").mpr ⟨raw, hraw, htrim, by decide⟩)

/-- The lookups after one that fails are not made. -/
example : (Options.load fun c =>
      if c = Lookup.machines.call then .error (.query "gone") else .ok []).calls =
    [Lookup.stores.call, Lookup.products.call, Lookup.machines.call] := by
  decide +kernel

end Takings
