import Takings.Json.Record
import Takings.Query.Run
import Takings.Report.Amount
import Takings.Text.Blank

/-!
# Filter options

The values that filters can take, looked up in the dimensions. Six lookups run in a fixed order
and the first failure ends them. Lists of values are ascending, without repetition, blank values
and white space around values.
-/
namespace Takings

open Json

inductive Lookup where
  | stores
  | products
  | machines
  | saleTypes
  | deliveryChannels
  | pods
  deriving DecidableEq, Repr

namespace Lookup

def all : List Lookup :=
  [stores, products, machines, saleTypes, deliveryChannels, pods]

def sql : Lookup → String
  | stores =>
    "SELECT store_id, store_code, state, city, oc_email_id, om_email_id\nFROM dim_store\n" ++
      "ORDER BY store_id"
  | products =>
    "SELECT item_code, item_description, item_family_group, item_day_part,\n" ++
      "    hierarchy_level_1, hierarchy_level_2, hierarchy_level_3, hierarchy_level_4\n" ++
      "FROM dim_item\nORDER BY item_code"
  | machines =>
    "SELECT node_id AS value FROM dim_node WHERE node_id IS NOT NULL ORDER BY node_id"
  | saleTypes =>
    "SELECT sale_type AS value FROM dim_sale_type WHERE sale_type IS NOT NULL ORDER BY sale_type"
  | deliveryChannels =>
    "SELECT DISTINCT delivery_channel AS value FROM fact_sales " ++
      "WHERE delivery_channel IS NOT NULL ORDER BY 1"
  | pods => "SELECT DISTINCT pod AS value FROM fact_sales WHERE pod IS NOT NULL ORDER BY 1"

def call (l : Lookup) : Call :=
  ⟨l.sql, []⟩

/-- What the rows of a lookup are called in messages. -/
def rowTitle : Lookup → String
  | stores => "stores lookup row"
  | products => "products lookup row"
  | machines => "machines lookup row"
  | saleTypes => "sale types lookup row"
  | deliveryChannels => "delivery channels lookup row"
  | pods => "pods lookup row"

/-- Runs a lookup and reads its rows. -/
def fetch {α : Type} (l : Lookup) (read : Json → Except DecodeError α) (db : Database) :
    Run (List α) := do
  let rows ← Run.query db l.call
  Run.ofOutcome (readRows l.rowTitle read rows)

end Lookup

structure StoreOption where
  storeId : String
  storeCode : Option String
  state : Option String
  city : Option String
  ocEmailId : Option String
  omEmailId : Option String
  deriving DecidableEq, Repr

namespace StoreOption

def record : Record where
  title := "StoreOption"
  fields :=
    [(Field.required "storeId" .text).called "store_id",
      (Field.optional "storeCode" .textOrNull none).called "store_code",
      .optional "state" .textOrNull none, .optional "city" .textOrNull none,
      (Field.optional "ocEmailId" .textOrNull none).called "oc_email_id",
      (Field.optional "omEmailId" .textOrNull none).called "om_email_id"]

def read (v : Json) : Except DecodeError StoreOption :=
  (record.read v).map fun (storeId, storeCode, state, city, ocEmailId, omEmailId, ()) =>
    ⟨storeId, storeCode, state, city, ocEmailId, omEmailId⟩

def toJson (s : StoreOption) : Json :=
  .obj
    [("storeId", .str s.storeId), ("storeCode", Report.textOrNull s.storeCode),
      ("state", Report.textOrNull s.state), ("city", Report.textOrNull s.city),
      ("ocEmailId", Report.textOrNull s.ocEmailId), ("omEmailId", Report.textOrNull s.omEmailId)]

end StoreOption

structure ProductOption where
  code : String
  description : Option String
  familyGroup : Option String
  dayPart : Option String
  /-- The four levels of the product hierarchy. -/
  levels : List (Option String)
  deriving DecidableEq, Repr

namespace ProductOption

def record : Record where
  title := "ProductRow"
  fields :=
    [.required "item_code" .text, .optional "item_description" .textOrNull none,
      .optional "item_family_group" .textOrNull none, .optional "item_day_part" .textOrNull none,
      .optional "hierarchy_level_1" .textOrNull none,
      .optional "hierarchy_level_2" .textOrNull none,
      .optional "hierarchy_level_3" .textOrNull none,
      .optional "hierarchy_level_4" .textOrNull none]

def read (v : Json) : Except DecodeError ProductOption :=
  (record.read v).map fun
    (code, description, familyGroup, dayPart, level1, level2, level3, level4, ()) =>
    ⟨code, description, familyGroup, dayPart, [level1, level2, level3, level4]⟩

def toJson (p : ProductOption) : Json :=
  .obj
    [("item_code", .str p.code), ("item_description", Report.textOrNull p.description),
      ("itemFamilyGroup", Report.textOrNull p.familyGroup),
      ("itemDayPart", Report.textOrNull p.dayPart),
      ("hierarchyLevels", .arr (p.levels.map Report.textOrNull))]

end ProductOption

/-- A row of a lookup with a single column. -/
def valueRecord : Record where
  title := "ValueRow"
  fields := [⟨"value", [], .textOrNull, some none, none⟩]

def readValue (v : Json) : Except DecodeError (Option String) :=
  (valueRecord.read v).map fun (value, ()) => value

/-- Adds a value to an ascending list, unless it is there. -/
def addDistinct (s : String) : List String → List String
  | [] => [s]
  | t :: ts => if s < t then s :: t :: ts else if s = t then t :: ts else t :: addDistinct s ts

/-- The values that are there and not blank, without white space around them, ascending and
each once. -/
def distinct (values : List (Option String)) : List String :=
  ((values.filterMap id).map Text.trim).foldl
    (fun l s => if s.isEmpty then l else addDistinct s l) []

theorem mem_addDistinct {s t : String} {l : List String} :
    t ∈ addDistinct s l ↔ t = s ∨ t ∈ l := by
  induction l with
  | nil => simp [addDistinct]
  | cons u l ih =>
    rw [addDistinct]
    split
    · simp
    · split
      · rename_i he
        simp [he]
      · simp [ih, or_left_comm]

theorem mem_foldl_addDistinct {t : String} {texts l : List String} :
    t ∈ texts.foldl (fun l s => if s.isEmpty then l else addDistinct s l) l ↔
      t ∈ l ∨ t ∈ texts ∧ t ≠ "" := by
  induction texts generalizing l with
  | nil => simp
  | cons s texts ih =>
    rw [List.foldl_cons, ih]
    by_cases hs : s = ""
    · simp [hs, or_and_right]
    · have ht : t = s → t ≠ "" := by
        rintro rfl
        exact hs
      simp only [String.isEmpty_iff, hs, if_false, mem_addDistinct, List.mem_cons, or_and_right,
        and_iff_left_of_imp ht]
      rw [or_left_comm, or_assoc]

/-- Each value stands for itself without the white space around it. -/
theorem mem_distinct {values : List (Option String)} {t : String} :
    t ∈ distinct values ↔ ∃ s, some s ∈ values ∧ Text.trim s = t ∧ t ≠ "" := by
  rw [distinct, mem_foldl_addDistinct]
  simp only [List.not_mem_nil, false_or, List.mem_map, List.mem_filterMap, id]
  constructor
  · rintro ⟨⟨s, ⟨_, hs, rfl⟩, ht⟩, hn⟩
    exact ⟨s, hs, ht, hn⟩
  · rintro ⟨s, hs, ht, hn⟩
    exact ⟨⟨s, ⟨some s, hs, rfl⟩, ht⟩, hn⟩

/-- The options of all filters. -/
structure Options where
  stores : List StoreOption
  products : List ProductOption
  machines : List String
  transactionTypes : List String
  deliveryChannels : List String
  pods : List String
  deriving DecidableEq, Repr

namespace Options

def restaurants (o : Options) : List String :=
  o.stores.map StoreOption.storeId

def familyGroups (o : Options) : List String :=
  distinct (o.products.map ProductOption.familyGroup)

def dayParts (o : Options) : List String :=
  distinct (o.products.map ProductOption.dayPart)

def states (o : Options) : List String :=
  distinct (o.stores.map StoreOption.state)

def cities (o : Options) : List String :=
  distinct (o.stores.map StoreOption.city)

def ocEmailIds (o : Options) : List String :=
  distinct (o.stores.map StoreOption.ocEmailId)

def omEmailIds (o : Options) : List String :=
  distinct (o.stores.map StoreOption.omEmailId)

/-- Runs all lookups. Stores and products are ordered by id and code. -/
def load (db : Database) : Run Options := do
  let stores ← Lookup.stores.fetch StoreOption.read db
  let products ← Lookup.products.fetch ProductOption.read db
  let machines ← Lookup.machines.fetch readValue db
  let saleTypes ← Lookup.saleTypes.fetch readValue db
  let deliveryChannels ← Lookup.deliveryChannels.fetch readValue db
  let pods ← Lookup.pods.fetch readValue db
  return {
    stores := stores.mergeSort fun a b => a.storeId ≤ b.storeId
    products := products.mergeSort fun a b => a.code ≤ b.code
    machines := distinct machines
    transactionTypes := distinct saleTypes
    deliveryChannels := distinct deliveryChannels
    pods := distinct pods }

/-- The options under their names, in the order in which they are served. -/
def toJson (o : Options) : Json :=
  let texts (l : List String) : Json := .arr (l.map Json.str)
  .obj
    [("restaurants", texts o.restaurants), ("stores", .arr (o.stores.map StoreOption.toJson)),
      ("products", .arr (o.products.map ProductOption.toJson)), ("machines", texts o.machines),
      ("transactionTypes", texts o.transactionTypes),
      ("deliveryChannels", texts o.deliveryChannels), ("pods", texts o.pods),
      ("itemFamilyGroups", texts o.familyGroups), ("itemDayParts", texts o.dayParts),
      ("states", texts o.states), ("cities", texts o.cities),
      ("ocEmailIds", texts o.ocEmailIds), ("omEmailIds", texts o.omEmailIds)]

end Options

end Takings
