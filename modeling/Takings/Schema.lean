/-!
# The star schema

The fact table of sales, the dimensions that can be joined to it and the columns that a query
may name. Nothing else ever stands in a query's text.
-/
namespace Takings

inductive Dimension where
  | time
  | store
  | item
  | node
  deriving DecidableEq, Repr

namespace Dimension

/-- The order in which dimensions are joined. -/
def all : List Dimension :=
  [time, store, item, node]

/-- The join of a dimension. Not every sale was made at a machine, so a sale without a node
stays. -/
def sql : Dimension → String
  | time => "JOIN dim_time dt ON fs.time_id = dt.time_id"
  | store => "JOIN dim_store ds ON fs.store_id = ds.store_id"
  | item => "JOIN dim_item di ON fs.item_code = di.item_code"
  | node => "LEFT JOIN dim_node dn ON fs.node_id = dn.node_id"

/-- The name by which queries refer to a dimension. -/
def reference : Dimension → String
  | time => "dt"
  | store => "ds"
  | item => "di"
  | node => "dn"

end Dimension

inductive Column where
  | salesId
  | totalAmount
  | itemQty
  | invoiceNumber
  | storeId
  | itemCode
  | nodeId
  | saleType
  | deliveryChannel
  | pod
  | businessDate
  | startTime
  | storeCode
  | storeState
  | storeCity
  | ocEmail
  | omEmail
  | itemDescription
  | familyGroup
  | dayPart
  | hierarchyLevel1
  | hierarchyLevel2
  | hierarchyLevel3
  | hierarchyLevel4
  | machineNode
  deriving DecidableEq, Repr

namespace Column

def all : List Column :=
  [salesId, totalAmount, itemQty, invoiceNumber, storeId, itemCode, nodeId, saleType,
    deliveryChannel, pod, businessDate, startTime, storeCode, storeState, storeCity, ocEmail,
    omEmail, itemDescription, familyGroup, dayPart, hierarchyLevel1, hierarchyLevel2,
    hierarchyLevel3, hierarchyLevel4, machineNode]

def sql : Column → String
  | salesId => "fs.sales_id"
  | totalAmount => "fs.total_amount"
  | itemQty => "fs.item_qty"
  | invoiceNumber => "fs.invoice_number"
  | storeId => "fs.store_id"
  | itemCode => "fs.item_code"
  | nodeId => "fs.node_id"
  | saleType => "fs.sale_type"
  | deliveryChannel => "fs.delivery_channel"
  | pod => "fs.pod"
  | businessDate => "dt.business_date"
  | startTime => "dt.start_time"
  | storeCode => "ds.store_code"
  | storeState => "ds.state"
  | storeCity => "ds.city"
  | ocEmail => "ds.oc_email_id"
  | omEmail => "ds.om_email_id"
  | itemDescription => "di.item_description"
  | familyGroup => "di.item_family_group"
  | dayPart => "di.item_day_part"
  | hierarchyLevel1 => "di.hierarchy_level_1"
  | hierarchyLevel2 => "di.hierarchy_level_2"
  | hierarchyLevel3 => "di.hierarchy_level_3"
  | hierarchyLevel4 => "di.hierarchy_level_4"
  | machineNode => "dn.node_id"

/-- The dimension that holds a column; none for the columns of the fact table. -/
def dimension? : Column → Option Dimension
  | salesId | totalAmount | itemQty | invoiceNumber | storeId | itemCode | nodeId | saleType
  | deliveryChannel | pod => none
  | businessDate | startTime => some .time
  | storeCode | storeState | storeCity | ocEmail | omEmail => some .store
  | itemDescription | familyGroup | dayPart | hierarchyLevel1 | hierarchyLevel2
  | hierarchyLevel3 | hierarchyLevel4 => some .item
  | machineNode => some .node

end Column

/-- A set of dimensions to join. -/
structure Joins where
  time : Bool
  store : Bool
  item : Bool
  node : Bool
  deriving DecidableEq, Repr

namespace Joins

def empty : Joins :=
  ⟨false, false, false, false⟩

def contains (j : Joins) : Dimension → Bool
  | .time => j.time
  | .store => j.store
  | .item => j.item
  | .node => j.node

def insert (j : Joins) : Dimension → Joins
  | .time => { j with time := true }
  | .store => { j with store := true }
  | .item => { j with item := true }
  | .node => { j with node := true }

/-- Adds the dimension that a column needs, if it needs one. -/
def require (j : Joins) (c : Column) : Joins :=
  match c.dimension? with
  | some d => j.insert d
  | none => j

def union (j k : Joins) : Joins :=
  ⟨j.time || k.time, j.store || k.store, j.item || k.item, j.node || k.node⟩

/-- The dimensions that columns need. -/
def ofColumns (cs : List Column) : Joins :=
  cs.foldl require empty

/-- The dimensions of the set in joining order. -/
def toList (j : Joins) : List Dimension :=
  Dimension.all.filter j.contains

/-- The FROM clause: the fact table and a line for each join. -/
def sql (j : Joins) : String :=
  "\n".intercalate ("FROM fact_sales fs" :: j.toList.map Dimension.sql)

theorem contains_insert (j : Joins) (d e : Dimension) :
    (j.insert d).contains e = (j.contains e || d == e) := by
  cases d <;> cases e <;> simp [insert, contains]

theorem contains_union (j k : Joins) (d : Dimension) :
    (j.union k).contains d = (j.contains d || k.contains d) := by
  cases d <;> rfl

end Joins

end Takings
