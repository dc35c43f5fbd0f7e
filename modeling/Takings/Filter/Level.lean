import Takings.Filter.Axis
import Takings.Schema

/-!
# Levels of the hierarchies

The levels of the store and product hierarchies that a composite filter can name. A level is
found under its own hierarchy only.
-/
namespace Takings.Filter

inductive Hierarchy where
  | store
  | product
  deriving DecidableEq, Repr

/-- The request parameter that holds a composite filter on a hierarchy. -/
def Hierarchy.parameter : Hierarchy → String
  | store => "store"
  | product => "product"

inductive Level where
  | productId
  | productName
  | productLevel1
  | productLevel2
  | productLevel3
  | productLevel4
  | familyGroup
  | dayPart
  | storeId
  | storeCode
  | storeState
  | storeCity
  deriving DecidableEq, Repr

namespace Level

def all : List Level :=
  [productId, productName, productLevel1, productLevel2, productLevel3, productLevel4,
    familyGroup, dayPart, storeId, storeCode, storeState, storeCity]

def hierarchy : Level → Hierarchy
  | productId | productName | productLevel1 | productLevel2 | productLevel3 | productLevel4
  | familyGroup | dayPart => .product
  | storeId | storeCode | storeState | storeCity => .store

/-- The keys by which requests name a level. -/
def keys : Level → List String
  | productId => ["product_id", "item_code"]
  | productName => ["product_name", "item_description"]
  | productLevel1 => ["level1"]
  | productLevel2 => ["level2"]
  | productLevel3 => ["level3"]
  | productLevel4 => ["level4"]
  | familyGroup => ["family_group"]
  | dayPart => ["day_part"]
  | storeId => ["store_id"]
  | storeCode => ["store_code"]
  | storeState => ["state"]
  | storeCity => ["city"]

def column : Level → Column
  | productId => .itemCode
  | productName => .itemDescription
  | productLevel1 => .hierarchyLevel1
  | productLevel2 => .hierarchyLevel2
  | productLevel3 => .hierarchyLevel3
  | productLevel4 => .hierarchyLevel4
  | familyGroup => .familyGroup
  | dayPart => .dayPart
  | storeId => .storeId
  | storeCode => .storeCode
  | storeState => .storeState
  | storeCity => .storeCity

def axis : Level → Axis
  | storeId | storeCode | storeState | storeCity => .store
  | productName => .productName
  | familyGroup => .familyGroup
  | dayPart => .dayPart
  | productId | productLevel1 | productLevel2 | productLevel3 | productLevel4 => .product

/-- The level of a hierarchy that a key names. -/
def ofKey? (h : Hierarchy) (key : String) : Option Level :=
  all.find? fun l => l.hierarchy = h && l.keys.contains key

end Level

end Takings.Filter
