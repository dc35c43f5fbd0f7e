import Takings.Filter.Scalar
import Takings.Filter.Level
import Takings.Json.Record

/-!
# Request parameters

The parameters that every report takes. A parameter that is left out, null or empty is absent.
-/
namespace Takings.Filter

structure Params where
  timePeriod : Option String
  restaurantId : Option String
  store : Option String
  product : Option String
  productId : Option String
  machineId : Option String
  transactionType : Option String
  deliveryChannel : Option String
  pod : Option String
  ocEmailId : Option String
  omEmailId : Option String
  deriving DecidableEq, Repr

namespace Params

open Json

/-- No parameter is given. -/
def none : Params :=
  ⟨.none, .none, .none, .none, .none, .none, .none, .none, .none, .none, .none⟩

def parameter (name : String) : Field :=
  .optional name .textOrBlank Option.none

def record : Record where
  title := "ReportParams"
  fields :=
    [parameter "timePeriod", parameter "restaurantId", parameter "store", parameter "product",
      parameter "productId", parameter "machineId", parameter "transactionType",
      parameter "deliveryChannel", parameter "pod", parameter "ocEmailId", parameter "omEmailId"]

def ofValues : Values record.fields → Params
  | (timePeriod, restaurantId, store, product, productId, machineId, transactionType,
      deliveryChannel, pod, ocEmailId, omEmailId, ()) =>
    ⟨timePeriod, restaurantId, store, product, productId, machineId, transactionType,
      deliveryChannel, pod, ocEmailId, omEmailId⟩

def read (v : Json) : Except DecodeError Params :=
  (record.read v).map ofValues

/-- Reads parameters from the names and values of a query string, in their order. -/
def ofPairs (pairs : List (String × String)) : Except DecodeError Params :=
  (record.ofMembers (pairs.map fun (name, value) => (name, .str value))).map ofValues

/-- The parameters under their names, an absent one as the empty text. -/
def toJson (p : Params) : Json :=
  let text (value : Option String) : Json := .str (value.getD "")
  .object
    [("timePeriod", text p.timePeriod), ("restaurantId", text p.restaurantId),
      ("store", text p.store), ("product", text p.product), ("productId", text p.productId),
      ("machineId", text p.machineId), ("transactionType", text p.transactionType),
      ("deliveryChannel", text p.deliveryChannel), ("pod", text p.pod),
      ("ocEmailId", text p.ocEmailId), ("omEmailId", text p.omEmailId)]

/-- The parameter of a scalar filter. -/
def scalar (p : Params) : Scalar → Option String
  | .restaurant => p.restaurantId
  | .productId => p.productId
  | .machine => p.machineId
  | .saleType => p.transactionType
  | .deliveryChannel => p.deliveryChannel
  | .pod => p.pod
  | .ocEmail => p.ocEmailId
  | .omEmail => p.omEmailId

/-- The parameter of a composite filter. -/
def composite (p : Params) : Hierarchy → Option String
  | .store => p.store
  | .product => p.product

end Params

end Takings.Filter
