import Takings.Filter.Axis
import Takings.Schema

/-!
# Scalar filters

The filters that compare one column with one request parameter.
-/
namespace Takings.Filter

inductive Scalar where
  | restaurant
  | productId
  | machine
  | saleType
  | deliveryChannel
  | pod
  | ocEmail
  | omEmail
  deriving DecidableEq, Repr

namespace Scalar

/-- The order in which scalar filters stand in a query. -/
def all : List Scalar :=
  [restaurant, productId, machine, saleType, deliveryChannel, pod, ocEmail, omEmail]

/-- The place of a filter in that order. -/
def rank : Scalar → Nat
  | restaurant => 0
  | productId => 1
  | machine => 2
  | saleType => 3
  | deliveryChannel => 4
  | pod => 5
  | ocEmail => 6
  | omEmail => 7

def column : Scalar → Column
  | restaurant => .storeId
  | productId => .itemCode
  | machine => .nodeId
  | saleType => .saleType
  | deliveryChannel => .deliveryChannel
  | pod => .pod
  | ocEmail => .ocEmail
  | omEmail => .omEmail

def axis : Scalar → Axis
  | restaurant => .store
  | productId => .product
  | machine => .machine
  | saleType => .saleType
  | deliveryChannel => .deliveryChannel
  | pod => .pod
  | ocEmail | omEmail => .owner

theorem mem_all (f : Scalar) : f ∈ all := by
  cases f <;> decide

end Scalar

end Takings.Filter
