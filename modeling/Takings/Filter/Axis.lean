/-!
# Axes

What a filter is about. A report that is broken down along an axis leaves out the filters on it.
-/
namespace Takings.Filter

inductive Axis where
  | store
  /-- The identity of a product and the levels of the product hierarchy. -/
  | product
  | productName
  | familyGroup
  | dayPart
  | machine
  | saleType
  | deliveryChannel
  | pod
  | owner
  deriving DecidableEq, Repr

end Takings.Filter
