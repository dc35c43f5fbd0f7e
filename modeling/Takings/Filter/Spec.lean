import Takings.Filter.Composite
import Takings.Filter.Params
import Takings.Filter.Scalar

/-!
# Filter specifications

The active filters of a request: at most one value for each scalar filter, in the order in which
they stand in a query, and the filters on hierarchies in the order in which they were added.
Values have no white space around them.
-/
namespace Takings.Filter

structure Spec where
  scalars : List (Scalar × String)
  levels : List LevelFilter
  deriving DecidableEq, Repr

namespace Spec

def empty : Spec :=
  ⟨[], []⟩

def isEmpty (s : Spec) : Bool :=
  s.scalars.isEmpty && s.levels.isEmpty

/-- Puts in a scalar filter: another value of that filter gives way, the new one comes last, and
all are sorted into their order again. -/
def putScalar (f : Scalar) (value : String) (l : List (Scalar × String)) :
    List (Scalar × String) :=
  ((l.filter fun e => e.1 ≠ f) ++ [(f, value)]).mergeSort fun a b => a.1.rank ≤ b.1.rank

/-- Sets a scalar filter; a value that is not active changes nothing. -/
def withScalar (s : Spec) (f : Scalar) (value : String) : Spec :=
  match active? value with
  | some v => { s with scalars := putScalar f v s.scalars }
  | none => s

/-- Sets a scalar filter, if there is a value. -/
def withScalar? (s : Spec) (f : Scalar) (value : Option String) : Spec :=
  match value with
  | some value => s.withScalar f value
  | none => s

/-- Adds a filter on a level; a value that is not active changes nothing. -/
def withLevel (s : Spec) (l : Level) (value : String) : Spec :=
  match active? value with
  | some v => { s with levels := s.levels ++ [⟨l, v⟩] }
  | none => s

/-- Drops the filters on an axis. -/
def without (s : Spec) (a : Axis) : Spec where
  scalars := s.scalars.filter fun (f, _) => f.axis ≠ a
  levels := s.levels.filter fun l => l.level.axis ≠ a

/-- The filters of a request. The composite filter on stores comes before the one on products. -/
def ofParams (p : Params) : Spec where
  scalars := (Scalar.all.foldl (fun s f => s.withScalar? f (p.scalar f)) empty).scalars
  levels := [Hierarchy.store, .product].filterMap fun h =>
    (p.composite h).bind (Composite.filter? h)

end Spec

end Takings.Filter
