import Takings.Calendar.Period
import Takings.Filter.Spec
import Takings.Query.Bind
import Takings.Word

/-!
# Predicates

The conditions of a query: the window of days and then every filter. Each compares a column with
a placeholder, and the placeholders are numbered in order.
-/
namespace Takings

inductive Comparison where
  | equal
  | atLeast
  | atMost
  deriving DecidableEq, Repr

def Comparison.sql : Comparison → String
  | equal => "="
  | atLeast => ">="
  | atMost => "<="

/-- A comparison of a column with a value. -/
structure Condition where
  column : Column
  comparison : Comparison
  value : Bind
  deriving DecidableEq, Repr

namespace Condition

/-- The day of a sale is within a window. -/
def ofWindow (w : Window) : List Condition :=
  [⟨.businessDate, .atLeast, .date w.first⟩, ⟨.businessDate, .atMost, .date w.last⟩]

def ofSpec (s : Filter.Spec) : List Condition :=
  (s.scalars.map fun (f, v) => ⟨f.column, .equal, .text v⟩) ++
    s.levels.map fun l => ⟨l.level.column, .equal, .text l.value⟩

end Condition

/-- A condition with the number of its placeholder. -/
structure Clause extends Condition where
  index : Nat
  deriving DecidableEq, Repr

/-- The text of a placeholder. -/
def placeholder (index : Nat) : String :=
  "$" ++ Text.natText index

def Clause.sql (c : Clause) : String :=
  c.column.sql ++ " " ++ c.comparison.sql ++ " " ++ placeholder c.index

/-- Clauses that must all hold. -/
structure Predicate where
  clauses : List Clause
  deriving DecidableEq, Repr

namespace Predicate

def binds (p : Predicate) : List Bind :=
  p.clauses.map fun c => c.value

/-- The dimensions that hold the columns of the clauses. -/
def joins (p : Predicate) : Joins :=
  .ofColumns (p.clauses.map fun c => c.column)

/-- The WHERE clause, empty if there is no condition. -/
def sql (p : Predicate) : String :=
  if p.clauses.isEmpty then ""
  else "WHERE " ++ "\n  AND ".intercalate (p.clauses.map Clause.sql)

end Predicate

/-- A predicate and the number of the first placeholder that it leaves free. -/
structure Numbered where
  predicate : Predicate
  next : Nat
  deriving DecidableEq, Repr

/-- Numbers conditions from a start. -/
def number : Nat → List Condition → Numbered
  | next, [] => ⟨⟨[]⟩, next⟩
  | next, c :: cs =>
    let rest := number (Word.wrap (next + 1)) cs
    ⟨⟨⟨c, next⟩ :: rest.predicate.clauses⟩, rest.next⟩

theorem conditions_number (next : Nat) (cs : List Condition) :
    (number next cs).predicate.clauses.map Clause.toCondition = cs := by
  induction cs generalizing next with
  | nil => rfl
  | cons c cs ih =>
    simp only [number, List.map_cons]
    rw [ih]

theorem binds_number (next : Nat) (cs : List Condition) :
    (number next cs).predicate.binds = cs.map Condition.value := by
  rw [← conditions_number next cs, List.map_map, conditions_number]
  rfl

/-- The numbers are consecutive as long as they are words. -/
theorem indices_number {next : Nat} {cs : List Condition}
    (h : next + cs.length ≤ 18446744073709551616) :
    (number next cs).predicate.clauses.map Clause.index = List.range' next cs.length := by
  induction cs generalizing next with
  | nil => rfl
  | cons c cs ih =>
    cases cs with
    | nil => rfl
    | cons d ds =>
      simp only [List.length_cons] at h
      have hw : Word.wrap (next + 1) = next + 1 := Word.wrap_of_lt (by omega)
      have hl : next + 1 + (d :: ds).length ≤ 18446744073709551616 := by
        simp only [List.length_cons]
        omega
      rw [number, hw, List.map_cons, ih hl, List.length_cons (a := c), List.range'_succ]

theorem next_number {next : Nat} {cs : List Condition}
    (h : next + cs.length < 18446744073709551616) : (number next cs).next = next + cs.length := by
  induction cs generalizing next with
  | nil => rfl
  | cons c cs ih =>
    simp only [List.length_cons] at h
    have hw : Word.wrap (next + 1) = next + 1 := Word.wrap_of_lt (by omega)
    simp only [number, hw, List.length_cons]
    rw [ih (by omega)]
    omega

/-- The numbered conditions of a window and a specification. Numbers begin at one at least. -/
def compile (s : Filter.Spec) (w : Window) (start : Nat) : Numbered :=
  number (max start 1) (Condition.ofWindow w ++ Condition.ofSpec s)

end Takings
