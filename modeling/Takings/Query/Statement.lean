import Takings.Query.Predicate

/-!
# Statements

A query as data: what is selected, what is joined, which clauses must hold, and how rows are
grouped, ordered and cut. Its text is made of nothing but the names of the schema, the words of
the query language and the numbers of placeholders.
-/
namespace Takings

/-- The label of rows that have none. -/
def unknownLabel : String :=
  "Unknown"

/-- What a query computes for a row. -/
inductive Expr where
  | column (c : Column)
  | sum (c : Column)
  /-- The sum, zero if there is nothing to add. -/
  | sumOrZero (c : Column)
  | countDistinct (c : Column)
  /-- The hour of a time of the day. -/
  | hour (c : Column)
  /-- The column as a text that is compared byte by byte. -/
  | label (c : Column)
  deriving DecidableEq, Repr

namespace Expr

def source : Expr → Column
  | column c | sum c | sumOrZero c | countDistinct c | hour c | label c => c

def sql : Expr → String
  | column c => c.sql
  | sum c => "SUM(" ++ c.sql ++ ")"
  | sumOrZero c => "COALESCE(SUM(" ++ c.sql ++ "), 0)"
  | countDistinct c => "COUNT(DISTINCT " ++ c.sql ++ ")"
  | hour c => "EXTRACT(HOUR FROM " ++ c.sql ++ ")::int"
  | label c => "COALESCE(" ++ c.sql ++ "::text, '" ++ unknownLabel ++ "') COLLATE \"C\""

end Expr

/-- A selected expression, with a name if it does not keep its own. -/
structure Selection where
  expr : Expr
  name : Option String
  deriving DecidableEq, Repr

namespace Selection

def sql (s : Selection) : String :=
  match s.name with
  | some name => s.expr.sql ++ " AS " ++ name
  | none => s.expr.sql

/-- A column under its own name. -/
def plain (c : Column) : Selection :=
  ⟨.column c, none⟩

def named (e : Expr) (name : String) : Selection :=
  ⟨e, some name⟩

end Selection

/-- What rows are grouped or ordered by. -/
inductive Key where
  | column (c : Column)
  /-- The name of a selected expression. -/
  | name (s : String)
  /-- The place of a selected expression. -/
  | place (n : Nat)
  deriving DecidableEq, Repr

def Key.sql : Key → String
  | column c => c.sql
  | name s => s
  | place n => Text.natText n

structure Order where
  key : Key
  descending : Bool
  deriving DecidableEq, Repr

namespace Order

def sql (o : Order) : String :=
  o.key.sql ++ (if o.descending then " DESC" else " ASC")

def rising (k : Key) : Order :=
  ⟨k, false⟩

def falling (k : Key) : Order :=
  ⟨k, true⟩

end Order

structure Statement where
  select : List Selection
  joins : Joins
  predicate : Predicate
  group : List Key
  order : List Order
  /-- The placeholder of the greatest number of rows. -/
  limit : Option Nat
  deriving DecidableEq, Repr

namespace Statement

/-- The sections of the text from first to last; one that has no content is left out. -/
def sections (s : Statement) : List String :=
  ["SELECT\n    " ++ ",\n    ".intercalate (s.select.map Selection.sql), s.joins.sql] ++
    (if s.predicate.clauses.isEmpty then [] else [s.predicate.sql]) ++
    (if s.group.isEmpty then [] else ["GROUP BY " ++ ", ".intercalate (s.group.map Key.sql)]) ++
    (if s.order.isEmpty then [] else ["ORDER BY " ++ ", ".intercalate (s.order.map Order.sql)]) ++
    (match s.limit with
      | some index => ["LIMIT " ++ placeholder index]
      | none => [])

def sql (s : Statement) : String :=
  "\n".intercalate s.sections

end Statement

end Takings
