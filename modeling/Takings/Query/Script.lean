import Takings.Query.Placeholder
import Takings.Query.Run

/-!
# Scripted databases

A database that answers from a script: queries whose text holds a given fragment fail or give
given rows. Failures go before rows, and what was written first goes before what came later.
-/
namespace Takings

/-- Whether a text occurs in another one. -/
def occurs (part : List Char) : List Char → Bool
  | [] => part.isEmpty
  | c :: cs => part.isPrefixOf (c :: cs) || occurs part cs

structure Script where
  failures : List (String × Failure)
  responses : List (String × List Json)

namespace Script

def empty : Script :=
  ⟨[], []⟩

def fail (s : Script) (fragment : String) (e : Failure) : Script :=
  { s with failures := s.failures ++ [(fragment, e)] }

def respond (s : Script) (fragment : String) (rows : List Json) : Script :=
  { s with responses := s.responses ++ [(fragment, rows)] }

/-- The first entry whose fragment occurs in a text. -/
def lookup? {α : Type} (sql : String) (entries : List (String × α)) : Option α :=
  (entries.find? fun (fragment, _) => occurs fragment.toList sql.toList).map Prod.snd

/-- Answers a query, once its binds fit its placeholders. -/
def database (s : Script) : Database := fun c => do
  Placeholder.check c.sql c.binds
  match lookup? c.sql s.failures with
  | some e => .error e
  | none => .ok ((lookup? c.sql s.responses).getD [])

end Script

end Takings
