import Takings.Abort
import Takings.Query.Run

/-!
# Caches

Payloads that are kept for a fixed time. An entry is replaced as a whole, and what failed to be
computed is not kept. Times are in nanoseconds.
-/
namespace Takings

/-- The instants that a clock can tell: whole seconds fit 63 bits. -/
def endOfTime : Nat :=
  9223372036854775808 * 1000000000

/-- The instant so much later, if the clock can tell it. -/
def later? (now span : Nat) : Option Nat :=
  if now + span < endOfTime then some (now + span) else none

/-- A payload and the instant from which on it is stale. -/
structure Entry (ν : Type) where
  payload : ν
  expires : Nat

def Entry.isFresh {ν : Type} (e : Entry ν) (now : Nat) : Bool :=
  now < e.expires

structure Cache (κ ν : Type) where
  /-- How long a payload is kept. -/
  ttl : Nat
  entries : List (κ × Entry ν)

namespace Cache

variable {κ ν : Type}

def empty (ttl : Nat) : Cache κ ν :=
  ⟨ttl, []⟩

variable [DecidableEq κ]

/-- The entry of a key, stale or not. -/
def lookup? (c : Cache κ ν) (k : κ) : Option (Entry ν) :=
  (c.entries.find? fun p => p.1 = k).map Prod.snd

/-- The payload of a key, unless it is stale. -/
def get? (c : Cache κ ν) (k : κ) (now : Nat) : Option ν :=
  ((c.lookup? k).filter fun e => e.isFresh now).map Entry.payload

/-- Replaces the entry of a key. -/
def put (c : Cache κ ν) (k : κ) (e : Entry ν) : Cache κ ν :=
  { c with entries := (k, e) :: c.entries.filter fun p => p.1 ≠ k }

/-- The payload of a key, computed by a run unless a fresh one is there, and the cache afterwards.
The run may fail; its payload is kept from the instant at which it ends. -/
def getOrRunUntil (c : Cache κ ν) (k : κ) (now ended : Nat) (r : Run ν) :
    Run ν × Except Abort (Cache κ ν) :=
  match c.get? k now with
  | some v => (.done v, .ok c)
  | none =>
    match r.outcome with
    | .error _ => (r, .ok c)
    | .ok v =>
      match later? ended c.ttl with
      | some t => (r, .ok (c.put k ⟨v, t⟩))
      | none => (r, .error .beyondClock)

/-- The same for a run that ends at the instant at which it begins. -/
def getOrRun (c : Cache κ ν) (k : κ) (now : Nat) (r : Run ν) :
    Except Abort (Run ν × Cache κ ν) :=
  let (run, next) := c.getOrRunUntil k now now r
  next.map fun c => (run, c)

theorem lookup?_put (c : Cache κ ν) (k j : κ) (e : Entry ν) :
    (c.put k e).lookup? j = if k = j then some e else c.lookup? j := by
  by_cases h : k = j
  · simp [lookup?, put, h]
  · simp only [lookup?, put, List.find?_cons, h, if_false, decide_false, List.find?_filter]
    congr 1
    congr 1
    funext p
    by_cases hp : p.1 = j <;> simp [hp, Ne.symm h]

theorem get?_put (c : Cache κ ν) (k : κ) (e : Entry ν) (now : Nat) :
    (c.put k e).get? k now = if now < e.expires then some e.payload else none := by
  by_cases h : now < e.expires <;> simp [get?, lookup?_put, Entry.isFresh, Option.filter, h]

end Cache

end Takings
