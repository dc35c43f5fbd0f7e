import Takings.Cache.Basic

/-!
# Callers in flight

How callers at work at the same time share a cache. A caller looks for its key; if there is
nothing fresh it queues for the key, looks again once it is the first of the queue, and only then
populates the key, which means that it computes the payload. It leaves the queue when the payload
is stored, when computing it failed or when it is cancelled. Every event is one step of one
caller, or time passing; an event that cannot happen changes nothing.
-/
namespace Takings

/-- How far a caller has come. -/
inductive Stage (κ ν : Type) where
  | absent
  /-- The first look found nothing fresh. -/
  | missed (key : κ)
  | queued (key : κ)
  /-- The second look found nothing fresh either. -/
  | cleared (key : κ)
  | populating (key : κ)
  /-- The payload is computed and its time is set. -/
  | storing (key : κ) (entry : Entry ν)
  | leaving (key : κ) (result : Except Failure ν)
  | done (result : Except Failure ν)
  /-- Cancelled, or stopped because its payload would expire beyond the clock. -/
  | gone

/-- What can happen next. Callers are numbered. -/
inductive Event (κ ν : Type) where
  | arrive (i : Nat) (key : κ)
  | queue (i : Nat)
  | lookAgain (i : Nat)
  | populate (i : Nat)
  | finish (i : Nat) (result : Except Failure ν)
  | store (i : Nat)
  | leave (i : Nat)
  | cancel (i : Nat)
  | pass (span : Nat)

structure Flight (κ ν : Type) where
  cache : Cache κ ν
  clock : Nat
  stage : Nat → Stage κ ν
  /-- Callers with their keys, in the order in which they queued. -/
  queue : List (Nat × κ)
  /-- How many populations have been started. -/
  populations : Nat

namespace Flight

variable {κ ν : Type}

/-- No caller yet. -/
def start (c : Cache κ ν) (clock : Nat) : Flight κ ν :=
  ⟨c, clock, fun _ => .absent, [], 0⟩

def setStage (f : Flight κ ν) (i : Nat) (s : Stage κ ν) : Flight κ ν :=
  { f with stage := fun j => if j = i then s else f.stage j }

/-- Takes a caller out of the queue. -/
def unqueue (f : Flight κ ν) (i : Nat) : Flight κ ν :=
  { f with queue := f.queue.filter fun p => p.1 ≠ i }

variable [DecidableEq κ]

/-- The caller whose turn it is for a key. -/
def holder? (f : Flight κ ν) (k : κ) : Option Nat :=
  (f.queue.find? fun p => p.2 = k).map Prod.fst

def arrive (f : Flight κ ν) (i : Nat) (k : κ) : Flight κ ν :=
  match f.stage i with
  | .absent =>
    match f.cache.get? k f.clock with
    | some v => f.setStage i (.done (.ok v))
    | none => f.setStage i (.missed k)
  | _ => f

def enqueue (f : Flight κ ν) (i : Nat) : Flight κ ν :=
  match f.stage i with
  | .missed k => { f.setStage i (.queued k) with queue := f.queue ++ [(i, k)] }
  | _ => f

def lookAgain (f : Flight κ ν) (i : Nat) : Flight κ ν :=
  match f.stage i with
  | .queued k =>
    if f.holder? k = some i then
      match f.cache.get? k f.clock with
      | some v => f.setStage i (.leaving k (.ok v))
      | none => f.setStage i (.cleared k)
    else f
  | _ => f

def populate (f : Flight κ ν) (i : Nat) : Flight κ ν :=
  match f.stage i with
  | .cleared k => { f.setStage i (.populating k) with populations := f.populations + 1 }
  | _ => f

def finish (f : Flight κ ν) (i : Nat) (result : Except Failure ν) : Flight κ ν :=
  match f.stage i with
  | .populating k =>
    match result with
    | .error e => f.setStage i (.leaving k (.error e))
    | .ok v =>
      match later? f.clock f.cache.ttl with
      | some t => f.setStage i (.storing k ⟨v, t⟩)
      | none => (f.setStage i .gone).unqueue i
  | _ => f

def store (f : Flight κ ν) (i : Nat) : Flight κ ν :=
  match f.stage i with
  | .storing k e => { f.setStage i (.leaving k (.ok e.payload)) with cache := f.cache.put k e }
  | _ => f

def leave (f : Flight κ ν) (i : Nat) : Flight κ ν :=
  match f.stage i with
  | .leaving _ r => (f.setStage i (.done r)).unqueue i
  | _ => f

/-- A caller can be cancelled while it waits: for its place in the queue, in the queue or for its
payload. -/
def cancel (f : Flight κ ν) (i : Nat) : Flight κ ν :=
  match f.stage i with
  | .missed _ | .queued _ | .populating _ => (f.setStage i .gone).unqueue i
  | _ => f

def step (f : Flight κ ν) : Event κ ν → Flight κ ν
  | .arrive i k => f.arrive i k
  | .queue i => f.enqueue i
  | .lookAgain i => f.lookAgain i
  | .populate i => f.populate i
  | .finish i r => f.finish i r
  | .store i => f.store i
  | .leave i => f.leave i
  | .cancel i => f.cancel i
  | .pass span => { f with clock := f.clock + span }

def run (f : Flight κ ν) (events : List (Event κ ν)) : Flight κ ν :=
  events.foldl step f

/-- The result of a caller, once it has one. -/
def result? (f : Flight κ ν) (i : Nat) : Option (Except Failure ν) :=
  match f.stage i with
  | .done r => some r
  | _ => none

/-- The events of callers that all arrive before any payload is computed, and whose payloads are
then computed in the order of the callers. -/
def together (callers : List (κ × Except Failure ν)) : List (Event κ ν) :=
  let numbered := callers.zipIdx
  (numbered.flatMap fun ((k, _), i) => [.arrive i k, .queue i, .lookAgain i, .populate i]) ++
    numbered.flatMap fun ((_, r), i) =>
      [.lookAgain i, .populate i, .finish i r, .store i, .leave i]

end Flight

end Takings
