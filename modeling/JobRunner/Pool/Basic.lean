import JobRunner.Routine
import JobRunner.Table
/-!
# Worker pools

A fixed number of workers take units of work from a bounded queue.  Handing over a unit never waits for a place: when the
queue is full, the unit gets a thread of its own; when the pool is closed, it is dropped.  Closing a pool lets the queued units
run and then waits for all threads.

It may be that no thread can be made for a unit.  Then the thread that handed it over runs the unit itself before it goes
on, and nobody waits for that.  What runs such a unit counts as a thread here, too; it lodges with the other one.

This module holds what a pool is made of.  Each thread is in one of the phases below, which lie between the steps that
other threads can tell apart; `Pool.step` says what one thread does in its next step.
-/
namespace JobRunner

/-- What became of a unit that was handed to a pool. -/
inductive Submission where
  /-- It waits in the queue for a worker. -/
  | queued
  /-- The queue was full; it runs on a thread of its own. -/
  | overflow
  /-- The pool is closed; it never runs. -/
  | rejected
  deriving DecidableEq, Repr

namespace Pool

/-- What code can ask of the pool. -/
inductive Request (υ : Type) where
  | submit (unit : υ)
  | close

/-- The type of a reply. -/
@[reducible] def Request.Reply {υ : Type} : Request υ → Type
  | submit _ => Submission
  | close => Unit

@[reducible] def interface (υ : Type) : Interface := ⟨Request υ, Request.Reply⟩

/-- What a thread runs. -/
abbrev Code (σ υ : Type) : Type := Routine σ (interface υ) Unit

/-- Hands a unit to the pool. -/
def submit {σ υ : Type} (unit : υ) : Routine σ (interface υ) Submission :=
  .ask (S := interface υ) (.submit unit) .done

/-- Closes the pool. -/
def close {σ υ : Type} : Code σ υ := .ask (S := interface υ) .close .done

/-- A unit, numbered by its submission. -/
structure Entry (υ : Type) where
  ticket : Nat
  unit : υ
  deriving DecidableEq, Repr

/-- The threads that come near a pool: those outside it, its workers, and those that run a unit each beside the queue. -/
inductive ThreadId where
  | caller (n : Nat)
  | worker (n : Nat)
  | overflow (n : Nat)
  deriving DecidableEq, Repr

/-- Where a thread stands. -/
inductive Phase (σ υ : Type) where
  /-- A worker without a unit. -/
  | idle
  /-- It has a unit, which has not begun. -/
  | starting (entry : Entry υ)
  | running (code : Code σ υ)
  /-- It found the pool not closed and goes to the queue. -/
  | offering (entry : Entry υ) (next : Submission → Code σ υ)
  /-- It found the queue full and goes to start a thread. -/
  | spilling (entry : Entry υ) (next : Submission → Code σ υ)
  /-- The fate of its submission is settled but not counted. -/
  | answering (ticket : Nat) (answer : Submission) (next : Submission → Code σ υ)
  /-- It closed the pool; the queue still takes units. -/
  | hangingUp (next : Code σ υ)
  /-- It goes to fetch the list of workers. -/
  | collecting (next : Code σ υ)
  /-- It waits for the listed workers. -/
  | joining (rest : List ThreadId) (next : Code σ υ)
  /-- It goes to fetch the list of overflow threads. -/
  | collectingOverflow (next : Code σ υ)
  /-- It waits for the listed overflow threads. -/
  | joiningOverflow (rest : List ThreadId) (next : Code σ υ)
  /-- Its unit ended but is not counted. -/
  | counting (crashed : Bool)
  | gone

/-- A thread, and the ticket of the unit that it works on. -/
structure Thread (σ υ : Type) where
  ticket : Option Nat := none
  phase : Phase σ υ

/-- Where a thread lodges that could not be made: its unit comes before anything else that its host does.  A host may
lodge with another one in turn; all of that is run by one thread, which is not a lodger. -/
structure Lodging where
  host : ThreadId
  runner : ThreadId
  deriving DecidableEq, Repr

def Phase.isGone {σ υ : Type} : Phase σ υ → Bool
  | gone => true
  | _ => false

/-- What is counted. -/
structure Counters where
  queued : Nat := 0
  overflow : Nat := 0
  rejected : Nat := 0
  completed : Nat := 0
  crashed : Nat := 0
  deriving DecidableEq, Repr

/-- Counts the answer to a submission; a unit with a thread of its own is counted when that thread is made. -/
def Counters.answer (c : Counters) : Submission → Counters
  | .queued => { c with queued := c.queued + 1 }
  | .overflow => c
  | .rejected => { c with rejected := c.rejected + 1 }

/-- Counts a unit that ended. -/
def Counters.unit (c : Counters) (crashed : Bool) : Counters :=
  if crashed then { c with crashed := c.crashed + 1 } else { c with completed := c.completed + 1 }

end Pool

/-- A pool, the threads around it, and the state that all of them share. -/
structure Pool (σ υ : Type) where
  name : String
  workers : Nat
  /-- What a unit does. -/
  code : υ → Pool.Code σ υ
  shared : σ
  /-- No more submissions are wanted. -/
  isClosed : Bool := false
  /-- The queue can still take units. -/
  isOpen : Bool := true
  queue : List (Pool.Entry υ) := []
  threads : Table Pool.ThreadId (Pool.Thread σ υ) := .empty
  /-- The workers that nobody waits for yet. -/
  handles : List Pool.ThreadId := []
  /-- The overflow threads that nobody waits for yet; those known to be gone are left out. -/
  overflowHandles : List Pool.ThreadId := []
  counters : Pool.Counters := {}
  submissions : Nat := 0
  callers : Nat := 0
  /-- Whether a thread can be made for a unit that finds no place in the queue, by the number of such units before it. -/
  grants : Nat → Bool := fun _ => true
  /-- The threads that could not be made. -/
  lodgings : Table Pool.ThreadId Pool.Lodging := .empty

namespace Pool

variable {σ υ : Type}

/-- The name of a pool that is given none. -/
def standardName : String := "fleetops-worker"

/-- The number of units that the queue holds. -/
def capacity (p : Pool σ υ) : Nat := 2 * p.workers

def put (p : Pool σ υ) (id : ThreadId) (t : Thread σ υ) : Pool σ υ := { p with threads := p.threads.insert id t }

/-- The thread has ended. -/
def isGone (p : Pool σ υ) (id : ThreadId) : Bool := ((p.threads.get? id).map (·.phase.isGone)).getD true

/-- The thread that runs what a thread does: for all but lodgers, the thread itself. -/
def runner (p : Pool σ υ) (id : ThreadId) : ThreadId := ((p.lodgings.get? id).map Lodging.runner).getD id

/-- The thread has a lodger that has not ended. -/
def isHosting (p : Pool σ υ) (id : ThreadId) : Bool :=
  p.lodgings.entries.any fun e => e.2.host == id && !p.isGone e.1

/-- The bytes that a place in the queue takes. -/
def placeSize : Nat := 24

/-- Threads can bear the name, which may not hold a zero character, and the queue fits what 63 bits address. -/
def canStart (name : String) (workers : Nat) : Bool :=
  name.toList.all (· != '\x00') && decide (2 * workers * placeSize < Nat.pow 2 63)

/-- A pool with at least one worker, all of them idle. -/
def start (name : String) (workers : Nat) (code : υ → Code σ υ) (shared : σ)
    (grants : Nat → Bool := fun _ => true) : Pool σ υ :=
  let n := max workers 1
  let ids := (List.range n).map ThreadId.worker
  ids.foldl (fun p id => p.put id { phase := .idle }) { name, workers := n, code, shared, handles := ids, grants }

/-- A pool, unless there cannot be one with that name and so many workers. -/
def start? (name : String) (workers : Nat) (code : υ → Code σ υ) (shared : σ) : Option (Pool σ υ) :=
  if canStart name workers then some (start name workers code shared) else none

/-- A new thread outside the pool that runs some code. -/
def call (code : Code σ υ) (p : Pool σ υ) : Pool σ υ :=
  { p.put (.caller p.callers) { phase := .running code } with callers := p.callers + 1 }

/-- What a pool tells about itself. -/
structure Stats where
  workers : Nat
  queueCapacity : Nat
  counters : Counters
  deriving DecidableEq, Repr

def stats (p : Pool σ υ) : Stats := ⟨p.workers, p.capacity, p.counters⟩

end Pool
end JobRunner
