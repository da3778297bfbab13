import JobRunner.Pool.Basic
/-!
# Steps of a pool

What one thread does next.  A step is as much as other threads can see happen at once: reading the mark of a closed pool,
one visit to the queue, one visit to the list of overflow threads, one step of the code of a unit, one count.  A thread
that waits for a unit or for the end of another thread has no step until there is one, nor has one that has to run the
unit of another thread first.
-/
namespace JobRunner
namespace Pool

variable {σ υ : Type}

/-- The next step of a thread that runs code. -/
def stepCode (p : Pool σ υ) (id : ThreadId) (t : Thread σ υ) : Code σ υ → Option (Pool σ υ)
  | .done () =>
    some (p.put id { t with phase := match id with | .caller _ => .gone | _ => .counting false })
  | .crash =>
    some (p.put id { t with phase := match id with | .caller _ => .gone | _ => .counting true })
  | .step ready act next =>
    if ready p.shared then some { p.put id { t with phase := .running (next p.shared) } with shared := act p.shared }
    else none
  | .ask (.submit unit) next =>
    let entry : Entry υ := ⟨p.submissions, unit⟩
    let p := { p with submissions := p.submissions + 1 }
    if p.isClosed then some (p.put id { t with phase := .answering entry.ticket .rejected next })
    else some (p.put id { t with phase := .offering entry next })
  | .ask .close next =>
    if p.isClosed then some (p.put id { t with phase := .running (next ()) })
    else some { p.put id { t with phase := .hangingUp (next ()) } with isClosed := true }

/-- A visit to the queue with a unit. -/
def offer (p : Pool σ υ) (id : ThreadId) (t : Thread σ υ) (entry : Entry υ) (next : Submission → Code σ υ) :
    Pool σ υ :=
  if p.isOpen then
    if p.queue.length < p.capacity then
      { p.put id { t with phase := .answering entry.ticket .queued next } with queue := p.queue ++ [entry] }
    else p.put id { t with phase := .spilling entry next }
  else p.put id { t with phase := .answering entry.ticket .rejected next }

/-- A visit to the list of overflow threads with a unit that found no place in the queue.  A thread for it goes on the
list; if none can be made, it lodges with the one that makes the visit, and is on no list. -/
def spill (p : Pool σ υ) (id : ThreadId) (t : Thread σ υ) (entry : Entry υ) (next : Submission → Code σ υ) :
    Pool σ υ :=
  if p.isClosed then p.put id { t with phase := .answering entry.ticket .rejected next }
  else
    let made := ThreadId.overflow p.counters.overflow
    let entered : Pool σ υ :=
      if p.grants p.counters.overflow then
        { p with overflowHandles := (p.overflowHandles.filter fun h => !p.isGone h) ++ [made] }
      else { p with lodgings := p.lodgings.insert made ⟨id, p.runner id⟩ }
    { (entered.put made { ticket := some entry.ticket, phase := .starting entry }).put id
        { t with phase := .running (next .overflow) }
      with counters := { p.counters with overflow := p.counters.overflow + 1 } }

/-- Waits for the first of the listed threads, unless that is the one that runs the waiting thread. -/
def join (p : Pool σ υ) (id : ThreadId) : List ThreadId → Option (List ThreadId)
  | [] => none
  | h :: rest => if h = p.runner id ∨ p.isGone h then some rest else none

/-- The next step of a thread that has no lodger, if there is one. -/
def advance (id : ThreadId) (p : Pool σ υ) : Option (Pool σ υ) := do
  let t ← p.threads.get? id
  match t.phase with
  | .idle =>
    match p.queue with
    | entry :: rest =>
      some { p.put id { ticket := some entry.ticket, phase := .starting entry } with queue := rest }
    | [] => if p.isOpen then none else some (p.put id { t with phase := .gone })
  | .starting entry => some (p.put id { t with phase := .running (p.code entry.unit) })
  | .running code => p.stepCode id t code
  | .offering entry next => some (p.offer id t entry next)
  | .spilling entry next => some (p.spill id t entry next)
  | .answering _ answer next =>
    some { p.put id { t with phase := .running (next answer) } with counters := p.counters.answer answer }
  | .hangingUp next => some { p.put id { t with phase := .collecting next } with isOpen := false }
  | .collecting next => some { p.put id { t with phase := .joining p.handles next } with handles := [] }
  | .joining [] next => some (p.put id { t with phase := .collectingOverflow next })
  | .joining rest next => (p.join id rest).map fun rest => p.put id { t with phase := .joining rest next }
  | .collectingOverflow next =>
    some { p.put id { t with phase := .joiningOverflow p.overflowHandles next } with overflowHandles := [] }
  | .joiningOverflow [] next => some (p.put id { t with phase := .running next })
  | .joiningOverflow rest next =>
    (p.join id rest).map fun rest => p.put id { t with phase := .joiningOverflow rest next }
  | .counting crashed =>
    let phase : Phase σ υ := match id with
      | .worker _ => .idle
      | _ => .gone
    some { p.put id { phase } with counters := p.counters.unit crashed }
  | .gone => none

/-- The next step of a thread, if it has one: not until its lodger has ended. -/
def step (id : ThreadId) (p : Pool σ υ) : Option (Pool σ υ) := if p.isHosting id then none else p.advance id

/-- What can happen at a time: a thread takes a step, or the shared state changes by itself, as time does. -/
inductive Steps (passes : σ → σ → Prop) (p : Pool σ υ) : Pool σ υ → Prop where
  | thread (id : ThreadId) {q : Pool σ υ} (h : p.step id = some q) : Steps passes p q
  | passing {s : σ} (h : passes p.shared s) : Steps passes p { p with shared := s }

/-- What can become of a pool, whichever threads take steps. -/
inductive Reaches (passes : σ → σ → Prop) (p : Pool σ υ) : Pool σ υ → Prop where
  | refl : Reaches passes p p
  | tail {q r : Pool σ υ} (before : Reaches passes p q) (last : Steps passes q r) : Reaches passes p r

/-! ## Running until nothing moves -/

/-- A step of the first thread that has one. -/
def stepAny (p : Pool σ υ) : Option (Pool σ υ) := p.threads.keys.findSome? fun id => p.step id

/-- Lets the threads run until none has a step, for at most `fuel` steps. -/
def settle : Nat → Pool σ υ → Pool σ υ
  | 0, p => p
  | fuel + 1, p =>
    match p.stepAny with
    | none => p
    | some p' => settle fuel p'

/-- Lets the threads run until none has a step and the test holds.  As long as it does not, the shared state is changed
as `pass` says, which is where time comes in for threads that sleep. -/
def runUntil (pass : σ → Option σ) (isOver : Pool σ υ → Bool) : Nat → Pool σ υ → Pool σ υ
  | 0, p => p
  | fuel + 1, p =>
    let p := p.settle fuel
    if isOver p then p
    else match pass p.shared with
      | none => p
      | some shared => runUntil pass isOver fuel { p with shared }

/-- Nobody has the unit any more: it ended, or it was dropped. -/
def isDone (ticket : Nat) (p : Pool σ υ) : Bool :=
  p.queue.all (fun e => e.ticket != ticket) && p.threads.values.all fun t => t.ticket != some ticket

variable {passes : σ → σ → Prop}

theorem steps_of_stepAny {p p' : Pool σ υ} (h : p.stepAny = some p') : p.Steps passes p' := by
  obtain ⟨id, -, hid⟩ := List.exists_of_findSome?_eq_some h
  exact .thread id hid

theorem Reaches.trans {p q r : Pool σ υ} (h : Reaches passes p q) (h' : Reaches passes q r) : Reaches passes p r := by
  induction h' with
  | refl => exact h
  | tail _ last ih => exact ih.tail last

/-- What threads come to when they are let run is something that can become of the pool. -/
theorem reaches_settle (fuel : Nat) (p : Pool σ υ) : p.Reaches passes (settle fuel p) := by
  induction fuel generalizing p with
  | zero => exact .refl
  | succ n ih =>
    simp only [settle]
    split
    · exact .refl
    · rename_i h
      exact (Reaches.refl.tail (steps_of_stepAny h)).trans (ih _)

/-- So is what they come to when the shared state changes in between. -/
theorem reaches_runUntil {pass : σ → Option σ} (hp : ∀ s s', pass s = some s' → passes s s')
    (isOver : Pool σ υ → Bool) (fuel : Nat) (p : Pool σ υ) : p.Reaches passes (runUntil pass isOver fuel p) := by
  induction fuel generalizing p with
  | zero => exact .refl
  | succ n ih =>
    simp only [runUntil]
    split
    · exact reaches_settle n p
    · split
      · exact reaches_settle n p
      · rename_i h
        exact ((reaches_settle n p).tail (.passing (hp _ _ h))).trans (ih _)

end Pool
end JobRunner
