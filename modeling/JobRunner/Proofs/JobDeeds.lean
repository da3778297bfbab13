import JobRunner.Proofs.JobCode
import JobRunner.Proofs.PoolUnits
import Mathlib.Logic.Function.Basic
/-!
# Deeds

A run of an orchestrator is a run of its pool in which callers are proper and only they and the units touch the registry.
It remembers what is left of the work of each ticket, since the code of a thread forgets how the work ended as soon as
that is written down.

Of all that threads do only little concerns jobs.  A board shows which part each thread plays, the queue, what is left of
the work, and the registry; and every step of a thread is a deed, which changes the board as listed below, or does not
change it at all.
-/
namespace JobRunner
namespace Orchestrator

variable {ε τ α : Type}

/-! ## Runs -/

/-- What is left of a piece of work after a step of the thread that does it. -/
def advance (p : Pool (World ε) (Job τ)) : Pool.Phase (World ε) (Job τ) → Action ε τ α → Action ε τ α
  | .running _, .step _ _ next => next p.shared
  | .running _, .ask .close next => if p.isClosed then next () else .ask .close next
  | .spilling _ _, .ask (.submit job) next => if p.isClosed then .ask (.submit job) next else next .overflow
  | .answering _ answer _, .ask (.submit _) next => next answer
  | .joiningOverflow [] _, .ask .close next => next ()
  | _, m => m

/-- What is left of the work of each ticket after a step of a thread. -/
def leftAfter (work : Work ε τ) (p : Pool (World ε) (Job τ)) (i : Pool.ThreadId)
    (left : Nat → Option (Action ε τ JobContext.Outcome)) : Nat → Option (Action ε τ JobContext.Outcome) :=
  match p.threads.get? i with
  | none => left
  | some t =>
    match t.phase, t.ticket with
    | .starting e, _ => Function.update left e.ticket (some (wholeWork work e.unit))
    | phase, some k => Function.update left k ((left k).map (advance p phase))
    | _, none => left

/-- Runs of an orchestrator, with what was seen on the way and what is left of the work of each ticket.  Jobs that may be
removed are told by `D`; and there may be units for which no thread can be made. -/
inductive Run (D : JobId → Prop) (work : Work ε τ) (name : String) (workers : Nat) (world : World ε) :
    List (Pool.Event (Job τ)) → (Nat → Option (Action ε τ JobContext.Outcome)) → Pool (World ε) (Job τ) → Prop where
  | start {grants : Nat → Bool} :
    Run D work name workers world [] (fun _ => none) (.start name workers (unit work) world grants)
  | thread {es : List (Pool.Event (Job τ))} {left : Nat → Option (Action ε τ JobContext.Outcome)}
    {p q : Pool (World ε) (Job τ)} (i : Pool.ThreadId) (before : Run D work name workers world es left p)
    (h : p.step i = some q) : Run D work name workers world (es ++ p.seen i) (leftAfter work p i left) q
  | passing {es : List (Pool.Event (Job τ))} {left : Nat → Option (Action ε τ JobContext.Outcome)}
    {p : Pool (World ε) (Job τ)} {w : World ε} (before : Run D work name workers world es left p)
    (h : w.registry = p.shared.registry) : Run D work name workers world es left { p with shared := w }
  | call {es : List (Pool.Event (Job τ))} {left : Nat → Option (Action ε τ JobContext.Outcome)}
    {p : Pool (World ε) (Job τ)} {code : Action ε τ Unit} (before : Run D work name workers world es left p)
    (h : Proper D none code) : Run D work name workers world es left (p.call code)

variable {D : JobId → Prop} {work : Work ε τ} {name : String} {workers : Nat} {world : World ε}
  {es new : List (Pool.Event (Job τ))} {left : Nat → Option (Action ε τ JobContext.Outcome)}
  {p q : Pool (World ε) (Job τ)} {i j : Pool.ThreadId} {t : Pool.Thread (World ε) (Job τ)} {e : Pool.Entry (Job τ)}

theorem Run.pool (run : Run D work name workers world es left p) :
    Pool.Run (fun w w' => w'.registry = w.registry) (.start name workers (unit work) world p.grants) es p := by
  induction run with
  | start =>
    rw [Pool.grants_start]
    exact .refl
  | thread i _ h ih =>
    obtain ⟨t, -, m⟩ := Pool.move_of_step h
    rw [m.grants]
    exact ih.thread i h
  | passing _ h ih => exact ih.passing h
  | @call _ _ _ code _ _ ih => exact ih.call code

theorem run_of_follow : ∀ {ids : List Pool.ThreadId} {es es' : List (Pool.Event (Job τ))}
    {left : Nat → Option (Action ε τ JobContext.Outcome)} {p q : Pool (World ε) (Job τ)},
    Run D work name workers world es left p → Pool.follow ids p = some (es', q) →
      ∃ left', Run D work name workers world (es ++ es') left' q
  | [], es, es', left, p, q, run, hf => by
    cases hf
    rw [List.append_nil]
    exact ⟨left, run⟩
  | i :: ids, es, es', left, p, q, run, hf => by
    simp only [Pool.follow, Option.bind_eq_bind, Option.bind_eq_some_iff] at hf
    obtain ⟨p', hp, r, hr, he⟩ := hf
    cases he
    rw [← List.append_assoc]
    exact run_of_follow (run.thread i hp) hr

/-! ## Boards -/

def jobId (e : Pool.Entry (Job τ)) : JobId := e.unit.context.id

/-- Where a thread stands that runs code. -/
inductive Place (τ : Type) where
  | code (s : Spot)
  /-- It is on its way into the pool with a unit. -/
  | offering (e : Pool.Entry (Job τ))
  /-- The fate of its unit is settled, but it does not know yet. -/
  | told (e : Pool.Entry (Job τ)) (answer : Submission)

inductive Role (τ : Type) where
  | idle
  /-- It has a unit, which has not begun. -/
  | assigned (e : Pool.Entry (Job τ))
  /-- Its unit has begun, but the job is not said to have started. -/
  | begun (e : Pool.Entry (Job τ))
  | inside (u : Option (Pool.Entry (Job τ))) (place : Place τ)
  /-- The last word on the job of its unit is written. -/
  | closed (e : Pool.Entry (Job τ))

/-- What concerns jobs. -/
structure Board (ε τ : Type) where
  roles : Pool.ThreadId → Role τ
  queue : List (Pool.Entry (Job τ))
  left : Nat → Option (Action ε τ JobContext.Outcome)
  registry : Registry

def Board.play (b : Board ε τ) (i : Pool.ThreadId) (role : Role τ) : Board ε τ :=
  { b with roles := Function.update b.roles i role }

/-- So much is left of the work of a unit, if it is one. -/
def Board.goOn (b : Board ε τ) (u : Option (Pool.Entry (Job τ))) (m : Action ε τ JobContext.Outcome) : Board ε τ :=
  { b with left := match u with
      | none => b.left
      | some e => Function.update b.left e.ticket (some m) }

/-- The work is over, and this is its outcome. -/
def Ends (m : Action ε τ JobContext.Outcome) (o : JobContext.Outcome) : Prop :=
  m = .done o ∨ m = .crash ∧ o = .error crashFailure

/-- What a thread can do to a board, and what is seen of it. -/
inductive Deed (D : JobId → Prop) (work : Work ε τ) (b : Board ε τ) (i : Pool.ThreadId) :
    List (Pool.Event (Job τ)) → Board ε τ → Prop where
  | none : Deed D work b i [] b
  | call (h : b.roles i = .idle) : Deed D work b i [] (b.play i (.inside none (.code .free)))
  | leave (h : b.roles i = .inside none (.code .free)) : Deed D work b i [] (b.play i .idle)
  | take {e : Pool.Entry (Job τ)} {rest : List (Pool.Entry (Job τ))} (h : b.roles i = .idle)
    (hq : b.queue = e :: rest) : Deed D work b i [] { b.play i (.assigned e) with queue := rest }
  | start {e : Pool.Entry (Job τ)} (h : b.roles i = .assigned e) :
    Deed D work b i [.started e] ((b.goOn (some e) (wholeWork work e.unit)).play i (.begun e))
  | announce {e : Pool.Entry (Job τ)} (now : Timestamp) (h : b.roles i = .begun e) :
    Deed D work b i [] { (b.goOn (some e) (work e.unit.task e.unit.context)).play i (.inside (some e) (.code .free)) with
      registry := (b.registry.change (jobId e) (.progress 0 "job started") now).2 }
  | act {u : Option (Pool.Entry (Job τ))} {s s' : Spot} {r : Registry}
    (m : Action ε τ JobContext.Outcome) (h : b.roles i = .inside u (.code s))
    (he : Effect D (u.map jobId) b.registry s s' r) :
    Deed D work b i [] { (b.goOn u m).play i (.inside u (.code s')) with registry := r }
  | submit {u : Option (Pool.Entry (Job τ))} {e : Pool.Entry (Job τ)} {place : Place τ}
    (h : b.roles i = .inside u (.code (.holding (jobId e)))) (hp : place = .offering e ∨ place = .told e .rejected) :
    Deed D work b i [.submitted e] (b.play i (.inside u place))
  | drop {u : Option (Pool.Entry (Job τ))} {e : Pool.Entry (Job τ)}
    (h : b.roles i = .inside u (.offering e)) : Deed D work b i [] (b.play i (.inside u (.told e .rejected)))
  | enqueue {u : Option (Pool.Entry (Job τ))} {e : Pool.Entry (Job τ)}
    (h : b.roles i = .inside u (.offering e)) :
    Deed D work b i [] { b.play i (.inside u (.told e .queued)) with queue := b.queue ++ [e] }
  | overflow {j : Pool.ThreadId} {u : Option (Pool.Entry (Job τ))} {e : Pool.Entry (Job τ)}
    (m : Action ε τ JobContext.Outcome) (h : b.roles i = .inside u (.offering e)) (hj : b.roles j = .idle) :
    Deed D work b i [.answered e.ticket .overflow]
      (((b.goOn u m).play j (.assigned e)).play i (.inside u (.code .free)))
  | answer {u : Option (Pool.Entry (Job τ))} {e : Pool.Entry (Job τ)} {answer : Submission}
    (m : Action ε τ JobContext.Outcome) (h : b.roles i = .inside u (.told e answer)) :
    Deed D work b i [.answered e.ticket answer] ((b.goOn u m).play i (.inside u (.code (.told (jobId e) answer))))
  | close {e : Pool.Entry (Job τ)} {m : Action ε τ JobContext.Outcome} {o : JobContext.Outcome}
    (now : Timestamp) (h : b.roles i = .inside (some e) (.code .free)) (hm : b.left e.ticket = some m) (ho : Ends m o) :
    Deed D work b i [] { b.play i (.closed e) with
      registry := (b.registry.change (jobId e) (JobContext.closing o) now).2 }
  | count {e : Pool.Entry (Job τ)} (h : b.roles i = .closed e) :
    Deed D work b i [.ended e.ticket false] (b.play i .idle)

/-- What deeds make of a board that starts with so much in the registry. -/
inductive Deeds (D : JobId → Prop) (work : Work ε τ) (registry : Registry) :
    List (Pool.Event (Job τ)) → Board ε τ → Prop where
  | start : Deeds D work registry [] ⟨fun _ => .idle, [], fun _ => none, registry⟩
  | deed {es new : List (Pool.Event (Job τ))} {b b' : Board ε τ} (before : Deeds D work registry es b)
    (i : Pool.ThreadId) (h : Deed D work b i new b') : Deeds D work registry (es ++ new) b'

/-! ## Threads on a board -/

/-- What a thread runs that has so much left to do of its own code, or of the work of a unit. -/
def around (u : Option (Pool.Entry (Job τ))) (m : Action ε τ JobContext.Outcome) : Action ε τ Unit :=
  match u with
  | none => m.bind fun _ => .done ()
  | some e => remainder e.unit.context m

/-- The code behind the end of closing the pool. -/
def closer? : Pool.Phase (World ε) (Job τ) → Option (Action ε τ Unit)
  | .hangingUp next | .collecting next | .joining _ next | .collectingOverflow next | .joiningOverflow _ next => some next
  | _ => none

/-- A thread in this phase has `m` left to do. -/
inductive Doing (D : JobId → Prop) (u : Option (Pool.Entry (Job τ))) :
    Place τ → Action ε τ JobContext.Outcome → Pool.Phase (World ε) (Job τ) → Prop where
  | running {s : Spot} {m : Action ε τ JobContext.Outcome} (h : Stands D (u.map jobId) s m) :
    Doing D u (.code s) m (.running (around u m))
  | offering {e : Pool.Entry (Job τ)} {next : Submission → Action ε τ JobContext.Outcome}
    {phase : Pool.Phase (World ε) (Job τ)} (h : ∀ a, Stands D (u.map jobId) (.told (jobId e) a) (next a))
    (hp : phase = .offering e (fun a => around u (next a)) ∨ phase = .spilling e fun a => around u (next a)) :
    Doing D u (.offering e) (.ask (S := Pool.interface (Job τ)) (.submit e.unit) next) phase
  | told {e : Pool.Entry (Job τ)} {a : Submission} {next : Submission → Action ε τ JobContext.Outcome}
    (h : ∀ a, Stands D (u.map jobId) (.told (jobId e) a) (next a)) :
    Doing D u (.told e a) (.ask (S := Pool.interface (Job τ)) (.submit e.unit) next)
      (.answering e.ticket a fun a => around u (next a))
  | closing {next : Unit → Action ε τ JobContext.Outcome} {phase : Pool.Phase (World ε) (Job τ)}
    (h : Stands D (u.map jobId) .free (next ())) (hp : closer? phase = some (around u (next ()))) :
    Doing D u (.code .free) (.ask (S := Pool.interface (Job τ)) .close next) phase

inductive Plays (D : JobId → Prop) (work : Work ε τ) (left : Nat → Option (Action ε τ JobContext.Outcome)) :
    Pool.Thread (World ε) (Job τ) → Role τ → Prop where
  | idle {t : Pool.Thread (World ε) (Job τ)} (hp : t.phase = .idle ∨ t.phase = .gone) : Plays D work left t .idle
  | assigned {t : Pool.Thread (World ε) (Job τ)} {e : Pool.Entry (Job τ)} (hk : t.ticket = some e.ticket)
    (hp : t.phase = .starting e) : Plays D work left t (.assigned e)
  | begun {t : Pool.Thread (World ε) (Job τ)} {e : Pool.Entry (Job τ)} (hk : t.ticket = some e.ticket)
    (hl : left e.ticket = some (wholeWork work e.unit)) (hp : t.phase = .running (unit work e.unit)) :
    Plays D work left t (.begun e)
  | inside {t : Pool.Thread (World ε) (Job τ)} {u : Option (Pool.Entry (Job τ))} {place : Place τ}
    {m : Action ε τ JobContext.Outcome} (hk : t.ticket = u.map Pool.Entry.ticket)
    (hl : ∀ e, u = some e → left e.ticket = some m) (h : Doing D u place m t.phase) :
    Plays D work left t (.inside u place)
  | closed {t : Pool.Thread (World ε) (Job τ)} {e : Pool.Entry (Job τ)} {m : Action ε τ JobContext.Outcome}
    {o : JobContext.Outcome} (hk : t.ticket = some e.ticket) (hl : left e.ticket = some m) (ho : Ends m o)
    (hp : t.phase = .running (.done ()) ∨ t.phase = .counting false) : Plays D work left t (.closed e)

/-- The board shows the pool. -/
structure Board.Shows (D : JobId → Prop) (work : Work ε τ) (b : Board ε τ) (p : Pool (World ε) (Job τ)) : Prop where
  code : p.code = unit work
  plays : ∀ i t, p.threads.get? i = some t → Plays D work b.left t (b.roles i)
  idle : ∀ i, p.threads.get? i = none → b.roles i = .idle
  queue : b.queue = p.queue
  registry : b.registry = p.shared.registry

end Orchestrator
end JobRunner
