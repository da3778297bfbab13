import JobRunner.Job.Registry
import JobRunner.Routine
import JobRunner.Time.Clock
/-!
# The world that jobs share

A clock, the registry of jobs, how many identifiers were made so far, and the environment: whatever else the work of a
job reads and changes.  Each operation below is one step of a routine, but for sleeping, which is two.
-/
namespace JobRunner

/-- What all threads share; `ε` is the type of the environment. -/
structure World (ε : Type) where
  clock : Clock := {}
  registry : Registry := {}
  minted : Nat := 0
  env : ε

namespace World

variable {ε α : Type} {S : Interface}

/-- A routine over a world. -/
abbrev Action (ε : Type) (S : Interface) (α : Type) : Type := Routine (World ε) S α

/-- An operation on the registry that needs to know the time. -/
def onRegistry (f : Timestamp → Registry → α × Registry) (w : World ε) : α × World ε :=
  let r := f (.ofNanos w.clock.read) w.registry
  (r.1, { w with clock := w.clock.tick, registry := r.2 })

/-- An operation on the environment that needs to know the time, in nanoseconds. -/
def onEnv (f : Nat → ε → α × ε) (w : World ε) : α × World ε :=
  let r := f w.clock.read w.env
  (r.1, { w with clock := w.clock.tick, env := r.2 })

/-- Reads the clock. -/
def now : Action ε S Nat := .atomically fun w => (w.clock.read, { w with clock := w.clock.tick })

/-- What becomes of a world in which everybody waits: the time of the next alarm comes. -/
def pass? (w : World ε) : Option (World ε) := w.clock.pass?.map fun clock => { w with clock }

/-- Sets an alarm so far ahead; the value is its time. -/
def setAlarm (d : Duration) (w : World ε) : Nat × World ε :=
  let time := w.clock.now + d.nanos
  (time, { w with clock := w.clock.setAlarm time })

/-- Waits for the time of an alarm, which then is no longer set. -/
def awaitAlarm (time : Nat) : Action ε S Unit :=
  .step (fun w => time ≤ w.clock.now) (fun w => { w with clock := w.clock.dropAlarm time }) fun _ => .done ()

/-- Waits until so much time has passed. -/
def sleep (d : Duration) : Action ε S Unit := do
  let time ← .atomically (setAlarm d)
  awaitAlarm time

/-- When nobody else waits, sleeping does nothing but let the time pass. -/
theorem perform_sleep (d : Duration) (w : World ε) (h : w.clock.alarms = []) :
    (sleep d : Action ε .none Unit).perform pass? w =
      (.returned (), { w with clock := w.clock.advance d.nanos }) := by
  obtain ⟨⟨now, reads, drift, alarms⟩, registry, minted, env⟩ := w
  subst h
  show Routine.perform pass? (awaitAlarm (now + d.nanos)) _ = _
  by_cases hd : d.nanos = 0
  · simp [awaitAlarm, Routine.perform, setAlarm, Clock.setAlarm, Clock.dropAlarm, Clock.advance, hd]
  · have hlt : ¬ now + d.nanos ≤ now := by omega
    simp [awaitAlarm, Routine.perform, setAlarm, Clock.setAlarm, Clock.dropAlarm, Clock.advance, pass?, Clock.pass?,
      Clock.nextAlarm?, hlt, Nat.pos_of_ne_zero hd]

/-- A new identifier. -/
def mint : Action ε S JobId :=
  .atomically fun w =>
    (.made (w.clock.read / 1000000) w.minted, { w with clock := w.clock.tick, minted := w.minted + 1 })

/-- Adds a job. -/
def create (id : JobId) (metadata : Labels) : Action ε S (Except JobError JobRecord) :=
  .atomically (onRegistry (Registry.create id metadata))

/-- Changes a job. -/
def change (id : JobId) (c : Change) : Action ε S (Except JobError Unit) :=
  .atomically (onRegistry (Registry.change id c))

/-- Changes a job if that is possible.  The work of a job has nobody to tell that its record is gone or closed. -/
def report (id : JobId) (c : Change) : Action ε S Unit := do
  let _ ← change id c

/-- Adds lines to the log of a job, one step each. -/
def reportAll (id : JobId) : List String → Action ε S Unit
  | [] => pure ()
  | line :: lines => do
    report id (.log line)
    reportAll id lines

/-- An operation on the environment. -/
def withEnv (f : Nat → ε → α × ε) : Action ε S α := .atomically (onEnv f)

end World
end JobRunner
