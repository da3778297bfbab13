/-!
# Routines

What a thread does to a state that it shares with other threads.  A routine is a chain of steps; whoever runs it may let
other threads step in between, but never within a step.  A step may have to wait until the state is ready for it.  A
routine may also ask its surroundings for something, such as to hand work to a pool, and go on with the reply; and it may
crash, which ends it without a value.
-/
namespace JobRunner

/-- What a routine may ask for, and the type of the reply to each request. -/
structure Interface where
  Request : Type
  Reply : Request → Type

/-- Nothing can be asked for. -/
@[reducible] def Interface.none : Interface := ⟨Empty, fun r => nomatch r⟩

/-- A program over a shared state `σ` with a value in `α`.  After a step the routine goes on with what it saw: the state
in which the step was taken. -/
inductive Routine (σ : Type) (S : Interface) (α : Type) : Type where
  | done (a : α)
  | crash
  | step (ready : σ → Bool) (act : σ → σ) (next : σ → Routine σ S α)
  | ask (r : S.Request) (next : S.Reply r → Routine σ S α)

namespace Routine

variable {σ : Type} {S : Interface} {α β γ : Type}

/-- One routine and then another one that knows the value of the first. -/
def bind : Routine σ S α → (α → Routine σ S β) → Routine σ S β
  | done a, f => f a
  | crash, _ => crash
  | step ready act next, f => step ready act fun s => (next s).bind f
  | ask r next, f => ask r fun reply => (next reply).bind f

instance : Monad (Routine σ S) where
  pure := done
  bind := bind

/-- Steps at once: the state and the value both follow from the state before. -/
def atomically (f : σ → α × σ) : Routine σ S α := step (fun _ => true) (fun s => (f s).2) fun s => done (f s).1

/-- Waits until the state is ready. -/
def await (ready : σ → Bool) : Routine σ S Unit := step ready id fun _ => done ()

/-- Waits for what never comes. -/
def hang : Routine σ S α := step (fun _ => false) id fun _ => crash

/-- The value, or nothing if the routine crashes. -/
def attempt : Routine σ S α → Routine σ S (Option α)
  | done a => done (some a)
  | crash => done none
  | step ready act next => step ready act fun s => (next s).attempt
  | ask r next => ask r fun reply => (next reply).attempt

/-! ## Running alone -/

/-- How a run of a routine without other threads ends. -/
inductive Ending (α : Type) where
  | returned (a : α)
  | crashed
  /-- The routine waits for something that nobody is there to do. -/
  | stuck
  deriving Repr

/-- Runs a routine that asks for nothing, from a state that no other thread touches.  While the routine waits, the state
may change by itself: `pass` says what becomes of it, if anything. -/
def perform (pass : σ → Option σ) : Routine σ .none α → σ → Ending α × σ
  | done a, s => (.returned a, s)
  | crash, s => (.crashed, s)
  | step ready act next, s =>
    let s' := if ready s then s else (pass s).getD s
    if ready s' then (next s').perform pass (act s') else (.stuck, s')
  | ask r _, _ => nomatch r

/-! ## Laws -/

theorem bind_done (m : Routine σ S α) : m.bind done = m := by
  induction m with
  | done a => rfl
  | crash => rfl
  | step ready act next ih => simp [bind, ih]
  | ask r next ih => simp [bind, ih]

theorem bind_assoc (m : Routine σ S α) (f : α → Routine σ S β) (g : β → Routine σ S γ) :
    (m.bind f).bind g = m.bind fun a => (f a).bind g := by
  induction m with
  | done a => rfl
  | crash => rfl
  | step ready act next ih => simp [bind, ih]
  | ask r next ih => simp [bind, ih]

instance : LawfulMonad (Routine σ S) := LawfulMonad.mk' _ bind_done (fun _ _ => rfl) bind_assoc

/-- A run of two routines is a run of the first, and if that returns, one of the second from where it ended. -/
theorem perform_bind (pass : σ → Option σ) (m : Routine σ .none α) (f : α → Routine σ .none β) (s : σ) :
    (m.bind f).perform pass s =
      match m.perform pass s with
      | (.returned a, s') => (f a).perform pass s'
      | (.crashed, s') => (.crashed, s')
      | (.stuck, s') => (.stuck, s') := by
  induction m generalizing s with
  | done a => rfl
  | crash => rfl
  | step ready act next ih =>
    simp only [bind, perform]
    generalize (if ready s = true then s else (pass s).getD s) = s'
    split
    · exact ih s' (act s')
    · rfl
  | ask r next ih => exact nomatch r

end Routine
end JobRunner
