import JobRunner.Pool.Basic
import JobRunner.Text.Quoted
/-!
# Pools in messages

The form in which a pool appears in messages: its name, its size and whether it is closed.
-/
namespace JobRunner
namespace Pool

def text {σ υ : Type} (p : Pool σ υ) : String :=
  "WorkerPool \x7b name: " ++ Text.quote p.name ++ ", workers: " ++ Nat.repr p.workers ++ ", queue_capacity: " ++
    Nat.repr p.capacity ++ ", closed: " ++ (if p.isClosed then "true" else "false") ++ " \x7d"

end Pool
end JobRunner
