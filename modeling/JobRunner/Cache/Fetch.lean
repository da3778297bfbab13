import JobRunner.Cache.Client
/-!
# Fetching a client alone

A call for a client that no other caller gets in between.  Its builder may use the cache for other keys while it works,
and brings a state of its own.
-/
namespace JobRunner

/-- A cache, the clock that its callers read, and the state `β` of the builders. -/
structure Fetching (γ ε β : Type) where
  cache : ClientCache γ ε
  clock : Clock
  builders : β

namespace Fetching

variable {γ ε β : Type}

/-- Takes a call as far as it goes alone. -/
def advance (n : Nat) (f : Fetching γ ε β) : Fetching γ ε β :=
  let r := f.cache.advance n ClientCache.stages f.clock
  { f with cache := r.1, clock := r.2 }

/-- The cached client of a key, or the one that its builder makes; the flag tells whether the builder was asked. -/
def fetch (key : CacheKey) (build : Fetching γ ε β → CacheAnswer γ ε × Fetching γ ε β) (f : Fetching γ ε β) :
    Option (CacheAnswer γ ε) × Bool × Fetching γ ε β :=
  let (n, cache) := f.cache.arrive key
  let f := advance n { f with cache }
  let asked := f.cache.isBuilding n
  let f :=
    if asked then
      let (built, f) := build f
      advance n { f with cache := (f.cache.report n built).getD f.cache }
    else f
  (f.cache.answer? n, asked, { f with cache := f.cache.dismiss n })

/-- An operation on the kept clients that needs to know the time. -/
def onStore {α : Type} (op : Nat → ClientStore γ → α × ClientStore γ) (f : Fetching γ ε β) : α × Fetching γ ε β :=
  let r := f.cache.onStore (op f.clock.read)
  (r.1, { f with cache := r.2, clock := f.clock.tick })

end Fetching
end JobRunner
