import JobRunner.Cache.Key
import JobRunner.Config
import JobRunner.Table
import JobRunner.Time.Clock
/-!
# Stores of clients

The clients that are kept, each under its key, and what was counted on the way.  A store never holds more clients than
its capacity: the client that nobody asked for the longest time makes room.  Each access gets a number, so that the order
of accesses does not depend on the clock.  A client that has reached the lifetime is as good as absent.

Every invalidation moves a store into a new epoch.  A client whose construction began in an earlier epoch is not kept.
-/
namespace JobRunner

/-- A client that is kept. -/
structure CacheEntry (γ : Type) where
  client : γ
  /-- When it was kept, in nanoseconds. -/
  createdAt : Nat
  lastAccessAt : Nat
  /-- The number of the last access to it. -/
  lastAccess : Nat
  hits : Nat
  deriving Repr

/-- The clients that are kept, and the counters. -/
structure ClientStore (γ : Type) where
  config : CacheConfig := {}
  entries : Table CacheKey (CacheEntry γ) := .empty
  accesses : Nat := 0
  hits : Nat := 0
  misses : Nat := 0
  evictions : Nat := 0
  expirations : Nat := 0
  invalidations : Nat := 0
  epoch : Nat := 0

/-- What a store tells about itself. -/
structure CacheStats where
  entries : Nat
  capacity : Nat
  ttlSecs : Option Nat
  hits : Nat
  misses : Nat
  evictions : Nat
  expirations : Nat
  invalidations : Nat
  deriving DecidableEq, Repr

/-- The part of the requests that found a client, 0 if there was none. -/
def CacheStats.hitRate (s : CacheStats) : Float :=
  if s.hits + s.misses = 0 then 0 else Float.ofNat s.hits / Float.ofNat (s.hits + s.misses)

/-- What a store tells about one client; times are in whole milliseconds. -/
structure CacheEntryStats where
  key : String
  target : TargetSystem
  age : UInt64
  idle : UInt64
  hits : Nat
  deriving DecidableEq, Repr

namespace ClientStore

variable {γ : Type}

/-- A store that keeps one client at least. -/
def ofConfig (config : CacheConfig) : ClientStore γ :=
  { config := { config with capacity := if config.capacity = 0 then 1 else config.capacity } }

def capacity (s : ClientStore γ) : Nat := s.config.capacity.toNat

def size (s : ClientStore γ) : Nat := s.entries.size

/-- The client has reached the lifetime. -/
def isExpired (s : ClientStore γ) (now : Nat) (e : CacheEntry γ) : Bool :=
  match s.config.ttl with
  | none => false
  | some ttl => ttl.nanos ≤ now - e.createdAt

/-- There is a client under the key, and it has not reached its lifetime. -/
def contains (s : ClientStore γ) (key : CacheKey) (now : Nat) : Bool :=
  match s.entries.get? key with
  | none => false
  | some e => !s.isExpired now e

/-! ## Looking up and keeping -/

/-- Asks for a client.  One that has reached the lifetime is dropped. -/
def lookup (key : CacheKey) (now : Nat) (s : ClientStore γ) : Option γ × ClientStore γ :=
  match s.entries.get? key with
  | none => (none, s)
  | some e =>
    if s.isExpired now e then (none, { s with entries := s.entries.erase key, expirations := s.expirations + 1 })
    else
      let e' := { e with lastAccessAt := now, lastAccess := s.accesses + 1, hits := e.hits + 1 }
      (some e.client,
        { s with entries := s.entries.insert key e', accesses := s.accesses + 1, hits := s.hits + 1 })

/-- Counts that a client has to be built; the epoch is what the builder has to remember. -/
def miss (s : ClientStore γ) : Nat × ClientStore γ := (s.epoch, { s with misses := s.misses + 1 })

/-- The key whose last access has the least number. -/
def oldest? (entries : List (CacheKey × CacheEntry γ)) : Option (CacheKey × CacheEntry γ) :=
  entries.foldl (fun best e =>
    match best with
    | none => some e
    | some b => if e.2.lastAccess < b.2.lastAccess then some e else some b) none

/-- Drops the client that nobody asked for the longest time. -/
def evict (s : ClientStore γ) : ClientStore γ :=
  match oldest? s.entries.entries with
  | none => s
  | some (key, _) => { s with entries := s.entries.erase key, evictions := s.evictions + 1 }

/-- Drops clients until there is room for one more under the key, at most as many as `fuel`. -/
def makeRoom (key : CacheKey) : Nat → ClientStore γ → ClientStore γ
  | 0, s => s
  | fuel + 1, s => if s.capacity ≤ s.size ∧ !s.entries.contains key then makeRoom key fuel s.evict else s

/-- Keeps a client whose construction began in the given epoch. -/
def keep (key : CacheKey) (client : γ) (epoch now : Nat) (s : ClientStore γ) : ClientStore γ :=
  if s.epoch ≠ epoch then s
  else
    let s := s.makeRoom key s.size
    let entry : CacheEntry γ := ⟨client, now, now, s.accesses + 1, 0⟩
    { s with entries := s.entries.insert key entry, accesses := s.accesses + 1 }

/-! ## Dropping -/

/-- Drops the clients whose key passes the test, in a new epoch; the answer is their number. -/
def invalidate (test : CacheKey → Bool) (s : ClientStore γ) : Nat × ClientStore γ :=
  let kept := s.entries.filter fun k _ => !test k
  let dropped := s.size - kept.size
  (dropped, { s with entries := kept, epoch := s.epoch + 1, invalidations := s.invalidations + dropped })

/-- Drops the client under a key; the answer is whether there was one. -/
def cleanByKey (key : CacheKey) (s : ClientStore γ) : Bool × ClientStore γ :=
  let r := s.invalidate (· == key)
  (r.1 != 0, r.2)

/-- Drops the clients whose shown key contains a pattern. -/
def cleanByPattern (pattern : String) (s : ClientStore γ) : Nat × ClientStore γ := s.invalidate (·.isMatch pattern)

/-- Drops all clients. -/
def clear (s : ClientStore γ) : Nat × ClientStore γ := s.invalidate fun _ => true

/-- Drops the clients that have reached the lifetime; this is no invalidation. -/
def cleanup (now : Nat) (s : ClientStore γ) : Nat × ClientStore γ :=
  let kept := s.entries.filter fun _ e => !s.isExpired now e
  let dropped := s.size - kept.size
  (dropped, { s with entries := kept, expirations := s.expirations + dropped })

/-! ## Reports -/

def stats (s : ClientStore γ) : CacheStats :=
  ⟨s.size, s.capacity, s.config.ttl.map (·.secs), s.hits, s.misses, s.evictions, s.expirations, s.invalidations⟩

/-- The kept clients, the one asked for last in front. -/
def byRecency (s : ClientStore γ) : List (CacheKey × CacheEntry γ) :=
  s.entries.entries.mergeSort fun a b => b.2.lastAccess ≤ a.2.lastAccess

/-- What there is to tell about each client, the one asked for last in front. -/
def detailed (s : ClientStore γ) (now : Nat) : List CacheEntryStats :=
  s.byRecency.map fun e => {
    key := e.1.text
    target := e.1.target
    age := (Duration.between e.2.createdAt now).millis
    idle := (Duration.between e.2.lastAccessAt now).millis
    hits := e.2.hits }

/-- The form in which a store appears in messages. -/
def text (s : ClientStore γ) : String :=
  "ClientCache \x7b config: " ++ s.config.text ++ ", entries: " ++ Nat.repr s.size ++ " \x7d"

end ClientStore
end JobRunner
