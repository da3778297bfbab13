import JobRunner.Cache.Store
/-!
# Client caches

Many callers may ask for clients at once, and building a client takes long.  Callers for the same missing key queue at a
gate of that key, and the first of them builds the client for all; callers for other keys are not held up, since nothing
is locked while a client is built but that gate.

A call goes through the stages below.  `ClientCache.step` takes a call to its next stage; a call whose client is being
built goes on when its builder reports.  A gate is shared by the calls that have entered it and the list of gates, counts
its owners, and leaves the list with the last call.
-/
namespace JobRunner

/-- How a call for a client ends. -/
inductive CacheAnswer (γ ε : Type) where
  | client (c : γ)
  /-- The client could not be built. -/
  | failed (e : ε)
  /-- Building the client crashed. -/
  | crashed
  deriving DecidableEq, Repr

/-- Where a call for a client stands.  A number is that of the gate that the call has entered. -/
inductive CacheStage (γ ε : Type) where
  | arriving
  /-- There was no client. -/
  | entering
  /-- It waits for its turn at the gate. -/
  | queueing (gate : Nat)
  /-- It has its turn and looks again. -/
  | rechecking (gate : Nat)
  /-- There was still no client. -/
  | missing (gate : Nat)
  /-- The client is being built since the given epoch. -/
  | building (gate epoch : Nat)
  | keeping (gate epoch : Nat) (client : γ)
  /-- Its turn is over. -/
  | releasing (gate : Nat) (answer : CacheAnswer γ ε)
  | leaving (gate : Nat) (answer : CacheAnswer γ ε)
  | returned (answer : CacheAnswer γ ε)
  deriving Repr

/-- A call for a client. -/
structure CacheCall (γ ε : Type) where
  key : CacheKey
  stage : CacheStage γ ε := .arriving
  deriving Repr

/-- A gate: the call whose turn it is, and the number of its owners. -/
structure Gate where
  holder : Option Nat := none
  owners : Nat
  deriving DecidableEq, Repr

/-- A store, the gates of the keys for which clients are missing, and the calls that have not been dismissed. -/
structure ClientCache (γ ε : Type) where
  store : ClientStore γ := {}
  listed : Table CacheKey Nat := .empty
  gates : Table Nat Gate := .empty
  calls : Table Nat (CacheCall γ ε) := .empty
  gatesMade : Nat := 0
  callsMade : Nat := 0

namespace ClientCache

variable {γ ε : Type}

def ofConfig (config : CacheConfig) : ClientCache γ ε := { store := .ofConfig config }

/-- An operation on the store. -/
def onStore {α : Type} (f : ClientStore γ → α × ClientStore γ) (c : ClientCache γ ε) : α × ClientCache γ ε :=
  let r := f c.store
  (r.1, { c with store := r.2 })

/-- A new call for the client of a key, and its number. -/
def arrive (key : CacheKey) (c : ClientCache γ ε) : Nat × ClientCache γ ε :=
  (c.callsMade, { c with calls := c.calls.insert c.callsMade { key }, callsMade := c.callsMade + 1 })

/-- The call at another stage. -/
def put (c : ClientCache γ ε) (n : Nat) (key : CacheKey) (stage : CacheStage γ ε) : ClientCache γ ε :=
  { c with calls := c.calls.insert n ⟨key, stage⟩ }

/-- Looks for a client, which is the answer, or else goes on. -/
def look (c : ClientCache γ ε) (n : Nat) (key : CacheKey) (now : Nat) (found : γ → CacheStage γ ε)
    (absent : CacheStage γ ε) : ClientCache γ ε :=
  let r := c.store.lookup key now
  { c with store := r.2 }.put n key (match r.1 with | some client => found client | none => absent)

/-- Enters the gate of a key, which is made if it is not listed. -/
def enter (c : ClientCache γ ε) (n : Nat) (key : CacheKey) : ClientCache γ ε :=
  match c.listed.get? key with
  | some g =>
    let gate := (c.gates.get? g).getD { owners := 1 }
    { c with gates := c.gates.insert g { gate with owners := gate.owners + 1 } }.put n key (.queueing g)
  | none =>
    let g := c.gatesMade
    { c with
      listed := c.listed.insert key g
      gates := c.gates.insert g { owners := 2 }
      gatesMade := g + 1 }.put n key (.queueing g)

/-- Leaves a gate; the last call takes it off the list. -/
def leave (c : ClientCache γ ε) (n : Nat) (key : CacheKey) (g : Nat) (answer : CacheAnswer γ ε) : ClientCache γ ε :=
  let gate := (c.gates.get? g).getD { owners := 1 }
  let c := c.put n key (.returned answer)
  if gate.owners ≤ 2 ∧ c.listed.get? key = some g then
    { c with listed := c.listed.erase key, gates := c.gates.erase g }
  else { c with gates := c.gates.insert g { gate with owners := gate.owners - 1 } }

/-- Whose turn it is at a gate. -/
def setHolder (c : ClientCache γ ε) (g : Nat) (holder : Option Nat) : ClientCache γ ε :=
  match c.gates.get? g with
  | none => c
  | some gate => { c with gates := c.gates.insert g { gate with holder } }

/-- The next step of a call.  There is none while it waits for its turn or for a client to be built, and none after it
has returned. -/
def step (n : Nat) (now : Nat) (c : ClientCache γ ε) : Option (ClientCache γ ε) := do
  let call ← c.calls.get? n
  let key := call.key
  match call.stage with
  | .arriving => some (c.look n key now (fun client => .returned (.client client)) .entering)
  | .entering => some (c.enter n key)
  | .queueing g =>
    match (c.gates.get? g).bind (·.holder) with
    | some _ => none
    | none => some ((c.setHolder g (some n)).put n key (.rechecking g))
  | .rechecking g => some (c.look n key now (fun client => .releasing g (.client client)) (.missing g))
  | .missing g =>
    let r := c.store.miss
    some ({ c with store := r.2 }.put n key (.building g r.1))
  | .building _ _ => none
  | .keeping g epoch client =>
    some ({ c with store := c.store.keep key client epoch now }.put n key (.releasing g (.client client)))
  | .releasing g answer => some ((c.setHolder g none).put n key (.leaving g answer))
  | .leaving g answer => some (c.leave n key g answer)
  | .returned _ => none

/-- The builder of a call reports what came of it. -/
def report (n : Nat) (answer : CacheAnswer γ ε) (c : ClientCache γ ε) : Option (ClientCache γ ε) := do
  let call ← c.calls.get? n
  match call.stage with
  | .building g epoch =>
    match answer with
    | .client client => some (c.put n call.key (.keeping g epoch client))
    | answer => some (c.put n call.key (.releasing g answer))
  | _ => none

/-- Where a call stands. -/
def stage? (n : Nat) (c : ClientCache γ ε) : Option (CacheStage γ ε) := (c.calls.get? n).map (·.stage)

/-- A client is being built for the call. -/
def isBuilding (n : Nat) (c : ClientCache γ ε) : Bool :=
  match c.stage? n with
  | some (.building _ _) => true
  | _ => false

/-- The answer to a call that has returned. -/
def answer? (n : Nat) (c : ClientCache γ ε) : Option (CacheAnswer γ ε) :=
  match c.stage? n with
  | some (.returned answer) => some answer
  | _ => none

/-- Forgets a call. -/
def dismiss (n : Nat) (c : ClientCache γ ε) : ClientCache γ ε := { c with calls := c.calls.erase n }

/-- The number of stages that a call can pass without its builder. -/
def stages : Nat := 10

/-- Takes a call as far as it goes alone: until its client has to be built, or it waits for its turn, or it returns. -/
def advance (n : Nat) : Nat → Clock → ClientCache γ ε → ClientCache γ ε × Clock
  | 0, clock, c => (c, clock)
  | fuel + 1, clock, c =>
    match c.step n clock.read with
    | none => (c, clock)
    | some c' => advance n fuel clock.tick c'

end ClientCache
end JobRunner
