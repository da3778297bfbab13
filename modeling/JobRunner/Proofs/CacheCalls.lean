import JobRunner.Proofs.CacheFreshness
import JobRunner.Proofs.CacheGates
import JobRunner.Proofs.StoreBooks
/-!
# What calls count

Every call counts one hit or one miss before it returns.  A call that found no client at the gate of its key stores one
where there is none: as long as it is its turn no other call stores one there.  And it stores what was built unless an
invalidation has overtaken its builder.
-/
namespace JobRunner

/-! ## Calls that are not counted yet -/

/-- The call has counted neither a hit nor a miss. -/
def CacheStage.isUncounted {γ ε : Type} : CacheStage γ ε → Bool
  | arriving | entering | queueing _ | rechecking _ | missing _ => true
  | _ => false

/-- The call found no client at the gate, and has not had one stored since. -/
def CacheStage.isVacant {γ ε : Type} : CacheStage γ ε → Bool
  | missing _ | building _ _ | keeping _ _ _ => true
  | _ => false

/-- The epoch that the call remembers. -/
def CacheStage.epoch? {γ ε : Type} : CacheStage γ ε → Option Nat
  | building _ epoch | keeping _ epoch _ => some epoch
  | _ => none

namespace CacheEvent

variable {γ ε : Type}

def isArrived : CacheEvent γ ε → Bool
  | arrived _ _ => true
  | _ => false

def isAsked : CacheEvent γ ε → Bool
  | asked _ _ => true
  | _ => false

/-- The builder of the call begins. -/
def isAskedBy (n : Nat) : CacheEvent γ ε → Bool
  | asked m _ => m == n
  | _ => false

/-- A builder failed or crashed. -/
def isFailure : CacheEvent γ ε → Bool
  | built _ _ (.failed _) | built _ _ .crashed => true
  | _ => false

end CacheEvent

namespace ClientCache

variable {γ ε : Type} {c d : ClientCache γ ε} {new es : List (CacheEvent γ ε)} {n : Nat} {key : CacheKey}
  {stage next : CacheStage γ ε}

/-- The number of calls at a stage that passes the test. -/
def callsAt (p : CacheStage γ ε → Bool) (c : ClientCache γ ε) : Nat := c.calls.sum fun _ call => (p call.stage).toNat

theorem callsAt_insert (p : CacheStage γ ε → Bool) (hn : c.calls.get? n = some ⟨key, stage⟩)
    (hd : d.calls = c.calls.insert n ⟨key, next⟩) : d.callsAt p + (p stage).toNat = c.callsAt p + (p next).toNat := by
  unfold callsAt
  rw [hd]
  exact Table.sum_insert_of_some hn (fun _ call => (p call.stage).toNat) ⟨key, next⟩

/-- Every call counts a hit or a miss, and every miss has a builder asked. -/
structure Counted (es : List (CacheEvent γ ε)) (c : ClientCache γ ε) : Prop where
  requests : c.store.hits + c.store.misses + c.callsAt CacheStage.isUncounted = es.countP CacheEvent.isArrived
  builders : c.store.misses = es.countP CacheEvent.isAsked

theorem Counted.pass (h : Counted es c) (hn : c.calls.get? n = some ⟨key, stage⟩)
    (hd : d.calls = c.calls.insert n ⟨key, next⟩)
    (hcount : d.store.hits + d.store.misses + next.isUncounted.toNat =
      c.store.hits + c.store.misses + stage.isUncounted.toNat)
    (hasked : d.store.misses = c.store.misses + new.countP CacheEvent.isAsked)
    (harrived : new.countP CacheEvent.isArrived = 0) : Counted (es ++ new) d := by
  have hcalls := callsAt_insert CacheStage.isUncounted hn hd
  have hrequests := h.requests
  constructor
  · rw [List.countP_append, harrived]
    omega
  · rw [hasked, h.builders, List.countP_append]

theorem Counted.same (h : Counted es c) (hhits : d.store.hits = c.store.hits) (hmisses : d.store.misses = c.store.misses)
    (hcalls : d.calls = c.calls) (hasked : new.countP CacheEvent.isAsked = 0)
    (harrived : new.countP CacheEvent.isArrived = 0) : Counted (es ++ new) d := by
  constructor
  · rw [List.countP_append, harrived, hhits, hmisses, callsAt, hcalls]
    exact h.requests
  · rw [hmisses, h.builders, List.countP_append, hasked, Nat.add_zero]

theorem countP_map_eq_zero {p : CacheEvent γ ε → Bool} {f : CacheKey → CacheEvent γ ε} (hp : ∀ k, p (f k) = false)
    (l : List CacheKey) : (l.map f).countP p = 0 := by
  simp [List.countP_eq_zero, hp]

theorem Gated.get?_callsMade (h : c.Gated) : c.calls.get? c.callsMade = none := by
  cases hn : c.calls.get? c.callsMade with
  | none => rfl
  | some call => exact absurd (h.numbered _ call hn) (Nat.lt_irrefl _)

theorem counted_move (hg : c.Gated) (h : Counted es c) (m : Move c new d) : Counted (es ++ new) d := by
  cases m with
  | arrive key =>
    have hcalls := Table.sum_insert_of_none hg.get?_callsMade (fun _ call => call.stage.isUncounted.toNat)
      ({ key } : CacheCall γ ε)
    have hrequests := h.requests
    constructor
    · rw [List.countP_append, ← hrequests]
      simp only [callsAt]
      rw [hcalls]
      rfl
    · rw [List.countP_append]
      exact h.builders
  | @hit n now key stage next client s hn hl hs =>
    obtain ⟨-, hhits, hmisses⟩ := ClientStore.sheds_lookup hl
    have hcount : s.hits + s.misses + 0 = c.store.hits + c.store.misses + 1 := by
      rw [hhits, hmisses, Option.isSome_some, Bool.toNat_true]
      omega
    rcases hs with ⟨rfl, rfl⟩ | ⟨g, rfl, rfl⟩
    · exact h.pass hn rfl hcount hmisses rfl
    · exact h.pass hn rfl hcount hmisses rfl
  | @miss n now key stage next s hn hl hs =>
    obtain ⟨-, hhits, hmisses⟩ := ClientStore.sheds_lookup hl
    have hcount : s.hits + s.misses + 1 = c.store.hits + c.store.misses + 1 := by
      rw [hhits, hmisses]
      rfl
    have hasked := countP_map_eq_zero (p := CacheEvent.isAsked) (f := (.expired : _ → CacheEvent γ ε))
      (fun _ => rfl) (ClientStore.lost c.store s)
    have harrived := countP_map_eq_zero (p := CacheEvent.isArrived) (f := (.expired : _ → CacheEvent γ ε))
      (fun _ => rfl) (ClientStore.lost c.store s)
    have hmisses : s.misses = c.store.misses + 0 := hmisses
    rw [← hasked] at hmisses
    rcases hs with ⟨rfl, rfl⟩ | ⟨g, rfl, rfl⟩
    · exact h.pass hn rfl hcount hmisses harrived
    · exact h.pass hn rfl hcount hmisses harrived
  | @enter n k hn =>
    obtain ⟨g, hcalls⟩ := calls_enter c n k
    refine h.pass hn hcalls ?_ ?_ rfl
    · rw [store_enter]
      rfl
    · rw [store_enter]
      rfl
  | turn hn | release hn =>
    refine h.pass hn (calls_setHolder ..) ?_ ?_ rfl
    · rw [store_setHolder]
      rfl
    · rw [store_setHolder]
      rfl
  | leave hn =>
    refine h.pass hn (calls_leave ..) ?_ ?_ rfl
    · rw [store_leave]
      rfl
    · rw [store_leave]
      rfl
  | @ask n g key hn =>
    refine h.pass hn rfl ?_ rfl rfl
    show c.store.hits + (c.store.misses + 1) + 0 = c.store.hits + c.store.misses + 1
    omega
  | built hn hs =>
    rcases hs with ⟨client, rfl, rfl⟩ | ⟨-, rfl⟩
    · exact h.pass hn rfl rfl rfl rfl
    · exact h.pass hn rfl rfl rfl rfl
  | discard hn he => exact h.pass hn rfl rfl rfl rfl
  | @keep n g now key client hn =>
    obtain ⟨hhits, hmisses⟩ := ClientStore.counts_keep key client c.store.epoch now c.store
    have hzero : ∀ p : CacheEvent γ ε → Bool, (∀ k, p (.evicted k) = false) → p (.kept n key client) = false →
        ((ClientStore.lost c.store (c.store.keep key client c.store.epoch now)).map CacheEvent.evicted ++
          [CacheEvent.kept n key client]).countP p = 0 := by
      intro p hp hk
      rw [List.countP_append, countP_map_eq_zero hp, List.countP_singleton, hk]
      rfl
    refine h.pass hn rfl ?_ ?_ (hzero _ (fun _ => rfl) rfl)
    · simp only [put, hhits, hmisses]
      rfl
    · rw [hzero _ (fun _ => rfl) rfl]
      exact hmisses
  | invalidate i =>
    refine h.same ?_ ?_ rfl rfl rfl
    · cases i <;> rfl
    · cases i <;> rfl
  | cleanup now =>
    exact h.same rfl rfl rfl (countP_map_eq_zero (fun _ => rfl) _) (countP_map_eq_zero (fun _ => rfl) _)

/-! ## Calls that found nothing at the gate -/

/-- There is no client under a key as long as the call whose turn it is has found none. -/
def Vacant (c : ClientCache γ ε) : Prop :=
  ∀ n call, c.calls.get? n = some call → call.stage.isVacant = true → c.store.client? call.key = none

theorem Vacant.insert (h : c.Vacant) (hd : d.calls = c.calls.insert n ⟨key, next⟩)
    (hnext : next.isVacant = true → d.store.client? key = none)
    (hstore : ∀ k, d.store.client? k = none ∨ d.store.client? k = c.store.client? k) : d.Vacant := by
  intro m call hm hv
  rw [hd] at hm
  rcases Table.of_get?_insert hm with ⟨-, rfl⟩ | ⟨-, hm⟩
  · exact hnext hv
  · rcases hstore call.key with hk | hk
    · exact hk
    · exact hk.trans (h m call hm hv)

theorem vacant_move {config : CacheConfig} (hg : c.Gated) (hz : Sized config c) (h : c.Vacant) (m : Move c new d) :
    d.Vacant := by
  have hsame : ∀ {s : ClientStore γ}, s = c.store → ∀ k, s.client? k = none ∨ s.client? k = c.store.client? k :=
    fun hs k => .inr (congrArg (ClientStore.client? · k) hs)
  cases m with
  | arrive key => exact h.insert rfl nofun (hsame rfl)
  | hit hn hl hs =>
    obtain ⟨-, hstore, -⟩ := ClientStore.lookup_some hl
    refine h.insert rfl ?_ fun k => .inr (hstore k)
    rcases hs with ⟨-, rfl⟩ | ⟨g, -, rfl⟩
    · exact nofun
    · exact nofun
  | miss hn hl hs =>
    obtain ⟨hnone, hshrinks⟩ := ClientStore.lookup_none hl
    exact h.insert rfl (fun _ => hnone) hshrinks.client
  | @enter n k hn =>
    obtain ⟨g, hcalls⟩ := calls_enter c n k
    exact h.insert hcalls nofun (hsame (store_enter ..))
  | turn hn | release hn => exact h.insert (calls_setHolder ..) nofun (hsame (store_setHolder ..))
  | leave hn => exact h.insert (calls_leave ..) nofun (hsame (store_leave ..))
  | ask hn => exact h.insert rfl (fun _ => h _ _ hn rfl) fun _ => .inr rfl
  | built hn hs => exact h.insert rfl (fun _ => h _ _ hn rfl) (hsame rfl)
  | discard hn he => exact h.insert rfl nofun (hsame rfl)
  | @keep n g now key client hn =>
    have hpos : 0 < c.store.capacity := by
      rw [hz.capacity]
      omega
    obtain ⟨-, hothers, -⟩ := ClientStore.keep_spec key client now hpos hz.size
    intro m call hm hv
    rcases Table.of_get?_insert hm with ⟨-, rfl⟩ | ⟨hmn, hm⟩
    · cases hv
    · -- another call that found nothing is at the gate of another key
      have hturn : call.stage.hasTurn = true := by
        cases hs : call.stage with
        | missing | building | keeping => rfl
        | _ => rw [hs] at hv; cases hv
      have hkey : call.key ≠ key := fun hk => hmn (hg.one hm hn hk hturn rfl)
      rcases hothers call.key hkey with hk | hk
      · exact hk
      · exact hk.trans (h m call hm hv)
  | invalidate i =>
    obtain ⟨hclient, -⟩ := ClientStore.invalidate_spec i c.store
    intro n call hn hv
    show (c.store.apply i).client? call.key = none
    rw [hclient, h n call hn hv, ite_self]
  | cleanup now =>
    intro n call hn hv
    rcases (ClientStore.shrinks_cleanup now c.store).client call.key with hk | hk
    · exact hk
    · exact hk.trans (h n call hn hv)

/-! ## Builders that were overtaken -/

/-- There was an invalidation since the builder of the call began. -/
def overtaken (n : Nat) (es : List (CacheEvent γ ε)) : Bool :=
  (es.reverse.takeWhile fun e => !e.isAskedBy n).any CacheEvent.isInvalidation

theorem overtaken_append_singleton (n : Nat) (es : List (CacheEvent γ ε)) (e : CacheEvent γ ε) :
    overtaken n (es ++ [e]) = (!e.isAskedBy n && (e.isInvalidation || overtaken n es)) := by
  unfold overtaken
  rw [List.reverse_append, List.reverse_singleton, List.singleton_append, List.takeWhile_cons]
  cases e.isAskedBy n with
  | true => rfl
  | false => simp

/-- What neither invalidates nor begins to build for the call says nothing new. -/
theorem overtaken_append (h : ∀ e ∈ new, e.isAskedBy n = false ∧ e.isInvalidation = false) :
    overtaken n (es ++ new) = overtaken n es := by
  induction new generalizing es with
  | nil => rw [List.append_nil]
  | cons e new ih =>
    obtain ⟨hasked, hinvalid⟩ := h e List.mem_cons_self
    rw [List.append_cons, ih fun e' he => h e' (List.mem_cons_of_mem e he), overtaken_append_singleton, hasked, hinvalid]
    rfl

/-- The calls that remember an epoch that is over are those whose builders were overtaken. -/
def Punctual (es : List (CacheEvent γ ε)) (c : ClientCache γ ε) : Prop :=
  ∀ n call epoch, c.calls.get? n = some call → call.stage.epoch? = some epoch →
    epoch ≤ c.store.epoch ∧ overtaken n es = decide (epoch ≠ c.store.epoch)

theorem Punctual.insert (h : Punctual es c) (hn : c.calls.get? n = some ⟨key, stage⟩)
    (hd : d.calls = c.calls.insert n ⟨key, next⟩) (hstore : d.store.epoch = c.store.epoch)
    (hnext : ∀ epoch, next.epoch? = some epoch → stage.epoch? = some epoch)
    (hnew : ∀ e ∈ new, e.isAsked = false ∧ e.isInvalidation = false) : Punctual (es ++ new) d := by
  intro m call epoch hm he
  have hcalm : ∀ e ∈ new, e.isAskedBy m = false ∧ e.isInvalidation = false := by
    intro e he
    obtain ⟨hasked, hinvalid⟩ := hnew e he
    refine ⟨?_, hinvalid⟩
    cases e with
    | asked => cases hasked
    | _ => rfl
  rw [hstore, overtaken_append hcalm]
  rw [hd] at hm
  rcases Table.of_get?_insert hm with ⟨rfl, rfl⟩ | ⟨-, hm⟩
  · exact h m ⟨key, stage⟩ epoch hn (hnext epoch he)
  · exact h m call epoch hm he

theorem punctual_move {config : CacheConfig} (hz : Sized config c) (h : Punctual es c) (m : Move c new d) :
    Punctual (es ++ new) d := by
  cases m with
  | arrive key =>
    intro m call epoch hm he
    rw [overtaken_append (by simp [CacheEvent.isAskedBy, CacheEvent.isInvalidation])]
    rcases Table.of_get?_insert hm with ⟨-, rfl⟩ | ⟨-, hm⟩
    · cases he
    · exact h m call epoch hm he
  | hit hn hl hs =>
    obtain ⟨-, -, hshrinks⟩ := ClientStore.lookup_some hl
    refine h.insert hn rfl hshrinks.epoch ?_ (by simp [CacheEvent.isAsked, CacheEvent.isInvalidation])
    rcases hs with ⟨-, rfl⟩ | ⟨g, -, rfl⟩
    · exact nofun
    · exact nofun
  | miss hn hl hs =>
    obtain ⟨-, hshrinks⟩ := ClientStore.lookup_none hl
    refine h.insert hn rfl hshrinks.epoch ?_ (by simp [CacheEvent.isAsked, CacheEvent.isInvalidation])
    rcases hs with ⟨-, rfl⟩ | ⟨g, -, rfl⟩
    · exact nofun
    · exact nofun
  | @enter n k hn =>
    obtain ⟨g, hcalls⟩ := calls_enter c n k
    exact h.insert hn hcalls (congrArg _ (store_enter ..)) nofun nofun
  | turn hn | release hn => exact h.insert hn (calls_setHolder ..) (congrArg _ (store_setHolder ..)) nofun nofun
  | leave hn => exact h.insert hn (calls_leave ..) (congrArg _ (store_leave ..)) nofun nofun
  | @ask n g key hn =>
    intro m call epoch hm he
    rw [overtaken_append_singleton]
    rcases Table.of_get?_insert hm with ⟨rfl, rfl⟩ | ⟨hmn, hm⟩
    · cases he
      simp [put, ClientStore.miss, CacheEvent.isAskedBy]
    · obtain ⟨hle, hover⟩ := h m call epoch hm he
      have hother : (CacheEvent.asked n key : CacheEvent γ ε).isAskedBy m = false := beq_false_of_ne (Ne.symm hmn)
      rw [hother]
      exact ⟨hle, hover⟩
  | built hn hs =>
    refine h.insert hn rfl rfl ?_ (by simp [CacheEvent.isAsked, CacheEvent.isInvalidation])
    rcases hs with ⟨client, -, rfl⟩ | ⟨-, rfl⟩
    · exact fun epoch he => he
    · exact nofun
  | discard hn he => exact h.insert hn rfl rfl nofun nofun
  | @keep n g now key client hn =>
    have hpos : 0 < c.store.capacity := by
      rw [hz.capacity]
      omega
    obtain ⟨-, -, hepoch, -⟩ := ClientStore.keep_spec key client now hpos hz.size
    refine h.insert hn rfl hepoch nofun ?_
    simp [or_imp, forall_and, CacheEvent.isAsked, CacheEvent.isInvalidation]
  | invalidate i =>
    intro m call epoch hm he
    obtain ⟨hle, -⟩ := h m call epoch hm he
    obtain ⟨-, hepoch, -⟩ := ClientStore.invalidate_spec i c.store
    have hlt : epoch < (c.store.apply i).epoch := by omega
    refine ⟨Nat.le_of_lt hlt, ?_⟩
    rw [overtaken_append_singleton, decide_eq_true (Nat.ne_of_lt hlt)]
    rfl
  | cleanup now =>
    intro m call epoch hm he
    rw [overtaken_append (by simp [CacheEvent.isAskedBy, CacheEvent.isInvalidation])]
    exact h m call epoch hm he

end ClientCache
end JobRunner
