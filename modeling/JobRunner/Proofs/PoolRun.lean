import JobRunner.Pool.Step
import JobRunner.Proofs.TableSums
/-!
# Runs of a pool

A run is any sequence of steps of threads, with new threads coming from outside and the shared state changing by itself
in between.  What a run shows of the units is a list of events, oldest first; the pool itself does not remember them.

`Move` lists what a step of a thread can be, with all that the step needs and all that it changes.  Whatever is said of
runs below is said of each move first.
-/
namespace JobRunner
namespace Pool

variable {σ υ : Type}

/-- What is seen of units. -/
inductive Event (υ : Type) where
  /-- A unit was handed over and got its ticket. -/
  | submitted (entry : Entry υ)
  /-- The submission returned, or it is settled what it will return after the unit. -/
  | answered (ticket : Nat) (answer : Submission)
  | started (entry : Entry υ)
  | ended (ticket : Nat) (crashed : Bool)
  deriving DecidableEq, Repr

/-- What is seen when a thread takes its next step.  A unit that got or should get a thread of its own is answered for at
once. -/
def seen (p : Pool σ υ) (id : ThreadId) : List (Event υ) :=
  match p.threads.get? id with
  | none => []
  | some t =>
    match t.phase with
    | .starting entry => [.started entry]
    | .running (.ask (.submit unit) _) => [.submitted ⟨p.submissions, unit⟩]
    | .spilling entry _ => if p.isClosed then [] else [.answered entry.ticket .overflow]
    | .answering ticket answer _ => [.answered ticket answer]
    | .counting crashed => (t.ticket.map fun k => Event.ended k crashed).toList
    | _ => []

/-- Runs, with what was seen on the way. -/
inductive Run (passes : σ → σ → Prop) (p : Pool σ υ) : List (Event υ) → Pool σ υ → Prop where
  | refl : Run passes p [] p
  | thread {es : List (Event υ)} {q r : Pool σ υ} (id : ThreadId) (before : Run passes p es q)
    (h : q.step id = some r) : Run passes p (es ++ q.seen id) r
  | passing {es : List (Event υ)} {q : Pool σ υ} {s : σ} (before : Run passes p es q) (h : passes q.shared s) :
    Run passes p es { q with shared := s }
  | call {es : List (Event υ)} {q : Pool σ υ} (code : Code σ υ) (before : Run passes p es q) :
    Run passes p es (q.call code)

variable {passes : σ → σ → Prop}

theorem Run.trans {p q r : Pool σ υ} {es es' : List (Event υ)} (h : Run passes p es q) (h' : Run passes q es' r) :
    Run passes p (es ++ es') r := by
  induction h' with
  | refl =>
    rw [List.append_nil]
    exact h
  | thread id _ last ih =>
    rw [← List.append_assoc]
    exact ih.thread id last
  | passing _ hs ih => exact ih.passing hs
  | call code _ ih => exact ih.call code

/-- Whatever can become of a pool is where some run ends. -/
theorem run_of_reaches {p q : Pool σ υ} (h : p.Reaches passes q) : ∃ es, Run passes p es q := by
  induction h with
  | refl => exact ⟨[], .refl⟩
  | tail _ last ih =>
    obtain ⟨es, hes⟩ := ih
    cases last with
    | thread id h => exact ⟨_, hes.thread id h⟩
    | passing h => exact ⟨es, hes.passing h⟩

/-- Lets the listed threads take a step each, if they can; what is seen comes with the pool. -/
def follow : List ThreadId → Pool σ υ → Option (List (Event υ) × Pool σ υ)
  | [], p => some ([], p)
  | id :: ids, p => do
    let q ← p.step id
    let r ← follow ids q
    some (p.seen id ++ r.1, r.2)

theorem run_of_follow {p : Pool σ υ} : ∀ {ids : List ThreadId} {es es' : List (Event υ)} {q r : Pool σ υ},
    Run passes p es q → follow ids q = some (es', r) → Run passes p (es ++ es') r
  | [], es, es', q, r, h, hf => by
    cases hf
    rw [List.append_nil]
    exact h
  | id :: ids, es, es', q, r, h, hf => by
    simp only [follow, Option.bind_eq_bind, Option.bind_eq_some_iff] at hf
    obtain ⟨q', hq, r', hr, he⟩ := hf
    cases he
    rw [← List.append_assoc]
    exact run_of_follow (h.thread id hq) hr

/-! ## Threads -/

/-- A worker, or a thread that was made for a unit. -/
def ThreadId.isPool : ThreadId → Bool
  | caller _ => false
  | _ => true

theorem get?_put_ne {p : Pool σ υ} {id id' : ThreadId} {t : Thread σ υ} (h : id ≠ id') :
    (p.put id t).threads.get? id' = p.threads.get? id' := Table.get?_insert_ne h

theorem sum_put {p : Pool σ υ} {id : ThreadId} {t : Thread σ υ} (ht : p.threads.get? id = some t)
    (f : ThreadId → Thread σ υ → Nat) (t' : Thread σ υ) :
    (p.put id t').threads.sum f + f id t = p.threads.sum f + f id t' := Table.sum_insert_of_some ht f t'

theorem sum_put_new {p : Pool σ υ} {id : ThreadId} (hn : p.threads.get? id = none)
    (f : ThreadId → Thread σ υ → Nat) (t' : Thread σ υ) :
    (p.put id t').threads.sum f = p.threads.sum f + f id t' := Table.sum_insert_of_none hn f t'

theorem foldl_put (t : Thread σ υ) : ∀ (ids : List ThreadId) (p : Pool σ υ),
    ids.foldl (fun p id => p.put id t) p =
      { p with threads := ids.foldl (fun ts id => ts.insert id t) p.threads }
  | [], _ => rfl
  | id :: ids, p => by
    rw [List.foldl_cons, List.foldl_cons, foldl_put t ids (p.put id t)]
    rfl

theorem get?_foldl_insert (t : Thread σ υ) (id : ThreadId) : ∀ (ids : List ThreadId) (ts : Table ThreadId (Thread σ υ)),
    (ids.foldl (fun ts id => ts.insert id t) ts).get? id = if id ∈ ids then some t else ts.get? id
  | [], ts => by simp
  | i :: ids, ts => by
    rw [List.foldl_cons, get?_foldl_insert t id ids, Table.get?_insert]
    by_cases hm : id ∈ ids
    · simp [hm]
    · by_cases hi : i = id
      · simp [hi]
      · simp [hm, hi, Ne.symm hi]

theorem get?_start (name : String) (workers : Nat) (code : υ → Code σ υ) (shared : σ) (grants : Nat → Bool)
    (id : ThreadId) :
    (start name workers code shared grants).threads.get? id =
      if id ∈ (List.range (max workers 1)).map ThreadId.worker then some { phase := .idle } else none := by
  unfold start
  rw [foldl_put, get?_foldl_insert]
  rfl

theorem isHosting_of_step {p q : Pool σ υ} {id : ThreadId} (h : p.step id = some q) : p.isHosting id = false := by
  unfold step at h
  cases hh : p.isHosting id with
  | false => rfl
  | true => rw [hh] at h; cases h

theorem advance_of_step {p q : Pool σ υ} {id : ThreadId} (h : p.step id = some q) : p.advance id = some q := by
  rw [step, isHosting_of_step h] at h
  exact h

/-- A thread without a lodger goes on. -/
theorem step_eq_advance {p : Pool σ υ} {id : ThreadId} (h : p.isHosting id = false) : p.step id = p.advance id := by
  rw [step, h]
  rfl

theorem isHosting_iff {p : Pool σ υ} {id : ThreadId} :
    p.isHosting id = true ↔ ∃ g l, p.lodgings.get? g = some l ∧ l.host = id ∧ p.isGone g = false := by
  simp only [isHosting, List.any_eq_true, Bool.and_eq_true, beq_iff_eq, Bool.not_eq_true', Prod.exists,
    ← Table.get?_eq_some_iff]

/-! ## Moves -/

/-- Where a new thread is entered: on the list of those to wait for, or, when it could not be made, as a lodger. -/
inductive Entered (p : Pool σ υ) (id : ThreadId) : List ThreadId → Table ThreadId Lodging → Prop where
  | made (hg : p.grants p.counters.overflow = true) :
    Entered p id ((p.overflowHandles.filter fun h => !p.isGone h) ++ [.overflow p.counters.overflow]) p.lodgings
  | refused (hg : p.grants p.counters.overflow = false) :
    Entered p id p.overflowHandles (p.lodgings.insert (.overflow p.counters.overflow) ⟨id, p.runner id⟩)

/-- A visit to the list of overflow threads, while the pool is not closed. -/
theorem spill_eq {p : Pool σ υ} (id : ThreadId) (t : Thread σ υ) (entry : Entry υ) (next : Submission → Code σ υ)
    (hc : p.isClosed = false) : ∃ handles lodgings, Entered p id handles lodgings ∧ p.spill id t entry next =
      { (p.put (.overflow p.counters.overflow) { ticket := some entry.ticket, phase := .starting entry }).put id
          { t with phase := .running (next .overflow) } with
        counters := { p.counters with overflow := p.counters.overflow + 1 }
        overflowHandles := handles
        lodgings := lodgings } := by
  unfold spill
  dsimp only
  rw [if_neg (Bool.eq_false_iff.1 hc)]
  cases hg : p.grants p.counters.overflow with
  | true => exact ⟨_, _, .made hg, rfl⟩
  | false => exact ⟨_, _, .refused hg, rfl⟩

/-- What the step of a thread can be, what is seen of it, and the pool after it. -/
inductive Move (p : Pool σ υ) (id : ThreadId) (t : Thread σ υ) : List (Event υ) → Pool σ υ → Prop where
  | take {entry : Entry υ} {rest : List (Entry υ)} (ht : t.phase = .idle) (hq : p.queue = entry :: rest) :
    Move p id t [] { p.put id { ticket := some entry.ticket, phase := .starting entry } with queue := rest }
  | retire (ht : t.phase = .idle) (hq : p.queue = []) (ho : p.isOpen = false) :
    Move p id t [] (p.put id { t with phase := .gone })
  | start {entry : Entry υ} (ht : t.phase = .starting entry) :
    Move p id t [.started entry] (p.put id { t with phase := .running (p.code entry.unit) })
  | leave {code : Code σ υ} (ht : t.phase = .running code) (hc : code = .done () ∨ code = .crash)
    (hid : id.isPool = false) : Move p id t [] (p.put id { t with phase := .gone })
  | finish {crashed : Bool} (ht : t.phase = .running (if crashed then .crash else .done ()))
    (hid : id.isPool = true) : Move p id t [] (p.put id { t with phase := .counting crashed })
  | act {ready : σ → Bool} {act : σ → σ} {next : σ → Code σ υ} (ht : t.phase = .running (.step ready act next))
    (hr : ready p.shared = true) :
    Move p id t [] { p.put id { t with phase := .running (next p.shared) } with shared := act p.shared }
  | refuse {unit : υ} {next : Submission → Code σ υ} (ht : t.phase = .running (.ask (.submit unit) next))
    (hc : p.isClosed = true) :
    Move p id t [.submitted ⟨p.submissions, unit⟩]
      { p.put id { t with phase := .answering p.submissions .rejected next } with submissions := p.submissions + 1 }
  | offer {unit : υ} {next : Submission → Code σ υ} (ht : t.phase = .running (.ask (.submit unit) next))
    (hc : p.isClosed = false) :
    Move p id t [.submitted ⟨p.submissions, unit⟩]
      { p.put id { t with phase := .offering ⟨p.submissions, unit⟩ next } with submissions := p.submissions + 1 }
  | closeAgain {next : Unit → Code σ υ} (ht : t.phase = .running (.ask .close next)) (hc : p.isClosed = true) :
    Move p id t [] (p.put id { t with phase := .running (next ()) })
  | closeFirst {next : Unit → Code σ υ} (ht : t.phase = .running (.ask .close next)) (hc : p.isClosed = false) :
    Move p id t [] { p.put id { t with phase := .hangingUp (next ()) } with isClosed := true }
  | enqueue {entry : Entry υ} {next : Submission → Code σ υ} (ht : t.phase = .offering entry next)
    (ho : p.isOpen = true) (hl : p.queue.length < p.capacity) :
    Move p id t []
      { p.put id { t with phase := .answering entry.ticket .queued next } with queue := p.queue ++ [entry] }
  | overflow {entry : Entry υ} {next : Submission → Code σ υ} (ht : t.phase = .offering entry next)
    (ho : p.isOpen = true) (hl : p.capacity ≤ p.queue.length) :
    Move p id t [] (p.put id { t with phase := .spilling entry next })
  | tooLate {entry : Entry υ} {next : Submission → Code σ υ}
    (ht : t.phase = .offering entry next ∧ p.isOpen = false ∨ t.phase = .spilling entry next ∧ p.isClosed = true) :
    Move p id t [] (p.put id { t with phase := .answering entry.ticket .rejected next })
  | spawn {entry : Entry υ} {next : Submission → Code σ υ} {handles : List ThreadId}
    {lodgings : Table ThreadId Lodging} (ht : t.phase = .spilling entry next) (hc : p.isClosed = false)
    (hm : Entered p id handles lodgings) :
    Move p id t [.answered entry.ticket .overflow] { (p.put (.overflow p.counters.overflow)
        { ticket := some entry.ticket, phase := .starting entry }).put id { t with phase := .running (next .overflow) }
      with
        counters := { p.counters with overflow := p.counters.overflow + 1 }
        overflowHandles := handles
        lodgings := lodgings }
  | answer {ticket : Nat} {answer : Submission} {next : Submission → Code σ υ}
    (ht : t.phase = .answering ticket answer next) :
    Move p id t [.answered ticket answer]
      { p.put id { t with phase := .running (next answer) } with counters := p.counters.answer answer }
  | hangUp {next : Code σ υ} (ht : t.phase = .hangingUp next) :
    Move p id t [] { p.put id { t with phase := .collecting next } with isOpen := false }
  | collect {next : Code σ υ} (ht : t.phase = .collecting next) :
    Move p id t [] { p.put id { t with phase := .joining p.handles next } with handles := [] }
  | joined {next : Code σ υ} (ht : t.phase = .joining [] next) :
    Move p id t [] (p.put id { t with phase := .collectingOverflow next })
  | join {h : ThreadId} {rest : List ThreadId} {next : Code σ υ} (ht : t.phase = .joining (h :: rest) next)
    (hh : h = p.runner id ∨ p.isGone h = true) : Move p id t [] (p.put id { t with phase := .joining rest next })
  | collectOverflow {next : Code σ υ} (ht : t.phase = .collectingOverflow next) :
    Move p id t [] { p.put id { t with phase := .joiningOverflow p.overflowHandles next } with overflowHandles := [] }
  | joinedOverflow {next : Code σ υ} (ht : t.phase = .joiningOverflow [] next) :
    Move p id t [] (p.put id { t with phase := .running next })
  | joinOverflow {h : ThreadId} {rest : List ThreadId} {next : Code σ υ}
    (ht : t.phase = .joiningOverflow (h :: rest) next) (hh : h = p.runner id ∨ p.isGone h = true) :
    Move p id t [] (p.put id { t with phase := .joiningOverflow rest next })
  | count {crashed : Bool} (ht : t.phase = .counting crashed) :
    Move p id t (t.ticket.map fun k => Event.ended k crashed).toList
      { p.put id { phase := match id with | .worker _ => .idle | _ => .gone } with
        counters := p.counters.unit crashed }

/-- **Every step is a move.** -/
theorem move_of_step {p q : Pool σ υ} {id : ThreadId} (h : p.step id = some q) :
    ∃ t, p.threads.get? id = some t ∧ Move p id t (p.seen id) q := by
  have h := advance_of_step h
  simp only [advance, Option.bind_eq_bind, Option.bind_eq_some_iff] at h
  obtain ⟨t, ht, h⟩ := h
  refine ⟨t, ht, ?_⟩
  rw [seen, ht]
  obtain ⟨ticket, phase⟩ := t
  cases phase with
  | idle =>
    cases hq : p.queue with
    | cons entry rest => simp only [hq] at h; cases h; exact .take rfl hq
    | nil =>
      cases ho : p.isOpen with
      | true => simp [hq, ho] at h
      | false => simp only [hq, ho] at h; cases h; exact .retire rfl hq ho
  | starting entry => cases h; exact .start rfl
  | running code =>
    cases code with
    | done a =>
      cases h
      cases id with
      | caller n => exact .leave rfl (.inl rfl) rfl
      | worker n => exact @Move.finish _ _ p _ _ false rfl rfl
      | overflow n => exact @Move.finish _ _ p _ _ false rfl rfl
    | crash =>
      cases h
      cases id with
      | caller n => exact .leave rfl (.inr rfl) rfl
      | worker n => exact @Move.finish _ _ p _ _ true rfl rfl
      | overflow n => exact @Move.finish _ _ p _ _ true rfl rfl
    | step ready act next =>
      simp only [stepCode, Option.ite_none_right_eq_some] at h
      obtain ⟨hr, h⟩ := h
      cases h
      exact .act rfl hr
    | ask r next =>
      cases r with
      | submit unit =>
        by_cases hc : p.isClosed = true
        · simp only [stepCode, if_pos hc] at h
          cases h
          exact @Move.refuse _ _ p id ⟨ticket, _⟩ unit next rfl hc
        · simp only [stepCode, if_neg hc] at h
          cases h
          exact @Move.offer _ _ p id ⟨ticket, _⟩ unit next rfl (Bool.eq_false_iff.2 hc)
      | close =>
        by_cases hc : p.isClosed = true
        · simp only [stepCode, if_pos hc] at h
          cases h
          exact .closeAgain rfl hc
        · simp only [stepCode, if_neg hc] at h
          cases h
          exact .closeFirst rfl (Bool.eq_false_iff.2 hc)
  | offering entry next =>
    cases h
    unfold Pool.offer
    by_cases ho : p.isOpen = true
    · by_cases hl : p.queue.length < p.capacity
      · rw [if_pos ho, if_pos hl]
        exact .enqueue rfl ho hl
      · rw [if_pos ho, if_neg hl]
        exact .overflow rfl ho (Nat.not_lt.1 hl)
    · rw [if_neg ho]
      exact .tooLate (.inl ⟨rfl, Bool.eq_false_iff.2 ho⟩)
  | spilling entry next =>
    cases h
    by_cases hc : p.isClosed = true
    · unfold spill
      rw [if_pos hc]
      dsimp only
      rw [if_pos hc]
      exact .tooLate (.inr ⟨rfl, hc⟩)
    · have hopen := Bool.eq_false_iff.2 hc
      obtain ⟨handles, lodgings, hentered, hq⟩ := spill_eq id ⟨ticket, .spilling entry next⟩ entry next hopen
      rw [hq]
      dsimp only
      rw [if_neg hc]
      exact @Move.spawn _ _ p id ⟨ticket, _⟩ entry next _ _ rfl hopen hentered
  | answering k answer next => cases h; exact .answer rfl
  | hangingUp next => cases h; exact .hangUp rfl
  | collecting next => cases h; exact .collect rfl
  | joining rest next =>
    cases rest with
    | nil => cases h; exact .joined rfl
    | cons w rest =>
      simp only [Pool.join, Option.map_eq_some_iff, Option.ite_none_right_eq_some] at h
      obtain ⟨_, ⟨hh, he⟩, h⟩ := h
      cases he; cases h
      exact .join rfl hh
  | collectingOverflow next => cases h; exact .collectOverflow rfl
  | joiningOverflow rest next =>
    cases rest with
    | nil => cases h; exact .joinedOverflow rfl
    | cons w rest =>
      simp only [Pool.join, Option.map_eq_some_iff, Option.ite_none_right_eq_some] at h
      obtain ⟨_, ⟨hh, he⟩, h⟩ := h
      cases he; cases h
      exact .joinOverflow rfl hh
  | counting crashed => cases h; exact .count rfl
  | gone => cases h

end Pool
end JobRunner
