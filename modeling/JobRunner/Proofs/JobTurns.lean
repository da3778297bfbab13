import JobRunner.Proofs.JobDeeds
/-!
# Every step is a deed

Whose turn it is decides what can happen: a thread that runs code goes on with it, one that has a unit begins it, and so
on, one lemma for each part that a thread can play and each phase in which it can play it.  What is left of the work of
a unit changes only when the thread that has the unit takes a step, since no two threads have the same ticket; so the
board keeps showing what the others do.
-/
namespace JobRunner
namespace Orchestrator

variable {ε τ : Type} {D : JobId → Prop} {work : Work ε τ} {name : String} {workers : Nat} {world : World ε}
  {es new : List (Pool.Event (Job τ))} {left : Nat → Option (Action ε τ JobContext.Outcome)}
  {p q : Pool (World ε) (Job τ)} {i j : Pool.ThreadId} {t : Pool.Thread (World ε) (Job τ)} {e : Pool.Entry (Job τ)}
  {b b' : Board ε τ} {role : Role τ} {u : Option (Pool.Entry (Job τ))} {place : Place τ}
  {m : Action ε τ JobContext.Outcome} {o : JobContext.Outcome}
  {left' : Nat → Option (Action ε τ JobContext.Outcome)}

/-! ## What is left after a step -/

theorem advance_of_ends (h : Ends m o) (phase : Pool.Phase (World ε) (Job τ)) : advance p phase m = m := by
  rcases h with rfl | ⟨rfl, -⟩
  · cases phase with
    | joiningOverflow rest next => cases rest <;> rfl
    | _ => rfl
  · cases phase with
    | joiningOverflow rest next => cases rest <;> rfl
    | _ => rfl

theorem Board.goOn_eq_self (hl : ∀ e, u = some e → b.left e.ticket = some m) : b.goOn u m = b := by
  cases u with
  | none => rfl
  | some e =>
    unfold Board.goOn
    dsimp only
    rw [← hl e rfl, Function.update_eq_self]

theorem leftAfter_eq (hi : p.threads.get? i = some t) (hs : ∀ e, t.phase ≠ .starting e)
    (hk : t.ticket = u.map Pool.Entry.ticket) (hl : ∀ e, u = some e → b.left e.ticket = some m) :
    leftAfter work p i b.left = (b.goOn u (advance p t.phase m)).left := by
  obtain ⟨ticket, phase⟩ := t
  cases hk
  unfold leftAfter
  rw [hi]
  cases u with
  | none =>
    cases phase with
    | starting e => exact absurd rfl (hs e)
    | _ => rfl
  | some e =>
    have hle := hl e rfl
    cases phase with
    | starting e' => exact absurd rfl (hs e')
    | _ =>
      show Function.update b.left e.ticket ((b.left e.ticket).map _) = _
      rw [hle]
      rfl

/-- What is left of the work of a unit changes only when the thread that has the unit takes a step. -/
theorem leftAfter_of_ne (hi : p.threads.get? i = some t) (hf : t.Fits i) {k : Nat} (hk : t.ticket ≠ some k) :
    leftAfter work p i left k = left k := by
  obtain ⟨ticket, phase⟩ := t
  unfold leftAfter
  rw [hi]
  cases phase with
  | starting e =>
    have hne : k ≠ e.ticket := by
      rintro rfl
      exact hk hf.1
    exact Function.update_of_ne hne _ _
  | _ =>
    cases ticket with
    | none => rfl
    | some k' =>
      have hne : k ≠ k' := by
        rintro rfl
        exact hk rfl
      exact Function.update_of_ne hne _ _

/-! ## A thread takes a step -/

theorem Plays.frame (h : Plays D work left t role) (hl : ∀ k, t.ticket = some k → left' k = left k) :
    Plays D work left' t role := by
  cases h with
  | idle hp => exact .idle hp
  | assigned hk hp => exact .assigned hk hp
  | begun hk hle hp => exact .begun hk ((hl _ hk).trans hle) hp
  | @inside u place m hk hle h =>
    refine .inside hk (fun e he => ?_) h
    subst he
    exact (hl _ hk).trans (hle e rfl)
  | closed hk hle ho hp => exact .closed hk ((hl _ hk).trans hle) ho hp

/-- It is the turn of a thread: the board shows the pool, and what the thread does is no matter to the others. -/
structure Turn (D : JobId → Prop) (work : Work ε τ) (b : Board ε τ) (p : Pool (World ε) (Job τ)) (i : Pool.ThreadId)
    (t : Pool.Thread (World ε) (Job τ)) : Prop where
  shows : b.Shows D work p
  here : p.threads.get? i = some t
  formed : p.Formed
  others : ∀ j u, j ≠ i → p.threads.get? j = some u → Plays D work (leftAfter work p i b.left) u (b.roles j)

/-- The board follows the pool by a deed. -/
def Board.Follows (D : JobId → Prop) (work : Work ε τ) (b : Board ε τ) (p : Pool (World ε) (Job τ)) (i : Pool.ThreadId)
    (q : Pool (World ε) (Job τ)) : Prop :=
  ∃ b', Deed D work b i (p.seen i) b' ∧ b'.left = leftAfter work p i b.left ∧ b'.Shows D work q

theorem Board.Shows.put {t' : Pool.Thread (World ε) (Job τ)}
    (ho : ∀ j u, j ≠ i → p.threads.get? j = some u → Plays D work b'.left u (b.roles j))
    (hi : ∀ j, j ≠ i → p.threads.get? j = none → b.roles j = .idle) (hr : b'.roles = Function.update b.roles i role)
    (hq : q.threads = p.threads.insert i t') (hc : q.code = unit work) (ht : Plays D work b'.left t' role)
    (hu : b'.queue = q.queue) (hg : b'.registry = q.shared.registry) : b'.Shows D work q := by
  refine ⟨hc, ?_, fun j hj => ?_, hu, hg⟩
  · rw [hq, hr]
    intro j v hj
    rcases Table.of_get?_insert hj with ⟨rfl, rfl⟩ | ⟨hne, hj⟩
    · rw [Function.update_self]
      exact ht
    · rw [Function.update_of_ne hne]
      exact ho j v hne hj
  · rw [hq] at hj
    obtain ⟨hne, hj⟩ := Table.of_get?_insert_eq_none hj
    rw [hr, Function.update_of_ne hne]
    exact hi j hne hj

theorem Turn.follow {t' : Pool.Thread (World ε) (Job τ)} (c : Turn D work b p i t) (hs : p.seen i = new)
    (deed : Deed D work b i new b') (hl : b'.left = leftAfter work p i b.left)
    (hr : b'.roles = Function.update b.roles i role) (hq : q.threads = p.threads.insert i t') (hc : q.code = p.code)
    (ht : Plays D work b'.left t' role) (hu : b'.queue = q.queue) (hg : b'.registry = q.shared.registry) :
    b.Follows D work p i q := by
  subst hs
  refine ⟨b', deed, hl, .put (fun j v hj hv => ?_) (fun j _ => c.shows.idle j) hr hq (hc.trans c.shows.code) ht hu hg⟩
  rw [hl]
  exact c.others j v hj hv

theorem Turn.pass {t' : Pool.Thread (World ε) (Job τ)} (c : Turn D work b p i t) (hs : p.seen i = [])
    (hl : b.left = leftAfter work p i b.left) (hq : q.threads = p.threads.insert i t') (hc : q.code = p.code)
    (ht : Plays D work b.left t' (b.roles i)) (hu : q.queue = p.queue) (hg : q.shared = p.shared) :
    b.Follows D work p i q := by
  refine c.follow hs .none hl (Function.update_eq_self ..).symm hq hc ht ?_ ?_
  · rw [hu, c.shows.queue]
  · rw [hg, c.shows.registry]

theorem advance_running {code : Action ε τ Unit} (hi : p.threads.get? i = some t) (hp : t.phase = .running code) :
    p.advance i = p.stepCode i t code := by
  simp only [Pool.advance, hi, hp, Option.bind_eq_bind, Option.bind_some]

theorem around_step {ready : World ε → Bool} {act : World ε → World ε}
    {next : World ε → Action ε τ JobContext.Outcome} :
    around u (.step ready act next) = .step ready act fun w => around u (next w) := by
  cases u with
  | _ => rfl

theorem around_ask {r : Pool.Request (Job τ)} {next : r.Reply → Action ε τ JobContext.Outcome} :
    around u (.ask (S := Pool.interface (Job τ)) r next) =
      .ask (S := Pool.interface (Job τ)) r fun a => around u (next a) := by
  cases u with
  | _ => rfl

/-- A step of a thread that goes on with the code that it is in the middle of. -/
theorem Turn.inside {phase : Pool.Phase (World ε) (Job τ)} (c : Turn D work b p i t)
    (hk : t.ticket = u.map Pool.Entry.ticket) (hl : ∀ e, u = some e → b.left e.ticket = some m)
    (hs : ∀ e, t.phase ≠ .starting e) (hn : p.seen i = new) (deed : Deed D work b i new b')
    (hb : b'.left = (b.goOn u (advance p t.phase m)).left) (hr : b'.roles = Function.update b.roles i (.inside u place))
    (hq : q.threads = p.threads.insert i { t with phase }) (hc : q.code = p.code)
    (hd : Doing D u place (advance p t.phase m) phase) (hu : b'.queue = q.queue)
    (hg : b'.registry = q.shared.registry) : b.Follows D work p i q := by
  refine c.follow hn deed (hb.trans (leftAfter_eq c.here hs hk hl).symm) hr hq hc ?_ hu hg
  refine .inside hk (fun e he => ?_) hd
  subst he
  rw [hb]
  exact Function.update_self ..

theorem Turn.step {ready : World ε → Bool} {act : World ε → World ε} {next : World ε → Action ε τ JobContext.Outcome}
    {s : Spot} (c : Turn D work b p i t) (hr : b.roles i = .inside u (.code s))
    (hk : t.ticket = u.map Pool.Entry.ticket) (hl : ∀ e, u = some e → b.left e.ticket = some (.step ready act next))
    (hp : t.phase = .running (around u (.step ready act next))) (hs : Stands D (u.map jobId) s (.step ready act next))
    (h : p.advance i = some q) : b.Follows D work p i q := by
  rw [advance_running c.here hp, around_step] at h
  simp only [Pool.stepCode, Option.ite_none_right_eq_some, Option.some.injEq] at h
  obtain ⟨-, rfl⟩ := h
  obtain ⟨s', hs', heffect⟩ := hs.step p.shared
  have hseen : p.seen i = [] := by simp only [Pool.seen, c.here, hp, around_step]
  have hm : advance p t.phase (.step ready act next) = next p.shared := by rw [hp]; rfl
  rw [← c.shows.registry] at heffect
  refine c.inside hk hl (by rw [hp]; simp) hseen (.act (next p.shared) hr heffect) ?_ rfl rfl rfl ?_ ?_ rfl
  · rw [hm]
    rfl
  · rw [hm]
    exact .running hs'
  · exact c.shows.queue

theorem Turn.submit {job : Job τ} {next : Submission → Action ε τ JobContext.Outcome} {s : Spot}
    (c : Turn D work b p i t) (hr : b.roles i = .inside u (.code s)) (hk : t.ticket = u.map Pool.Entry.ticket)
    (hl : ∀ e, u = some e → b.left e.ticket = some (.ask (S := Pool.interface (Job τ)) (.submit job) next))
    (hp : t.phase = .running (around u (.ask (S := Pool.interface (Job τ)) (.submit job) next)))
    (hs : Stands D (u.map jobId) s (.ask (S := Pool.interface (Job τ)) (.submit job) next)) (h : p.advance i = some q) :
    b.Follows D work p i q := by
  obtain ⟨rfl, hnext⟩ := hs.submit
  have hseen : p.seen i = [.submitted ⟨p.submissions, job⟩] := by simp only [Pool.seen, c.here, hp, around_ask]
  have hm : advance p t.phase (.ask (S := Pool.interface (Job τ)) (.submit job) next) = .ask (.submit job) next := by
    rw [hp]
    rfl
  have hsame := b.goOn_eq_self hl
  have hs : ∀ e, t.phase ≠ .starting e := by simp [hp]
  rw [advance_running c.here hp, around_ask] at h
  by_cases hc : p.isClosed = true
  · simp only [Pool.stepCode, if_pos hc] at h
    cases h
    refine c.inside hk hl hs hseen (.submit (e := ⟨p.submissions, job⟩) hr (.inr rfl)) ?_ rfl rfl rfl ?_ ?_ ?_
    · rw [hm, hsame]
      rfl
    · rw [hm]
      exact .told (e := ⟨p.submissions, job⟩) hnext
    · exact c.shows.queue
    · exact c.shows.registry
  · simp only [Pool.stepCode, if_neg hc] at h
    cases h
    refine c.inside hk hl hs hseen (.submit (e := ⟨p.submissions, job⟩) hr (.inl rfl)) ?_ rfl rfl rfl ?_ ?_ ?_
    · rw [hm, hsame]
      rfl
    · rw [hm]
      exact .offering (e := ⟨p.submissions, job⟩) hnext (.inl rfl)
    · exact c.shows.queue
    · exact c.shows.registry

theorem Turn.close {next : Unit → Action ε τ JobContext.Outcome} {s : Spot} (c : Turn D work b p i t)
    (hr : b.roles i = .inside u (.code s)) (hk : t.ticket = u.map Pool.Entry.ticket)
    (hl : ∀ e, u = some e → b.left e.ticket = some (.ask (S := Pool.interface (Job τ)) .close next))
    (hp : t.phase = .running (around u (.ask (S := Pool.interface (Job τ)) .close next)))
    (hs : Stands D (u.map jobId) s (.ask (S := Pool.interface (Job τ)) .close next)) (h : p.advance i = some q) :
    b.Follows D work p i q := by
  obtain ⟨rfl, hnext⟩ := hs.close
  have hseen : p.seen i = [] := by simp only [Pool.seen, c.here, hp, around_ask]
  have hs : ∀ e, t.phase ≠ .starting e := by simp [hp]
  have heffect : Effect D (u.map jobId) b.registry .free .free b.registry := .harmless .same
  rw [advance_running c.here hp, around_ask] at h
  by_cases hc : p.isClosed = true
  · have hm : advance p t.phase (.ask (S := Pool.interface (Job τ)) .close next) = next () := by
      rw [hp]
      exact if_pos hc
    simp only [Pool.stepCode, if_pos hc] at h
    cases h
    refine c.inside hk hl hs hseen (.act (next ()) hr heffect) ?_ rfl rfl rfl ?_ c.shows.queue c.shows.registry
    · rw [hm]
      rfl
    · rw [hm]
      exact .running hnext
  · have hm : advance p t.phase (.ask (S := Pool.interface (Job τ)) .close next) = .ask .close next := by
      rw [hp]
      exact if_neg hc
    simp only [Pool.stepCode, if_neg hc] at h
    cases h
    refine c.inside hk hl hs hseen (.act (.ask .close next) hr heffect) ?_ rfl rfl rfl ?_ c.shows.queue c.shows.registry
    · rw [hm]
      rfl
    · rw [hm]
      exact .closing hnext rfl

theorem Turn.leave (c : Turn D work b p i t) (hr : b.roles i = .inside none (.code .free)) (hk : t.ticket = none)
    (hp : t.phase = .running (around none m)) (hm : Ends m o) (h : p.advance i = some q) : b.Follows D work p i q := by
  have hover : around none m = .done () ∨ around none m = .crash := by
    rcases hm with rfl | ⟨rfl, -⟩
    · exact .inl rfl
    · exact .inr rfl
  have hseen : p.seen i = [] := by
    rcases hover with ho | ho
    · simp only [Pool.seen, c.here, hp, ho]
    · simp only [Pool.seen, c.here, hp, ho]
  -- code that belongs to no unit is that of a caller
  have hcaller : ∃ n, i = .caller n := by
    have hfits := c.formed.fits i t c.here
    rw [Pool.fits_iff_of_isBusy (by rw [hp]; rfl), hk] at hfits
    cases i with
    | caller n => exact ⟨n, rfl⟩
    | worker n | overflow n => cases hfits
  have hq : q = p.put i { t with phase := .gone } := by
    obtain ⟨n, rfl⟩ := hcaller
    rw [advance_running c.here hp] at h
    rcases hover with ho | ho
    · rw [ho] at h
      cases h
      rfl
    · rw [ho] at h
      cases h
      rfl
  have hleft : b.left = leftAfter work p i b.left := by
    rw [leftAfter_eq (u := none) (m := m) c.here (by simp [hp]) hk (by simp)]
    rfl
  subst hq
  exact c.follow hseen (.leave hr) hleft rfl rfl rfl (.idle (.inr rfl)) c.shows.queue c.shows.registry

theorem Turn.finish (c : Turn D work b p i t) (hr : b.roles i = .inside (some e) (.code .free))
    (hk : t.ticket = some e.ticket) (hl : b.left e.ticket = some m) (hp : t.phase = .running (around (some e) m))
    (hm : Ends m o) (h : p.advance i = some q) : b.Follows D work p i q := by
  -- a crash is caught here: either way the outcome is written down
  have hcode : around (some e) m = e.unit.context.finish o := by
    rcases hm with rfl | ⟨rfl, rfl⟩
    · rfl
    · rfl
  rw [hcode] at hp
  have hseen : p.seen i = [] := by
    simp only [Pool.seen, c.here, hp]
    rfl
  have hleft : b.left = leftAfter work p i b.left := by
    have hle : ∀ e', some e = some e' → b.left e'.ticket = some m := by
      rintro _ ⟨⟩
      exact hl
    rw [leftAfter_eq (u := some e) c.here (by simp [hp]) hk hle, advance_of_ends hm, b.goOn_eq_self hle]
  rw [advance_running c.here hp] at h
  cases h
  refine c.follow hseen (.close (.ofNanos p.shared.clock.read) hr hl hm) hleft rfl rfl rfl ?_ c.shows.queue ?_
  · exact .closed hk hl hm (.inl rfl)
  · rw [c.shows.registry]
    rfl

theorem Turn.running {s : Spot} (c : Turn D work b p i t) (hr : b.roles i = .inside u (.code s))
    (hk : t.ticket = u.map Pool.Entry.ticket) (hl : ∀ e, u = some e → b.left e.ticket = some m)
    (hp : t.phase = .running (around u m)) (hs : Stands D (u.map jobId) s m) (h : p.advance i = some q) :
    b.Follows D work p i q := by
  have hover : ∀ o, Ends m o → b.Follows D work p i q := by
    intro o ho
    obtain rfl : s = .free := hs.over (ho.imp (fun hd => ⟨o, hd⟩) (·.1))
    cases u with
    | none => exact c.leave hr hk hp ho h
    | some e => exact c.finish hr hk (hl e rfl) hp ho h
  cases m with
  | done o => exact hover o (.inl rfl)
  | crash => exact hover _ (.inr ⟨rfl, rfl⟩)
  | step ready act next => exact c.step hr hk hl hp hs h
  | ask r next =>
    cases r with
    | submit job => exact c.submit hr hk hl hp hs h
    | close => exact c.close hr hk hl hp hs h

theorem Turn.offering {next : Submission → Action ε τ JobContext.Outcome} (c : Turn D work b p i t)
    (hr : b.roles i = .inside u (.offering e)) (hk : t.ticket = u.map Pool.Entry.ticket)
    (hl : ∀ e', u = some e' → b.left e'.ticket = some (.ask (S := Pool.interface (Job τ)) (.submit e.unit) next))
    (hp : t.phase = .offering e fun a => around u (next a))
    (hs : ∀ a, Stands D (u.map jobId) (.told (jobId e) a) (next a)) (h : p.advance i = some q) :
    b.Follows D work p i q := by
  have hseen : p.seen i = [] := by simp only [Pool.seen, c.here, hp]
  have hst : ∀ e, t.phase ≠ .starting e := by simp [hp]
  have hm : advance p t.phase (.ask (S := Pool.interface (Job τ)) (.submit e.unit) next) =
      .ask (.submit e.unit) next := by
    rw [hp]
    rfl
  have hleft : (b.goOn u (advance p t.phase
      (.ask (S := Pool.interface (Job τ)) (.submit e.unit) next))).left = b.left := by
    rw [hm, b.goOn_eq_self hl]
  simp only [Pool.advance, c.here, hp, Option.bind_eq_bind, Option.bind_some, Option.some.injEq] at h
  unfold Pool.offer at h
  by_cases ho : p.isOpen = true
  · rw [if_pos ho] at h
    by_cases hlen : p.queue.length < p.capacity
    · rw [if_pos hlen] at h
      subst h
      refine c.inside hk hl hst hseen (.enqueue hr) hleft.symm rfl rfl rfl ?_ ?_ c.shows.registry
      · rw [hm]
        exact .told hs
      · rw [← c.shows.queue]
    · rw [if_neg hlen] at h
      subst h
      refine c.pass hseen ?_ rfl rfl ?_ rfl rfl
      · rw [leftAfter_eq c.here hst hk hl, hleft]
      · rw [hr]
        exact .inside hk hl (.offering hs (.inr rfl))
  · rw [if_neg ho] at h
    subst h
    refine c.inside hk hl hst hseen (.drop hr) hleft.symm rfl rfl rfl ?_ c.shows.queue c.shows.registry
    rw [hm]
    exact .told hs

theorem Turn.spilling {next : Submission → Action ε τ JobContext.Outcome} (c : Turn D work b p i t)
    (hr : b.roles i = .inside u (.offering e)) (hk : t.ticket = u.map Pool.Entry.ticket)
    (hl : ∀ e', u = some e' → b.left e'.ticket = some (.ask (S := Pool.interface (Job τ)) (.submit e.unit) next))
    (hp : t.phase = .spilling e fun a => around u (next a))
    (hs : ∀ a, Stands D (u.map jobId) (.told (jobId e) a) (next a)) (h : p.advance i = some q) :
    b.Follows D work p i q := by
  have hst : ∀ e, t.phase ≠ .starting e := by simp [hp]
  have hleft : leftAfter work p i b.left = _ := leftAfter_eq c.here hst hk hl
  simp only [Pool.advance, c.here, hp, Option.bind_eq_bind, Option.bind_some, Option.some.injEq] at h
  by_cases hc : p.isClosed = true
  · unfold Pool.spill at h
    have hseen : p.seen i = [] := by simp only [Pool.seen, c.here, hp, if_pos hc]
    have hm : advance p t.phase (.ask (S := Pool.interface (Job τ)) (.submit e.unit) next) =
        .ask (.submit e.unit) next := by
      rw [hp]
      exact if_pos hc
    rw [if_pos hc] at h
    subst h
    refine c.inside hk hl hst hseen (.drop hr) ?_ rfl rfl rfl ?_ c.shows.queue c.shows.registry
    · rw [hm, b.goOn_eq_self hl]
      rfl
    · rw [hm]
      exact .told hs
  · have hseen : p.seen i = [.answered e.ticket .overflow] := by simp only [Pool.seen, c.here, hp, if_neg hc]
    have hm : advance p t.phase (.ask (S := Pool.interface (Job τ)) (.submit e.unit) next) = next .overflow := by
      rw [hp]
      exact if_neg hc
    rw [hm] at hleft
    have hidle := c.shows.idle _ c.formed.overflow_new
    obtain ⟨handles, lodgings, -, hq⟩ := Pool.spill_eq i t e (fun a => around u (next a)) (Bool.eq_false_iff.2 hc)
    rw [hq] at h
    subst h
    have deed : Deed D work b i _ _ := .overflow (next .overflow) hr hidle
    rw [← hseen] at deed
    refine ⟨_, deed, hleft.symm, .put (fun j v hj hv => ?_) (fun j hj hv => ?_) rfl rfl c.shows.code ?_ c.shows.queue
      c.shows.registry⟩
    -- the thread that was made
    · show Plays D work (b.goOn u (next .overflow)).left v (Function.update b.roles _ (.assigned e) j)
      rcases Table.of_get?_insert hv with ⟨rfl, rfl⟩ | ⟨hjm, hv⟩
      · rw [Function.update_self]
        exact .assigned rfl rfl
      · rw [Function.update_of_ne hjm, ← hleft]
        exact c.others j v hj hv
    · show Function.update b.roles _ (.assigned e) j = .idle
      obtain ⟨hjm, hv⟩ := Table.of_get?_insert_eq_none hv
      rw [Function.update_of_ne hjm]
      exact c.shows.idle j hv
    -- the thread that goes on
    · refine .inside hk (fun e' he => ?_) (.running (hs .overflow))
      subst he
      exact Function.update_self ..

theorem Turn.told {a : Submission} {next : Submission → Action ε τ JobContext.Outcome} (c : Turn D work b p i t)
    (hr : b.roles i = .inside u (.told e a)) (hk : t.ticket = u.map Pool.Entry.ticket)
    (hl : ∀ e', u = some e' → b.left e'.ticket = some (.ask (S := Pool.interface (Job τ)) (.submit e.unit) next))
    (hp : t.phase = .answering e.ticket a fun a => around u (next a))
    (hs : ∀ a, Stands D (u.map jobId) (.told (jobId e) a) (next a)) (h : p.advance i = some q) :
    b.Follows D work p i q := by
  have hseen : p.seen i = [.answered e.ticket a] := by simp only [Pool.seen, c.here, hp]
  have hm : advance p t.phase (.ask (S := Pool.interface (Job τ)) (.submit e.unit) next) = next a := by
    rw [hp]
    rfl
  simp only [Pool.advance, c.here, hp, Option.bind_eq_bind, Option.bind_some, Option.some.injEq] at h
  subst h
  refine c.inside hk hl (by simp [hp]) hseen (.answer (next a) hr) ?_ rfl rfl rfl ?_ c.shows.queue c.shows.registry
  · rw [hm]
    rfl
  · rw [hm]
    exact .running (hs a)

theorem Turn.closing {next : Unit → Action ε τ JobContext.Outcome} (c : Turn D work b p i t)
    (hr : b.roles i = .inside u (.code .free)) (hk : t.ticket = u.map Pool.Entry.ticket)
    (hl : ∀ e, u = some e → b.left e.ticket = some (.ask (S := Pool.interface (Job τ)) .close next))
    (hs : Stands D (u.map jobId) .free (next ())) (hp : closer? t.phase = some (around u (next ())))
    (h : p.advance i = some q) : b.Follows D work p i q := by
  have hst : ∀ e, t.phase ≠ .starting e := by
    intro e he
    rw [he] at hp
    cases hp
  have hleft : leftAfter work p i b.left = _ := leftAfter_eq c.here hst hk hl
  have hsame := b.goOn_eq_self hl
  -- all steps but the last one leave the thread where it is
  have hstay : ∀ phase, closer? phase = some (around u (next ())) → q.threads = p.threads.insert i { t with phase } →
      advance p t.phase (.ask (S := Pool.interface (Job τ)) .close next) = .ask .close next → p.seen i = [] →
      q.code = p.code → q.queue = p.queue → q.shared = p.shared → b.Follows D work p i q := by
    intro phase hphase hq hm hseen hc hu hg
    refine c.pass hseen ?_ hq hc ?_ hu hg
    · rw [hleft, hm, hsame]
    · rw [hr]
      exact .inside hk hl (.closing hs hphase)
  obtain ⟨ticket, phase⟩ := t
  have hhere := c.here
  simp only [Pool.advance, hhere, Option.bind_eq_bind, Option.bind_some] at h
  have hseen : p.seen i = [] := by
    cases phase with
    | hangingUp | collecting | joining | collectingOverflow | joiningOverflow => simp only [Pool.seen, hhere]
    | idle | starting | running | offering | spilling | answering | counting | gone => cases hp
  cases phase with
  | hangingUp code =>
    cases h
    exact hstay (.collecting code) hp rfl rfl hseen rfl rfl rfl
  | collecting code =>
    cases h
    exact hstay (.joining p.handles code) hp rfl rfl hseen rfl rfl rfl
  | collectingOverflow code =>
    cases h
    exact hstay (.joiningOverflow p.overflowHandles code) hp rfl rfl hseen rfl rfl rfl
  | joining rest code =>
    cases rest with
    | nil =>
      cases h
      exact hstay (.collectingOverflow code) hp rfl rfl hseen rfl rfl rfl
    | cons w rest =>
      simp only [Option.map_eq_some_iff] at h
      obtain ⟨rest', -, rfl⟩ := h
      exact hstay (.joining rest' code) hp rfl rfl hseen rfl rfl rfl
  | joiningOverflow rest code =>
    cases rest with
    | nil =>
      cases h
      cases hp
      have heffect : Effect D (u.map jobId) b.registry .free .free b.registry := .harmless .same
      exact c.inside hk hl hst hseen (.act (next ()) hr heffect) rfl rfl rfl rfl (.running hs) c.shows.queue
        c.shows.registry
    | cons w rest =>
      simp only [Option.map_eq_some_iff] at h
      obtain ⟨rest', -, rfl⟩ := h
      exact hstay (.joiningOverflow rest' code) hp rfl rfl hseen rfl rfl rfl
  | idle | starting | running | offering | spilling | answering | counting | gone => cases hp

theorem Turn.idle (c : Turn D work b p i t) (hr : b.roles i = .idle) (hp : t.phase = .idle ∨ t.phase = .gone)
    (h : p.advance i = some q) : b.Follows D work p i q := by
  obtain ⟨ticket, phase⟩ := t
  have hhere := c.here
  simp only [Pool.advance, hhere, Option.bind_eq_bind, Option.bind_some] at h
  rcases hp with hp | hp
  · cases hp
    have hfits := c.formed.fits i _ hhere
    obtain rfl : ticket = none := hfits.1
    have hseen : p.seen i = [] := by simp only [Pool.seen, hhere]
    have hleft : b.left = leftAfter work p i b.left := by
      unfold leftAfter
      rw [hhere]
    cases hqueue : p.queue with
    | cons e rest =>
      simp only [hqueue] at h
      cases h
      exact c.follow hseen (.take hr (c.shows.queue.trans hqueue)) hleft rfl rfl rfl (.assigned rfl rfl) rfl
        c.shows.registry
    | nil =>
      simp only [hqueue] at h
      cases ho : p.isOpen with
      | true => simp [ho] at h
      | false =>
        simp only [ho] at h
        cases h
        refine c.pass hseen hleft rfl rfl ?_ rfl rfl
        rw [hr]
        exact .idle (.inr rfl)
  · cases hp
    cases h

theorem Turn.assigned (c : Turn D work b p i t) (hr : b.roles i = .assigned e) (hk : t.ticket = some e.ticket)
    (hp : t.phase = .starting e) (h : p.advance i = some q) : b.Follows D work p i q := by
  have hseen : p.seen i = [.started e] := by simp only [Pool.seen, c.here, hp]
  have hleft : (b.goOn (some e) (wholeWork work e.unit)).left = leftAfter work p i b.left := by
    simp only [leftAfter, c.here, hp]
    rfl
  simp only [Pool.advance, c.here, hp, Option.bind_eq_bind, Option.bind_some, Option.some.injEq] at h
  subst h
  refine c.follow hseen (.start hr) hleft rfl rfl rfl (.begun hk ?_ ?_) c.shows.queue c.shows.registry
  · exact Function.update_self ..
  · show Pool.Phase.running (p.code e.unit) = _
    rw [c.shows.code]

theorem Turn.begun (hwork : ∀ task c, Proper D (some c.id) (work task c)) (c : Turn D work b p i t)
    (hr : b.roles i = .begun e) (hk : t.ticket = some e.ticket) (hl : b.left e.ticket = some (wholeWork work e.unit))
    (hp : t.phase = .running (unit work e.unit)) (h : p.advance i = some q) : b.Follows D work p i q := by
  have hseen : p.seen i = [] := by
    simp only [Pool.seen, c.here, hp]
    rfl
  have hle : ∀ e', some e = some e' → b.left e'.ticket = some (wholeWork work e.unit) := by
    rintro _ ⟨⟩
    exact hl
  have hleft : leftAfter work p i b.left = _ := leftAfter_eq (u := some e) c.here (by simp [hp]) hk hle
  rw [advance_running c.here hp] at h
  cases h
  refine c.follow hseen (.announce (.ofNanos p.shared.clock.read) hr) ?_ rfl rfl rfl
    (.inside (m := work e.unit.task e.unit.context) hk (fun e' he => ?_) ?_) c.shows.queue ?_
  · rw [hleft, hp]
    rfl
  · cases he
    exact Function.update_self ..
  · exact .running (.free (hwork ..))
  · rw [c.shows.registry]
    rfl

theorem Turn.closed (c : Turn D work b p i t) (hr : b.roles i = .closed e) (hk : t.ticket = some e.ticket)
    (hl : b.left e.ticket = some m) (hm : Ends m o) (hp : t.phase = .running (.done ()) ∨ t.phase = .counting false)
    (h : p.advance i = some q) : b.Follows D work p i q := by
  have hle : ∀ e', some e = some e' → b.left e'.ticket = some m := by
    rintro _ ⟨⟩
    exact hl
  have hst : ∀ e, t.phase ≠ .starting e := by
    rcases hp with hp | hp <;> simp [hp]
  have hleft : b.left = leftAfter work p i b.left := by
    rw [leftAfter_eq (u := some e) c.here hst hk hle, advance_of_ends hm, b.goOn_eq_self hle]
  have hfits := c.formed.fits i t c.here
  rcases hp with hp | hp
  · have hpool : i.isPool = true := by
      rw [Pool.fits_iff_of_isBusy (by rw [hp]; rfl), hk] at hfits
      exact hfits.symm
    have hq : q = p.put i { t with phase := .counting false } := by
      rw [advance_running c.here hp] at h
      cases i with
      | caller n => cases hpool
      | worker n | overflow n => cases h; rfl
    have hseen : p.seen i = [] := by simp only [Pool.seen, c.here, hp]
    subst hq
    refine c.pass hseen hleft rfl rfl ?_ rfl rfl
    rw [hr]
    exact .closed hk hl hm (.inr rfl)
  · have hseen : p.seen i = [.ended e.ticket false] := by
      simp only [Pool.seen, c.here, hp, hk]
      rfl
    simp only [Pool.advance, c.here, hp, Option.bind_eq_bind, Option.bind_some, Option.some.injEq] at h
    subst h
    refine c.follow hseen (.count hr) hleft rfl rfl rfl (.idle ?_) c.shows.queue c.shows.registry
    cases i with
    | worker n => exact .inl rfl
    | caller n | overflow n => exact .inr rfl

/-- **A step of a thread is a deed.** -/
theorem Turn.follows (hwork : ∀ task c, Proper D (some c.id) (work task c)) (c : Turn D work b p i t)
    (h : p.step i = some q) : b.Follows D work p i q := by
  have h := Pool.advance_of_step h
  have hplays := c.shows.plays i t c.here
  generalize hr : b.roles i = role at hplays
  cases hplays with
  | idle hp => exact c.idle hr hp h
  | assigned hk hp => exact c.assigned hr hk hp h
  | begun hk hl hp => exact c.begun hwork hr hk hl hp h
  | closed hk hl hm hp => exact c.closed hr hk hl hm hp h
  | inside hk hl hd =>
    generalize hp : t.phase = phase at hd
    cases hd with
    | running hs => exact c.running hr hk hl hp hs h
    | offering hs hph =>
      rcases hph with hph | hph
      · exact c.offering hr hk hl (hp.trans hph) hs h
      · exact c.spilling hr hk hl (hp.trans hph) hs h
    | told hs => exact c.told hr hk hl hp hs h
    | closing hs hph => exact c.closing hr hk hl hs (hp ▸ hph) h

/-! ## Runs on boards -/

theorem Deeds.silent (before : Deeds D work world.registry es b) (h : Deed D work b i [] b') :
    Deeds D work world.registry es b' := by
  have hnext := before.deed i h
  rwa [List.append_nil] at hnext

/-- It is always somebody's turn: no two threads have the same ticket, so none changes what is left to another one. -/
theorem Run.turn (run : Run D work name workers world es left p) (h : b.Shows D work p)
    (hi : p.threads.get? i = some t) : Turn D work b p i t := by
  refine ⟨h, hi, run.pool.formed, fun j u hj hu => (h.plays j u hu).frame fun k hk => ?_⟩
  refine leftAfter_of_ne hi (run.pool.formed.fits i t hi) fun ht => hj ?_
  exact run.pool.ticket_inj hu hi hk ht

/-- **Every run is shown by deeds.** -/
theorem Run.deeds (hwork : ∀ task c, Proper D (some c.id) (work task c))
    (run : Run D work name workers world es left p) :
    ∃ b, Deeds D work world.registry es b ∧ b.left = left ∧ b.Shows D work p := by
  induction run with
  | start =>
    refine ⟨_, .start, rfl, ⟨?_, Pool.forall_start fun n => .idle (.inl rfl), fun i _ => rfl, ?_, ?_⟩⟩
    all_goals
      unfold Pool.start
      rw [Pool.foldl_put]
  | @thread es left p q i before h ih =>
    obtain ⟨b, hdeeds, rfl, hshows⟩ := ih
    obtain ⟨t, hi, -⟩ := Pool.move_of_step h
    obtain ⟨b', hdeed, hleft, hshows'⟩ := (before.turn hshows hi).follows hwork h
    exact ⟨b', hdeeds.deed i hdeed, hleft, hshows'⟩
  | passing _ h ih =>
    obtain ⟨b, hdeeds, hleft, hshows⟩ := ih
    exact ⟨b, hdeeds, hleft, hshows.code, hshows.plays, hshows.idle, hshows.queue, hshows.registry.trans h.symm⟩
  | @call es left p code before h ih =>
    obtain ⟨b, hdeeds, rfl, hshows⟩ := ih
    have hnew := before.pool.formed.caller_new
    refine ⟨_, hdeeds.silent (.call (hshows.idle _ hnew)), rfl, .put (fun j v _ => hshows.plays j v)
      (fun j _ => hshows.idle j) rfl rfl hshows.code ?_ hshows.queue hshows.registry⟩
    -- what a caller does has no outcome, so one that nobody reads is made up for it
    have hcode : around none (code.bind fun _ => .done (.ok .null)) = code :=
      (Routine.bind_assoc ..).trans (Routine.bind_done code)
    refine .inside (m := code.bind fun _ => .done (.ok .null)) rfl (fun e he => nomatch he) ?_
    have hdoing := Doing.running (u := none) (Stands.free (h.bind fun _ => Proper.done (Except.ok Json.null)))
    rw [hcode] at hdoing
    exact hdoing

/-! ## Threads that run code -/

theorem Plays.running {code : Action ε τ Unit} (h : Plays D work left t role) (hp : t.phase = .running code) :
    (∃ e, role = .begun e ∧ t.ticket = some e.ticket ∧ left e.ticket = some (wholeWork work e.unit) ∧
      code = unit work e.unit) ∨
    (∃ u s m, role = .inside u (.code s) ∧ t.ticket = u.map Pool.Entry.ticket ∧
      (∀ e, u = some e → left e.ticket = some m) ∧ Stands D (u.map jobId) s m ∧ code = around u m) ∨
    ∃ e, role = .closed e ∧ code = .done () := by
  cases h with
  | idle hph =>
    rw [hp] at hph
    rcases hph with hph | hph
    · cases hph
    · cases hph
  | assigned _ hph =>
    rw [hp] at hph
    cases hph
  | @begun e hk hl hph =>
    rw [hp] at hph
    cases hph
    exact .inl ⟨e, rfl, hk, hl, rfl⟩
  | @inside u place m hk hl hd =>
    rw [hp] at hd
    generalize hph : Pool.Phase.running code = phase at hd
    cases hd with
    | running hs =>
      cases hph
      exact .inr (.inl ⟨u, _, m, rfl, hk, hl, hs, rfl⟩)
    | offering hs hph' =>
      subst hph
      rcases hph' with hph | hph
      · cases hph
      · cases hph
    | told hs => cases hph
    | closing hs hph' =>
      subst hph
      cases hph'
  | @closed e _ _ _ _ _ hph =>
    rw [hp] at hph
    rcases hph with hph | hph
    · cases hph
      exact .inr (.inr ⟨e, rfl, rfl⟩)
    · cases hph

/-- **What is left of the work is what its thread still does**, before it writes down how the work ended. -/
theorem Run.left_eq (hwork : ∀ task c, Proper D (some c.id) (work task c))
    (run : Run D work name workers world es left p) (hi : p.threads.get? i = some t) {k : Nat} (hk : t.ticket = some k)
    {code : Action ε τ Unit} (hp : t.phase = .running code) :
    (∃ (e : Pool.Entry (Job τ)) (m : Action ε τ JobContext.Outcome), e.ticket = k ∧ left k = some m ∧
      code = remainder e.unit.context m) ∨ code = .done () := by
  obtain ⟨b, -, rfl, hshows⟩ := run.deeds hwork
  rcases (hshows.plays i t hi).running hp with ⟨e, -, hk', hl, rfl⟩ | ⟨u, s, m, -, hk', hl, -, rfl⟩ | ⟨e, -, rfl⟩
  · rw [hk] at hk'
    cases hk'
    exact .inl ⟨e, wholeWork work e.unit, rfl, hl, rfl⟩
  · cases u with
    | none =>
      rw [hk] at hk'
      cases hk'
    | some e =>
      rw [hk] at hk'
      cases hk'
      exact .inl ⟨e, m, rfl, hl e rfl, rfl⟩
  · exact .inr rfl

end Orchestrator
end JobRunner
