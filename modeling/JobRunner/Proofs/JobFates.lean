import JobRunner.Proofs.JobUnits
/-!
# The fate of a job

A job that may not be removed has one fate at any time, from the moment when spawning registers it: it is in the hands of
one thread, or it waits in the queue, or it is over.  The record of the job is what its fate says.  Each deed either does
not concern the job, or takes its fate one step further, and then it is a deed of the thread that has the job in hand.
-/
namespace JobRunner

/-! ## Records -/

namespace JobRecord

/-- The job has got so far, and nothing is said yet of how it ends. -/
def IsAt (status : JobStatus) (r : JobRecord) : Prop := r.status = status ∧ r.result = none ∧ r.error = none

/-- The record says that the job ended so. -/
def Tells (r : JobRecord) : JobContext.Outcome → Prop
  | .ok value => r.status = .completed ∧ r.result = some value ∧ r.error = none
  | .error failure => r.status = .failed ∧ r.result = none ∧ r.error = some failure.text

variable {r : JobRecord} {c : Change} {status : JobStatus}

theorem apply_eq_ok (now : Timestamp) (hf : r.status.isFinal = false)
    (ht : ∀ s, c.target? = some s → r.status.canMove s = true) : c.apply now r = .ok (c.mark now r) := by
  unfold Change.apply
  rw [hf, if_neg Bool.false_ne_true]
  cases hc : c.target? with
  | none => rfl
  | some s => exact if_pos (ht s hc)

/-- A report on a job that runs leaves it running. -/
theorem IsAt.report (h : r.IsAt .processing) (hc : c.isReport = true) (now : Timestamp) :
    ∃ r', c.apply now r = .ok r' ∧ r'.IsAt .processing := by
  obtain ⟨hs, hr, he⟩ := h
  refine ⟨c.mark now r, apply_eq_ok now (by rw [hs]; rfl) fun s ht => ?_, ?_⟩
  · cases c with
    | progress percent message =>
      cases ht
      rw [hs]
      rfl
    | log message => cases ht
    | complete | fail => cases hc
  · cases c with
    | progress percent message => exact ⟨rfl, hr, he⟩
    | log message => exact ⟨hs, hr, he⟩
    | complete | fail => cases hc

theorem IsAt.announce (h : r.IsAt .pending) (percent : UInt8) (message : String) (now : Timestamp) :
    ∃ r', (Change.progress percent message).apply now r = .ok r' ∧ r'.IsAt .processing := by
  obtain ⟨hs, hr, he⟩ := h
  refine ⟨_, apply_eq_ok now (by rw [hs]; rfl) fun s ht => ?_, rfl, hr, he⟩
  cases ht
  rw [hs]
  rfl

theorem IsAt.close (h : r.IsAt .processing) (o : JobContext.Outcome) (now : Timestamp) :
    ∃ r', (JobContext.closing o).apply now r = .ok r' ∧ r'.Tells o := by
  obtain ⟨hs, hr, he⟩ := h
  cases o with
  | ok value =>
    refine ⟨_, apply_eq_ok now (by rw [hs]; rfl) fun s ht => ?_, rfl, rfl, he⟩
    cases ht
    rw [hs]
    rfl
  | error failure =>
    refine ⟨_, apply_eq_ok now (by rw [hs]; rfl) fun s ht => ?_, rfl, hr, rfl⟩
    cases ht
    rw [hs]
    rfl

theorem IsAt.refuse (h : r.IsAt .pending) (message : String) (now : Timestamp) :
    ∃ r', (Change.fail message).apply now r = .ok r' ∧ r'.Tells (.error (.message message)) := by
  obtain ⟨hs, hr, he⟩ := h
  refine ⟨_, apply_eq_ok now (by rw [hs]; rfl) fun s ht => ?_, rfl, hr, rfl⟩
  cases ht
  rw [hs]
  rfl

end JobRecord

namespace Registry

variable {reg : Registry} {id x : JobId} {c : Change} {r r' : JobRecord} {now : Timestamp}

theorem get?_change_of_ne (h : id ≠ x) : (reg.change id c now).2.get? x = reg.get? x := by
  unfold change get?
  cases reg.jobs.get? id with
  | none => rfl
  | some r =>
    dsimp only
    cases c.apply now r with
    | error e => rfl
    | ok r' => exact Table.get?_insert_ne h

theorem get?_change (h : reg.get? x = some r) (ha : c.apply now r = .ok r') :
    (reg.change x c now).2.get? x = some r' := by
  have h : reg.jobs.get? x = some r := h
  unfold change get?
  simp only [h, ha]
  exact Table.get?_insert_self ..

end Registry

namespace Orchestrator

variable {ε τ : Type} {D : JobId → Prop} {work : Work ε τ} {es new : List (Pool.Event (Job τ))} {b b' : Board ε τ}
  {i j : Pool.ThreadId} {e : Pool.Entry (Job τ)} {role : Role τ} {u : Option (Pool.Entry (Job τ))} {place : Place τ}
  {m : Action ε τ JobContext.Outcome} {registry : Registry}

/-! ## Fates -/

/-- How a job stands.  A thread that has the job in hand is named. -/
inductive Fate (τ : Type) where
  /-- No spawn has registered the job. -/
  | none
  /-- It is registered and about to be handed over. -/
  | held (i : Pool.ThreadId)
  | offered (i : Pool.ThreadId) (e : Pool.Entry (Job τ))
  /-- It was turned away, which its spawn does not know yet. -/
  | dropped (i : Pool.ThreadId) (e : Pool.Entry (Job τ))
  /-- Its spawn is about to write down that it was turned away. -/
  | refusing (i : Pool.ThreadId) (e : Pool.Entry (Job τ))
  | refused (e : Pool.Entry (Job τ))
  | waiting (e : Pool.Entry (Job τ))
  | assigned (i : Pool.ThreadId) (e : Pool.Entry (Job τ))
  | begun (i : Pool.ThreadId) (e : Pool.Entry (Job τ))
  | working (i : Pool.ThreadId) (e : Pool.Entry (Job τ))
  | closed (i : Pool.ThreadId) (e : Pool.Entry (Job τ))
  | ended (e : Pool.Entry (Job τ))

namespace Fate

/-- The thread that has the job in hand. -/
def owner? : Fate τ → Option Pool.ThreadId
  | held i | offered i _ | dropped i _ | refusing i _ | assigned i _ | begun i _ | working i _ | closed i _ => some i
  | none | refused _ | waiting _ | ended _ => Option.none

/-- No other thread than this one has the job in hand. -/
def IsOf (i : Pool.ThreadId) (s : Fate τ) : Prop := s.owner? = Option.none ∨ s.owner? = some i

def entry? : Fate τ → Option (Pool.Entry (Job τ))
  | offered _ e | dropped _ e | refusing _ e | refused e | waiting e | assigned _ e | begun _ e | working _ e
  | closed _ e | ended e => some e
  | none | held _ => Option.none

/-- The spawn of the job was told that it was turned away. -/
def isRefused : Fate τ → Bool
  | refusing _ _ | refused _ => true
  | _ => false

def isUnderWay : Fate τ → Bool
  | begun _ _ | working _ _ => true
  | _ => false

/-- The record of the job is what the fate says, and so is what is left of the work. -/
def Fits (left : Nat → Option (Action ε τ JobContext.Outcome)) (record : Option JobRecord) : Fate τ → Prop
  | none => True
  | held _ | begun _ _ => ∃ r, record = some r ∧ r.IsAt .pending
  | offered _ e | dropped _ e | refusing _ e | waiting e | assigned _ e =>
    left e.ticket = Option.none ∧ ∃ r, record = some r ∧ r.IsAt .pending
  | working _ e => left e.ticket ≠ Option.none ∧ ∃ r, record = some r ∧ r.IsAt .processing
  | closed _ e | ended e => ∃ m o r, left e.ticket = some m ∧ Ends m o ∧ record = some r ∧ r.Tells o
  | refused e => left e.ticket = Option.none ∧ ∃ r, record = some r ∧ r.Tells (.error (.message rejectedMessage))

variable {s s' : Fate τ} {i j : Pool.ThreadId} {left left' : Nat → Option (Action ε τ JobContext.Outcome)}
  {record : Option JobRecord}

theorem IsOf.eq (h : s.IsOf i) (hj : s.owner? = some j) : j = i := by
  rcases h with h | h
  · rw [h] at hj
    cases hj
  · rw [h] at hj
    exact (Option.some.inj hj).symm

theorem Fits.frame (h : s.Fits left record)
    (hl : ∀ e, s.entry? = some e →
      left' e.ticket = left e.ticket ∨ s.isUnderWay = true ∧ left' e.ticket ≠ Option.none) : s.Fits left' record := by
  cases s with
  | none | held | begun => exact h
  | working i e => exact ⟨(hl e rfl).elim (fun he => he ▸ h.1) (·.2), h.2⟩
  | offered i e | dropped i e | refusing i e | waiting e | assigned i e | refused e =>
    refine ⟨(hl e rfl).elim (fun he => he.trans h.1) fun hu => ?_, h.2⟩
    cases hu.1
  | closed i e | ended e =>
    obtain ⟨m, o, r, hm, h⟩ := h
    refine ⟨m, o, r, (hl e rfl).elim (fun he => he.trans hm) fun hu => ?_, h⟩
    cases hu.1

theorem Fits.eq_none (h : s.Fits left Option.none) : s = none := by
  cases s with
  | none => rfl
  | held | begun =>
    obtain ⟨r, hr, -⟩ := h
    cases hr
  | offered | dropped | refusing | waiting | assigned | working | refused =>
    obtain ⟨-, r, hr, -⟩ := h
    cases hr
  | closed | ended =>
    obtain ⟨m, o, r, -, -, hr, -⟩ := h
    cases hr

end Fate

variable {x : JobId} {s s' : Fate τ} {spot spot' : Spot}

/-- A thread that stands there has a part in the job only as its fate says. -/
def Place.Agrees (x : JobId) (i : Pool.ThreadId) (s : Fate τ) : Place τ → Prop
  | code .free => True
  | code (.holding id) => id = x → s = .held i
  | code (.refusing id) => id = x → ∃ e, s = .refusing i e
  | offering e => jobId e = x → s = .offered i e
  | told e .rejected => jobId e = x → s = .dropped i e
  | told _ _ => True

def Role.Agrees (x : JobId) (i : Pool.ThreadId) (s : Fate τ) : Role τ → Prop
  | idle => True
  | assigned e => jobId e = x → s = .assigned i e
  | begun e => jobId e = x → s = .begun i e
  | closed e => jobId e = x → s = .closed i e
  | inside u place => (∀ e, u = some e → jobId e = x → s = .working i e) ∧ place.Agrees x i s

theorem Place.Agrees.other (h : place.Agrees x i s) (hs : s.owner? ≠ some i) : place.Agrees x i s' := by
  have hno : ∀ {P : Prop}, s.owner? = some i → P := fun ho => absurd ho hs
  cases place with
  | code spot =>
    cases spot with
    | free => trivial
    | holding id => exact fun hid => hno (by rw [h hid]; rfl)
    | refusing id =>
      intro hid
      obtain ⟨e, he⟩ := h hid
      exact hno (by rw [he]; rfl)
  | offering e => exact fun he => hno (by rw [h he]; rfl)
  | told e a =>
    cases a with
    | queued | overflow => trivial
    | rejected => exact fun he => hno (by rw [h he]; rfl)

/-- A thread that does not have the job in hand has no part in it. -/
theorem Role.Agrees.other (h : role.Agrees x i s) (hs : s.owner? ≠ some i) : role.Agrees x i s' := by
  have hno : ∀ {P : Prop}, s.owner? = some i → P := fun ho => absurd ho hs
  cases role with
  | idle => trivial
  | assigned e | begun e | closed e => exact fun he => hno (by rw [h he]; rfl)
  | inside u place => exact ⟨fun e hu he => hno (by rw [h.1 e hu he]; rfl), h.2.other hs⟩

/-! ## The fate of one job -/

def lined (x : JobId) (queue : List (Pool.Entry (Job τ))) : List (Pool.Entry (Job τ)) :=
  queue.filter fun e => decide (jobId e = x)

structure Kept (x : JobId) (es : List (Pool.Event (Job τ))) (b : Board ε τ) (s : Fate τ) : Prop where
  fits : s.Fits b.left (b.registry.get? x)
  agrees : ∀ i, (b.roles i).Agrees x i s
  queue : lined x b.queue = [] ∨ ∃ e, s = .waiting e ∧ lined x b.queue = [e]
  submitted : ∀ e, s.entry? = some e ↔ .submitted e ∈ es ∧ jobId e = x
  rejected : ∀ e, s.entry? = some e → (.answered e.ticket .rejected ∈ es ↔ s.isRefused = true)
  ended : ∀ e c, s.entry? = some e → .ended e.ticket c ∈ es → c = false ∧ s = .ended e
  refusing : ∀ i e, s = .refusing i e → ∃ u, b.roles i = .inside u (.code (.refusing x))

/-- The thread takes the job from one fate to the next, or leaves it alone. -/
theorem Kept.turn (h : Kept x es b s) (hr : b'.roles = Function.update b.roles i role)
    (hs : s' = s ∨ s.IsOf i ∧ s'.IsOf i)
    (hf : s'.Fits b'.left (b'.registry.get? x)) (ha : role.Agrees x i s')
    (hq : lined x b'.queue = [] ∨ ∃ e, s' = .waiting e ∧ lined x b'.queue = [e])
    (hsub : ∀ e, s'.entry? = some e ↔ .submitted e ∈ es ++ new ∧ jobId e = x)
    (hrej : ∀ e, s'.entry? = some e → (.answered e.ticket .rejected ∈ es ++ new ↔ s'.isRefused = true))
    (hend : ∀ e c, s'.entry? = some e → .ended e.ticket c ∈ es ++ new → c = false ∧ s' = .ended e)
    (hw : ∀ e, s' = .refusing i e → ∃ u, role = .inside u (.code (.refusing x))) : Kept x (es ++ new) b' s' := by
  refine ⟨hf, fun j => ?_, hq, hsub, hrej, hend, fun j e hj => ?_⟩
  · rw [hr]
    by_cases hji : j = i
    · rw [hji, Function.update_self]
      exact ha
    · rw [Function.update_of_ne hji]
      rcases hs with rfl | ⟨ho, -⟩
      · exact h.agrees j
      · exact (h.agrees j).other fun hj => hji (ho.eq hj)
  · rw [hr]
    by_cases hji : j = i
    · subst hji
      rw [Function.update_self]
      exact hw e hj
    · rw [Function.update_of_ne hji]
      rcases hs with rfl | ⟨-, ho⟩
      · exact h.refusing j e hj
      · exact absurd (ho.eq (by rw [hj]; rfl)) hji

/-- What is seen does not decide about the job. -/
structure Quiet (x : JobId) (s : Fate τ) (new : List (Pool.Event (Job τ))) : Prop where
  submitted : ∀ e, .submitted e ∈ new → jobId e ≠ x
  rejected : ∀ e, s.entry? = some e → .answered e.ticket .rejected ∉ new
  ended : ∀ e c, s.entry? = some e → .ended e.ticket c ∉ new

theorem quiet_nil (x : JobId) (s : Fate τ) : Quiet x s [] :=
  ⟨fun _ h => absurd h List.not_mem_nil, fun _ _ => List.not_mem_nil, fun _ _ _ => List.not_mem_nil⟩

/-- The same, when nothing is seen that decides about the job. -/
theorem Kept.quiet (h : Kept x es b s) (hr : b'.roles = Function.update b.roles i role)
    (hs : s' = s ∨ s.IsOf i ∧ s'.IsOf i)
    (hf : s'.Fits b'.left (b'.registry.get? x)) (ha : role.Agrees x i s')
    (hq : lined x b'.queue = [] ∨ ∃ e, s' = .waiting e ∧ lined x b'.queue = [e]) (he : s'.entry? = s.entry?)
    (href : s'.isRefused = s.isRefused) (hend : ∀ e, s = .ended e → s' = .ended e) (hn : Quiet x s new)
    (hw : ∀ e, s' = .refusing i e → ∃ u, role = .inside u (.code (.refusing x))) : Kept x (es ++ new) b' s' := by
  refine h.turn hr hs hf ha hq (fun e => ?_) (fun e hs' => ?_) (fun e c hs' hc => ?_) hw
  · rw [he, h.submitted, List.mem_append]
    exact ⟨fun hsub => ⟨.inl hsub.1, hsub.2⟩, fun hsub => ⟨hsub.1.resolve_right fun hnew => hn.submitted e hnew hsub.2,
      hsub.2⟩⟩
  · rw [he] at hs'
    rw [href, ← h.rejected e hs', List.mem_append]
    exact ⟨fun ha => ha.resolve_right (hn.rejected e hs'), .inl⟩
  · rw [he] at hs'
    obtain ⟨hc, hse⟩ := h.ended e c hs' ((List.mem_append.1 hc).resolve_right (hn.ended e c hs'))
    exact ⟨hc, hend e hse⟩

theorem Kept.frame {was : Role τ} (h : Kept x es b s) (hi : b.roles i = was)
    (hw : ∀ u, was ≠ .inside u (.code (.refusing x))) (hr : b'.roles = Function.update b.roles i role)
    (hf : s.Fits b'.left (b'.registry.get? x)) (ha : role.Agrees x i s) (hq : lined x b'.queue = lined x b.queue)
    (hn : Quiet x s new) : Kept x (es ++ new) b' s := by
  refine h.quiet hr (.inl rfl) hf ha ?_ rfl rfl (fun e he => he) hn fun e hs => ?_
  · rw [hq]
    exact h.queue
  · obtain ⟨u, hu⟩ := h.refusing i e hs
    exact absurd (hi.symm.trans hu) (hw u)

theorem Kept.agree (h : Kept x es b s) (hi : b.roles i = role) : role.Agrees x i s := hi ▸ h.agrees i

/-- Going on with the work of a unit is no matter to other jobs, and to its own only when it ends. -/
theorem Kept.goOn (h : Kept x es b s) (hknown : Known es b) (hd : Distinct es)
    (hu : ∀ e, u = some e → b.Has e ∧ (jobId e = x → s.isUnderWay = true)) (m : Action ε τ JobContext.Outcome) :
    Kept x es (b.goOn u m) s := by
  refine ⟨h.fits.frame fun e he => ?_, h.agrees, h.queue, h.submitted, h.rejected, h.ended, h.refusing⟩
  obtain ⟨hsub, hx⟩ := (h.submitted e).1 he
  cases u with
  | none => exact .inl rfl
  | some e' =>
    obtain ⟨hhas, hway⟩ := hu e' rfl
    by_cases hk : e.ticket = e'.ticket
    · obtain rfl := hd.inj hsub (hknown.has e' hhas) hk
      exact .inr ⟨hway hx, by simp [Board.goOn]⟩
    · exact .inl (Function.update_of_ne hk ..)

theorem Kept.goOn_inside (h : Kept x es b s) (hknown : Known es b) (hd : Distinct es) (hi : b.roles i = .inside u place)
    (m : Action ε τ JobContext.Outcome) : Kept x es (b.goOn u m) s := by
  refine h.goOn hknown hd (fun e he => ⟨.inr ⟨i, ?_⟩, fun hx => ?_⟩) m
  · rw [hi]
    exact .inl he
  · rw [(h.agree hi).1 e he hx]
    rfl

theorem Kept.unlined (h : Kept x es b s) (hs : ∀ e, s ≠ .waiting e) : lined x b.queue = [] :=
  h.queue.resolve_right fun ⟨e, he, _⟩ => hs e he

/-! ## What deeds do to the fate of a job -/

theorem Kept.take {rest : List (Pool.Entry (Job τ))} (h : Kept x es b s) (hi : b.roles i = .idle)
    (hq : b.queue = e :: rest) : ∃ s', Kept x (es ++ []) { b.play i (.assigned e) with queue := rest } s' := by
  by_cases he : jobId e = x
  · have hcons : lined x b.queue = e :: lined x rest := by
      rw [hq]
      exact List.filter_cons_of_pos (by simpa using he)
    rcases h.queue with hnil | ⟨e', rfl, hone⟩
    · rw [hnil] at hcons
      cases hcons
    · rw [hcons] at hone
      obtain ⟨rfl, hrest⟩ := List.cons.inj hone
      exact ⟨.assigned i e, h.quiet rfl (.inr ⟨.inl rfl, .inr rfl⟩) h.fits (fun _ => rfl) (.inl hrest) rfl rfl (by simp)
        (quiet_nil ..) (by simp)⟩
  · have hrest : lined x rest = lined x b.queue := by
      rw [hq]
      exact (List.filter_cons_of_neg (by simpa using he)).symm
    exact ⟨s, h.frame hi (by simp) rfl h.fits (fun hx => absurd hx he) hrest (quiet_nil ..)⟩

theorem Kept.start (h : Kept x es b s) (hknown : Known es b) (hd : Distinct es) (hi : b.roles i = .assigned e)
    (m : Action ε τ JobContext.Outcome) :
    ∃ s', Kept x (es ++ [.started e]) ((b.goOn (some e) m).play i (.begun e)) s' := by
  have hquiet : ∀ s : Fate τ, Quiet x s [.started e] := fun s => ⟨by simp, by simp, by simp⟩
  by_cases he : jobId e = x
  · obtain rfl : s = .assigned i e := h.agree hi he
    exact ⟨.begun i e, h.quiet rfl (.inr ⟨.inr rfl, .inr rfl⟩) h.fits.2 (fun _ => rfl) (.inl (h.unlined (by simp))) rfl
      rfl (by simp) (hquiet _) (by simp)⟩
  · have hgo := h.goOn (u := some e) hknown hd (fun e' he' => ?_) m
    · exact ⟨s, hgo.frame hi (by simp) rfl hgo.fits (fun hx => absurd hx he) rfl (hquiet s)⟩
    · cases he'
      exact ⟨.inr ⟨i, by rw [hi]; rfl⟩, fun hx => absurd hx he⟩

theorem Kept.announce (h : Kept x es b s) (hknown : Known es b) (hd : Distinct es) (hi : b.roles i = .begun e)
    (m : Action ε τ JobContext.Outcome) (now : Timestamp) : ∃ s', Kept x (es ++ [])
      { (b.goOn (some e) m).play i (.inside (some e) (.code .free)) with
        registry := (b.registry.change (jobId e) (.progress 0 "job started") now).2 } s' := by
  have hgo := h.goOn (u := some e) hknown hd (fun e' he' => ?_) m
  · by_cases he : jobId e = x
    · obtain rfl : s = .begun i e := h.agree hi he
      obtain ⟨r, hr, hpending⟩ := h.fits
      obtain ⟨r', happly, hr'⟩ := hpending.announce 0 "job started" now
      refine ⟨.working i e, h.quiet rfl (.inr ⟨.inr rfl, .inr rfl⟩) ⟨?_, r', ?_, hr'⟩ ⟨fun e' he' _ => ?_, trivial⟩
        (.inl (h.unlined (by simp))) rfl rfl (by simp) (quiet_nil ..) (by simp)⟩
      · simp [Board.play, Board.goOn]
      · rw [he]
        exact Registry.get?_change hr happly
      · rw [Option.some.inj he']
    · refine ⟨s, hgo.frame hi (by simp) rfl ?_ ⟨fun e' he' hx => ?_, trivial⟩ rfl (quiet_nil ..)⟩
      · show s.Fits _ (Registry.get? _ x)
        rw [Registry.get?_change_of_ne he]
        exact hgo.fits
      · cases he'
        exact absurd hx he
  · cases he'
    refine ⟨.inr ⟨i, by rw [hi]; rfl⟩, fun hx => ?_⟩
    rw [show s = .begun i e from h.agree hi hx]
    rfl

theorem Kept.act {r : Registry} (h : Kept x es b s) (hx : ¬ D x) (hi : b.roles i = .inside u (.code spot))
    (he : Effect D (u.map jobId) b.registry spot spot' r) :
    ∃ s', Kept x (es ++ []) { b.play i (.inside u (.code spot')) with registry := r } s' := by
  have hunit := (h.agree hi).1
  cases he with
  | harmless hr =>
    have hfits : s.Fits b.left (r.get? x) := by
      cases hr with
      | same => exact h.fits
      | @report id c now ho hc =>
        by_cases hid : id = x
        · obtain ⟨e, rfl, he⟩ := Option.map_eq_some_iff.1 ho
          obtain rfl : s = .working i e := hunit e rfl (he.trans hid)
          obtain ⟨hl, r, hr, hp⟩ := h.fits
          obtain ⟨r', happly, hr'⟩ := hp.report hc now
          subst hid
          exact ⟨hl, r', Registry.get?_change hr happly, hr'⟩
        · rw [Registry.get?_change_of_ne hid]
          exact h.fits
      | @delete id hd =>
        have hid : id ≠ x := by
          rintro rfl
          exact hx hd
        rw [Registry.get?_delete, if_neg hid]
        exact h.fits
    exact ⟨s, h.frame hi (by simp) rfl hfits ⟨hunit, trivial⟩ rfl (quiet_nil ..)⟩
  | @create id _ metadata now hn hs =>
    by_cases hid : id = x
    · subst hid
      -- where a job is registered there was none, and so no fate to lose
      obtain rfl : s = .none := Fate.Fits.eq_none (hn ▸ h.fits)
      rcases hs with rfl | rfl
      · exact ⟨.none, h.frame hi (by simp) rfl trivial ⟨hunit, trivial⟩ rfl (quiet_nil ..)⟩
      · refine ⟨.held i, h.quiet rfl (.inr ⟨.inl rfl, .inr rfl⟩) ⟨.accepted id metadata now, ?_, rfl, rfl, rfl⟩
          ⟨fun e hu he => ?_, fun _ => rfl⟩ (.inl (h.unlined (by simp))) rfl rfl (by simp) (quiet_nil ..) (by simp)⟩
        · exact (Registry.get?_create ..).trans (if_pos ⟨rfl, hn⟩)
        · cases hunit e hu he
    · have hplace : (Place.code spot' : Place τ).Agrees x i s := by
        rcases hs with rfl | rfl
        · trivial
        · exact fun hx => absurd hx hid
      refine ⟨s, h.frame hi (by simp) rfl ?_ ⟨hunit, hplace⟩ rfl (quiet_nil ..)⟩
      show s.Fits _ (Registry.get? _ x)
      rw [Registry.get?_create, if_neg fun hc => hid hc.1]
      exact h.fits
  | @refuse id now =>
    by_cases hid : id = x
    · subst hid
      obtain ⟨e, rfl⟩ := (h.agree hi).2 rfl
      obtain ⟨hleft, r, hr, hp⟩ := h.fits
      obtain ⟨r', happly, hr'⟩ := hp.refuse rejectedMessage now
      refine ⟨.refused e, h.quiet rfl (.inr ⟨.inr rfl, .inl rfl⟩) ⟨hleft, r', Registry.get?_change hr happly, hr'⟩
        ⟨fun e' hu he => ?_, trivial⟩ (.inl (h.unlined (by simp))) rfl rfl (by simp) (quiet_nil ..) (by simp)⟩
      cases hunit e' hu he
    · refine ⟨s, h.frame hi (by simpa using hid) rfl ?_ ⟨hunit, trivial⟩ rfl (quiet_nil ..)⟩
      show s.Fits _ (Registry.get? _ x)
      rw [Registry.get?_change_of_ne hid]
      exact h.fits

theorem Kept.submit (h : Kept x es b s) (hknown : Known es b) (hd : Distinct (es ++ [.submitted e]))
    (hi : b.roles i = .inside u (.code (.holding (jobId e)))) (hp : place = .offering e ∨ place = .told e .rejected) :
    ∃ s', Kept x (es ++ [.submitted e]) (b.play i (.inside u place)) s' := by
  have hunit := (h.agree hi).1
  by_cases he : jobId e = x
  · obtain rfl : s = .held i := (h.agree hi).2 he
    -- the ticket is new, so nothing was seen under it
    have hfresh : ∀ {P : Prop} {k : Nat}, (∃ e', .submitted e' ∈ es ∧ e'.ticket = k) → k = e.ticket → P := by
      rintro P k ⟨e', he', hk'⟩ hk
      exact absurd (hk'.trans hk) (hd.fresh he')
    have hleft : b.left e.ticket = none := by
      by_contra hl
      obtain ⟨e', he', hk⟩ := (hknown.left _).1 hl
      exact hfresh ⟨e', hknown.begun e' he', hk⟩ rfl
    have hrest : (∀ a, .answered e.ticket a ∉ es ++ [.submitted e]) ∧ ∀ c, .ended e.ticket c ∉ es ++ [.submitted e] := by
      refine ⟨fun a ha => ?_, fun c hc => ?_⟩
      · exact hfresh (hknown.answered _ a ((List.mem_append.1 ha).resolve_right (by simp))) rfl
      · exact hfresh (hknown.ended _ c ((List.mem_append.1 hc).resolve_right (by simp))) rfl
    obtain ⟨s', hplace, hentry, howner, href, hfits⟩ : ∃ s' : Fate τ, place.Agrees x i s' ∧ s'.entry? = some e ∧
        s'.owner? = some i ∧ s'.isRefused = false ∧ s'.Fits b.left (b.registry.get? x) := by
      rcases hp with rfl | rfl
      · exact ⟨.offered i e, fun _ => rfl, rfl, rfl, rfl, hleft, h.fits⟩
      · exact ⟨.dropped i e, fun _ => rfl, rfl, rfl, rfl, hleft, h.fits⟩
    refine ⟨s', h.turn rfl (.inr ⟨.inr rfl, .inr howner⟩) hfits ⟨fun e' hu hx => ?_, hplace⟩
      (.inl (h.unlined (by simp))) (fun e' => ?_) (fun e' he' => ?_) (fun e' c he' hc => ?_) fun e' hs => ?_⟩
    · cases hunit e' hu hx
    · rw [hentry, List.mem_append, List.mem_singleton]
      refine ⟨fun heq => ?_, fun ⟨hsub, hx⟩ => hsub.elim (fun hsub => ?_) fun heq => ?_⟩
      · cases heq
        exact ⟨.inr rfl, he⟩
      · cases (h.submitted e').2 ⟨hsub, hx⟩
      · cases heq
        rfl
    · obtain rfl : e = e' := Option.some.inj (hentry.symm.trans he')
      rw [href]
      exact ⟨fun ha => absurd ha (hrest.1 _), fun hf => absurd hf Bool.false_ne_true⟩
    · obtain rfl : e = e' := Option.some.inj (hentry.symm.trans he')
      exact absurd hc (hrest.2 c)
    · rw [hs] at href
      cases href
  · have hplace : place.Agrees x i s := by
      rcases hp with rfl | rfl
      · exact fun hx => absurd hx he
      · exact fun hx => absurd hx he
    exact ⟨s, h.frame hi (by simp) rfl h.fits ⟨hunit, hplace⟩ rfl ⟨by simp [he], by simp, by simp⟩⟩

theorem Kept.drop (h : Kept x es b s) (hi : b.roles i = .inside u (.offering e)) :
    ∃ s', Kept x (es ++ []) (b.play i (.inside u (.told e .rejected))) s' := by
  have hunit := (h.agree hi).1
  by_cases he : jobId e = x
  · obtain rfl : s = .offered i e := (h.agree hi).2 he
    refine ⟨.dropped i e, h.quiet rfl (.inr ⟨.inr rfl, .inr rfl⟩) h.fits ⟨fun e' hu hx => ?_, fun _ => rfl⟩
      (.inl (h.unlined (by simp))) rfl rfl (by simp) (quiet_nil ..) (by simp)⟩
    cases hunit e' hu hx
  · exact ⟨s, h.frame hi (by simp) rfl h.fits ⟨hunit, fun hx => absurd hx he⟩ rfl (quiet_nil ..)⟩

theorem Kept.enqueue (h : Kept x es b s) (hi : b.roles i = .inside u (.offering e)) :
    ∃ s', Kept x (es ++ []) { b.play i (.inside u (.told e .queued)) with queue := b.queue ++ [e] } s' := by
  have hunit := (h.agree hi).1
  have hlined : lined x (b.queue ++ [e]) = lined x b.queue ++ lined x [e] := List.filter_append ..
  by_cases he : jobId e = x
  · obtain rfl : s = .offered i e := (h.agree hi).2 he
    have hone : lined x (b.queue ++ [e]) = [e] := by
      rw [hlined, h.unlined (by simp)]
      simp [lined, he]
    refine ⟨.waiting e, h.quiet rfl (.inr ⟨.inr rfl, .inl rfl⟩) h.fits ⟨fun e' hu hx => ?_, trivial⟩
      (.inr ⟨e, rfl, hone⟩) rfl rfl (by simp) (quiet_nil ..) (by simp)⟩
    cases hunit e' hu hx
  · have hnone : lined x [e] = [] := List.filter_cons_of_neg (by simpa using he)
    rw [hnone, List.append_nil] at hlined
    exact ⟨s, h.frame hi (by simp) rfl h.fits ⟨hunit, trivial⟩ hlined (quiet_nil ..)⟩

/-- A thread is made for a job: first its spawn lets go of it, and then the new thread takes it. -/
theorem Kept.overflow (h : Kept x es b s) (hknown : Known es b) (hd : Distinct es)
    (hi : b.roles i = .inside u (.offering e)) (hj : b.roles j = .idle) (m : Action ε τ JobContext.Outcome) :
    ∃ s', Kept x (es ++ [.answered e.ticket .overflow])
      (((b.goOn u m).play j (.assigned e)).play i (.inside u (.code .free))) s' := by
  have hgo := h.goOn_inside hknown hd hi m
  have hunit := (h.agree hi).1
  have hne : i ≠ j := by
    rintro rfl
    rw [hi] at hj
    cases hj
  have hquiet : ∀ s : Fate τ, Quiet x s [.answered e.ticket .overflow] := fun s => ⟨by simp, by simp, by simp⟩
  have hfree : ∃ s', (jobId e = x → s' = .waiting e) ∧
      Kept x (es ++ [.answered e.ticket .overflow]) ((b.goOn u m).play i (.inside u (.code .free))) s' := by
    by_cases he : jobId e = x
    · obtain rfl : s = .offered i e := (h.agree hi).2 he
      refine ⟨.waiting e, fun _ => rfl, hgo.quiet rfl (.inr ⟨.inr rfl, .inl rfl⟩) hgo.fits
        ⟨fun e' hu hx => ?_, trivial⟩ (.inl (h.unlined (by simp))) rfl rfl (by simp) (hquiet _) (by simp)⟩
      cases hunit e' hu hx
    · exact ⟨s, fun hx => absurd hx he, hgo.frame hi (by simp) rfl hgo.fits ⟨hunit, trivial⟩ rfl (hquiet s)⟩
  obtain ⟨s', hwaiting, hfree⟩ := hfree
  -- the two threads play their new parts in either order
  have hj' : ((b.goOn u m).play i (.inside u (.code .free))).roles j = .idle :=
    (Function.update_of_ne (Ne.symm hne) ..).trans hj
  have hboard : ((b.goOn u m).play j (.assigned e)).play i (.inside u (.code .free)) =
      ((b.goOn u m).play i (.inside u (.code .free))).play j (.assigned e) := by
    unfold Board.play
    dsimp only
    rw [Function.update_comm hne]
  rw [hboard, ← List.append_nil (es ++ _)]
  by_cases he : jobId e = x
  · obtain rfl := hwaiting he
    exact ⟨.assigned j e, hfree.quiet rfl (.inr ⟨.inl rfl, .inr rfl⟩) hfree.fits (fun _ => rfl)
      (.inl (h.unlined (by rw [(h.agree hi).2 he]; simp))) rfl rfl (by simp) (quiet_nil ..) (by simp)⟩
  · exact ⟨s', hfree.frame hj' (by simp) rfl hfree.fits (fun hx => absurd hx he) rfl (quiet_nil ..)⟩

theorem Kept.answer {a : Submission} (h : Kept x es b s) (hknown : Known es b) (hd : Distinct es)
    (hi : b.roles i = .inside u (.told e a)) (m : Action ε τ JobContext.Outcome) :
    ∃ s', Kept x (es ++ [.answered e.ticket a]) ((b.goOn u m).play i (.inside u (.code (.told (jobId e) a)))) s' := by
  have hgo := h.goOn_inside hknown hd hi m
  have hunit := (h.agree hi).1
  have hhas : b.Has e := .inr ⟨i, by rw [hi]; exact .inr rfl⟩
  cases a with
  | queued | overflow =>
    exact ⟨s, hgo.frame hi (by simp) rfl hgo.fits ⟨hunit, trivial⟩ rfl ⟨by simp, by simp, by simp⟩⟩
  | rejected =>
    by_cases he : jobId e = x
    · obtain rfl : s = .dropped i e := (h.agree hi).2 he
      refine ⟨.refusing i e, hgo.turn rfl (.inr ⟨.inr rfl, .inr rfl⟩) hgo.fits
        ⟨fun e' hu hx => ?_, fun _ => ⟨e, rfl⟩⟩ (.inl (h.unlined (by simp))) (fun e' => ?_) (fun e' he' => ?_)
        (fun e' c he' hc => ?_) fun e' _ => ⟨u, by rw [← he]; rfl⟩⟩
      · cases hunit e' hu hx
      · exact (h.submitted e').trans (by simp)
      · cases he'
        simp [Fate.isRefused]
      · cases (h.ended e' c he' ((List.mem_append.1 hc).resolve_right (by simp))).2
    · refine ⟨s, hgo.frame hi (by simp) rfl hgo.fits ⟨hunit, fun hx => absurd hx he⟩ rfl
        ⟨by simp, fun e' he' ha => ?_, by simp⟩⟩
      -- an answer for the ticket of the job would be one for its unit
      obtain ⟨hsub, hx⟩ := (h.submitted e').1 he'
      have hk : e'.ticket = e.ticket := by simpa using ha
      rw [hd.inj hsub (hknown.has e hhas) hk] at hx
      exact he hx

/-- The last word on a job is written. -/
theorem Kept.close {o : JobContext.Outcome} (h : Kept x es b s) (hi : b.roles i = .inside (some e) (.code .free))
    (hm : b.left e.ticket = some m) (ho : Ends m o) (now : Timestamp) : ∃ s', Kept x (es ++ [])
      { b.play i (.closed e) with registry := (b.registry.change (jobId e) (JobContext.closing o) now).2 } s' := by
  by_cases he : jobId e = x
  · obtain rfl : s = .working i e := (h.agree hi).1 e rfl he
    obtain ⟨-, r, hr, hp⟩ := h.fits
    obtain ⟨r', happly, hr'⟩ := hp.close o now
    subst he
    exact ⟨.closed i e, h.quiet rfl (.inr ⟨.inr rfl, .inr rfl⟩)
      ⟨m, o, r', hm, ho, Registry.get?_change hr happly, hr'⟩ (fun _ => rfl) (.inl (h.unlined (by simp))) rfl rfl
      (by simp) (quiet_nil ..) (by simp)⟩
  · refine ⟨s, h.frame hi (by simp) rfl ?_ (fun hx => absurd hx he) rfl (quiet_nil ..)⟩
    show s.Fits _ (Registry.get? _ x)
    rw [Registry.get?_change_of_ne he]
    exact h.fits

theorem Kept.count (h : Kept x es b s) (hknown : Known es b) (hd : Distinct es) (hi : b.roles i = .closed e) :
    ∃ s', Kept x (es ++ [.ended e.ticket false]) (b.play i .idle) s' := by
  have hhas : b.Has e := .inr ⟨i, by rw [hi]; rfl⟩
  by_cases he : jobId e = x
  · obtain rfl : s = .closed i e := h.agree hi he
    refine ⟨.ended e, h.turn rfl (.inr ⟨.inr rfl, .inl rfl⟩) h.fits trivial (.inl (h.unlined (by simp))) (fun e' => ?_)
      (fun e' he' => ?_) (fun e' c he' hc => ?_) (by simp)⟩
    · exact (h.submitted e').trans (by simp)
    · exact ⟨fun ha => (h.rejected e' he').1 ((List.mem_append.1 ha).resolve_right (by simp)),
        fun hf => absurd hf Bool.false_ne_true⟩
    · cases he'
      rcases List.mem_append.1 hc with hc | hc
      · cases (h.ended e c rfl hc).2
      · cases List.mem_singleton.1 hc
        exact ⟨rfl, rfl⟩
  · refine ⟨s, h.frame hi (by simp) rfl h.fits trivial rfl ⟨by simp, by simp, fun e' c he' hc => ?_⟩⟩
    obtain ⟨hsub, hx⟩ := (h.submitted e').1 he'
    have hk : e'.ticket = e.ticket := (Pool.Event.ended.inj (List.mem_singleton.1 hc)).1
    rw [hd.inj hsub (hknown.has e hhas) hk] at hx
    exact he hx

theorem kept_deed (h : Kept x es b s) (hx : ¬ D x) (hknown : Known es b) (hd : Distinct (es ++ new))
    (deed : Deed D work b i new b') : ∃ s', Kept x (es ++ new) b' s' := by
  cases deed with
  | none =>
    rw [List.append_nil]
    exact ⟨s, h⟩
  | call hi =>
    exact ⟨s, h.frame hi (by simp) rfl h.fits ⟨by simp, trivial⟩ rfl (quiet_nil ..)⟩
  | leave hi =>
    exact ⟨s, h.frame hi (by simp) rfl h.fits trivial rfl (quiet_nil ..)⟩
  | take hi hq => exact h.take hi hq
  | start hi => exact h.start hknown hd.left hi _
  | announce now hi => exact h.announce hknown hd.left hi _ now
  | act m hi he => exact (h.goOn_inside hknown hd.left hi m).act hx hi he
  | submit hi hp => exact h.submit hknown hd hi hp
  | drop hi => exact h.drop hi
  | enqueue hi => exact h.enqueue hi
  | overflow m hi hj => exact h.overflow hknown hd.left hi hj m
  | answer m hi => exact h.answer hknown hd.left hi m
  | close now hi hm ho => exact h.close hi hm ho now
  | count hi => exact h.count hknown hd.left hi

/-- **A job that may not be removed has a fate**, whatever is done. -/
theorem Deeds.kept (h : Deeds D work registry es b) (hd : Distinct es) (hx : ¬ D x) : ∃ s, Kept x es b s := by
  -- each deed takes the fate of the job to the next one, or leaves it
  induction h with
  | start =>
    exact ⟨.none, trivial, fun i => trivial, .inl rfl, fun e => ⟨by simp [Fate.entry?], by simp⟩, by simp [Fate.entry?],
      by simp [Fate.entry?], by simp⟩
  | deed before i h ih =>
    obtain ⟨s, hs⟩ := ih hd.left
    exact kept_deed hs hx before.known hd h

end Orchestrator
end JobRunner
