import JobRunner.Proofs.Bids
import JobRunner.Proofs.JobLifecycle
/-!
# What a registry answers

A change of a job is refused because there is no such job, or else because the job has ended, or else because it was to
be completed before it ran; no other change is refused.  In a registry that any commands have led to, what is answered
follows from the status of the job alone.  Whatever is refused leaves the whole registry as it is.
-/
namespace JobRunner

theorem JobStatus.isFinal_iff {s : JobStatus} : s.isFinal = true ↔ s = .completed ∨ s = .failed := by
  cases s <;> simp [isFinal]

namespace JobRecord

variable {r : JobRecord} {c : Change} {now : Timestamp}

theorem id_mark (c : Change) (now : Timestamp) (r : JobRecord) : (c.mark now r).id = r.id := by
  cases c with
  | _ => rfl

theorem apply_of_isFinal (h : r.status.isFinal = true) : c.apply now r = .error (.finished r.id r.status) := if_pos h

theorem apply_complete_of_pending {value : Json} (h : r.status = .pending) :
    (Change.complete value).apply now r = .error (.invalidMove r.id .pending .completed) := by
  unfold Change.apply
  rw [h]
  rfl

/-- A job that runs may be changed in any way, and one that waits in any but one. -/
theorem apply_of_allowed (h : r.status = .processing ∨ r.status = .pending ∧ ∀ value, c ≠ .complete value) :
    c.apply now r = .ok (c.mark now r) := by
  rcases h with hs | ⟨hs, hc⟩
  · refine apply_eq_ok now (by rw [hs]; rfl) fun s ht => ?_
    rw [hs]
    cases c with
    | log => cases ht
    | progress | complete | fail =>
      cases ht
      rfl
  · refine apply_eq_ok now (by rw [hs]; rfl) fun s ht => ?_
    rw [hs]
    cases c with
    | log => cases ht
    | complete value => exact absurd rfl (hc value)
    | progress | fail =>
      cases ht
      rfl

end JobRecord

/-- The command was refused, or there was nothing to remove. -/
def Command.Answer.isRefused : Command.Answer → Bool
  | created (.error _) | changed (.error _) _ _ | deleted none _ => true
  | _ => false

namespace Registry

variable {reg : Registry} {id : JobId} {c : Change} {now : Timestamp} {a : Except JobError Unit}

/-! ## Records and their identifiers -/

/-- Every record bears the identifier that it is kept under. -/
def Keyed (reg : Registry) : Prop := ∀ id r, reg.get? id = some r → r.id = id

theorem Keyed.run (h : reg.Keyed) (c : Command) (now : Timestamp) : (c.run now reg).2.Keyed := by
  intro id r' hr'
  rcases record_cases hr' with hold | ⟨-, metadata, rfl⟩ | ⟨r, change, -, hold, ha⟩
  · exact h id r' hold
  · rfl
  · rw [(JobRecord.apply_ok ha).2.2, JobRecord.id_mark]
    exact h id r hold

theorem Keyed.runAll : ∀ (cs : List (Timestamp × Command)) {reg : Registry}, reg.Keyed → (Registry.runAll cs reg).Keyed
  | [], _, h => h
  | c :: cs, _, h => Keyed.runAll cs (h.run c.2 c.1)

theorem keyed_empty : Keyed {} := nofun

/-! ## Changes -/

/-- What is answered to a change of a job, by what is known of the job. -/
inductive Verdict (reg : Registry) (id : JobId) (c : Change) : Except JobError Unit → Prop where
  | absent (h : reg.get? id = none) : Verdict reg id c (.error (.notFound id))
  | ended {r : JobRecord} (h : reg.get? id = some r) (hs : r.status = .completed ∨ r.status = .failed) :
    Verdict reg id c (.error (.finished id r.status))
  | early {r : JobRecord} {value : Json} (h : reg.get? id = some r) (hs : r.status = .pending)
    (hc : c = .complete value) : Verdict reg id c (.error (.invalidMove id .pending .completed))
  | allowed {r : JobRecord} (h : reg.get? id = some r)
    (hs : r.status = .processing ∨ r.status = .pending ∧ ∀ value, c ≠ .complete value) : Verdict reg id c (.ok ())

theorem change_of_none (h : reg.get? id = none) : reg.change id c now = (.error (.notFound id), reg) := by
  unfold change
  rw [show reg.jobs.get? id = none from h]

theorem change_of_error {r : JobRecord} {e : JobError} (h : reg.get? id = some r) (ha : c.apply now r = .error e) :
    reg.change id c now = (.error e, reg) := by
  unfold change
  rw [show reg.jobs.get? id = some r from h]
  dsimp only
  rw [ha]

theorem change_of_ok {r r' : JobRecord} (h : reg.get? id = some r) (ha : c.apply now r = .ok r') :
    reg.change id c now = (.ok (), ⟨reg.jobs.insert id r'⟩) := by
  unfold change
  rw [show reg.jobs.get? id = some r from h]
  dsimp only
  rw [ha]

/-- **A change is answered by its verdict.** -/
theorem Keyed.change_eq (h : reg.Keyed) (hv : Verdict reg id c a) : (reg.change id c now).1 = a := by
  cases hv with
  | absent hr => rw [change_of_none hr]
  | ended hr hs => rw [change_of_error hr (JobRecord.apply_of_isFinal (JobStatus.isFinal_iff.2 hs)), h id _ hr]
  | early hr hs hc =>
    subst hc
    rw [change_of_error hr (JobRecord.apply_complete_of_pending hs), h id _ hr]
  | allowed hr hs => rw [change_of_ok hr (JobRecord.apply_of_allowed hs)]

theorem exists_verdict (reg : Registry) (id : JobId) (c : Change) : ∃ a, Verdict reg id c a := by
  cases hr : reg.get? id with
  | none => exact ⟨_, .absent hr⟩
  | some r =>
    cases hs : r.status with
    | processing => exact ⟨_, .allowed hr (.inl hs)⟩
    | completed => exact ⟨_, .ended hr (.inl hs)⟩
    | failed => exact ⟨_, .ended hr (.inr hs)⟩
    | pending =>
      cases c with
      | complete value => exact ⟨_, .early hr hs rfl⟩
      | progress | log | fail => exact ⟨_, .allowed hr (.inr ⟨hs, nofun⟩)⟩

theorem Keyed.answer_iff (h : reg.Keyed) : (reg.change id c now).1 = a ↔ Verdict reg id c a := by
  refine ⟨fun ha => ?_, h.change_eq⟩
  obtain ⟨b, hb⟩ := exists_verdict reg id c
  rw [← ha, h.change_eq hb]
  exact hb

/-- Which changes of a job are refused, and how. -/
structure Answered (reg : Registry) (id : JobId) (c : Change) (now : Timestamp) : Prop where
  notFound : ∀ x, (reg.change id c now).1 = .error (.notFound x) ↔ x = id ∧ reg.get? id = none
  finished : ∀ x s, (reg.change id c now).1 = .error (.finished x s) ↔
    x = id ∧ (s = .completed ∨ s = .failed) ∧ ∃ r, reg.get? id = some r ∧ r.status = s
  invalidMove : ∀ x s t, (reg.change id c now).1 = .error (.invalidMove x s t) ↔
    x = id ∧ s = .pending ∧ t = .completed ∧ (∃ value, c = .complete value) ∧
      ∃ r, reg.get? id = some r ∧ r.status = .pending
  never : ∀ x, (reg.change id c now).1 ≠ .error (.alreadyExists x)
  ok : (reg.change id c now).1 = .ok () ↔ ∃ r, reg.get? id = some r ∧
    (r.status = .processing ∨ r.status = .pending ∧ ∀ value, c ≠ .complete value)

theorem Keyed.answered (h : reg.Keyed) (id : JobId) (c : Change) (now : Timestamp) : reg.Answered id c now := by
  constructor
  case notFound =>
    intro x
    rw [h.answer_iff]
    constructor
    · rintro ⟨hr⟩
      exact ⟨rfl, hr⟩
    · rintro ⟨rfl, hr⟩
      exact .absent hr
  case finished =>
    intro x s
    rw [h.answer_iff]
    constructor
    · rintro (_ | ⟨hr, hs⟩)
      exact ⟨rfl, hs, _, hr, rfl⟩
    · rintro ⟨rfl, hs, r, hr, rfl⟩
      exact .ended hr hs
  case invalidMove =>
    intro x s t
    rw [h.answer_iff]
    constructor
    · rintro (_ | _ | ⟨hr, hs, hc⟩)
      exact ⟨rfl, rfl, rfl, ⟨_, hc⟩, _, hr, hs⟩
    · rintro ⟨rfl, rfl, rfl, ⟨value, hc⟩, r, hr, hs⟩
      exact .early hr hs hc
  case never =>
    intro x hx
    cases h.answer_iff.1 hx
  case ok =>
    rw [h.answer_iff]
    constructor
    · rintro (_ | _ | _ | ⟨hr, hs⟩)
      exact ⟨_, hr, hs⟩
    · rintro ⟨r, hr, hs⟩
      exact .allowed hr hs

/-! ## New jobs and removals -/

theorem create_eq_of_none {metadata : Labels} (h : reg.get? id = none) : reg.create id metadata now =
    (.ok (.accepted id metadata now), ⟨reg.jobs.insert id (.accepted id metadata now)⟩) := by
  have hfree : reg.jobs.get? id = none := h
  simp [create, Table.contains, hfree]

/-- A job is registered unless its identifier is taken. -/
structure Registered (reg : Registry) (id : JobId) (metadata : Labels) (now : Timestamp) : Prop where
  taken : ∀ e, (reg.create id metadata now).1 = .error e ↔ e = .alreadyExists id ∧ ∃ r, reg.get? id = some r
  made : ∀ r, (reg.create id metadata now).1 = .ok r ↔ reg.get? id = none ∧ r = .accepted id metadata now

theorem registered (reg : Registry) (id : JobId) (metadata : Labels) (now : Timestamp) :
    reg.Registered id metadata now := by
  cases hr : reg.get? id with
  | none =>
    constructor
    · simp [create_of_none hr, hr]
    · simp [create_of_none hr, hr, eq_comm]
  | some r =>
    constructor
    · simp [create_of_some hr, hr, eq_comm]
    · simp [create_of_some hr, hr]

/-- A removed job is given back as it was known, and the identifier is free for a new job, which has no past. -/
structure Removed (reg : Registry) (id : JobId) : Prop where
  record : (reg.delete id).1 = reg.get? id
  gone : (reg.delete id).2.get? id = none
  afresh : ∀ metadata now, ∃ r, ((reg.delete id).2.create id metadata now).1 = .ok r ∧
    ((reg.delete id).2.create id metadata now).2.get? id = some r ∧ r.id = id ∧ r.status = .pending ∧ r.logs = [] ∧
    r.progress = 0 ∧ r.result = none ∧ r.error = none ∧ r.metadata = metadata ∧ r.createdAt = now ∧ r.updatedAt = now

theorem removed (reg : Registry) (id : JobId) : reg.Removed id := by
  have hgone : (reg.delete id).2.get? id = none := by rw [get?_delete, if_pos rfl]
  refine ⟨rfl, hgone, fun metadata now => ⟨.accepted id metadata now, create_of_none hgone, ?_, rfl, rfl, rfl, rfl, rfl,
    rfl, rfl, rfl, rfl⟩⟩
  rw [get?_create, if_pos ⟨rfl, hgone⟩]

/-! ## Refusals -/

theorem delete_of_none (h : reg.get? id = none) : (reg.delete id).2 = reg := by
  obtain ⟨jobs⟩ := reg
  refine congrArg Registry.mk (Table.ext (List.filter_eq_self.2 fun e he => ?_))
  rw [bne_iff_ne]
  rintro rfl
  have hsome : jobs.get? e.1 = some e.2 := Table.get?_eq_some_iff.2 he
  rw [show jobs.get? e.1 = none from h] at hsome
  cases hsome

/-- **What is refused changes nothing.** -/
theorem run_of_isRefused {c : Command} (h : (c.run now reg).1.isRefused = true) : (c.run now reg).2 = reg := by
  cases c with
  | create id metadata =>
    cases hr : reg.get? id with
    | some r => exact congrArg Prod.snd (create_of_some hr)
    | none =>
      have h : Command.Answer.isRefused (.created (reg.create id metadata now).1) = true := h
      rw [create_of_none hr] at h
      cases h
  | change id change =>
    cases hr : reg.get? id with
    | none => exact congrArg Prod.snd (change_of_none hr)
    | some r =>
      cases ha : change.apply now r with
      | error e => exact congrArg Prod.snd (change_of_error hr ha)
      | ok r' =>
        have h : Command.Answer.isRefused (.changed (reg.change id change now).1 _ _) = true := h
        rw [change_of_ok hr ha] at h
        cases h
  | delete id =>
    cases hr : reg.get? id with
    | none => exact delete_of_none hr
    | some r =>
      have h : Command.Answer.isRefused (.deleted (reg.get? id) _) = true := h
      rw [hr] at h
      cases h
  | get | all | size | listByStatus | findByMetadata | stats => rfl

/-- **Refusals are exact, and they change nothing.**  In a registry that any commands have led to, a change is refused
for the first of three reasons that applies, and made if none does; a job is registered unless its identifier is taken; a
removed job is given back as it was, and the next one under its identifier starts afresh.  A command that is refused
leaves every field of every record as it was. -/
theorem refusals_exact (cs : List (Timestamp × Command)) :
    (∀ id c now, (runAll cs {}).Answered id c now) ∧
    (∀ id metadata now, (runAll cs {}).Registered id metadata now) ∧
    (∀ id, (runAll cs {}).Removed id) ∧
    ∀ (c : Command) now, (c.run now (runAll cs {})).1.isRefused = true → (c.run now (runAll cs {})).2 = runAll cs {} :=
  ⟨(keyed_empty.runAll cs).answered, registered _, removed _, fun _ _ => run_of_isRefused⟩

/-- A job that is to be completed before it runs, and one that goes on after its end. -/
theorem refusals_exact_sample : let a : JobId := ⟨"a"⟩; let b : JobId := ⟨"b"⟩
    let cs : List (Timestamp × Command) := [(⟨1, 0⟩, .create a .empty), (⟨2, 0⟩, .create b .empty),
      (⟨3, 0⟩, .change b (.fail "gave up"))]
    ((runAll cs {}).change a (.complete .null) ⟨4, 0⟩).1 = .error (.invalidMove a .pending .completed) ∧
      ((runAll cs {}).change b (.complete .null) ⟨4, 0⟩).1 = .error (.finished b .failed) ∧
      ((Command.change b (.log "late")).run ⟨5, 0⟩ (runAll cs {})).2 = runAll cs {} := by
  intro a b cs
  obtain ⟨hanswered, -, -, hrefused⟩ := refusals_exact cs
  refine ⟨((hanswered a (.complete .null) ⟨4, 0⟩).invalidMove a .pending .completed).2 ?_,
    ((hanswered b (.complete .null) ⟨4, 0⟩).finished b .failed).2 ?_, hrefused _ _ (by decide +kernel)⟩
  · exact ⟨rfl, rfl, rfl, ⟨.null, rfl⟩, .accepted a .empty ⟨1, 0⟩, by rfl, rfl⟩
  · exact ⟨rfl, .inr rfl, (JobRecord.accepted b .empty ⟨2, 0⟩).markFailed "gave up" ⟨3, 0⟩, by rfl, rfl⟩

end Registry
end JobRunner
