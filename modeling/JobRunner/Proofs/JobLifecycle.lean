import JobRunner.Job.Command
import JobRunner.Proofs.TableSums
/-!
# The life of a job record

Whatever is asked of a registry, and in whatever order: each record fits its status; a command keeps a record as it is
or takes it one step along its life; and when the clock never goes back, the times in a record are in order.  All of
this follows from what one command can do to one record.
-/
namespace JobRunner

namespace Timestamp

variable {a b c : Timestamp}

theorem le_iff : a.le b = true ↔ a.secs < b.secs ∨ a.secs = b.secs ∧ a.nanos ≤ b.nanos := by
  simp [le]

theorem le_refl (a : Timestamp) : a.le a = true := le_iff.2 (.inr ⟨rfl, Nat.le_refl _⟩)

theorem le_trans (h : a.le b = true) (h' : b.le c = true) : a.le c = true := by
  rw [le_iff] at h h' ⊢
  omega

end Timestamp

namespace JobRecord

variable {r r' : JobRecord} {now : Timestamp} {c : Change}

/-! ## What is said of records -/

/-- Progress, result and error are what the status says. -/
structure Consistent (r : JobRecord) : Prop where
  progress : r.progress ≤ 100
  result : r.result.isSome = true ↔ r.status = .completed
  error : r.error.isSome = true ↔ r.status = .failed
  completed : r.status = .completed → r.progress = 100
  pending : r.status = .pending → r.progress = 0 ∧ r.result = none ∧ r.error = none

/-- The second record is a later state of the first. -/
structure Continues (r r' : JobRecord) : Prop where
  id : r'.id = r.id
  metadata : r'.metadata = r.metadata
  createdAt : r'.createdAt = r.createdAt
  status : r'.status = r.status ∨ r.status.canMove r'.status = true
  progress : r.progress ≤ r'.progress
  logs : r.logs <+: r'.logs
  ended : r.status.isFinal = true → r' = r

/-- The lines of the log lie between the times of the record, oldest first. -/
structure InOrder (r : JobRecord) : Prop where
  times : r.createdAt.le r.updatedAt = true
  logs : ∀ e ∈ r.logs, r.createdAt.le e.timestamp = true ∧ e.timestamp.le r.updatedAt = true
  sorted : r.logs.Pairwise fun a b => a.timestamp.le b.timestamp = true

/-! ## What a change does -/

/-- **A change marks a record that has not ended, if its status allows the move.** -/
theorem apply_ok (h : c.apply now r = .ok r') :
    r.status.isFinal = false ∧ (∀ s, c.target? = some s → r.status.canMove s = true) ∧ r' = c.mark now r := by
  unfold Change.apply at h
  cases hf : r.status.isFinal with
  | true =>
    rw [hf, if_pos rfl] at h
    cases h
  | false =>
    rw [hf, if_neg Bool.false_ne_true] at h
    cases ht : c.target? with
    | none =>
      rw [ht] at h
      cases h
      exact ⟨rfl, nofun, rfl⟩
    | some s =>
      rw [ht] at h
      dsimp only at h
      by_cases hm : r.status.canMove s = true
      · rw [if_pos hm] at h
        cases h
        refine ⟨rfl, fun s' hs => ?_, rfl⟩
        cases hs
        exact hm
      · rw [if_neg hm] at h
        cases h

theorem le_max_min (a b : UInt8) : a ≤ max a (min b 100) := by
  rw [UInt8.le_iff_toNat_le]
  show _ ≤ (if a ≤ min b 100 then min b 100 else a).toNat
  split
  · rename_i h
    exact UInt8.le_iff_toNat_le.1 h
  · exact Nat.le_refl _

theorem max_min_le {a b : UInt8} (h : a ≤ 100) : max a (min b 100) ≤ 100 := by
  have hb : min b 100 ≤ 100 := by
    show (if b ≤ 100 then b else 100) ≤ 100
    split
    · assumption
    · exact UInt8.le_refl _
  show (if a ≤ min b 100 then min b 100 else a) ≤ 100
  split
  · exact hb
  · exact h

theorem Consistent.result_eq_none (h : r.Consistent) (hf : r.status.isFinal = false) : r.result = none := by
  cases hr : r.result with
  | none => rfl
  | some v =>
    have hs : r.status = .completed := h.result.1 (by rw [hr]; rfl)
    rw [hs] at hf
    cases hf

theorem Consistent.error_eq_none (h : r.Consistent) (hf : r.status.isFinal = false) : r.error = none := by
  cases he : r.error with
  | none => rfl
  | some v =>
    have hs : r.status = .failed := h.error.1 (by rw [he]; rfl)
    rw [hs] at hf
    cases hf

theorem consistent_accepted (id : JobId) (metadata : Labels) (now : Timestamp) :
    (accepted id metadata now).Consistent := by
  refine ⟨?_, ?_, ?_, nofun, fun _ => ⟨rfl, rfl, rfl⟩⟩
  · show (0 : UInt8) ≤ 100
    decide
  · exact ⟨nofun, nofun⟩
  · exact ⟨nofun, nofun⟩

theorem Consistent.apply (hr : r.Consistent) (h : c.apply now r = .ok r') : r'.Consistent := by
  obtain ⟨hf, hm, rfl⟩ := apply_ok h
  have hresult := hr.result_eq_none hf
  have herror := hr.error_eq_none hf
  cases c with
  | progress percent message =>
    refine ⟨max_min_le hr.progress, ?_, ?_, nofun, nofun⟩
    · show r.result.isSome = true ↔ _
      rw [hresult]
      exact ⟨nofun, nofun⟩
    · show r.error.isSome = true ↔ _
      rw [herror]
      exact ⟨nofun, nofun⟩
  | log message => exact ⟨hr.progress, hr.result, hr.error, hr.completed, hr.pending⟩
  | complete result =>
    refine ⟨UInt8.le_refl _, ⟨fun _ => rfl, fun _ => rfl⟩, ?_, fun _ => rfl, nofun⟩
    show r.error.isSome = true ↔ _
    rw [herror]
    exact ⟨nofun, nofun⟩
  | fail error =>
    refine ⟨hr.progress, ?_, ⟨fun _ => rfl, fun _ => rfl⟩, nofun, nofun⟩
    show r.result.isSome = true ↔ _
    rw [hresult]
    exact ⟨nofun, nofun⟩

theorem Continues.refl (r : JobRecord) : r.Continues r :=
  ⟨rfl, rfl, rfl, .inl rfl, UInt8.le_refl _, List.prefix_refl _, fun _ => rfl⟩

theorem Consistent.continues (hr : r.Consistent) (h : c.apply now r = .ok r') : r.Continues r' := by
  obtain ⟨hf, hm, rfl⟩ := apply_ok h
  have hended : r.status.isFinal = true → c.mark now r = r := by
    rw [hf]
    exact nofun
  cases c with
  | progress percent message =>
    exact ⟨rfl, rfl, rfl, .inr (hm _ rfl), le_max_min _ _, List.prefix_refl _, hended⟩
  | log message => exact ⟨rfl, rfl, rfl, .inl rfl, UInt8.le_refl _, List.prefix_append _ _, hended⟩
  | complete result => exact ⟨rfl, rfl, rfl, .inr (hm _ rfl), hr.progress, List.prefix_append _ _, hended⟩
  | fail error => exact ⟨rfl, rfl, rfl, .inr (hm _ rfl), UInt8.le_refl _, List.prefix_append _ _, hended⟩

theorem inOrder_accepted (id : JobId) (metadata : Labels) (now : Timestamp) : (accepted id metadata now).InOrder :=
  ⟨now.le_refl, nofun, .nil⟩

theorem InOrder.withLog (h : r.InOrder) (hnow : r.updatedAt.le now = true) (message : String) :
    (r.withLog message now).InOrder := by
  have hcreated := Timestamp.le_trans h.times hnow
  refine ⟨hcreated, fun e he => ?_, ?_⟩
  · rcases List.mem_append.1 he with he | he
    · exact ⟨(h.logs e he).1, Timestamp.le_trans (h.logs e he).2 hnow⟩
    · rw [List.mem_singleton.1 he]
      exact ⟨hcreated, now.le_refl⟩
  · refine List.pairwise_append.2 ⟨h.sorted, List.pairwise_singleton _ _, fun e he e' he' => ?_⟩
    rw [List.mem_singleton.1 he']
    exact Timestamp.le_trans (h.logs e he).2 hnow

theorem InOrder.apply (h : r.InOrder) (ha : c.apply now r = .ok r') (hnow : r.updatedAt.le now = true) :
    r'.InOrder ∧ r'.updatedAt = now := by
  obtain ⟨-, -, rfl⟩ := apply_ok ha
  cases c with
  | progress percent message =>
    refine ⟨⟨Timestamp.le_trans h.times hnow, fun e he => ?_, h.sorted⟩, rfl⟩
    exact ⟨(h.logs e he).1, Timestamp.le_trans (h.logs e he).2 hnow⟩
  | log message => exact ⟨h.withLog hnow message, rfl⟩
  | complete result =>
    have hsame : InOrder { r with
        status := .completed, progress := 100, message := "completed", result := some result } :=
      ⟨h.times, h.logs, h.sorted⟩
    exact ⟨hsame.withLog hnow "job completed", rfl⟩
  | fail error =>
    have hsame : InOrder { r with status := .failed, message := "failed: " ++ error, error := some error } :=
      ⟨h.times, h.logs, h.sorted⟩
    exact ⟨hsame.withLog hnow ("job failed: " ++ error), rfl⟩

end JobRecord

namespace Registry

variable {reg : Registry} {c : Command} {now : Timestamp} {id : JobId} {r r' : JobRecord}

/-! ## What a command does to a record -/

/-- **A record after a command was there before, or is new, or comes from a change.** -/
theorem record_cases (h : (c.run now reg).2.get? id = some r') :
    reg.get? id = some r' ∨ reg.get? id = none ∧ (∃ metadata, r' = .accepted id metadata now) ∨
      ∃ (r : JobRecord) (change : Change), c = .change id change ∧ reg.get? id = some r ∧
        change.apply now r = .ok r' := by
  cases c with
  | create id' metadata =>
    have h : (reg.create id' metadata now).2.get? id = some r' := h
    rw [get?_create] at h
    by_cases hc : id' = id ∧ reg.get? id' = none
    · rw [if_pos hc] at h
      cases h
      obtain ⟨rfl, hnone⟩ := hc
      exact .inr (.inl ⟨hnone, metadata, rfl⟩)
    · rw [if_neg hc] at h
      exact .inl h
  | change id' change =>
    have h : (reg.change id' change now).2.get? id = some r' := h
    unfold Registry.change at h
    cases hr : reg.jobs.get? id' with
    | none =>
      rw [hr] at h
      exact .inl h
    | some r =>
      rw [hr] at h
      dsimp only at h
      cases ha : change.apply now r with
      | error e =>
        rw [ha] at h
        exact .inl h
      | ok marked =>
        rw [ha] at h
        rcases Table.of_get?_insert h with ⟨rfl, rfl⟩ | ⟨-, h⟩
        · exact .inr (.inr ⟨r, change, rfl, hr, ha⟩)
        · exact .inl h
  | delete id' =>
    have h : (reg.delete id').2.get? id = some r' := h
    rw [get?_delete, Option.ite_none_left_eq_some] at h
    exact .inl h.2
  | _ => exact .inl h

theorem consistent_run (h : ∀ id r, reg.get? id = some r → r.Consistent) (hr : (c.run now reg).2.get? id = some r') :
    r'.Consistent := by
  rcases record_cases hr with hold | ⟨-, metadata, rfl⟩ | ⟨r, change, -, hold, ha⟩
  · exact h id r' hold
  · exact JobRecord.consistent_accepted ..
  · exact (h id r hold).apply ha

theorem continues_run (hc : r.Consistent) (h : reg.get? id = some r) (hr : (c.run now reg).2.get? id = some r') :
    r.Continues r' := by
  rcases record_cases hr with hold | ⟨hnone, -⟩ | ⟨_, change, -, hold, ha⟩
  · rw [h] at hold
    cases hold
    exact .refl r
  · rw [h] at hnone
    cases hnone
  · rw [h] at hold
    cases hold
    exact hc.continues ha

/-- The times in a record are in order, and none of the coming times is earlier. -/
def Timed (times : List Timestamp) (r : JobRecord) : Prop :=
  r.InOrder ∧ ∀ t ∈ times, r.updatedAt.le t = true

theorem timed_run {times : List Timestamp} (h : ∀ id r, reg.get? id = some r → Timed (now :: times) r)
    (hnow : ∀ t ∈ times, now.le t = true) (hr : (c.run now reg).2.get? id = some r') : Timed times r' := by
  rcases record_cases hr with hold | ⟨-, metadata, rfl⟩ | ⟨r, change, -, hold, ha⟩
  · obtain ⟨horder, hlate⟩ := h id r' hold
    exact ⟨horder, fun t ht => hlate t (List.mem_cons_of_mem _ ht)⟩
  · exact ⟨JobRecord.inOrder_accepted .., hnow⟩
  · obtain ⟨horder, hlate⟩ := h id r hold
    obtain ⟨horder', hupdated⟩ := horder.apply ha (hlate now List.mem_cons_self)
    refine ⟨horder', fun t ht => ?_⟩
    rw [hupdated]
    exact hnow t ht

/-! ## Runs -/

/-- The registry after commands, each at its time. -/
def runAll (cs : List (Timestamp × Command)) (reg : Registry) : Registry :=
  cs.foldl (fun reg c => (c.2.run c.1 reg).2) reg

theorem runAll_cons (c : Timestamp × Command) (cs : List (Timestamp × Command)) (reg : Registry) :
    runAll (c :: cs) reg = runAll cs (c.2.run c.1 reg).2 := rfl

theorem consistent_runAll : ∀ (cs : List (Timestamp × Command)) {reg : Registry},
    (∀ id r, reg.get? id = some r → r.Consistent) → ∀ id r, (runAll cs reg).get? id = some r → r.Consistent
  | [], _, h => h
  | c :: cs, reg, h => by
    rw [runAll_cons]
    exact consistent_runAll cs fun id r hr => consistent_run h hr

theorem timed_runAll : ∀ (cs : List (Timestamp × Command)) {reg : Registry},
    (cs.map Prod.fst).Pairwise (fun a b => a.le b = true) →
    (∀ id r, reg.get? id = some r → Timed (cs.map Prod.fst) r) → ∀ id r, (runAll cs reg).get? id = some r → r.InOrder
  | [], _, _, h => fun id r hr => (h id r hr).1
  | c :: cs, reg, ht, h => by
    rw [List.map_cons, List.pairwise_cons] at ht
    rw [runAll_cons]
    exact timed_runAll cs ht.2 fun id r hr => timed_run h ht.1 hr

/-- **The life of a job record.**  After any commands, every record fits its status; a further command takes a record no
further than one step along its life, and leaves it as it is if its job has ended; and if the clock never went back, the
times in every record are in order. -/
theorem records_consistent (cs : List (Timestamp × Command)) :
    (∀ id r, (runAll cs {}).get? id = some r → r.Consistent) ∧
    (∀ (c : Command) now id r r', (runAll cs {}).get? id = some r → (c.run now (runAll cs {})).2.get? id = some r' →
      r.Continues r') ∧
    ((cs.map Prod.fst).Pairwise (fun a b => a.le b = true) →
      ∀ id r, (runAll cs {}).get? id = some r → r.InOrder) := by
  have hempty : ∀ (P : JobRecord → Prop) id r, get? {} id = some r → P r := by
    intro P id r hr
    cases hr
  have hconsistent := consistent_runAll cs (hempty _)
  refine ⟨hconsistent, fun c now id r r' hr hr' => ?_, fun ht => timed_runAll cs ht (hempty _)⟩
  exact continues_run (hconsistent id r hr) hr hr'

/-- A job that is accepted, gets on further than there is, logs a line, and is then completed. -/
theorem records_consistent_sample : ∃ r r', let cs : List (Timestamp × Command) := [(⟨1, 0⟩, .create ⟨"job"⟩ .empty),
      (⟨2, 0⟩, .change ⟨"job"⟩ (.progress 150 "working")), (⟨2, 5⟩, .change ⟨"job"⟩ (.log "half way"))]
    (runAll cs {}).get? ⟨"job"⟩ = some r ∧
      ((Command.change ⟨"job"⟩ (.complete .null)).run ⟨3, 0⟩ (runAll cs {})).2.get? ⟨"job"⟩ = some r' ∧
      r.Consistent ∧ r.InOrder ∧ r.Continues r' := by
  let cs : List (Timestamp × Command) := [(⟨1, 0⟩, .create ⟨"job"⟩ .empty),
    (⟨2, 0⟩, .change ⟨"job"⟩ (.progress 150 "working")), (⟨2, 5⟩, .change ⟨"job"⟩ (.log "half way"))]
  have hr : ((runAll cs {}).get? ⟨"job"⟩).isSome = true := by decide +kernel
  have hr' : (((Command.change ⟨"job"⟩ (.complete .null)).run ⟨3, 0⟩ (runAll cs {})).2.get? ⟨"job"⟩).isSome = true := by
    decide +kernel
  obtain ⟨r, hr⟩ := Option.isSome_iff_exists.1 hr
  obtain ⟨r', hr'⟩ := Option.isSome_iff_exists.1 hr'
  obtain ⟨hconsistent, hcontinues, hordered⟩ := records_consistent cs
  have htimes : (cs.map Prod.fst).Pairwise (fun a b => a.le b = true) := by decide
  exact ⟨r, r', hr, hr', hconsistent _ r hr, hordered htimes _ r hr, hcontinues _ _ _ r r' hr hr'⟩

end Registry
end JobRunner
