import JobRunner.Proofs.JobLifecycle
import JobRunner.Proofs.WireForms
/-!
# Job records on the wire

The record of a job is written as it is and read again by whoever asked for the job.  Whatever a registry went through,
its records come back as they were, with one exception: the result of a job may be any JSON value, and null looks like no
result.  So a job that was completed with null comes back as a completed job without a result.
-/
namespace JobRunner

open Wire (decode? encode)

/-- The value looks like the absence of a value. -/
def Json.isNull : Json → Bool
  | .null => true
  | _ => false

theorem Json.isNull_iff {v : Json} : v.isNull = true ↔ v = .null := by
  cases v <;> simp [isNull]

instance (t : Timestamp) : Decidable t.Readable :=
  decidable_of_iff ((Date.ofDayNumber (t.secs / 86400)).inRange = true ∧ t.nanos < 2000000000 ∧
      (1000000000 ≤ t.nanos → t.secs % 60 = 59))
    ⟨fun h => ⟨h.1, h.2.1, h.2.2⟩, fun h => ⟨h.inRange, h.nanos_lt, h.leap⟩⟩

namespace Wire

theorem optional_filter (x : Option Json) : optional x = some (x.filter fun v => !v.isNull) := by
  cases x with
  | none => rfl
  | some v => cases v <;> rfl

/-- A list is read again if its items are. -/
theorem decode?_encode_list {α : Type} [Wire α] : ∀ {xs : List α}, (∀ x ∈ xs, decode? (encode x) = some x) →
    decode? (encode xs) = some xs
  | [], _ => rfl
  | x :: xs, h => by
    have hrest : (xs.map encode).mapM decode? = some xs :=
      decode?_encode_list fun y hy => h y (List.mem_cons_of_mem _ hy)
    show ((x :: xs).map encode).mapM decode? = some (x :: xs)
    rw [List.map_cons, List.mapM_cons, h x List.mem_cons_self, hrest]
    rfl

theorem decode?_encode_timestamp {t : Timestamp} (h : t.Readable) : decode? (encode t) = some t :=
  Timestamp.ofText?_text h

end Wire

namespace JobRecord

variable {r r' : JobRecord} {now : Timestamp} {c : Change} {P : Timestamp → Prop} {Q : Json → Prop}

/-- What is left of a record when it was written and read: a result that is null is lost. -/
def withoutNull (r : JobRecord) : JobRecord := { r with result := r.result.filter fun v => !v.isNull }

theorem withoutNull_eq_iff : r.withoutNull = r ↔ r.result ≠ some .null := by
  obtain ⟨id, status, progress, message, logs, result, error, metadata, createdAt, updatedAt⟩ := r
  cases result with
  | none => exact ⟨fun _ => nofun, fun _ => rfl⟩
  | some v => cases v <;> simp [withoutNull, Json.isNull]

/-! ## What records are made of -/

/-- Times and result of a record are of certain kinds. -/
structure MadeOf (P : Timestamp → Prop) (Q : Json → Prop) (r : JobRecord) : Prop where
  createdAt : P r.createdAt
  updatedAt : P r.updatedAt
  logs : ∀ e ∈ r.logs, P e.timestamp
  result : ∀ v, r.result = some v → Q v

theorem MadeOf.withLog (h : r.MadeOf P Q) (hnow : P now) (message : String) : (r.withLog message now).MadeOf P Q := by
  refine ⟨h.createdAt, hnow, fun e he => ?_, h.result⟩
  rcases List.mem_append.1 he with he | he
  · exact h.logs e he
  · rw [List.mem_singleton.1 he]
    exact hnow

/-- A change brings in its own time, and a result only when it completes the job. -/
theorem MadeOf.apply (h : r.MadeOf P Q) (hnow : P now) (hresult : ∀ v, c = .complete v → Q v)
    (ha : c.apply now r = .ok r') : r'.MadeOf P Q := by
  obtain ⟨-, -, rfl⟩ := apply_ok ha
  cases c with
  | progress percent message => exact ⟨h.createdAt, hnow, h.logs, h.result⟩
  | log message => exact h.withLog hnow message
  | complete result =>
    have hcompleted : MadeOf P Q { r with
        status := .completed, progress := 100, message := "completed", result := some result } := by
      refine ⟨h.createdAt, h.updatedAt, h.logs, fun v hv => ?_⟩
      cases hv
      exact hresult result rfl
    exact hcompleted.withLog hnow "job completed"
  | fail error =>
    have hfailed : MadeOf P Q { r with status := .failed, message := "failed: " ++ error, error := some error } :=
      ⟨h.createdAt, h.updatedAt, h.logs, h.result⟩
    exact hfailed.withLog hnow ("job failed: " ++ error)

/-- **A record whose times can be read is read again**, but for a result that is null. -/
theorem MadeOf.decode?_encode (h : r.MadeOf Timestamp.Readable Q) : decode? (encode r) = some r.withoutNull :=
  decode?_encode_result
    (Wire.decode?_encode_list fun e he => LogEntry.decode?_encode (Wire.decode?_encode_timestamp (h.logs e he)))
    (Wire.optional_filter _) (Wire.decode?_encode_timestamp h.createdAt) (Wire.decode?_encode_timestamp h.updatedAt)

end JobRecord

namespace Registry

variable {reg : Registry} {id : JobId} {P : Timestamp → Prop} {Q : Json → Prop}

theorem madeOf_run {c : Command} {now : Timestamp} {r' : JobRecord} (h : ∀ r, reg.get? id = some r → r.MadeOf P Q)
    (hnow : P now) (hresult : ∀ v, c = .change id (.complete v) → Q v) (hr : (c.run now reg).2.get? id = some r') :
    r'.MadeOf P Q := by
  rcases record_cases hr with hold | ⟨-, metadata, rfl⟩ | ⟨r, change, rfl, hold, ha⟩
  · exact h r' hold
  · exact ⟨hnow, hnow, nofun, nofun⟩
  · refine (h r hold).apply hnow (fun v hv => ?_) ha
    rw [hv] at hresult
    exact hresult v rfl

theorem madeOf_runAll : ∀ (cs : List (Timestamp × Command)) {reg : Registry}, (∀ c ∈ cs, P c.1) →
    (∀ c ∈ cs, ∀ v, c.2 = .change id (.complete v) → Q v) → (∀ r, reg.get? id = some r → r.MadeOf P Q) →
    ∀ r, (runAll cs reg).get? id = some r → r.MadeOf P Q
  | [], _, _, _, h => h
  | c :: cs, reg, hP, hQ, h => by
    rw [List.forall_mem_cons] at hP hQ
    rw [runAll_cons]
    exact madeOf_runAll cs hP.2 hQ.2 fun r hr => madeOf_run h hP.1 hQ.1 hr

/-- **Job records come back from the wire**, after any commands at times that have a text: as they were, unless the
result is null.  A record with such a result comes back without it and is otherwise as it was, and it is the record of a
job that was completed with null.  So a record that comes back has a result when its job was completed with another
value, and only then. -/
theorem records_come_back (cs : List (Timestamp × Command)) (hclock : ∀ c ∈ cs, c.1.Readable) :
    ∀ id r, (runAll cs {}).get? id = some r →
      decode? (encode r) = some r.withoutNull ∧
      (decode? (encode r) = some r ↔ r.result ≠ some .null) ∧
      (r.result = some .null → ∃ now, (now, .change id (.complete .null)) ∈ cs) ∧
      (r.withoutNull.result.isSome = true ↔ r.status = .completed ∧ r.result ≠ some .null) := by
  intro id r hr
  have hmade : r.MadeOf Timestamp.Readable fun v => ∃ now, (now, .change id (.complete v)) ∈ cs :=
    madeOf_runAll cs hclock (fun c hc v hv => ⟨c.1, hv ▸ hc⟩) (fun _ h => by cases h) r hr
  have hconsistent : r.Consistent := consistent_runAll cs (fun _ _ h => by cases h) id r hr
  refine ⟨hmade.decode?_encode, ?_, hmade.result _, ?_⟩
  · rw [hmade.decode?_encode, Option.some_inj]
    exact JobRecord.withoutNull_eq_iff
  · -- a job is completed when it has a result, and what is lost of a result is null alone
    rw [← hconsistent.result]
    show (r.result.filter fun v => !v.isNull).isSome = true ↔ _
    cases r.result with
    | none => exact ⟨nofun, nofun⟩
    | some v => cases v <;> simp [Json.isNull]

/-- A job that is completed with a list, in which a null is not lost. -/
def completedWithList : List (Timestamp × Command) := [(⟨1, 0⟩, .create ⟨"job"⟩ (.ofList [("by", "me")])),
  (⟨2, 500000000⟩, .change ⟨"job"⟩ (.progress 50 "working")), (⟨2, 500000001⟩, .change ⟨"job"⟩ (.log "half way")),
  (⟨3, 0⟩, .change ⟨"job"⟩ (.complete (.arr [.null, .real ⟨true, 3, -1⟩])))]

theorem records_come_back_list : (∀ c ∈ completedWithList, c.1.Readable) ∧
    ∃ r, (runAll completedWithList {}).get? ⟨"job"⟩ = some r ∧ decode? (encode r) = some r := by
  have hclock : ∀ c ∈ completedWithList, c.1.Readable := by decide +kernel
  have hresult : ((runAll completedWithList {}).get? ⟨"job"⟩).any (fun r => r.result.any fun v => !v.isNull) = true := by
    decide +kernel
  obtain ⟨r, hr, hresult⟩ := (Option.any_eq_true _ _).1 hresult
  refine ⟨hclock, r, hr, (records_come_back completedWithList hclock _ r hr).2.1.2 fun hnull => ?_⟩
  rw [hnull] at hresult
  cases hresult

/-- A job that is completed with null. -/
def completedWithNull : List (Timestamp × Command) := [(⟨1, 0⟩, .create ⟨"job"⟩ .empty),
  (⟨2, 0⟩, .change ⟨"job"⟩ (.progress 50 "working")), (⟨3, 0⟩, .change ⟨"job"⟩ (.complete .null))]

/-- **A result that is null does not come back.**  The job is completed and has a result; read again, it is completed and
has none. -/
theorem null_result_is_lost : (∀ c ∈ completedWithNull, c.1.Readable) ∧
    ∃ r r' : JobRecord, (runAll completedWithNull {}).get? ⟨"job"⟩ = some r ∧ r.status = .completed ∧
      r.result.isSome = true ∧ decode? (encode r) = some r' ∧ r'.status = .completed ∧ r'.result.isSome = false := by
  have hclock : ∀ c ∈ completedWithNull, c.1.Readable := by decide +kernel
  have hresult : ((runAll completedWithNull {}).get? ⟨"job"⟩).any (fun r => decide (r.status = .completed) &&
      r.result.any Json.isNull) = true := by
    decide +kernel
  obtain ⟨r, hr, hresult⟩ := (Option.any_eq_true _ _).1 hresult
  rw [Bool.and_eq_true, decide_eq_true_eq, Option.any_eq_true] at hresult
  obtain ⟨hstatus, v, hv, hnull⟩ := hresult
  have hmade : r.MadeOf Timestamp.Readable fun _ => True :=
    madeOf_runAll completedWithNull hclock (fun _ _ _ _ => trivial) (fun _ h => by cases h) r hr
  refine ⟨hclock, r, r.withoutNull, hr, hstatus, by rw [hv]; rfl, hmade.decode?_encode, hstatus, ?_⟩
  show (r.result.filter fun v => !v.isNull).isSome = false
  rw [hv, Json.isNull_iff.1 hnull]
  rfl

end Registry
end JobRunner
