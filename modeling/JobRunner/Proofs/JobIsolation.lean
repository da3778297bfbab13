import JobRunner.Proofs.JobFates
import JobRunner.Proofs.JobLifecycle
/-!
# Jobs apart from each other

Many jobs share one registry, and what is asked of one of them has nothing to do with the others.  A command about one job
reads and writes the record of that job alone.  So when two sequences of commands name no job in common, it makes no
difference how they are interleaved: each command answers what it would answer if one sequence came after the other, and
each job ends with the same record.  Only the times differ, since a command is carried out at another moment.
-/
namespace JobRunner

/-! ## What does not depend on the clock -/

/-- The time that stands for all times. -/
def Timestamp.blank : Timestamp := ⟨0, 0⟩

def LogEntry.untimed (e : LogEntry) : LogEntry := { e with timestamp := .blank }

/-- A record without its times. -/
def JobRecord.untimed (r : JobRecord) : JobRecord :=
  { r with logs := r.logs.map LogEntry.untimed, createdAt := .blank, updatedAt := .blank }

namespace JobRecord

variable {r r' : JobRecord} {c : Change}

theorem untimed_accepted (id : JobId) (metadata : Labels) (now : Timestamp) :
    (accepted id metadata now).untimed = accepted id metadata .blank := rfl

/-- The lines that a change writes are the same at any time. -/
theorem untimed_mark (now : Timestamp) (c : Change) (r : JobRecord) :
    (c.mark now r).untimed = c.mark .blank r.untimed := by
  cases c <;> simp [Change.mark, markProcessing, withLog, markCompleted, markFailed, untimed, LogEntry.untimed]

/-- Whether a change is refused, and how, is the same at any time. -/
theorem untimed_apply (now : Timestamp) (c : Change) (r : JobRecord) :
    (c.apply now r).map untimed = c.apply .blank r.untimed := by
  have hid : r.untimed.id = r.id := rfl
  have hstatus : r.untimed.status = r.status := rfl
  unfold Change.apply
  rw [hid, hstatus, ← untimed_mark now]
  cases r.status.isFinal with
  | true => rfl
  | false =>
    cases c.target? with
    | none => rfl
    | some s => cases hm : r.status.canMove s <;> simp [Except.map, hm]

/-- Records that differ in their times only go through a change alike. -/
theorem apply_alike (now now' : Timestamp) (h : r.untimed = r'.untimed) :
    (c.apply now r).map untimed = (c.apply now' r').map untimed := by
  rw [untimed_apply, untimed_apply, h]

end JobRecord

namespace Command

/-- The job that a command is about.  Listing and counting are about all jobs. -/
def job? : Command → Option JobId
  | create id _ | change id _ | delete id | get id => some id
  | all | size | listByStatus _ | findByMetadata _ _ | stats => none

/-- An answer without the times in it.  How many jobs are left goes as well: it is no part of what is known about the job
that was removed. -/
def Answer.untimed : Answer → Answer
  | created r => created (r.map JobRecord.untimed)
  | changed r before after => changed r (before.map JobRecord.untimed) (after.map JobRecord.untimed)
  | deleted r _ => deleted (r.map JobRecord.untimed) 0
  | record r => record (r.map JobRecord.untimed)
  | records rs => records (rs.map JobRecord.untimed)
  | size n => size n
  | stats s => stats s

end Command

namespace Registry

variable {reg reg' : Registry} {c : Command} {x : JobId} {P : JobId → Prop} {now : Timestamp}

/-- What is known about a job, without its times. -/
def untimed? (reg : Registry) (x : JobId) : Option JobRecord := (reg.get? x).map JobRecord.untimed

/-! ## One command -/

/-- **A command leaves all jobs but its own exactly as they are.** -/
theorem get?_run_of_ne (h : c.job? ≠ some x) : (c.run now reg).2.get? x = reg.get? x := by
  cases c with
  | create id metadata =>
    have hid : id ≠ x := fun e => h (congrArg some e)
    show (reg.create id metadata now).2.get? x = _
    rw [get?_create, if_neg fun hc => hid hc.1]
  | change id change => exact get?_change_of_ne fun e => h (congrArg some e)
  | delete id =>
    have hid : id ≠ x := fun e => h (congrArg some e)
    show (reg.delete id).2.get? x = _
    rw [get?_delete, if_neg hid]
  | get | all | size | listByStatus | findByMetadata | stats => rfl

theorem create_alike (now now' : Timestamp) (metadata : Labels) (h : reg.untimed? x = reg'.untimed? x) :
    (reg.create x metadata now).1.map JobRecord.untimed = (reg'.create x metadata now').1.map JobRecord.untimed ∧
      (reg.create x metadata now).2.untimed? x = (reg'.create x metadata now').2.untimed? x := by
  unfold untimed? at h ⊢
  rw [get?_create, get?_create]
  unfold create Table.contains
  cases hr : reg.get? x with
  | none =>
    have hr' : reg'.get? x = none := by simpa [hr] using h.symm
    have hjobs : reg.jobs.get? x = none := hr
    have hjobs' : reg'.jobs.get? x = none := hr'
    simp [hr', hjobs, hjobs', Except.map, JobRecord.untimed_accepted]
  | some r =>
    obtain ⟨r', hr', hu⟩ : ∃ r', reg'.get? x = some r' ∧ r'.untimed = r.untimed := by simpa [hr] using h.symm
    have hjobs : reg.jobs.get? x = some r := hr
    have hjobs' : reg'.jobs.get? x = some r' := hr'
    simp [hr', hjobs, hjobs', hu]

theorem change_alike (now now' : Timestamp) (change : Change) (h : reg.untimed? x = reg'.untimed? x) :
    (reg.change x change now).1 = (reg'.change x change now').1 ∧
      (reg.change x change now).2.untimed? x = (reg'.change x change now').2.untimed? x := by
  unfold Registry.change
  cases hr : reg.jobs.get? x with
  | none =>
    have hr' : reg'.jobs.get? x = none := by simpa [untimed?, get?, hr] using h.symm
    simp only [hr']
    exact ⟨trivial, h⟩
  | some r =>
    obtain ⟨r', hr', hu⟩ : ∃ r', reg'.jobs.get? x = some r' ∧ r'.untimed = r.untimed := by
      simpa [untimed?, get?, hr] using h.symm
    have happly := JobRecord.apply_alike (c := change) now now' hu.symm
    simp only [hr']
    cases ha : change.apply now r with
    | error e =>
      cases ha' : change.apply now' r' with
      | error e' =>
        rw [ha, ha'] at happly
        exact ⟨congrArg Except.error (Except.error.inj happly), h⟩
      | ok m' =>
        rw [ha, ha'] at happly
        cases happly
    | ok m =>
      cases ha' : change.apply now' r' with
      | error e' =>
        rw [ha, ha'] at happly
        cases happly
      | ok m' =>
        rw [ha, ha'] at happly
        have hm : m.untimed = m'.untimed := Except.ok.inj happly
        exact ⟨rfl, by simp [untimed?, get?, hm]⟩

/-- **What a command answers, and what it makes of its job, follows from what was known about that job.**  The times go
in and come out, and nothing else depends on them. -/
theorem run_alike (now now' : Timestamp) (hc : c.job? = some x) (h : reg.untimed? x = reg'.untimed? x) :
    (c.run now reg).1.untimed = (c.run now' reg').1.untimed ∧
      (c.run now reg).2.untimed? x = (c.run now' reg').2.untimed? x := by
  cases c with
  | create id metadata =>
    cases hc
    obtain ⟨hanswer, hrecord⟩ := create_alike now now' metadata h
    exact ⟨congrArg Command.Answer.created hanswer, hrecord⟩
  | change id change =>
    cases hc
    obtain ⟨hanswer, hrecord⟩ := change_alike now now' change h
    refine ⟨?_, hrecord⟩
    show Command.Answer.changed _ (reg.untimed? x) (untimed? (reg.change x change now).2 x) = _
    rw [hanswer, h, hrecord]
    rfl
  | delete id =>
    cases hc
    refine ⟨congrArg (Command.Answer.deleted · 0) h, ?_⟩
    show Option.map _ ((reg.delete x).2.get? x) = Option.map _ ((reg'.delete x).2.get? x)
    rw [get?_delete, get?_delete, if_pos rfl, if_pos rfl]
  | get id =>
    cases hc
    exact ⟨congrArg Command.Answer.record h, h⟩
  | all | size | listByStatus | findByMetadata | stats => cases hc

/-! ## Many commands -/

/-- What commands answer, one after the other, without the times. -/
def answers : List (Timestamp × Command) → Registry → List Command.Answer
  | [], _ => []
  | c :: cs, reg => (c.2.run c.1 reg).1.untimed :: answers cs (c.2.run c.1 reg).2

theorem answers_append : ∀ (cs ds : List (Timestamp × Command)) (reg : Registry),
    answers (cs ++ ds) reg = answers cs reg ++ answers ds (runAll cs reg)
  | [], _, _ => rfl
  | c :: cs, ds, reg => by
    rw [List.cons_append, answers, answers, answers_append cs ds, runAll_cons]
    rfl

theorem runAll_append (cs ds : List (Timestamp × Command)) (reg : Registry) :
    runAll (cs ++ ds) reg = runAll ds (runAll cs reg) := List.foldl_append

/-- Commands leave a job that none of them is about exactly as it is. -/
theorem get?_runAll_of_ne : ∀ {cs : List (Timestamp × Command)} {reg : Registry}, (∀ c ∈ cs, c.2.job? ≠ some x) →
    (runAll cs reg).get? x = reg.get? x
  | [], _, _ => rfl
  | c :: cs, reg, h => by
    rw [runAll_cons, get?_runAll_of_ne fun c' hc' => h c' (List.mem_cons_of_mem _ hc')]
    exact get?_run_of_ne (h c List.mem_cons_self)

/-- An interleaving of two sequences is a list whose members say which of the two they are from.  This is what comes from
one of them. -/
def part {α : Type} (side : Bool) (zs : List (Bool × α)) : List α := (zs.filter fun z => z.1 == side).map Prod.snd

section Part

variable {α : Type} {side : Bool} {zs : List (Bool × α)} {a : α}

theorem part_cons_self {z : Bool} (h : z = side) : part side ((z, a) :: zs) = a :: part side zs := by
  simp [part, h]

theorem part_cons_other {z : Bool} (h : z ≠ side) : part side ((z, a) :: zs) = part side zs := by
  simp [part, h]

theorem mem_part : a ∈ part side zs ↔ (side, a) ∈ zs := by
  simp [part]

end Part

/-- The answers in an interleaving, with the sequence that each is for. -/
def sidedAnswers (zs : List (Bool × Timestamp × Command)) (reg : Registry) : List (Bool × Command.Answer) :=
  (zs.map Prod.fst).zip (answers (zs.map Prod.snd) reg)

/-- **One sequence does not notice the other.**  The commands of one side of an interleaving answer, and leave their
jobs, as if they had been carried out alone, at whatever times. -/
theorem part_alike {side : Bool} : ∀ (zs : List (Bool × Timestamp × Command)) {ds : List (Timestamp × Command)}
    {reg reg' : Registry}, ds.map Prod.snd = (part side zs).map Prod.snd →
    (∀ z ∈ zs, z.1 = side → ∃ x, P x ∧ z.2.2.job? = some x) →
    (∀ z ∈ zs, z.1 ≠ side → ∀ x, P x → z.2.2.job? ≠ some x) →
    (∀ x, P x → reg.untimed? x = reg'.untimed? x) →
    part side (sidedAnswers zs reg) = answers ds reg' ∧
      ∀ x, P x → (runAll (zs.map Prod.snd) reg).untimed? x = (runAll ds reg').untimed? x
  | [], ds, reg, reg', hds, _, _, h => by
    have hnil : ds = [] := List.map_eq_nil_iff.1 hds
    subst hnil
    exact ⟨rfl, h⟩
  | z :: zs, ds, reg, reg', hds, hown, hother, h => by
    have hown' := fun z' hz' => hown z' (List.mem_cons_of_mem _ hz')
    have hother' := fun z' hz' => hother z' (List.mem_cons_of_mem _ hz')
    rw [List.map_cons, runAll_cons]
    have hcons : sidedAnswers (z :: zs) reg = (z.1, (z.2.2.run z.2.1 reg).1.untimed) ::
      sidedAnswers zs (z.2.2.run z.2.1 reg).2 := rfl
    rw [hcons]
    by_cases hz : z.1 = side
    · -- The command is carried out on both sides of the comparison.
      obtain ⟨x, hx, hjob⟩ := hown z List.mem_cons_self hz
      rw [part_cons_self hz, List.map_cons] at hds
      obtain ⟨d, ds, rfl, hd, hds⟩ := List.map_eq_cons_iff.1 hds
      rw [part_cons_self hz, runAll_cons, answers, hd]
      have hstep := run_alike z.2.1 d.1 hjob (h x hx)
      have hnext : ∀ y, P y → (z.2.2.run z.2.1 reg).2.untimed? y = (z.2.2.run d.1 reg').2.untimed? y := by
        intro y hy
        by_cases hyx : x = y
        · subst hyx
          exact hstep.2
        · have hne : z.2.2.job? ≠ some y := by
            rw [hjob]
            exact fun e => hyx (Option.some.inj e)
          unfold untimed?
          rw [get?_run_of_ne hne, get?_run_of_ne hne]
          exact h y hy
      obtain ⟨hanswers, hrecords⟩ := part_alike zs hds hown' hother' hnext
      exact ⟨by rw [hstep.1, hanswers], hrecords⟩
    · -- The command is one of the other sequence, so the jobs in question stay as they are.
      have hds : ds.map Prod.snd = (part side zs).map Prod.snd := by rw [hds, part_cons_other hz]
      rw [part_cons_other hz]
      refine part_alike zs hds hown' hother' fun y hy => ?_
      unfold untimed?
      rw [get?_run_of_ne (hother z List.mem_cons_self hz y hy)]
      exact h y hy

/-- Some command of that side is about the job. -/
def Names (side : Bool) (zs : List (Bool × Timestamp × Command)) (x : JobId) : Prop :=
  ∃ c ∈ (part side zs).map Prod.snd, c.job? = some x

section Sides

variable {side : Bool} {zs : List (Bool × Timestamp × Command)} {ds : List (Timestamp × Command)}

theorem names_of_mem {z : Bool × Timestamp × Command} (hz : z ∈ zs) (hx : z.2.2.job? = some x) : Names z.1 zs x :=
  ⟨_, List.mem_map_of_mem (mem_part.2 hz), hx⟩

/-- Two sides that have no job in common: what one does comes out as if it were alone. -/
theorem part_alone (hjobs : ∀ c ∈ zs.map fun z => z.2.2, c.job?.isSome = true)
    (hapart : ∀ side x, Names side zs x → ∀ side', Names side' zs x → side' = side)
    (hds : ds.map Prod.snd = (part side zs).map Prod.snd)
    (h : ∀ x, Names side zs x → reg.untimed? x = reg'.untimed? x) :
    part side (sidedAnswers zs reg) = answers ds reg' ∧
      ∀ x, Names side zs x → (runAll (zs.map Prod.snd) reg).untimed? x = (runAll ds reg').untimed? x := by
  refine part_alike zs hds ?_ (fun z hz hne x hx hjob => hne (hapart side x hx _ (names_of_mem hz hjob))) h
  rintro z hz rfl
  obtain ⟨x, hx⟩ := Option.isSome_iff_exists.1 (hjobs _ (List.mem_map_of_mem hz))
  exact ⟨x, names_of_mem hz hx, hx⟩

theorem get?_runAll_of_not_names (hds : ds.map Prod.snd = (part side zs).map Prod.snd) (hx : ¬ Names side zs x) :
    (runAll ds reg).get? x = reg.get? x :=
  get?_runAll_of_ne fun _ hc hjob => hx ⟨_, hds ▸ List.mem_map_of_mem hc, hjob⟩

theorem untimed?_runAll_of_not_names (hds : ds.map Prod.snd = (part side zs).map Prod.snd) (hx : ¬ Names side zs x) :
    (runAll ds reg).untimed? x = reg.untimed? x := by
  unfold untimed?
  rw [get?_runAll_of_not_names hds hx]

/-- An interleaving leaves a job that neither side is about exactly as it was. -/
theorem get?_interleaved_of_not_names (hx : ∀ side, ¬ Names side zs x) :
    (runAll (zs.map Prod.snd) reg).get? x = reg.get? x := by
  refine get?_runAll_of_ne fun c hc hjob => ?_
  obtain ⟨z, hz, rfl⟩ := List.mem_map.1 hc
  exact hx z.1 (names_of_mem hz hjob)

end Sides

/-- **Jobs do not interfere with each other.**  Take any interleaving of two sequences of commands, each about one job,
such that the two have no job in common, and carry out the first sequence and then the second instead, at whatever times.
Each command answers the same and every job ends the same, times aside; and a job that is in neither sequence is left
exactly as it was. -/
theorem interleaving_isolated (reg : Registry) (zs : List (Bool × Timestamp × Command)) (cs : List (Timestamp × Command))
    (hcs : cs.map Prod.snd = (part true zs ++ part false zs).map Prod.snd)
    (hjobs : ∀ c ∈ zs.map fun z => z.2.2, c.job?.isSome = true)
    (hapart : ∀ c ∈ (part true zs).map Prod.snd, ∀ c' ∈ (part false zs).map Prod.snd, c.job? ≠ c'.job?) :
    part true (sidedAnswers zs reg) ++ part false (sidedAnswers zs reg) = answers cs reg ∧
    (∀ x, (runAll (zs.map Prod.snd) reg).untimed? x = (runAll cs reg).untimed? x) ∧
    ∀ x, (∀ c ∈ zs.map fun z => z.2.2, c.job? ≠ some x) →
      (runAll (zs.map Prod.snd) reg).get? x = reg.get? x ∧ (runAll cs reg).get? x = reg.get? x := by
  rw [List.map_append] at hcs
  obtain ⟨ds, es, rfl, hds, hes⟩ := List.map_eq_append_iff.1 hcs
  have hone : ∀ side x, Names side zs x → ∀ side', Names side' zs x → side' = side := by
    rintro side x ⟨c, hc, hx⟩ side' ⟨c', hc', hx'⟩
    cases side with
    | true =>
      cases side' with
      | true => rfl
      | false => exact absurd (hx.trans hx'.symm) (hapart c hc c' hc')
    | false =>
      cases side' with
      | false => rfl
      | true => exact absurd (hx'.trans hx.symm) (hapart c' hc' c hc)
  have hnot : ∀ side x, Names side zs x → ¬ Names (!side) zs x := by
    intro side x hx hx'
    have hside := hone side x hx _ hx'
    cases side with
    | _ => cases hside
  obtain ⟨hfirst, hfirst'⟩ := part_alone hjobs hone hds fun x _ => (rfl : reg.untimed? x = _)
  have hmeanwhile : ∀ x, Names false zs x → reg.untimed? x = (runAll ds reg).untimed? x := fun x hx =>
    (untimed?_runAll_of_not_names hds (hnot false x hx)).symm
  obtain ⟨hsecond, hsecond'⟩ := part_alone hjobs hone hes hmeanwhile
  refine ⟨by rw [hfirst, hsecond, answers_append], fun x => ?_, fun x hx => ?_⟩
  -- the job is one of the first sequence, one of the second, or neither
  · rw [runAll_append]
    by_cases hx : Names true zs x
    · rw [hfirst' x hx, untimed?_runAll_of_not_names hes (hnot true x hx)]
    by_cases hx' : Names false zs x
    · exact hsecond' x hx'
    · rw [untimed?_runAll_of_not_names hes hx', untimed?_runAll_of_not_names hds hx]
      unfold untimed?
      rw [get?_interleaved_of_not_names fun side => by cases side <;> assumption]
  · have hneither : ∀ side, ¬ Names side zs x := by
      rintro side ⟨c, hc, hjob⟩
      obtain ⟨c', hc', rfl⟩ := List.mem_map.1 hc
      exact hx _ (List.mem_map_of_mem (f := fun z => z.2.2) (mem_part.1 hc')) hjob
    refine ⟨get?_interleaved_of_not_names hneither, ?_⟩
    rw [runAll_append, get?_runAll_of_not_names hes (hneither false), get?_runAll_of_not_names hds (hneither true)]

/-- Two jobs: one is removed and accepted again while the other is being worked on, and a third was there before. -/
theorem interleaving_isolated_sample : ∃ reg, let a : JobId := ⟨"a"⟩; let b : JobId := ⟨"b"⟩
    let zs : List (Bool × Timestamp × Command) := [(true, ⟨1, 0⟩, .create a .empty), (false, ⟨1, 0⟩, .create b .empty),
      (false, ⟨2, 0⟩, .change b (.progress 40 "working")), (true, ⟨3, 0⟩, .delete a),
      (false, ⟨4, 0⟩, .change b (.log "half way")), (true, ⟨5, 0⟩, .create a .empty),
      (true, ⟨6, 0⟩, .change a (.complete .null)), (false, ⟨7, 0⟩, .get b)]
    let cs := part true zs ++ part false zs
    part true (sidedAnswers zs reg) ++ part false (sidedAnswers zs reg) = answers cs reg ∧
      (runAll (zs.map Prod.snd) reg).untimed? a = (runAll cs reg).untimed? a ∧
      (runAll (zs.map Prod.snd) reg).get? ⟨"c"⟩ = some (.accepted ⟨"c"⟩ .empty ⟨0, 5⟩) := by
  refine ⟨(create ⟨"c"⟩ .empty ⟨0, 5⟩ {}).2, ?_⟩
  intro a b zs cs
  obtain ⟨hanswers, hrecords, hrest⟩ := interleaving_isolated (create ⟨"c"⟩ .empty ⟨0, 5⟩ {}).2 zs cs rfl
    (by decide) (by decide)
  refine ⟨hanswers, hrecords a, (hrest ⟨"c"⟩ (by decide)).1.trans ?_⟩
  rw [get?_create]
  rfl

end Registry
end JobRunner
