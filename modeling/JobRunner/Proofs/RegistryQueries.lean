import JobRunner.Proofs.JobBoundary
import JobRunner.Proofs.RegistryAnswers
import Mathlib.Data.Prod.Lex
import Mathlib.Data.String.Basic
/-!
# What a registry shows

All queries of a registry show the same jobs.  Lists are in the order of acceptance, and of identifiers where jobs were
accepted in the same moment; since no two jobs have the same identifier, there is only one such order, and how the
registry keeps its jobs cannot be told from a list.
-/
namespace JobRunner

/-! ## The order of jobs -/

namespace JobRecord

variable {a b : JobRecord}

/-- The job was accepted earlier than the other one, or in the same moment and with the smaller identifier. -/
def Before (a b : JobRecord) : Prop :=
  a.createdAt.lt b.createdAt = true ∨ a.createdAt = b.createdAt ∧ a.id.lt b.id = true

/-- What jobs are ordered by. -/
def rank (r : JobRecord) : ℤ ×ₗ ℕ ×ₗ String := toLex (r.createdAt.secs, toLex (r.createdAt.nanos, r.id.text))

theorem createdAt_eq_iff :
    a.createdAt = b.createdAt ↔ a.createdAt.secs = b.createdAt.secs ∧ a.createdAt.nanos = b.createdAt.nanos := by
  rw [← Timestamp.mk.injEq]

theorem before_iff : a.Before b ↔ a.rank < b.rank := by
  simp only [Before, rank, Prod.Lex.toLex_lt_toLex, Timestamp.lt, JobId.lt, Bool.or_eq_true, Bool.and_eq_true,
    decide_eq_true_eq, beq_iff_eq, createdAt_eq_iff]
  tauto

theorem isBefore_iff : Registry.isBefore a b = true ↔ a.rank ≤ b.rank := by
  simp only [Registry.isBefore, rank, Prod.Lex.toLex_le_toLex, Timestamp.lt, JobId.le, JobId.lt, Bool.or_eq_true,
    Bool.and_eq_true, Bool.not_eq_true', decide_eq_true_eq, decide_eq_false_iff_not, beq_iff_eq, createdAt_eq_iff, not_lt]
  tauto

theorem id_eq_of_rank_eq (h : a.rank = b.rank) : a.id = b.id := by
  simp only [rank, EmbeddingLike.apply_eq_iff_eq, Prod.mk.injEq] at h
  exact congrArg JobId.mk h.2.2

end JobRecord

/-- The command asks about jobs and is not meant to change any. -/
def Command.isQuery : Command → Bool
  | create _ _ | change _ _ | delete _ => false
  | _ => true

namespace Registry

variable {reg reg' : Registry} {r : JobRecord} {l l' : List JobRecord} {p : JobRecord → Bool}

theorem oldestFirst_perm (l : List JobRecord) : (oldestFirst l).Perm l := List.mergeSort_perm l isBefore

theorem pairwise_rank_oldestFirst (l : List JobRecord) : (oldestFirst l).Pairwise fun a b => a.rank ≤ b.rank := by
  refine (List.pairwise_mergeSort ?_ ?_ l).imp JobRecord.isBefore_iff.1
  · intro a b c h h'
    exact JobRecord.isBefore_iff.2 ((JobRecord.isBefore_iff.1 h).trans (JobRecord.isBefore_iff.1 h'))
  · intro a b
    rw [Bool.or_eq_true, JobRecord.isBefore_iff, JobRecord.isBefore_iff]
    exact le_total ..

/-- **Jobs with different identifiers are listed in strict order.** -/
theorem pairwise_before_oldestFirst (h : (l.map (·.id)).Nodup) : (oldestFirst l).Pairwise JobRecord.Before := by
  have hne : (oldestFirst l).Pairwise fun a b => a.id ≠ b.id :=
    List.pairwise_map.1 (((oldestFirst_perm l).map _).nodup_iff.2 h)
  refine ((pairwise_rank_oldestFirst l).and hne).imp fun ⟨hle, hid⟩ => ?_
  exact JobRecord.before_iff.2 (lt_of_le_of_ne hle fun he => hid (JobRecord.id_eq_of_rank_eq he))

/-- **There is only one order** to list jobs with different identifiers in. -/
theorem oldestFirst_congr (h : (l.map (·.id)).Nodup) (hp : l'.Perm l) : oldestFirst l' = oldestFirst l := by
  have hperm : (oldestFirst l').Perm (oldestFirst l) := (oldestFirst_perm l').trans (hp.trans (oldestFirst_perm l).symm)
  have hsorted := pairwise_before_oldestFirst h
  have hsorted' := pairwise_before_oldestFirst ((hp.map _).nodup_iff.2 h)
  refine hperm.eq_of_pairwise (fun a b _ _ hab hba => ?_) hsorted' hsorted
  exact absurd (JobRecord.before_iff.1 hab) (JobRecord.before_iff.1 hba).asymm

theorem nodup_id_filter (h : (l.map (·.id)).Nodup) : ((l.filter p).map (·.id)).Nodup :=
  h.sublist (List.filter_sublist.map _)

/-! ## What is listed -/

theorem mem_listByStatus {s : JobStatus} : r ∈ reg.listByStatus s ↔ r ∈ reg.all ∧ r.status = s := by
  rw [listByStatus, (oldestFirst_perm _).mem_iff, List.mem_filter, beq_iff_eq]

theorem mem_findByMetadata {key value : String} :
    r ∈ reg.findByMetadata key value ↔ r ∈ reg.all ∧ r.metadata.get? key = some value := by
  rw [findByMetadata, (oldestFirst_perm _).mem_iff, List.mem_filter, beq_iff_eq]

theorem length_listByStatus (s : JobStatus) : (reg.listByStatus s).length = reg.count s := by
  rw [listByStatus, (oldestFirst_perm _).length_eq, count, List.countP_eq_length_filter]

/-- **Each job is in one of four lists.** -/
theorem filter_status_perm : ∀ l : List JobRecord,
    ((l.filter fun j => j.status == .pending) ++ ((l.filter fun j => j.status == .processing) ++
      ((l.filter fun j => j.status == .completed) ++ l.filter fun j => j.status == .failed))).Perm l
  | [] => .nil
  | j :: l => by
    have ih := (filter_status_perm l).cons j
    cases hs : j.status with
    | pending => simpa [hs] using ih
    | processing => simpa [hs] using List.perm_middle.trans ih
    | completed =>
      simp only [List.filter_cons, hs]
      exact (List.perm_middle.append_left _).trans (List.perm_middle.trans ih)
    | failed =>
      simp only [List.filter_cons, hs]
      exact ((List.perm_middle.append_left _).append_left _).trans ((List.perm_middle.append_left _).trans
        (List.perm_middle.trans ih))

theorem Keyed.mem_all (h : reg.Keyed) : r ∈ reg.all ↔ reg.get? r.id = some r := by
  constructor
  · intro hr
    obtain ⟨⟨id, _⟩, he, rfl⟩ := List.mem_map.1 hr
    have hget := Table.get?_eq_some_iff.2 he
    rw [h id _ hget]
    exact hget
  · intro hr
    exact List.mem_map.2 ⟨_, Table.get?_eq_some_iff.1 hr, rfl⟩

theorem Keyed.nodup_id (h : reg.Keyed) : (reg.all.map (·.id)).Nodup := by
  have hkeys : reg.all.map (·.id) = reg.jobs.keys := by
    rw [all, Table.values, List.map_map, Table.keys]
    refine List.map_congr_left fun e he => ?_
    exact h e.1 e.2 (Table.get?_eq_some_iff.2 he)
  rw [hkeys]
  exact reg.jobs.nodup

theorem listByStatus_perm (reg : Registry) :
    (reg.listByStatus .pending ++ (reg.listByStatus .processing ++ (reg.listByStatus .completed ++
      reg.listByStatus .failed))).Perm reg.all :=
  ((oldestFirst_perm _).append ((oldestFirst_perm _).append ((oldestFirst_perm _).append (oldestFirst_perm _)))).trans
    (filter_status_perm reg.all)

/-! ## Agreement -/

/-- All queries show the same jobs. -/
structure Agree (reg : Registry) : Prop where
  /-- No two jobs have the same identifier. -/
  distinct : (reg.all.map (·.id)).Nodup
  get : ∀ r, r ∈ reg.all ↔ reg.get? r.id = some r
  size : reg.size = reg.all.length
  /-- The four lists are a partition of the jobs by their status. -/
  partition : (reg.listByStatus .pending ++ (reg.listByStatus .processing ++ (reg.listByStatus .completed ++
    reg.listByStatus .failed))).Perm reg.all
  status : ∀ s r, r ∈ reg.listByStatus s ↔ r ∈ reg.all ∧ r.status = s
  stats : reg.stats = ⟨(reg.listByStatus .pending).length, (reg.listByStatus .processing).length,
    (reg.listByStatus .completed).length, (reg.listByStatus .failed).length⟩
  total : reg.stats.total = reg.size
  found : ∀ key value r, r ∈ reg.findByMetadata key value ↔ r ∈ reg.all ∧ r.metadata.get? key = some value
  list : reg.list.Perm reg.all
  /-- Every list is in strict order, so that it has nobody twice. -/
  sorted : reg.list.Pairwise JobRecord.Before ∧ (∀ s, (reg.listByStatus s).Pairwise JobRecord.Before) ∧
    ∀ key value, (reg.findByMetadata key value).Pairwise JobRecord.Before
  /-- Registries with the same jobs show the same lists, in whatever order they keep them. -/
  unordered : ∀ reg' : Registry, reg'.all.Perm reg.all → reg'.list = reg.list ∧
    (∀ s, reg'.listByStatus s = reg.listByStatus s) ∧
    ∀ key value, reg'.findByMetadata key value = reg.findByMetadata key value

theorem total_stats (reg : Registry) : reg.stats.total = reg.size := by
  have hlength := (listByStatus_perm reg).length_eq
  simp only [List.length_append, length_listByStatus, all, Table.values, List.length_map] at hlength
  rw [size, Table.size, ← hlength]
  simp only [JobStats.total, stats]
  omega

/-- **Where jobs are kept by their identifiers, all queries show the same jobs.** -/
theorem Keyed.agree (h : reg.Keyed) : reg.Agree where
  distinct := h.nodup_id
  get _ := h.mem_all
  size := by rw [all, Table.values, List.length_map, size, Table.size]
  partition := listByStatus_perm reg
  status _ _ := mem_listByStatus
  stats := by simp only [length_listByStatus, stats]
  total := total_stats reg
  found _ _ _ := mem_findByMetadata
  list := oldestFirst_perm _
  sorted := ⟨pairwise_before_oldestFirst h.nodup_id, fun _ => pairwise_before_oldestFirst (nodup_id_filter h.nodup_id),
    fun _ _ => pairwise_before_oldestFirst (nodup_id_filter h.nodup_id)⟩
  unordered _ hp := ⟨oldestFirst_congr h.nodup_id hp, fun _ => oldestFirst_congr (nodup_id_filter h.nodup_id) (hp.filter _),
    fun _ _ => oldestFirst_congr (nodup_id_filter h.nodup_id) (hp.filter _)⟩

theorem run_of_isQuery {c : Command} (h : c.isQuery = true) (now : Timestamp) : (c.run now reg).2 = reg := by
  cases c with
  | create | change | delete => cases h
  | _ => rfl

/-! ## Runs -/

theorem runAll_concat (cs : List (Timestamp × Command)) (c : Timestamp × Command) (reg : Registry) :
    runAll (cs ++ [c]) reg = (c.2.run c.1 (runAll cs reg)).2 := by
  rw [runAll, List.foldl_append]
  rfl

/-- Commands lead from the one registry to the other. -/
def Leads (reg reg' : Registry) : Prop := ∃ cs, reg' = runAll cs reg

theorem Leads.refl (reg : Registry) : reg.Leads reg := ⟨[], rfl⟩

theorem Leads.run (h : reg.Leads reg') (now : Timestamp) (c : Command) : reg.Leads (c.run now reg').2 := by
  obtain ⟨cs, rfl⟩ := h
  exact ⟨cs ++ [(now, c)], (runAll_concat cs (now, c) reg).symm⟩

theorem Leads.keyed (h : reg.Leads reg') (hk : reg.Keyed) : reg'.Keyed := by
  obtain ⟨cs, rfl⟩ := h
  exact hk.runAll cs

end Registry

namespace Orchestrator

variable {ε τ : Type} {D : JobId → Prop} {work : Work ε τ} {name : String} {workers : Nat} {world : World ε}
  {es : List (Pool.Event (Job τ))} {left : Nat → Option (Action ε τ JobContext.Outcome)}

/-- **Whatever is done to boards, commands have done it to their registry.** -/
theorem Deeds.leads {b : Board ε τ} {reg : Registry} (h : Deeds D work reg es b) : reg.Leads b.registry := by
  induction h with
  | start => exact .refl _
  | deed before i hd ih =>
    cases hd with
    | announce now | close now => exact ih.run now (.change ..)
    | act m h he =>
      cases he with
      | harmless hh =>
        cases hh with
        | same => exact ih
        | report now => exact ih.run now (.change ..)
        | delete => exact ih.run default (.delete _)
      | create metadata now => exact ih.run now (.create ..)
      | refuse now => exact ih.run now (.change ..)
    | none | call | leave | take | start | submit | drop | enqueue | overflow | answer | count => exact ih

theorem Run.leads {p : Pool (World ε) (Job τ)} (hwork : ∀ task c, Proper D (some c.id) (work task c))
    (run : Run D work name workers world es left p) : world.registry.Leads p.shared.registry := by
  obtain ⟨b, hdeeds, -, hshows⟩ := run.deeds hwork
  rw [← hshows.registry]
  exact hdeeds.leads

/-- An orchestrator shows what its registry shows. -/
structure Overview (o : Orchestrator ε τ) : Prop where
  registry : o.registry.Agree
  jobs : o.jobs.Perm o.registry.all
  sorted : o.jobs.Pairwise JobRecord.Before
  unordered : ∀ o' : Orchestrator ε τ, o'.registry.all.Perm o.registry.all → o'.jobs = o.jobs
  stats : o.jobStats = o.registry.stats

theorem overview {o : Orchestrator ε τ} (h : o.registry.Keyed) : o.Overview where
  registry := h.agree
  jobs := h.agree.list
  sorted := h.agree.sorted.1
  unordered o' hp := (h.agree.unordered o'.registry hp).1
  stats := rfl

/-- **All queries agree.**  Whatever commands have led to a registry, its queries show the same jobs, each list in the
only order that there is, and no query changes it; and so it is in an orchestrator that began without jobs, whatever its
callers and their jobs have done. -/
theorem queries_agree (D : JobId → Prop) (work : Work ε τ) (hwork : ∀ task c, Proper D (some c.id) (work task c)) :
    (∀ cs, (Registry.runAll cs {}).Agree ∧ ∀ (c : Command) now, c.isQuery = true →
      (c.run now (Registry.runAll cs {})).2 = Registry.runAll cs {}) ∧
    ∀ (o : Orchestrator ε τ) name workers world es left, world.registry = {} →
      Run D work name workers world es left o.pool → o.Overview := by
  refine ⟨fun cs => ⟨(Registry.keyed_empty.runAll cs).agree, fun c now h => Registry.run_of_isQuery h now⟩, ?_⟩
  intro o name workers world es left hempty run
  have hleads := run.leads hwork
  rw [hempty] at hleads
  exact overview (hleads.keyed Registry.keyed_empty)

/-- Two jobs that are accepted in the same moment are listed in the same order, whichever was registered first; and an
orchestrator shows both jobs that were spawned. -/
theorem queries_agree_sample : let a : Timestamp × Command := (⟨1, 0⟩, .create ⟨"a"⟩ .empty)
    let b : Timestamp × Command := (⟨1, 0⟩, .create ⟨"b"⟩ .empty)
    let reg := Registry.runAll [a, b] {}
    (∀ s, (Registry.runAll [b, a] {}).listByStatus s = reg.listByStatus s) ∧ reg.stats.total = 2 ∧
      (Command.stats.run ⟨2, 0⟩ reg).2 = reg ∧ ∃ o : Orchestrator Unit Nat, o.jobs.length = 2 ∧ o.Overview := by
  intro a b reg
  obtain ⟨hagree, hoverview⟩ := queries_agree (fun _ => False) sampleWork proper_sampleWork
  obtain ⟨hreg, hquery⟩ := hagree [a, b]
  have hswap : (Registry.runAll [b, a] {}).all.Perm reg.all := by
    rw [show (Registry.runAll [b, a] {}).all = [.accepted ⟨"b"⟩ .empty ⟨1, 0⟩, .accepted ⟨"a"⟩ .empty ⟨1, 0⟩] by rfl,
      show reg.all = [.accepted ⟨"a"⟩ .empty ⟨1, 0⟩, .accepted ⟨"b"⟩ .empty ⟨1, 0⟩] by rfl]
    exact .swap ..
  refine ⟨(hreg.unordered _ hswap).2.1, hreg.total, hquery .stats _ rfl, ?_⟩
  have hsteps : ((Pool.follow (List.replicate 10 (.caller 0))
      ((Pool.start "sample" 1 (unit sampleWork) { env := () }).call sampleCaller)).any fun r =>
        decide (r.2.shared.registry.all.length = 2)) = true := by decide +kernel
  rw [Option.any_eq_true] at hsteps
  obtain ⟨⟨es, p⟩, hfollow, hlength⟩ := hsteps
  obtain ⟨left, run⟩ := run_of_follow (Run.start.call proper_sampleCaller) hfollow
  have ho := hoverview ⟨{}, p⟩ "sample" 1 { env := () } _ _ rfl run
  exact ⟨⟨{}, p⟩, ho.jobs.length_eq.trans (of_decide_eq_true hlength), ho⟩

end Orchestrator
end JobRunner
