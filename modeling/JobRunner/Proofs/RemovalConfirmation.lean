import JobRunner.Proofs.InstallConfirmation
/-!
# What confirms a removal

An uninstall job goes by what it sees at its last look: the status of the release, or that there are no resources that
bear its name.  The in-memory deployer names the resources of a release after it, so when no resource bears the name, the
release does not show any; and a listing that fails says nothing about resources.  So unlike an installation, which a
neighbour may confirm, a removal is confirmed by the release itself.
-/
namespace JobRunner

/-- Nothing was found when all kinds of resources were listed and no listing failed. -/
theorem Listings.of_false {space release : String} {kinds : List ResourceKind} {said : List Exchange}
    (h : Listings space release kinds said (.ok false)) :
    said = kinds.map fun kind => .list kind space release (.ok []) := by
  generalize ha : Except.ok false = answer at h
  induction h with
  | nothing => rfl
  | failed => cases ha
  | found => cases ha
  | next _ ih => exact congrArg _ (ih ha)

namespace InMemoryDeployer

variable {d : InMemoryDeployer} {kind : ResourceKind} {space name : String} {now : Nat}

/-! ## A release that is not listed -/

/-- The name of a resource contains that of its release. -/
theorem contains_resourceName (kind : ResourceKind) (name : String) :
    Text.contains (resourceName kind name) name = true := by
  rw [Text.contains_iff]
  cases kind with
  | pod | configMap =>
    rw [resourceName, String.toList_append]
    exact (List.prefix_append _ _).isInfix
  | secret =>
    rw [resourceName, String.toList_append]
    exact (List.suffix_append _ _).isInfix

/-- **A release shows no resources when none bears its name.** -/
theorem not_shows_of_list_nil (h : (list kind space name now d).1 = .ok []) : ¬ d.Shows now ⟨space, name⟩ := fun hshows =>
  List.not_mem_nil ((mem_list_iff h).2 ⟨name, rfl, hshows, contains_resourceName kind name⟩)

/-! ## The last look -/

/-- The deployer was asked for the status of the release and said that it is not installed. -/
def SaysRemoved (name space : String) (n : Note InMemoryDeployer) : Prop :=
  n.call = .status name space ∧ ∃ s, (releaseStatus name space n.time n.state).1 = .ok s ∧ s.installed = false

/-- The deployer was asked for resources of a kind under the name of the release, listed none, and the release did not
show its resources. -/
def ListsNone (name space : String) (kind : ResourceKind) (n : Note InMemoryDeployer) : Prop :=
  n.call = .list kind space name ∧ (list kind space name n.time n.state).1 = .ok [] ∧ ¬ n.state.Shows n.time ⟨space, name⟩

/-- The deployer was asked for resources and failed. -/
def FailsToList (n : Note InMemoryDeployer) : Prop :=
  ∃ kind space filter e, n.call = .list kind space filter ∧ (list kind space filter n.time n.state).1 = .error e

theorem ListsNone.not_failsToList {n : Note InMemoryDeployer} (h : ListsNone name space kind n) : ¬ FailsToList n := by
  rintro ⟨kind', space', filter, e, hcall, herror⟩
  cases h.1.symm.trans hcall
  cases h.2.1.symm.trans herror

theorem listsNone_of_exchange {n : Note InMemoryDeployer} (h : client.exchange n = .list kind space name (.ok [])) :
    ListsNone name space kind n := by
  obtain ⟨hcall, hanswer⟩ := PackageClient.of_exchange_list h
  exact ⟨hcall, hanswer, not_shows_of_list_nil hanswer⟩

/-- What a look at a removal shows when it says yes: the status of the release, or all three listings, each of them
without any resource. -/
inductive SeesRemoved (name space : String) : List (Note InMemoryDeployer) → Prop where
  | status {n : Note InMemoryDeployer} {listings : List (Note InMemoryDeployer)} (h : SaysRemoved name space n) :
    SeesRemoved name space (n :: listings)
  | resources {n pods configMaps secrets : Note InMemoryDeployer} (hstatus : n.call = .status name space)
    (hpods : ListsNone name space .pod pods) (hconfigMaps : ListsNone name space .configMap configMaps)
    (hsecrets : ListsNone name space .secret secrets) : SeesRemoved name space [n, pods, configMaps, secrets]

theorem seesRemoved_of_look {γ : Type} {g : γ} {look : List (Note InMemoryDeployer)}
    (h : (PackageTask.uninstall g name space false).errand.Look (look.map client.exchange) true) :
    SeesRemoved name space look := by
  obtain ⟨status, more, any, hlook, hlistings, hyes⟩ := h.of_yes rfl
  obtain ⟨n, listings, rfl, hn, hmore⟩ := List.map_eq_cons_iff.1 hlook
  obtain ⟨hcall, hanswer⟩ := PackageClient.of_exchange_status hn
  rcases hyes with ⟨s, rfl, hshows⟩ | rfl
  · have hshows : (!s.installed) = true := hshows
    rw [Bool.not_eq_true'] at hshows
    exact .status ⟨hcall, s, hanswer, hshows⟩
  · rw [hlistings.of_false] at hmore
    simp only [List.map_cons, List.map_nil, List.map_eq_cons_iff, List.map_eq_nil_iff] at hmore
    obtain ⟨pods, -, rfl, hpods, configMaps, -, rfl, hconfigMaps, secrets, -, rfl, hsecrets, rfl⟩ := hmore
    exact .resources hcall (listsNone_of_exchange hpods) (listsNone_of_exchange hconfigMaps)
      (listsNone_of_exchange hsecrets)

/-- A listing that fails does not show that a release was removed. -/
theorem SeesRemoved.saysRemoved {look : List (Note InMemoryDeployer)} (h : SeesRemoved name space look)
    (hfails : ∃ n ∈ look, FailsToList n) : ∃ n ∈ look, SaysRemoved name space n := by
  cases h with
  | status h => exact ⟨_, List.mem_cons_self, h⟩
  | @resources n pods configMaps secrets hstatus hpods hconfigMaps hsecrets =>
    obtain ⟨m, hm, hfails⟩ := hfails
    simp only [List.mem_cons, List.not_mem_nil, or_false] at hm
    rcases hm with rfl | rfl | rfl | rfl
    · obtain ⟨kind, space', filter, e, hcall, -⟩ := hfails
      cases hstatus.symm.trans hcall
    · exact absurd hfails hpods.not_failsToList
    · exact absurd hfails hconfigMaps.not_failsToList
    · exact absurd hfails hsecrets.not_failsToList

end InMemoryDeployer

namespace Orchestrator

variable {γ τ : Type} {D : JobId → Prop} {embed : PackageTask γ → τ}
  {work : Work (ServiceEnv γ (Notebooks InMemoryDeployer)) τ} {name : String} {workers : Nat}
  {world : World (ServiceEnv γ (Notebooks InMemoryDeployer))} {es : List (Pool.Event (Job τ))}
  {left : Nat → Option (Action (ServiceEnv γ (Notebooks InMemoryDeployer)) τ JobContext.Outcome)}
  {p : Pool (World (ServiceEnv γ (Notebooks InMemoryDeployer))) (Job τ)} {e : Pool.Entry (Job τ)}

/-- **What a removal is confirmed by.**  Whatever state the deployer is in at each call: at the last look of an uninstall
job that ended well, the deployer said that the release is not installed, or it listed no pod, no config map and no secret
under the name of the release, and the release showed no resources whenever it was asked for them.  If any listing of
that look failed, then it is the status of the release that was gone by. -/
theorem removal_confirmed {g : γ} {release space : String} {crashed : Bool} {r : JobRecord}
    (h : Serves D (fun _ => InMemoryDeployer.client) embed work)
    (run : DiscreetRun D (World.Calm fun env => env.outside.notes) work name workers world es left p)
    (hnew : world.env.outside.notes (jobId e) = []) (he : .submitted e ∈ es)
    (ht : e.unit.task = embed (.uninstall g release space false)) (hx : ¬ D (jobId e))
    (hend : .ended e.ticket crashed ∈ es) (hr : p.shared.registry.get? (jobId e) = some r) (hc : r.status = .completed) :
    let look := lastLook (p.shared.env.outside.notes (jobId e))
    InMemoryDeployer.SeesRemoved release space look ∧
      ((∃ n ∈ look, InMemoryDeployer.FailsToList n) → ∃ n ∈ look, InMemoryDeployer.SaysRemoved release space n) := by
  have hsees := InMemoryDeployer.seesRemoved_of_look (run.confirming_look h hnew he ht rfl hx hend hr hc)
  exact ⟨hsees, hsees.saysRemoved⟩

/-! ## A removal that its resources confirm -/

/-- A deployer that shows the status of releases after an hour and their resources at once, with two releases. -/
def twoReleases : InMemoryDeployer :=
  InMemoryDeployer.seed "redis" "cache" none 0
    (InMemoryDeployer.seed "web" "cache" (some "1") 0 { statusLag := .ofSecs 3600 })

/-- The task is to remove the sample. -/
def removesRedis : PackageTask Unit → Bool
  | .uninstall _ name space dryRun => name == "redis" && space == "cache" && !dryRun
  | _ => false

/-- The threads take turns until the sample job is removed at its first look. -/
def removalLook : List Pool.ThreadId :=
  List.replicate 4 (.caller 0) ++ List.replicate 13 (.worker 0) ++ [.caller 0] ++ List.replicate 12 (.worker 0)

/-- The answer is that the release is installed. -/
def saysInstalled : Exchange → Bool
  | .status _ _ (.ok s) => s.installed
  | _ => false

/-- A deployer that still says that the release is installed, and lists nothing of it any more. -/
theorem removal_confirmed_by_resources : ∃ es left p e release space crashed r,
    DiscreetRun (fun _ => False) (World.Calm fun env => env.outside.notes) (packageWork InMemoryDeployer.client)
      "sample" 1 (packageWorld twoReleases) es left p ∧ .submitted e ∈ es ∧
    e.unit.task = .uninstall () release space false ∧ .ended e.ticket crashed ∈ es ∧
    p.shared.registry.get? (jobId e) = some r ∧ r.status = .completed ∧
    ∃ n pods configMaps secrets,
      lastLook (p.shared.env.outside.notes (jobId e)) = [n, pods, configMaps, secrets] ∧
      ¬ InMemoryDeployer.SaysRemoved release space n ∧ InMemoryDeployer.ListsNone release space .pod pods ∧
      InMemoryDeployer.ListsNone release space .configMap configMaps ∧
      InMemoryDeployer.ListsNone release space .secret secrets := by
  obtain ⟨es, left, p, e, crashed, r, run, he, htask, hend, hr, hc, htest⟩ :=
    @exists_completed _ InMemoryDeployer.client twoReleases (.uninstall () "redis" "cache" false) removalLook removesRedis
      (fun notes => (lastLook notes).head?.any fun n => saysInstalled (InMemoryDeployer.client.exchange n))
      (by decide +kernel)
  generalize ht : e.unit.task = t at htask
  cases t with
  | install | upgrade => cases htask
  | uninstall g release space dryRun =>
    obtain rfl : dryRun = false := by
      rw [removesRedis, Bool.and_eq_true] at htask
      exact (Bool.not_eq_true' _).mp htask.2
    refine ⟨es, left, p, e, release, space, crashed, r, run, he, ht, hend, hr, hc, ?_⟩
    have hsees := (removal_confirmed (serves_packageWork _) run rfl he ht (fun hf => hf) hend hr hc).1
    -- the status of the release cannot be what was gone by
    have hinstalled : ∀ n listings, lastLook (p.shared.env.outside.notes (jobId e)) = n :: listings →
        ¬ InMemoryDeployer.SaysRemoved release space n := by
      rintro n listings hlook ⟨hcall, s, hs, hremoved⟩
      rw [hlook] at htest
      have hanswer : InMemoryDeployer.client.exchange n = .status release space (.ok s) := by
        unfold PackageClient.exchange
        rw [hcall]
        exact congrArg _ hs
      have hsays : saysInstalled (InMemoryDeployer.client.exchange n) = true := htest
      rw [hanswer] at hsays
      cases hremoved.symm.trans hsays
    generalize lastLook (p.shared.env.outside.notes (jobId e)) = look at hsees hinstalled
    cases hsees with
    | status h => exact absurd h (hinstalled _ _ rfl)
    | resources hstatus hpods hconfigMaps hsecrets =>
      exact ⟨_, _, _, _, rfl, hinstalled _ _ rfl, hpods, hconfigMaps, hsecrets⟩

end Orchestrator
end JobRunner
