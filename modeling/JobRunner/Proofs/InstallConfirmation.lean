import JobRunner.Package.InMemory
import JobRunner.Proofs.PackageRuns
/-!
# What confirms an installation

An install job goes by what it sees at its last look: the status of the release, or resources that bear its name.  The
in-memory deployer lists every resource whose name contains the name that was asked for, so a resource that is seen may
be one of another release.
-/
namespace JobRunner

namespace InMemoryDeployer

/-! ## Whose resources are listed -/

/-- The resource is the one of its kind that the release leaves. -/
def Owns (key : ReleaseKey) (r : ResourceRef) : Prop := r.space = key.space ∧ r.name = resourceName r.kind key.name

/-- A release of the deployer shows its resources. -/
def Shows (d : InMemoryDeployer) (now : Nat) (key : ReleaseKey) : Prop :=
  ∃ release, (key, release) ∈ d.releases.entries ∧ (observed release d.resourceLag now).isPresent = true

variable {d : InMemoryDeployer} {kind : ResourceKind} {space filter : String} {now : Nat} {r : ResourceRef}

theorem resourceName_inj {a b : String} (h : resourceName kind a = resourceName kind b) : a = b := by
  cases kind with
  | pod | configMap => exact (String.append_left_inj _).1 h
  | secret => exact (String.append_right_inj _).1 h

/-- A resource belongs to one release. -/
theorem Owns.unique {key key' : ReleaseKey} (h : Owns key r) (h' : Owns key' r) : key = key' := by
  obtain ⟨space, name⟩ := key
  obtain ⟨space', name'⟩ := key'
  obtain ⟨hs, hn⟩ := h
  obtain ⟨hs', hn'⟩ := h'
  rw [ReleaseKey.mk.injEq]
  exact ⟨hs.symm.trans hs', resourceName_inj (hn.symm.trans hn')⟩

theorem enter_eq (k : CallKind) (d : InMemoryDeployer) :
    (d.enter k).2.releases = d.releases ∧ (d.enter k).2.resourceLag = d.resourceLag := by
  unfold enter
  dsimp only
  split
  · exact ⟨rfl, rfl⟩
  · exact ⟨rfl, rfl⟩

theorem resource?_eq_some {ref : ResourceRef} {e : ReleaseKey × Release} :
    d.resource? kind space filter now e = some ref ↔ e.1.space = space ∧ ref = ⟨kind, space, resourceName kind e.1.name⟩ ∧
      (observed e.2 d.resourceLag now).isPresent = true ∧ Text.contains (resourceName kind e.1.name) filter = true := by
  unfold resource?
  dsimp only
  split
  case isTrue hc => exact ⟨fun h => ⟨hc.1, (Option.some.inj h).symm, hc.2⟩, fun h => congrArg some h.2.1.symm⟩
  case isFalse hc => exact ⟨nofun, fun h => absurd ⟨h.1, h.2.2⟩ hc⟩

variable {resources : List ResourceRef}

/-- A listing that does not fail lists what is found among all releases. -/
theorem list_eq_ok (h : (list kind space filter now d).1 = .ok resources) :
    resources = (d.releases.entries.filterMap (d.resource? kind space filter now)).mergeSort fun a b => a.name ≤ b.name := by
  have hstate := enter_eq .listResources d
  unfold list counted at h
  generalize d.enter .listResources = entered at h hstate
  obtain ⟨answer, d'⟩ := entered
  obtain ⟨hreleases, hlag⟩ := hstate
  cases answer with
  | error e => cases h
  | ok u =>
    have hfound : d'.resource? kind space filter now = d.resource? kind space filter now := by
      dsimp only at hlag
      funext e
      unfold resource?
      rw [hlag]
    dsimp only at h hreleases
    rw [← hreleases, ← hfound]
    exact (Except.ok.inj h).symm

/-- **What is listed** are the resources of the releases of the namespace that show them, if their names contain the text
that was asked for. -/
theorem mem_list_iff (h : (list kind space filter now d).1 = .ok resources) : r ∈ resources ↔
    ∃ name, r = ⟨kind, space, resourceName kind name⟩ ∧ d.Shows now ⟨space, name⟩ ∧
      Text.contains (resourceName kind name) filter = true := by
  rw [list_eq_ok h, List.mem_mergeSort, List.mem_filterMap]
  constructor
  · rintro ⟨⟨⟨space', name⟩, release⟩, hmem, hfound⟩
    obtain ⟨hspace, rfl, hshown, hname⟩ := resource?_eq_some.1 hfound
    have hspace : space' = space := hspace
    subst hspace
    exact ⟨name, rfl, ⟨release, hmem, hshown⟩, hname⟩
  · rintro ⟨name, rfl, ⟨release, hmem, hshown⟩, hname⟩
    exact ⟨(⟨space, name⟩, release), hmem, resource?_eq_some.2 ⟨rfl, rfl, hshown, hname⟩⟩

end InMemoryDeployer

/-! ## The last look -/

namespace Note

variable {ω : Type} {n : Note ω} {before rest : List (Note ω)}

def isStatus (n : Note ω) : Bool :=
  match n.call with
  | .status _ _ => true
  | _ => false

end Note

/-- What was noted at the last look, which begins with a question about the status of a release. -/
def lastLook {ω : Type} : List (Note ω) → List (Note ω)
  | [] => []
  | n :: ns => if ns.any Note.isStatus then lastLook ns else n :: ns

theorem lastLook_append {ω : Type} {n : Note ω} {rest : List (Note ω)} (hn : n.isStatus = true)
    (hrest : rest.any Note.isStatus = false) : ∀ before, lastLook (before ++ n :: rest) = n :: rest
  | [] => by
    rw [List.nil_append, lastLook, hrest]
    rfl
  | m :: before => by
    have hany : (before ++ n :: rest).any Note.isStatus = true := by
      rw [List.any_append, List.any_cons, hn, Bool.true_or, Bool.or_true]
    rw [List.cons_append, lastLook, if_pos hany]
    exact lastLook_append hn hrest before

namespace Errand

variable {ω : Type} {client : PackageClient ω} {a : Errand} {notes : List (Note ω)} {yes : Bool}

theorem Look.eq_lastLook {said : List Exchange} (h : a.Look said yes) {before look : List (Note ω)}
    (hlook : look.map client.exchange = said) : lastLook (before ++ look) = look := by
  obtain ⟨hlistings⟩ := h
  obtain ⟨n, rest, rfl, hn, hrest⟩ := List.map_eq_cons_iff.1 hlook
  refine lastLook_append ?_ ?_ before
  · unfold Note.isStatus
    rw [(PackageClient.of_exchange_status hn).1]
  · rw [List.any_eq_false]
    intro m hm
    obtain ⟨kind, resources, hx⟩ := hlistings.exists_list _ (hrest ▸ List.mem_map_of_mem hm)
    unfold Note.isStatus
    rw [(PackageClient.of_exchange_list hx).1]
    exact Bool.false_ne_true

end Errand

namespace InMemoryDeployer

/-- The deployer was asked for the status of the release and said that it is installed. -/
def SaysInstalled (name space : String) (n : Note InMemoryDeployer) : Prop :=
  n.call = .status name space ∧ ∃ s, (releaseStatus name space n.time n.state).1 = .ok s ∧ s.installed = true

/-- The deployer was asked for resources under a name, and the given one was on the list. -/
def Lists (name space : String) (n : Note InMemoryDeployer) (r : ResourceRef) : Prop :=
  ∃ kind resources, n.call = .list kind space name ∧ (list kind space name n.time n.state).1 = .ok resources ∧
    r ∈ resources

/-- **What a look at an installation shows**: the status of the release, or a resource that bears its name, whosever it
is. -/
theorem confirmed_by {γ : Type} {request : PackageRequest} {g : γ} {look : List (Note InMemoryDeployer)}
    (h : (PackageTask.install g request).errand.Look (look.map client.exchange) true) :
    ∃ n ∈ look, SaysInstalled request.name request.space n ∨
      ∃ r key, Lists request.name request.space n r ∧ Owns key r ∧ key.space = request.space ∧
        n.state.Shows n.time key ∧ Text.contains r.name request.name = true := by
  obtain ⟨status, more, any, hlook, hlistings, ⟨s, rfl, hinstalled⟩ | rfl⟩ := h.of_yes rfl
  · obtain ⟨n, hn, hx⟩ := List.mem_map.1 (hlook ▸ List.mem_cons_self)
    obtain ⟨hcall, hanswer⟩ := PackageClient.of_exchange_status hx
    exact ⟨n, hn, .inl ⟨hcall, s, hanswer, hinstalled⟩⟩
  · obtain ⟨kind, resources, hne, hmem⟩ := hlistings.exists_found
    obtain ⟨n, hn, hx⟩ := List.mem_map.1 (hlook ▸ List.mem_cons_of_mem _ hmem)
    obtain ⟨hcall, hanswer⟩ := PackageClient.of_exchange_list hx
    obtain ⟨r, hr⟩ := List.exists_mem_of_ne_nil _ hne
    obtain ⟨name, rfl, hshows, hname⟩ := (mem_list_iff hanswer).1 hr
    exact ⟨n, hn, .inr ⟨_, ⟨_, name⟩, ⟨kind, resources, hcall, hanswer, hr⟩, ⟨rfl, rfl⟩, rfl, hshows, hname⟩⟩

end InMemoryDeployer

namespace Orchestrator

variable {γ τ : Type} {D : JobId → Prop} {embed : PackageTask γ → τ}
  {work : Work (ServiceEnv γ (Notebooks InMemoryDeployer)) τ} {name : String} {workers : Nat}
  {world : World (ServiceEnv γ (Notebooks InMemoryDeployer))} {es : List (Pool.Event (Job τ))}
  {left : Nat → Option (Action (ServiceEnv γ (Notebooks InMemoryDeployer)) τ JobContext.Outcome)}
  {p : Pool (World (ServiceEnv γ (Notebooks InMemoryDeployer))) (Job τ)} {e : Pool.Entry (Job τ)}

/-- The last look of an install job that ended well says yes. -/
theorem DiscreetRun.confirming_look {ω : Type} {client : PackageClient ω}
    {work : Work (ServiceEnv γ (Notebooks ω)) τ} {world : World (ServiceEnv γ (Notebooks ω))}
    {left : Nat → Option (Action (ServiceEnv γ (Notebooks ω)) τ JobContext.Outcome)}
    {p : Pool (World (ServiceEnv γ (Notebooks ω))) (Job τ)} {t : PackageTask γ} {crashed : Bool} {r : JobRecord}
    (h : Serves D (fun _ => client) embed work)
    (run : DiscreetRun D (World.Calm fun env => env.outside.notes) work name workers world es left p)
    (hnew : world.env.outside.notes (jobId e) = []) (he : .submitted e ∈ es) (ht : e.unit.task = embed t)
    (hd : t.isDryRun = false) (hx : ¬ D (jobId e)) (hend : .ended e.ticket crashed ∈ es)
    (hr : p.shared.registry.get? (jobId e) = some r) (hc : r.status = .completed) :
    t.errand.Look ((lastLook (p.shared.env.outside.notes (jobId e))).map client.exchange) true := by
  obtain ⟨o, r', hr', htells, hends⟩ := run.package_ended h hnew he ht hx hend
  rw [hr] at hr'
  cases hr'
  have hnotes : (p.shared.env.outside.notes (jobId e)).map client.exchange =
    PackageJob.said client (jobId e) p.shared.env := rfl
  generalize PackageJob.said client (jobId e) p.shared.env = said at hends hnotes
  -- of all ends, only one is told by a record of success
  have hwell : ∀ failure, ¬ r.Tells (.error failure) := by
    intro failure hfailed
    cases hc.symm.trans hfailed.1
  cases hends with
  | refused | late => exact absurd htells (hwell _)
  | dry _ hd' =>
    rw [hd] at hd'
    cases hd'
  | @confirmed tried looks last elapsed _ _ _ hlast _ =>
    rw [List.flatten_append, List.flatten_singleton, ← List.append_assoc] at hnotes
    obtain ⟨before, look, hsplit, -, hlook⟩ := List.map_eq_append_iff.1 hnotes
    rw [hsplit, hlast.eq_lastLook hlook, hlook]
    exact hlast

/-- **What an installation is confirmed by.** -/
theorem install_confirmed_by_name {g : γ} {request : PackageRequest} {crashed : Bool} {r : JobRecord}
    (h : Serves D (fun _ => InMemoryDeployer.client) embed work)
    (run : DiscreetRun D (World.Calm fun env => env.outside.notes) work name workers world es left p)
    (hnew : world.env.outside.notes (jobId e) = []) (he : .submitted e ∈ es)
    (ht : e.unit.task = embed (.install g request)) (hx : ¬ D (jobId e)) (hend : .ended e.ticket crashed ∈ es)
    (hr : p.shared.registry.get? (jobId e) = some r) (hc : r.status = .completed) :
    ∃ n ∈ lastLook (p.shared.env.outside.notes (jobId e)),
      InMemoryDeployer.SaysInstalled request.name request.space n ∨
      ∃ ref key, InMemoryDeployer.Lists request.name request.space n ref ∧ InMemoryDeployer.Owns key ref ∧
        key.space = request.space ∧ n.state.Shows n.time key ∧ Text.contains ref.name request.name = true :=
  InMemoryDeployer.confirmed_by (run.confirming_look h hnew he ht rfl hx hend hr hc)

/-! ## Two runs -/

/-- The threads take turns until the sample job is installed at its first look. -/
def oneLook : List Pool.ThreadId :=
  List.replicate 4 (.caller 0) ++ List.replicate 13 (.worker 0) ++ [.caller 0] ++ List.replicate 10 (.worker 0)

/-- A deployer without lags shows the release at once. -/
theorem install_confirmed_by_name_sample : ∃ es left p e request crashed r,
    DiscreetRun (fun _ => False) (World.Calm fun env => env.outside.notes) (packageWork InMemoryDeployer.client)
      "sample" 1 (packageWorld {}) es left p ∧ .submitted e ∈ es ∧ e.unit.task = .install () request ∧
    .ended e.ticket crashed ∈ es ∧ p.shared.registry.get? (jobId e) = some r ∧ r.status = .completed ∧
    ∃ n ∈ lastLook (p.shared.env.outside.notes (jobId e)),
      InMemoryDeployer.SaysInstalled request.name request.space n ∨
      ∃ ref key, InMemoryDeployer.Lists request.name request.space n ref ∧ InMemoryDeployer.Owns key ref ∧
        key.space = request.space ∧ n.state.Shows n.time key ∧ Text.contains ref.name request.name = true := by
  obtain ⟨es, left, p, e, request, crashed, r, run, he, ht, -, -, hend, hr, hc, -⟩ :=
    @exists_installed _ InMemoryDeployer.client {} oneLook (fun _ => true) (by decide +kernel)
  exact ⟨es, left, p, e, request, crashed, r, run, he, ht, hend, hr, hc,
    install_confirmed_by_name (serves_packageWork _) run rfl he ht (fun hf => hf) hend hr hc⟩

/-- A deployer that shows changes after an hour, with another release whose name contains the one of the sample. -/
def neighbour : InMemoryDeployer :=
  InMemoryDeployer.seed "redis-cluster" "cache" none 0 { statusLag := .ofSecs 3600, resourceLag := .ofSecs 3600 }

/-- The answer shows nothing of the sample. -/
def isForeign : Exchange → Bool
  | .status _ _ (.ok s) => !s.installed
  | .list _ _ _ (.ok resources) => resources.all fun r => r.name != InMemoryDeployer.resourceName r.kind "redis"
  | _ => true

/-- **Another release confirms an installation.**  Nothing is seen of the release itself: its status says that it is not
installed, and none of its resources is listed. -/
theorem install_confirmed_by_neighbour : ∃ es left p e request crashed r,
    DiscreetRun (fun _ => False) (World.Calm fun env => env.outside.notes) (packageWork InMemoryDeployer.client)
      "sample" 1 (packageWorld neighbour) es left p ∧ .submitted e ∈ es ∧ e.unit.task = .install () request ∧
    .ended e.ticket crashed ∈ es ∧ p.shared.registry.get? (jobId e) = some r ∧ r.status = .completed ∧
    ∀ n ∈ lastLook (p.shared.env.outside.notes (jobId e)),
      ¬ InMemoryDeployer.SaysInstalled request.name request.space n ∧
      ∀ ref, InMemoryDeployer.Lists request.name request.space n ref →
        ¬ InMemoryDeployer.Owns ⟨request.space, request.name⟩ ref := by
  obtain ⟨es, left, p, e, request, crashed, r, run, he, ht, hname, hspace, hend, hr, hc, htest⟩ :=
    @exists_installed _ InMemoryDeployer.client neighbour oneLook
      (fun notes => (lastLook notes).all fun n => isForeign (InMemoryDeployer.client.exchange n)) (by decide +kernel)
  refine ⟨es, left, p, e, request, crashed, r, run, he, ht, hend, hr, hc, fun n hn => ?_⟩
  have hforeign := List.all_eq_true.1 htest n hn
  unfold PackageClient.exchange at hforeign
  constructor
  · rintro ⟨hcall, s, hs, hinstalled⟩
    rw [hcall] at hforeign
    change isForeign (.status _ _ (InMemoryDeployer.releaseStatus _ _ n.time n.state).1) = true at hforeign
    rw [hs, isForeign, hinstalled] at hforeign
    cases hforeign
  · rintro ref ⟨kind, resources, hcall, hlist, href⟩ ⟨-, howns⟩
    rw [hcall] at hforeign
    change isForeign (.list _ _ _ (InMemoryDeployer.list _ _ _ n.time n.state).1) = true at hforeign
    rw [hlist, isForeign] at hforeign
    have hne := List.all_eq_true.1 hforeign ref href
    rw [howns, hname, bne_self_eq_false] at hne
    cases hne

end Orchestrator
end JobRunner
