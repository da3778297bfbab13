import JobRunner.Proofs.PackageCalls
/-!
# The work of package jobs

The three kinds of package jobs are one routine with different errands.  It touches nothing but the record of its job
and the notebook of its job; and if nobody else writes into that, it asks for its attempts and its looks and for nothing
else.
-/
namespace JobRunner

open Routine (Does Ensures)
open World (Allows Calm Told)

namespace PackageTask

variable {γ ε : Type} {S : Interface}

/-- The first line of the log. -/
def headline : PackageTask γ → String
  | install _ r => "installing " ++ r.name ++ " from " ++ r.source ++ " into " ++ r.space
  | upgrade _ r => "upgrading " ++ r.name ++ " in " ++ r.space ++ " to " ++ r.version.getD "latest"
  | uninstall _ name space dryRun =>
    "uninstalling " ++ name ++ " from " ++ space ++ (if dryRun then " (dry run)" else "")

/-- What a job waits for when its change was accepted. -/
def condition (client : PackageClient ε) : PackageTask γ → Condition ε S
  | install _ r => PackageJob.installed client r.name r.space
  | upgrade _ r => PackageJob.upgraded client r.name r.space r.version
  | uninstall _ name space _ => PackageJob.removed client name space

/-- What a job does whose change was accepted. -/
def afterwards (client : PackageClient ε) (t : PackageTask γ) (c : JobContext) : World.Action ε S JobContext.Outcome :=
  if t.isDryRun then do
    c.log "dry run: nothing removed"
    return .ok (PackageJob.dryRunSummary t.errand.name t.errand.space)
  else PackageJob.confirm c t.errand.operation t.errand.participle t.errand.name t.errand.space (t.condition client)

/-- All package jobs in one. -/
def carryOut (client : PackageClient ε) (t : PackageTask γ) (c : JobContext) : World.Action ε S JobContext.Outcome := do
  c.log t.headline
  match ← c.attempt (t.errand.operation ++ " " ++ t.errand.name) (PackageJob.ask (client.change t.errand.change)) with
  | .error e => return .error (.retry e)
  | .ok () => t.afterwards client c

theorem work_eq {ω : Type} (deployer : γ → PackageClient ω) (t : PackageTask γ) (c : JobContext) :
    (PackageService.work deployer t c : World.Action _ S _) =
      t.carryOut (PackageService.clientOf deployer t.client) c := by
  cases t with
  | install | upgrade => rfl
  | uninstall client name space dryRun => cases dryRun with | _ => rfl

end PackageTask

/-! ## What package jobs leave alone -/

namespace PackageJob

variable {ε γ α : Type} {S : Interface} {R : World ε → World ε → Prop} {Q : S.Request → Prop} {client : PackageClient ε}
  {id : JobId} {c : JobContext}

/-- Every call of the client changes the world as `R` says. -/
structure Calls (R : World ε → World ε → Prop) (client : PackageClient ε) : Prop where
  change : ∀ a w, R w (World.onEnv (client.change a) w).2
  status : ∀ name space w, R w (World.onEnv (client.releaseStatus name space) w).2
  list : ∀ kind space filter w, R w (World.onEnv (client.list kind space filter) w).2

theorem does_ask {f : BackendCall ε α} (h : ∀ w, R w (World.onEnv f w).2) :
    (ask f : World.Action ε S (Except CapabilityError α)).Does R Q := Routine.does_atomically h

theorem does_anyResource (h : Calls R client) (space release : String) : ∀ kinds,
    (anyResource client space release kinds : World.Action ε S (Except CapabilityError Bool)).Does R Q
  | [] => .done _
  | kind :: kinds => by
    refine (does_ask (h.list kind space release)).bind fun answer => ?_
    cases answer with
    | error e => exact .done _
    | ok resources =>
      cases resources with
      | nil => exact does_anyResource h space release kinds
      | cons r rs => exact .done _

theorem does_statusProbe (h : Calls R client) (name space : String) (test : ReleaseStatus → Bool) :
    (statusProbe client name space test : World.Action ε S (Except CapabilityError Bool)).Does R Q :=
  (does_ask (h.status name space)).bind fun _ => .done _

theorem does_condition (h : Calls R client) (t : PackageTask γ) :
    ∀ probe ∈ (t.condition client : Condition ε S).probes, probe.check.Does R Q := by
  have hlist : ∀ space release, (resourcesPresent client space release :
      World.Action ε S (Except CapabilityError Bool)).Does R Q :=
    fun space release => does_anyResource h space release _
  cases t with
  | install client' r | upgrade client' r =>
    refine List.forall_mem_cons.2 ⟨does_statusProbe h _ _ _, List.forall_mem_singleton.2 (hlist _ _)⟩
  | uninstall client' name space dryRun =>
    refine List.forall_mem_cons.2 ⟨does_statusProbe h _ _ _, List.forall_mem_singleton.2 ?_⟩
    exact (hlist _ _).bind fun _ => .done _

theorem does_carryOut (hr : Allows R c.id) (h : Calls R client) (t : PackageTask γ) :
    (t.carryOut client c : World.Action ε S JobContext.Outcome).Does R Q := by
  refine (hr.does_report rfl).bind fun _ => ?_
  refine (Retry.does_attemptsFrom hr (does_ask (h.change _)) _ _).bind fun answer => ?_
  cases answer with
  | error e => exact .done _
  | ok u =>
    show (t.afterwards client c).Does R Q
    unfold PackageTask.afterwards
    split
    · exact (hr.does_report rfl).bind fun _ => .done _
    · refine (hr.does_report rfl).bind fun _ => (Poll.does_run hr (does_condition h t)).bind fun answer => ?_
      cases answer with
      | error e => exact .done _
      | ok o => exact .done _

end PackageJob

/-! ## What package jobs ask for -/

namespace PackageJob

variable {γ ω : Type} {S : Interface} {client : PackageClient ω} {x : JobId}

theorem ensures_statusProbe {name space : String} {test : ReleaseStatus → Bool}
    {P : Option (Except CapabilityError Bool) → World (ServiceEnv γ (Notebooks ω)) → Prop}
    {w : World (ServiceEnv γ (Notebooks ω))}
    (h : ∀ status w', Told (said client x) [.status name space status] w w' → P (some (status.map test)) w') :
    (statusProbe (clientFor client x) name space test : World.Action _ S _).Ensures (Calm (said client x)) P w :=
  Routine.ensures_bind.2 (tells_status client x name space _ _ h)

/-- One look at a condition of two probes. -/
theorem shows_condition {a : Errand} {probeName : String}
    {resources : World.Action (ServiceEnv γ (Notebooks ω)) S (Except CapabilityError Bool)}
    (h : ∀ (P : Option (Except CapabilityError Bool) → World (ServiceEnv γ (Notebooks ω)) → Prop) w,
      (∀ more any w', Listings a.space a.name [.pod, .configMap, .secret] more any → Told (said client x) more w w' →
        P (some (any.map (· == a.present))) w') → resources.Ensures (Calm (said client x)) P w) :
    Poll.Shows (said client x) a.Look (condition a.name a.participle probeName
      (statusProbe (clientFor client x) a.name a.space a.shows) resources) := by
  intro P w hlook
  -- the probes run one after the other, and both are always run
  refine Routine.ensures_bind.2 (Routine.ensures_bind.2 (ensures_statusProbe fun status v hv => ?_))
  refine Routine.ensures_bind.2 (Routine.ensures_bind.2 (h _ _ fun more any w' hmore hw => ?_))
  have hl : a.Look (.status a.name a.space status :: more) _ := .intro hmore
  have hnow := hlook _ _ [⟨probeName, status.map a.shows⟩, ⟨"release resources", any.map (· == a.present)⟩] w' hl
    (hv.trans hw)
  rw [← Bool.or_false (confirms (any.map _))] at hnow
  exact hnow

theorem shows_carryOut (t : PackageTask γ) : Poll.Shows (said client x) t.errand.Look
    (t.condition (clientFor client x) : Condition (ServiceEnv γ (Notebooks ω)) S) := by
  have hread : ∀ any : Except CapabilityError Bool, any.map (· == true) = any := by
    intro any
    cases any with
    | error e => rfl
    | ok b => cases b with | _ => rfl
  have hsee : ∀ space name, ∀ (P : Option (Except CapabilityError Bool) → World (ServiceEnv γ (Notebooks ω)) → Prop) w,
      (∀ more any w', Listings space name [.pod, .configMap, .secret] more any → Told (said client x) more w w' →
        P (some (any.map (· == true))) w') →
      (resourcesPresent (clientFor client x) space name : World.Action _ S _).Ensures (Calm (said client x)) P w := by
    intro space name P w h
    refine ensures_anyResource fun more any w' hmore hw => ?_
    rw [← hread any]
    exact h more any w' hmore hw
  cases t with
  | install g r | upgrade g r => exact shows_condition (a := PackageTask.errand _) (hsee _ _)
  | uninstall g name space dryRun =>
    refine shows_condition (a := PackageTask.errand (.uninstall g name space dryRun)) fun P w h => ?_
    refine Routine.ensures_bind.2 (ensures_anyResource fun more any w' hmore hw => ?_)
    have hnow := h more any w' hmore hw
    cases any with
    | error e => exact hnow
    | ok b => cases b with | _ => exact hnow

/-- **What a package job asks for, and how it ends**, if nobody else writes into its notebook. -/
theorem ensures_carryOut (t : PackageTask γ) (c : JobContext) {w : World (ServiceEnv γ (Notebooks ω))}
    (hnew : said client c.id w.env = []) :
    (t.carryOut (clientFor client c.id) c : World.Action _ S _).Ensures (Calm (said client c.id))
      (fun o w' => ∃ outcome, o = some outcome ∧ t.Ends c w'.clock.now outcome (said client c.id w'.env)) w := by
  have hsaid : ∀ {more w'}, Told (said client c.id) more w w' → said client c.id w'.env = more := by
    intro more w' hw
    rw [hw.seen, hnew, List.nil_append]
  refine World.ensures_report fun v hv => Routine.ensures_bind.2 (Retry.ensures_run (tells_change client c.id _)
    (fun tried u v' hlt hv' => ?_) fun tried e w' hlen hw => ?_)
  -- the last attempt has failed
  case refine_2 =>
    refine ⟨_, rfl, ?_⟩
    rw [hsaid (hv.trans_told hw)]
    exact .refused e hlen
  -- an attempt was accepted
  case refine_1 =>
    have htried := hv.trans_told hv'
    show (t.afterwards (clientFor client c.id) c).Ensures _ _ _
    unfold PackageTask.afterwards
    split
    case isTrue hd =>
      refine World.ensures_report fun w' hw => ?_
      refine ⟨_, rfl, ?_⟩
      rw [hsaid (htried.calm hw)]
      exact .dry hlt hd
    case isFalse hd =>
      rw [Bool.not_eq_true] at hd
      refine World.ensures_report fun u hu => Routine.ensures_bind.2 (Poll.ensures_run (shows_carryOut t)
        (fun looks last elapsed w' h hlast hroom hw => ?_) fun looks elapsed w' h hroom hover hw => ?_)
      · refine ⟨_, rfl, ?_⟩
        rw [hsaid ((htried.calm hu).trans hw)]
        exact .confirmed elapsed hlt hd h hlast hroom
      · refine ⟨_, rfl, ?_⟩
        rw [hsaid ((htried.calm hu).trans hw)]
        have hlate := PackageTask.Ends.late hlt hd h hroom hover
        cases t with
        | install | upgrade | uninstall => exact hlate

/-! ## Jobs among other jobs -/

open Orchestrator (Harmless Proper)

variable {D : JobId → Prop} {c : JobContext}

/-- A step on behalf of a job does no harm to the registry, nothing is noted for other jobs, and the clock does not go
back. -/
structure Modest (D : JobId → Prop) (x : JobId) (w w' : World (ServiceEnv γ (Notebooks ω))) : Prop where
  harmless : Harmless D (some x) w.registry w'.registry
  apart : ∀ y, y ≠ x → w'.env.outside.notes y = w.env.outside.notes y
  later : w.clock.now ≤ w'.clock.now

theorem allows_modest : Allows (Modest D x : World (ServiceEnv γ (Notebooks ω)) → _) x where
  clock _ _ h := ⟨.same, fun _ _ => rfl, h⟩
  report w _ hc := ⟨.report _ rfl hc, fun _ _ => rfl, w.clock.now_le_read⟩

theorem modest_noting {α : Type} (call : DeployerCall) (f : BackendCall ω α) (w : World (ServiceEnv γ (Notebooks ω))) :
    Modest D x w (World.onEnv (PackageClient.within (fun env : ServiceEnv γ (Notebooks ω) => env.outside)
      (fun outside env => { env with outside }) (PackageClient.noting x call f)) w).2 :=
  ⟨.same, fun _ hy => Function.update_of_ne hy .., w.clock.now_le_read⟩

theorem calls_modest (client : PackageClient ω) (x : JobId) :
    Calls (Modest D x) (clientFor client x : PackageClient (ServiceEnv γ _)) where
  change a := by
    cases a with
    | _ => exact modest_noting _ _
  status _ _ := modest_noting _ _
  list _ _ _ := modest_noting _ _

end PackageJob
end JobRunner
