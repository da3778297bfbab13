import JobRunner.Package.Service
import JobRunner.Proofs.JobLoops
import Mathlib.Logic.Function.Basic
/-!
# What package jobs ask of a deployer

Every job has a notebook, in which its client notes each call: when it was made, and what the deployer was like then.
So the calls of a job, with their answers, can be told from those of all others; and they are always these: attempts of
the change, and when one was accepted, looks at the status of the release and at the resources that bear its name.
-/
namespace JobRunner

open Routine (Ensures)
open World (Calm Tells Told)

/-- A call that changes a release. -/
inductive ReleaseChange where
  | install (request : PackageRequest)
  | upgrade (request : PackageRequest)
  | uninstall (name space : String) (dryRun : Bool)

inductive DeployerCall where
  | health
  | change (c : ReleaseChange)
  | status (name space : String)
  | list (kind : ResourceKind) (space filter : String)

/-- A call and its answer. -/
inductive Exchange where
  | health (answer : Except CapabilityError Unit)
  | change (c : ReleaseChange) (answer : Except CapabilityError Unit)
  | status (name space : String) (answer : Except CapabilityError ReleaseStatus)
  | list (kind : ResourceKind) (space filter : String) (answer : Except CapabilityError (List ResourceRef))

/-- A call, its time in nanoseconds, and the state of the deployer at that time. -/
structure Note (ω : Type) where
  time : Nat
  state : ω
  call : DeployerCall

/-- What lies outside, and what each job has noted of its calls. -/
structure Notebooks (ω : Type) where
  outside : ω
  notes : JobId → List (Note ω) := fun _ => []

namespace PackageClient

variable {γ ω α : Type}

def change (client : PackageClient ω) : ReleaseChange → BackendCall ω Unit
  | .install request => client.install request
  | .upgrade request => client.upgrade request
  | .uninstall name space dryRun => client.uninstall name space dryRun

/-- What a deployer answers to a noted call. -/
def exchange (client : PackageClient ω) (n : Note ω) : Exchange :=
  match n.call with
  | .health => .health (client.healthCheck n.time n.state).1
  | .change c => .change c (client.change c n.time n.state).1
  | .status name space => .status name space (client.releaseStatus name space n.time n.state).1
  | .list kind space filter => .list kind space filter (client.list kind space filter n.time n.state).1

variable {client : PackageClient ω} {n : Note ω}

theorem of_exchange_status {name space : String} {answer : Except CapabilityError ReleaseStatus}
    (h : client.exchange n = .status name space answer) :
    n.call = .status name space ∧ (client.releaseStatus name space n.time n.state).1 = answer := by
  unfold exchange at h
  split at h
  case h_3 hcall =>
    cases h
    exact ⟨hcall, rfl⟩
  all_goals cases h

theorem of_exchange_list {kind : ResourceKind} {space filter : String}
    {answer : Except CapabilityError (List ResourceRef)} (h : client.exchange n = .list kind space filter answer) :
    n.call = .list kind space filter ∧ (client.list kind space filter n.time n.state).1 = answer := by
  unfold exchange at h
  split at h
  case h_4 hcall =>
    cases h
    exact ⟨hcall, rfl⟩
  all_goals cases h

/-- A call that is noted for a job. -/
def noting (x : JobId) (call : DeployerCall) (f : BackendCall ω α) : BackendCall (Notebooks ω) α := fun now b =>
  let r := f now b.outside
  (r.1, ⟨r.2, Function.update b.notes x (b.notes x ++ [⟨now, b.outside, call⟩])⟩)

/-- The client whose calls are noted for a job. -/
def noted (x : JobId) (client : PackageClient ω) : PackageClient (Notebooks ω) where
  healthCheck := noting x .health client.healthCheck
  releaseStatus name space := noting x (.status name space) (client.releaseStatus name space)
  install request := noting x (.change (.install request)) (client.install request)
  upgrade request := noting x (.change (.upgrade request)) (client.upgrade request)
  uninstall name space dryRun := noting x (.change (.uninstall name space dryRun)) (client.uninstall name space dryRun)
  list kind space filter := noting x (.list kind space filter) (client.list kind space filter)

end PackageClient

/-! ## Errands -/

/-- What a package job is to bring about, and by what it is seen. -/
structure Errand where
  operation : String
  participle : String
  name : String
  space : String
  change : ReleaseChange
  /-- The status of the release shows the change. -/
  shows : ReleaseStatus → Bool
  /-- Whether resources show the change by being there or by not being there. -/
  present : Bool

namespace PackageTask

variable {γ : Type}

def client : PackageTask γ → γ
  | install client _ | upgrade client _ | uninstall client _ _ _ => client

def errand : PackageTask γ → Errand
  | install _ r => ⟨"install", "installed", r.name, r.space, .install r, (·.installed), true⟩
  | upgrade _ r => ⟨"upgrade", "upgraded", r.name, r.space, .upgrade r,
      fun s => s.installed && r.version.all fun v => s.version == some v, true⟩
  | uninstall _ name space dryRun => ⟨"uninstall", "removed", name, space, .uninstall name space dryRun,
      (!·.installed), false⟩

/-- The job only asks whether a release could be removed. -/
def isDryRun : PackageTask γ → Bool
  | uninstall _ _ _ dryRun => dryRun
  | _ => false

end PackageTask

/-- The listings of one look, and whether they find resources.  Kinds behind the first one that is found, and behind a
listing that fails, are not listed. -/
inductive Listings (space release : String) :
    List ResourceKind → List Exchange → Except CapabilityError Bool → Prop where
  | nothing : Listings space release [] [] (.ok false)
  | failed {kind : ResourceKind} {kinds : List ResourceKind} (e : CapabilityError) :
    Listings space release (kind :: kinds) [.list kind space release (.error e)] (.error e)
  | found {kind : ResourceKind} {kinds : List ResourceKind} {resources : List ResourceRef} (h : resources ≠ []) :
    Listings space release (kind :: kinds) [.list kind space release (.ok resources)] (.ok true)
  | next {kind : ResourceKind} {kinds : List ResourceKind} {said : List Exchange} {answer : Except CapabilityError Bool}
    (h : Listings space release kinds said answer) :
    Listings space release (kind :: kinds) (.list kind space release (.ok []) :: said) answer

namespace Listings

variable {space release : String} {kinds : List ResourceKind} {said : List Exchange}
  {answer : Except CapabilityError Bool}

theorem exists_list (h : Listings space release kinds said answer) :
    ∀ x ∈ said, ∃ kind resources, x = .list kind space release resources := by
  induction h with
  | nothing => exact nofun
  | @failed kind | @found kind => exact List.forall_mem_singleton.2 ⟨kind, _, rfl⟩
  | @next kind _ _ _ _ ih => exact List.forall_mem_cons.2 ⟨⟨kind, _, rfl⟩, ih⟩

/-- Resources that are found are on one of the lists. -/
theorem exists_found (h : Listings space release kinds said (.ok true)) :
    ∃ kind resources, resources ≠ [] ∧ .list kind space release (.ok resources) ∈ said := by
  generalize ha : Except.ok true = answer at h
  induction h with
  | nothing => cases ha
  | failed => cases ha
  | @found kind _ resources h => exact ⟨kind, resources, h, List.mem_singleton.2 rfl⟩
  | next _ ih =>
    obtain ⟨kind, resources, hne, hmem⟩ := ih ha
    exact ⟨kind, resources, hne, List.mem_cons_of_mem _ hmem⟩

end Listings

/-- A probe says yes. -/
def confirms : Except CapabilityError Bool → Bool
  | .ok b => b
  | .error _ => false

/-- One look at what an errand is to bring about: the calls, and whether one of the two probes says yes. -/
inductive Errand.Look (a : Errand) : List Exchange → Bool → Prop where
  | intro {status : Except CapabilityError ReleaseStatus} {said : List Exchange} {any : Except CapabilityError Bool}
    (h : Listings a.space a.name [.pod, .configMap, .secret] said any) :
    Look a (.status a.name a.space status :: said)
      (confirms (status.map a.shows) || confirms (any.map (· == a.present)))

/-- A look that says yes shows the change in the status of the release or by its resources. -/
theorem Errand.Look.of_yes {a : Errand} {said : List Exchange} {yes : Bool} (h : a.Look said yes) (hyes : yes = true) :
    ∃ status more any, said = .status a.name a.space status :: more ∧
      Listings a.space a.name [.pod, .configMap, .secret] more any ∧
      ((∃ s, status = .ok s ∧ a.shows s = true) ∨ any = .ok a.present) := by
  obtain @⟨status, more, any, hmore⟩ := h
  refine ⟨status, more, any, rfl, hmore, ?_⟩
  rcases Bool.or_eq_true_iff.1 hyes with hstatus | hany
  · cases status with
    | error e => cases hstatus
    | ok s => exact .inl ⟨s, rfl, hstatus⟩
  · cases any with
    | error e => cases hany
    | ok b => exact .inr (congrArg Except.ok (beq_iff_eq.1 hany))

/-- How a package job ends under its policies, at which time, and what it has asked for by then.  Looks are made as long
as there is room for them in the time of the wait. -/
inductive PackageTask.Ends {γ : Type} (t : PackageTask γ) (c : JobContext) (now : Nat) :
    JobContext.Outcome → List Exchange → Prop where
  | refused {tried : List CapabilityError} (e : CapabilityError)
    (h : tried.length + 1 = max 1 c.retry.maxAttempts.toNat) :
    Ends t c now (.error (.retry ⟨t.errand.operation ++ " " ++ t.errand.name, tried.length + 1, e⟩))
      ((Retry.answers tried (.error e)).map (.change t.errand.change))
  | dry {tried : List CapabilityError} (h : tried.length < max 1 c.retry.maxAttempts.toNat) (hd : t.isDryRun = true) :
    Ends t c now (.ok (PackageJob.dryRunSummary t.errand.name t.errand.space))
      ((Retry.answers tried (.ok ())).map (.change t.errand.change))
  | confirmed {tried : List CapabilityError} {looks : List (List Exchange)} {last : List Exchange} (elapsed : Duration)
    (h : tried.length < max 1 c.retry.maxAttempts.toNat) (hd : t.isDryRun = false)
    (hlooks : ∀ look ∈ looks, t.errand.Look look false) (hlast : t.errand.Look last true)
    (hroom : now + c.poll.timeout.nanos < Poll.clockLimit →
      (looks.length + 1) * c.poll.pace.nanos ≤ c.poll.timeout.nanos) :
    Ends t c now (.ok (PackageJob.summary t.errand.operation t.errand.name t.errand.space
        ⟨.ofNat (looks.length + 1), elapsed⟩))
      ((Retry.answers tried (.ok ())).map (.change t.errand.change) ++ (looks ++ [last]).flatten)
  | late {tried : List CapabilityError} {looks : List (List Exchange)} {elapsed : Duration}
    (h : tried.length < max 1 c.retry.maxAttempts.toNat) (hd : t.isDryRun = false)
    (hlooks : ∀ look ∈ looks, t.errand.Look look false)
    (hroom : now + c.poll.timeout.nanos < Poll.clockLimit →
      looks.length * c.poll.pace.nanos ≤ c.poll.timeout.nanos) (hover : c.poll.timeout.nanos ≤ elapsed.nanos) :
    Ends t c now (.error (.poll
        ⟨"release " ++ t.errand.name ++ " " ++ t.errand.participle, elapsed, .ofNat looks.length⟩))
      ((Retry.answers tried (.ok ())).map (.change t.errand.change) ++ looks.flatten)

theorem PackageTask.Ends.mono {γ : Type} {t : PackageTask γ} {c : JobContext} {now later : Nat} {o : JobContext.Outcome}
    {said : List Exchange} (h : t.Ends c now o said) (hle : now ≤ later) : t.Ends c later o said := by
  cases h with
  | refused e h => exact .refused e h
  | dry h hd => exact .dry h hd
  | confirmed elapsed h hd hlooks hlast hroom =>
    exact .confirmed elapsed h hd hlooks hlast fun hlater => hroom (by omega)
  | late h hd hlooks hroom hover => exact .late h hd hlooks (fun hlater => hroom (by omega)) hover

/-! ## What the work of a job asks for -/

namespace PackageJob

variable {γ ω α : Type} {S : Interface} {client : PackageClient ω} {x : JobId}

/-- A client whose calls are noted, as a part of what jobs share. -/
def clientFor (client : PackageClient ω) (x : JobId) : PackageClient (ServiceEnv γ (Notebooks ω)) :=
  .ofPart (·.outside) (fun outside env => { env with outside }) (client.noted x)

/-- What a job has asked for and was answered. -/
def said (client : PackageClient ω) (x : JobId) (env : ServiceEnv γ (Notebooks ω)) : List Exchange :=
  (env.outside.notes x).map client.exchange

theorem tells_ask {call : DeployerCall} {f : BackendCall ω α} {say : Except CapabilityError α → Exchange}
    (h : ∀ time state, client.exchange ⟨time, state, call⟩ = say (f time state).1) :
    Tells (said client x) say (ask (PackageClient.within (fun env : ServiceEnv γ (Notebooks ω) => env.outside)
      (fun outside env => { env with outside }) (PackageClient.noting x call f)) : World.Action _ S _) := by
  refine fun P w hP => Routine.ensures_atomically fun v hv => hP _ _ (hv.trans_told ⟨?_, v.clock.now_le_read⟩)
  show _ = said client x v.env ++ [say (f v.clock.read v.env.outside.outside).1]
  rw [← h]
  simp [said, World.onEnv, PackageClient.within, PackageClient.noting]

theorem tells_change (client : PackageClient ω) (x : JobId) (c : ReleaseChange) :
    Tells (said client x) (.change c) (ask ((clientFor client x).change c) :
      World.Action (ServiceEnv γ (Notebooks ω)) S _) := by
  cases c with
  | _ => exact tells_ask fun _ _ => rfl

theorem tells_status (client : PackageClient ω) (x : JobId) (name space : String) :
    Tells (said client x) (.status name space) (ask ((clientFor client x).releaseStatus name space) :
      World.Action (ServiceEnv γ (Notebooks ω)) S _) := tells_ask fun _ _ => rfl

theorem tells_list (client : PackageClient ω) (x : JobId) (kind : ResourceKind) (space filter : String) :
    Tells (said client x) (.list kind space filter) (ask ((clientFor client x).list kind space filter) :
      World.Action (ServiceEnv γ (Notebooks ω)) S _) := tells_ask fun _ _ => rfl

theorem ensures_anyResource {space release : String}
    {P : Option (Except CapabilityError Bool) → World (ServiceEnv γ (Notebooks ω)) → Prop} :
    ∀ {kinds : List ResourceKind} {w : World (ServiceEnv γ (Notebooks ω))},
      (∀ more answer w', Listings space release kinds more answer → Told (said client x) more w w' →
        P (some answer) w') →
        (anyResource (clientFor client x) space release kinds : World.Action _ S _).Ensures (Calm (said client x)) P w
  | [], w, h => h [] _ w .nothing (World.Calm.refl w).told
  | kind :: kinds, w, h => by
    refine Routine.ensures_bind.2 (tells_list client x kind space release _ _ fun answer v hv => ?_)
    cases answer with
    | error e => exact h _ _ v (.failed e) hv
    | ok resources =>
      cases resources with
      | nil => exact ensures_anyResource fun more answer w' hmore hw => h _ _ w' (.next hmore) (hv.trans hw)
      | cons r rs => exact h _ _ v (.found (List.cons_ne_nil r rs)) hv

end PackageJob
end JobRunner
