import JobRunner.Proofs.ReleaseHistory
/-!
# A deployer without lags is a map

A deployer that shows every change at once is a plain map from the namespace and the name of a release to its source and
its version.  It never drops a release that was installed once, but keeps it as one that is not there, and it keeps of
every release how it was before its last change; none of this shows.  A call that is told to fail does so before it looks
at anything, and it is counted before that.
-/
namespace JobRunner

/-! ## Calls and their answers -/

namespace DeployerCall

/-- The kind under which a call is counted. -/
def kind : DeployerCall → CallKind
  | health => .healthCheck
  | change (.install _) => .install
  | change (.upgrade _) => .upgrade
  | change (.uninstall _ _ _) => .uninstall
  | status _ _ => .releaseStatus
  | list _ _ _ => .listResources

/-- The call with an error for an answer. -/
def refused (e : CapabilityError) : DeployerCall → Exchange
  | health => .health (.error e)
  | change c => .change c (.error e)
  | status name space => .status name space (.error e)
  | list kind space filter => .list kind space filter (.error e)

end DeployerCall

/-- The call was answered with an error. -/
def Exchange.isRefused : Exchange → Bool
  | health (.error _) | change _ (.error _) | status _ _ (.error _) | list _ _ _ (.error _) => true
  | _ => false

namespace DeployerEvent

/-- The event is a call of the kind. -/
def calls (k : CallKind) : DeployerEvent → Bool
  | call c => c.kind = k
  | _ => false

end DeployerEvent

/-! ## The map -/

/-- How releases stand, how many of the next calls of a kind fail, and what ails the deployer. -/
structure ReleaseMap where
  standing : ReleaseKey → Standing := fun _ => .gone
  failing : CallKind → Nat := fun _ => 0
  unhealthy : Option String := none

namespace ReleaseMap

variable {m : ReleaseMap} {k : CallKind}

/-- What is answered to a change: a release that is there is not installed, and one that is not there is neither
upgraded nor removed. -/
def verdict (m : ReleaseMap) : ReleaseChange → Except CapabilityError Unit
  | .install request =>
    if (m.standing ⟨request.space, request.name⟩).isPresent then
      .error (.rejected ("release " ++ request.name ++ " already exists in " ++ request.space))
    else .ok ()
  | .upgrade request =>
    if (m.standing ⟨request.space, request.name⟩).isPresent then .ok ()
    else .error (.notFound ("release " ++ request.name ++ " in " ++ request.space))
  | .uninstall name space _ =>
    if (m.standing ⟨space, name⟩).isPresent then .ok ()
    else .error (.notFound ("release " ++ name ++ " in " ++ space))

/-- The map after a change, if it is made at all. -/
def enact (m : ReleaseMap) (c : ReleaseChange) : ReleaseMap :=
  match m.verdict c, c.standing? with
  | .ok (), some s => { m with standing := Function.update m.standing c.key s }
  | _, _ => m

/-- The map after a call that goes through.  Looks leave it alone. -/
def served (m : ReleaseMap) : DeployerCall → ReleaseMap
  | .change c => m.enact c
  | _ => m

def after (m : ReleaseMap) : DeployerEvent → ReleaseMap
  | .seed name space version => { m with standing := Function.update m.standing ⟨space, name⟩ (.there "seed" version) }
  | .failNext k times => { m with failing := Function.update m.failing k times.toNat }
  | .setUnhealthy reason => { m with unhealthy := reason }
  | .call c =>
    if m.failing c.kind = 0 then m.served c
    else { m with failing := Function.update m.failing c.kind (m.failing c.kind - 1) }

/-- A list of resources that is right: one for each release of the namespace that is there, if its name contains the
text that was asked for, in the order of the names. -/
structure Lists (m : ReleaseMap) (kind : ResourceKind) (space filter : String) (resources : List ResourceRef) :
    Prop where
  nodup : resources.Nodup
  ordered : resources.Pairwise fun a b => a.name ≤ b.name
  mem_iff : ∀ r, r ∈ resources ↔ ∃ name, r = ⟨kind, space, InMemoryDeployer.resourceName kind name⟩ ∧
    (m.standing ⟨space, name⟩).isPresent = true ∧
    Text.contains (InMemoryDeployer.resourceName kind name) filter = true

/-- What is answered to a call. -/
inductive Answers (m : ReleaseMap) : DeployerCall → Exchange → Prop where
  /-- A call that is told to fail fails, and may well go through the next time. -/
  | injected {c : DeployerCall} (h : m.failing c.kind ≠ 0) :
    Answers m c (c.refused (.unavailable (c.kind.name ++ " injected failure")))
  | healthy (h : m.failing .healthCheck = 0) (hu : m.unhealthy = none) : Answers m .health (.health (.ok ()))
  | unhealthy {reason : String} (h : m.failing .healthCheck = 0) (hu : m.unhealthy = some reason) :
    Answers m .health (.health (.error (.unavailable reason)))
  | change {c : ReleaseChange} (h : m.failing (DeployerCall.change c).kind = 0) :
    Answers m (.change c) (.change c (m.verdict c))
  | status {name space : String} (h : m.failing .releaseStatus = 0) :
    Answers m (.status name space) (.status name space (.ok (m.standing ⟨space, name⟩).status))
  | list {kind : ResourceKind} {space filter : String} {resources : List ResourceRef}
    (h : m.failing .listResources = 0) (hl : m.Lists kind space filter resources) :
    Answers m (.list kind space filter) (.list kind space filter (.ok resources))

/-! ### Changes -/

theorem enact_of_error {c : ReleaseChange} {e : CapabilityError} (h : m.verdict c = .error e) : m.enact c = m := by
  unfold enact
  rw [h]

theorem enact_of_ok {c : ReleaseChange} (h : m.verdict c = .ok ()) :
    m.enact c = { m with standing := match c.standing? with
      | some s => Function.update m.standing c.key s
      | none => m.standing } := by
  unfold enact
  rw [h]
  cases c.standing? <;> rfl

/-! ### How many calls fail -/

end ReleaseMap

/-! ## The deployer as a map -/

/-- What is read off a table through its look-ups changes in one place when a key is bound. -/
theorem Table.look_insert {κ β γ : Type} [DecidableEq κ] (look : Option β → γ) (t : Table κ β) (key : κ) (v : β) :
    (fun key' => look ((t.insert key v).get? key')) =
      Function.update (fun key' => look (t.get? key')) key (look (some v)) := by
  funext key'
  rw [get?_insert]
  by_cases hkey : key = key'
  · subst hkey
    rw [if_pos rfl, Function.update_self]
  · rw [if_neg hkey, Function.update_of_ne (Ne.symm hkey)]

namespace InMemoryDeployer

variable {d : InMemoryDeployer} {now : Nat} {k : CallKind} {key : ReleaseKey}

/-- How a release stands that the deployer keeps, or does not know. -/
def standingOf : Option Release → Standing
  | some r => if r.current.isPresent then .there r.source r.current.version else .gone
  | none => .gone

/-- The map that the deployer keeps, whatever it shows of it. -/
def asMap (d : InMemoryDeployer) : ReleaseMap where
  standing key := standingOf (d.releases.get? key)
  failing k := (d.failuresLeft k).toNat
  unhealthy := d.unhealthy

theorem failing_eq_zero : d.asMap.failing k = 0 ↔ d.failuresLeft k = 0 := UInt32.toNat_inj (b := 0)

/-- The deployer with one more call counted. -/
def counting (k : CallKind) (d : InMemoryDeployer) : InMemoryDeployer :=
  { d with calls := d.calls.insert k (d.callCount k + 1) }

/-- The deployer with one more call counted and failed on purpose. -/
def refusing (k : CallKind) (d : InMemoryDeployer) : InMemoryDeployer :=
  { d.counting k with failures := d.failures.insert k (d.failuresLeft k - 1) }

theorem counted_of_eq_zero {α : Type} {f : BackendCall InMemoryDeployer α} (h : d.failuresLeft k = 0) :
    counted k f now d = f now (d.counting k) := by
  have henter : d.enter k = (.ok (), d.counting k) := if_pos h
  unfold counted
  rw [henter]

theorem counted_of_ne_zero {α : Type} {f : BackendCall InMemoryDeployer α} (h : d.failuresLeft k ≠ 0) :
    counted k f now d = (.error (.unavailable (k.name ++ " injected failure")), d.refusing k) := by
  have henter : d.enter k = (.error (.unavailable (k.name ++ " injected failure")), d.refusing k) := if_neg h
  unfold counted
  rw [henter]

theorem isPresent_standingOf (found : Option Release) :
    (standingOf found).isPresent = found.any (·.current.isPresent) := by
  cases found with
  | none => rfl
  | some r =>
    rw [standingOf, Option.any_some]
    cases r.current.isPresent <;> rfl

theorem isPresent_standing (d : InMemoryDeployer) (key : ReleaseKey) :
    (d.asMap.standing key).isPresent = (d.present? key).isSome :=
  (isPresent_standingOf _).trans Option.isSome_filter.symm

theorem asMap_put (key : ReleaseKey) (r : Release) (d : InMemoryDeployer) :
    (d.put key r).asMap = { d.asMap with standing := Function.update d.asMap.standing key (standingOf (some r)) } :=
  congrArg (ReleaseMap.mk · d.asMap.failing d.unhealthy) (Table.look_insert standingOf d.releases key r)

/-- The deployer has counted one more call, and has the same lags. -/
structure Counted (k : CallKind) (d d' : InMemoryDeployer) : Prop where
  calls : d'.calls = (d.counting k).calls
  statusLag : d'.statusLag = d.statusLag
  resourceLag : d'.resourceLag = d.resourceLag

/-- A call that is told to fail is counted and fails. -/
theorem refuses {c : DeployerCall} (h : d.failuresLeft c.kind ≠ 0) (now : Nat) :
    client.exchange ⟨now, d, c⟩ = c.refused (.unavailable (c.kind.name ++ " injected failure")) ∧
      d.afterCall now c = d.refusing c.kind := by
  cases c with
  | health =>
    have hr : healthCheck now d = (.error _, d.refusing .healthCheck) := counted_of_ne_zero h
    exact ⟨congrArg Exchange.health (congrArg Prod.fst hr), congrArg Prod.snd hr⟩
  | status name space =>
    have hr : releaseStatus name space now d = (.error _, d.refusing .releaseStatus) := counted_of_ne_zero h
    exact ⟨congrArg (Exchange.status name space) (congrArg Prod.fst hr), congrArg Prod.snd hr⟩
  | list kind space filter =>
    have hr : list kind space filter now d = (.error _, d.refusing .listResources) := counted_of_ne_zero h
    exact ⟨congrArg (Exchange.list kind space filter) (congrArg Prod.fst hr), congrArg Prod.snd hr⟩
  | change c =>
    have hr : client.change c now d =
        (.error (.unavailable ((DeployerCall.change c).kind.name ++ " injected failure")),
          d.refusing (DeployerCall.change c).kind) := by
      cases c with
      | install request => exact (counted_of_ne_zero h : install request now d = _)
      | upgrade request => exact (counted_of_ne_zero h : upgrade request now d = _)
      | uninstall name space dryRun => exact (counted_of_ne_zero h : uninstall name space dryRun now d = _)
    exact ⟨congrArg (Exchange.change c) (congrArg Prod.fst hr), congrArg Prod.snd hr⟩

theorem present?_counting (k : CallKind) (d : InMemoryDeployer) (key : ReleaseKey) :
    (d.counting k).present? key = d.present? key := rfl

/-- The change was answered and made as by the map, and it was counted. -/
structure Obeys (d : InMemoryDeployer) (c : ReleaseChange) (result : Except CapabilityError Unit × InMemoryDeployer) :
    Prop where
  answer : result.1 = d.asMap.verdict c
  asMap : result.2.asMap = d.asMap.enact c
  counted : Counted (DeployerCall.change c).kind d result.2

theorem Obeys.refused {c : ReleaseChange} {e : CapabilityError} (h : d.asMap.verdict c = .error e) :
    Obeys d c (.error e, d.counting (DeployerCall.change c).kind) :=
  ⟨h.symm, (ReleaseMap.enact_of_error h).symm, rfl, rfl, rfl⟩

theorem Obeys.put {c : ReleaseChange} {r : Release} (h : d.asMap.verdict c = .ok ())
    (hs : c.standing? = some (standingOf (some r))) :
    Obeys d c (.ok (), (d.counting (DeployerCall.change c).kind).put c.key r) := by
  refine ⟨h.symm, ?_, rfl, rfl, rfl⟩
  rw [ReleaseMap.enact_of_ok h, hs]
  exact asMap_put ..

/-- A change that is not told to fail is answered and made as by the map.  A release that is kept as one that is not
there is not found, so it is as if it had never been installed. -/
theorem obeys_change {c : ReleaseChange} (h : d.failuresLeft (DeployerCall.change c).kind = 0) (now : Nat) :
    Obeys d c (client.change c now d) := by
  have hp := isPresent_standing d c.key
  cases c with
  | install request =>
    show Obeys d _ (install request now d)
    unfold install
    rw [counted_of_eq_zero (k := .install) h]
    dsimp only
    rw [present?_counting]
    cases hfound : d.present? ⟨request.space, request.name⟩ with
    | some r => exact .refused (if_pos (hp.trans (congrArg Option.isSome hfound)))
    | none => exact .put (if_neg (ne_true_of_eq_false (hp.trans (congrArg Option.isSome hfound)))) rfl
  | upgrade request =>
    show Obeys d _ (upgrade request now d)
    unfold upgrade
    rw [counted_of_eq_zero (k := .upgrade) h]
    dsimp only
    rw [present?_counting]
    cases hfound : d.present? ⟨request.space, request.name⟩ with
    | none => exact .refused (if_neg (ne_true_of_eq_false (hp.trans (congrArg Option.isSome hfound))))
    | some r => exact .put (if_pos (hp.trans (congrArg Option.isSome hfound))) rfl
  | uninstall name space dryRun =>
    show Obeys d _ (uninstall name space dryRun now d)
    unfold uninstall
    rw [counted_of_eq_zero (k := .uninstall) h]
    dsimp only
    rw [present?_counting]
    cases hfound : d.present? ⟨space, name⟩ with
    | none => exact .refused (if_neg (ne_true_of_eq_false (hp.trans (congrArg Option.isSome hfound))))
    | some r =>
      have hv : ∀ dryRun, d.asMap.verdict (.uninstall name space dryRun) = .ok () :=
        fun _ => if_pos (hp.trans (congrArg Option.isSome hfound))
      cases dryRun with
      | true => exact ⟨(hv true).symm, (ReleaseMap.enact_of_ok (hv true)).symm, rfl, rfl, rfl⟩
      | false => exact .put (hv false) rfl

theorem observed_zero (r : Release) (now : Nat) : observed r .zero now = r.current := if_pos (Nat.zero_le _)

theorem health_answers (h : d.failuresLeft .healthCheck = 0) (now : Nat) :
    d.asMap.Answers .health (.health (healthCheck now d).1) := by
  have hsame : (d.counting .healthCheck).unhealthy = d.unhealthy := rfl
  unfold healthCheck
  rw [counted_of_eq_zero h, hsame]
  cases hu : d.unhealthy with
  | none => exact .healthy (failing_eq_zero.2 h) hu
  | some reason => exact .unhealthy (failing_eq_zero.2 h) hu

theorem statusOf_current (r : Release) : statusOf r r.current = (standingOf (some r)).status := by
  obtain ⟨source, previous, ⟨isPresent, version⟩, changedAt⟩ := r
  cases isPresent with
  | false => rfl
  | true => cases version <;> rfl

theorem status_eq (h : d.failuresLeft .releaseStatus = 0) (hl : d.statusLag = .zero) (name space : String) (now : Nat) :
    (releaseStatus name space now d).1 = .ok (d.asMap.standing ⟨space, name⟩).status := by
  have hstanding : d.asMap.standing ⟨space, name⟩ = standingOf (d.releases.get? ⟨space, name⟩) := rfl
  have hreleases : (d.counting .releaseStatus).releases = d.releases := rfl
  have hlag : (d.counting .releaseStatus).statusLag = .zero := hl
  unfold releaseStatus
  rw [counted_of_eq_zero h, hstanding, hreleases]
  cases d.releases.get? ⟨space, name⟩ with
  | none => rfl
  | some r =>
    dsimp only
    rw [hlag, observed_zero, statusOf_current]

theorem shows_iff (hl : d.resourceLag = .zero) : d.Shows now key ↔ (d.asMap.standing key).isPresent = true := by
  show _ ↔ (standingOf (d.releases.get? key)).isPresent = true
  rw [isPresent_standingOf, Option.any_eq_true]
  unfold Shows
  rw [hl]
  exact exists_congr fun r => and_congr Table.get?_eq_some_iff.symm (iff_of_eq (by rw [observed_zero]))

theorem exists_lists (h : d.failuresLeft .listResources = 0) (hl : d.resourceLag = .zero) (kind : ResourceKind)
    (space filter : String) (now : Nat) : ∃ resources, (list kind space filter now d).1 = .ok resources ∧
      d.asMap.Lists kind space filter resources := by
  obtain ⟨resources, hlist⟩ := exists_list h now kind space filter
  refine ⟨resources, hlist, nodup_list hlist, ordered_list hlist, fun r => (mem_list_iff hlist).trans ?_⟩
  exact exists_congr fun name => and_congr_right fun _ => and_congr_left fun _ => shows_iff hl

/-- **A deployer without lags answers as the map that it keeps.** -/
theorem answers (hs : d.statusLag = .zero) (hr : d.resourceLag = .zero) (now : Nat) (c : DeployerCall) :
    d.asMap.Answers c (client.exchange ⟨now, d, c⟩) := by
  by_cases h : d.failuresLeft c.kind = 0
  case neg =>
    rw [(refuses h now).1]
    exact .injected fun hzero => h (failing_eq_zero.1 hzero)
  case pos =>
    have hgoes := failing_eq_zero.2 h
    cases c with
    | health => exact health_answers h now
    | change c =>
      show d.asMap.Answers _ (.change c (client.change c now d).1)
      rw [(obeys_change h now).answer]
      exact .change hgoes
    | status name space =>
      show d.asMap.Answers _ (.status name space (releaseStatus name space now d).1)
      rw [status_eq h hs]
      exact .status hgoes
    | list kind space filter =>
      obtain ⟨resources, hlist, hlists⟩ := exists_lists h hr kind space filter now
      show d.asMap.Answers _ (.list kind space filter (list kind space filter now d).1)
      rw [hlist]
      exact .list hgoes hlists

end InMemoryDeployer
end JobRunner
