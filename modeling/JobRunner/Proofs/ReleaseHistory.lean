import JobRunner.Proofs.InstallConfirmation
import JobRunner.Proofs.TableSums
/-!
# What the in-memory deployer shows of a release

The deployer is meant to show each accepted change after its lag.  It keeps the last change of a release and how the
release stood before that, so what it shows is right as long as at most one change of the release has yet to settle.  Here
the whole history of each release is kept beside the deployer, and what is seen at any time is told from it: exactly, and
compared with what the history says of the release as it was a lag ago.

Two things can show before their time.  The source of a release is no part of what is kept of the past, so that of an
upgrade shows at once.  And a second change within the lag pushes the first one into the past, where it is seen at once.
-/
namespace JobRunner

/-! ## Histories -/

/-- How a release stands after a change. -/
inductive Standing where
  | gone
  | there (source : String) (version : Option String)
  deriving DecidableEq, Repr

namespace Standing

/-- What the deployer should say about a release that stands so. -/
def status : Standing → ReleaseStatus
  | gone => .absent
  | there source none => .present (.ofList [("chart", source)])
  | there source (some version) => .present (.ofList [("chart", source), ("version", version)])

/-- Presence and version of the release. -/
def snapshot : Standing → Snapshot
  | gone => {}
  | there _ version => ⟨true, version⟩

def isPresent (s : Standing) : Bool := s.snapshot.isPresent

/-- The source that the change to this standing brought with it. -/
def source? : Standing → Option String
  | gone => none
  | there source _ => some source

/-- The same standing, but with another source, if there is another one. -/
def withSource : Option String → Standing → Standing
  | some source, there _ version => there source version
  | _, s => s

variable {s : Standing} {source : Option String}

theorem snapshot_withSource (source : Option String) (s : Standing) : (s.withSource source).snapshot = s.snapshot := by
  cases s <;> cases source <;> rfl

theorem withSource_none : s.withSource none = s := by
  cases s <;> rfl

end Standing

/-- What became of a release: how it stood long ago, and how each change left it, with the time of the change, newest
first. -/
structure ReleaseHistory where
  base : Standing := .gone
  changes : List (Nat × Standing) := []

namespace ReleaseHistory

variable {h : ReleaseHistory} {lag now t : Nat} {s : Standing}

/-- The history with one more change. -/
def andThen (now : Nat) (s : Standing) (h : ReleaseHistory) : ReleaseHistory := { h with changes := (now, s) :: h.changes }

/-- How the last change left the release. -/
def latest (h : ReleaseHistory) : Standing := (h.changes.head?.map Prod.snd).getD h.base

/-- How the release stood before the last change. -/
def earlier (h : ReleaseHistory) : Standing := { h with changes := h.changes.tail }.latest

/-- **How the release stood a lag ago**: as it was left by the last change that is at least so old. -/
def asOf (lag now : Nat) (h : ReleaseHistory) : Standing :=
  ((h.changes.find? fun c => c.1 + lag ≤ now).map Prod.snd).getD h.base

/-- How the deployer shows the release: as it stands when the last change is old enough, and otherwise as it stood before
that, under the source of the last change. -/
def shown (lag now : Nat) (h : ReleaseHistory) : Standing :=
  match h.changes with
  | [] => h.base
  | (t, s) :: _ => if t + lag ≤ now then s else h.earlier.withSource s.source?

/-- All changes but the last are at least a lag old. -/
def Spaced (lag now : Nat) (h : ReleaseHistory) : Prop := ∀ c ∈ h.changes.tail, c.1 + lag ≤ now

/-- The last change is not one from one source to another, or it is old enough to show. -/
def KeepsSource (lag now : Nat) (h : ReleaseHistory) : Prop :=
  (∀ old ∈ h.earlier.source?, ∀ new ∈ h.latest.source?, old = new) ∨ ∀ c ∈ h.changes.head?, c.1 + lag ≤ now

theorem earlier_andThen : (h.andThen now s).earlier = h.latest := rfl

/-- What shows has the source of the last change that brought one. -/
theorem source_shown {source : String} (hs : (h.shown lag now).source? = some source) :
    h.latest.source?.or h.earlier.source? = some source := by
  obtain ⟨base, changes⟩ := h
  cases changes with
  | nil =>
    have hs : base.source? = some source := hs
    show base.source?.or base.source? = some source
    rw [hs, Option.some_or]
  | cons c older =>
    obtain ⟨t, s⟩ := c
    unfold shown at hs
    dsimp only at hs
    show s.source?.or (latest ⟨base, older⟩).source? = some source
    split at hs
    case isTrue => rw [hs, Option.some_or]
    case isFalse =>
      have hearlier : earlier ⟨base, (t, s) :: older⟩ = latest ⟨base, older⟩ := rfl
      rw [hearlier] at hs
      cases hl : latest ⟨base, older⟩ with
      | gone =>
        rw [hl] at hs
        cases s <;> cases hs
      | there source' version =>
        rw [hl] at hs
        cases s <;> exact hs

/-- **What shows is what the history says, if all changes but the last have settled.**  The source of the release is the
exception: that of the last change shows at once. -/
theorem shown_of_spaced (h' : h.Spaced lag now) :
    (h.shown lag now).snapshot = (h.asOf lag now).snapshot ∧
      (h.KeepsSource lag now → h.shown lag now = h.asOf lag now) := by
  obtain ⟨base, changes⟩ := h
  cases changes with
  | nil => exact ⟨rfl, fun _ => rfl⟩
  | cons c older =>
    obtain ⟨t, s⟩ := c
    by_cases ht : t + lag ≤ now
    · have hshown : shown lag now ⟨base, (t, s) :: older⟩ = s := if_pos ht
      have hasOf : asOf lag now ⟨base, (t, s) :: older⟩ = s := by simp [asOf, ht]
      rw [hshown, hasOf]
      exact ⟨rfl, fun _ => rfl⟩
    · have hshown : shown lag now ⟨base, (t, s) :: older⟩ = (latest ⟨base, older⟩).withSource s.source? := if_neg ht
      have hasOf : asOf lag now ⟨base, (t, s) :: older⟩ = latest ⟨base, older⟩ := by
        cases older with
        | nil => simp [asOf, ht, latest]
        | cons c' older =>
          have hc' : c'.1 + lag ≤ now := h' c' List.mem_cons_self
          simp [asOf, ht, hc', latest]
      rw [hshown, hasOf]
      refine ⟨Standing.snapshot_withSource .., fun hkeeps => ?_⟩
      rcases hkeeps with hsame | hold
      · have hsame : ∀ old ∈ (latest ⟨base, older⟩).source?, ∀ new ∈ s.source?, old = new := hsame
        cases s with
        | gone => exact Standing.withSource_none
        | there source version =>
          cases hl : latest ⟨base, older⟩ with
          | gone => rfl
          | there old version' =>
            rw [hl] at hsame
            rw [hsame old rfl source rfl]
            rfl
      · exact absurd (hold (t, s) rfl) ht

end ReleaseHistory

/-! ## What happens to a deployer -/

namespace ReleaseChange

def key : ReleaseChange → ReleaseKey
  | install request | upgrade request => ⟨request.space, request.name⟩
  | uninstall name space _ => ⟨space, name⟩

/-- How the change leaves the release, unless it only asks whether it could be made. -/
def standing? : ReleaseChange → Option Standing
  | install request | upgrade request => some (.there request.source request.version)
  | uninstall _ _ dryRun => if dryRun then none else some .gone

end ReleaseChange

/-- What can happen to a deployer. -/
inductive DeployerEvent where
  | seed (name space : String) (version : Option String)
  | failNext (kind : CallKind) (times : UInt32)
  | setUnhealthy (reason : Option String)
  | call (c : DeployerCall)

namespace InMemoryDeployer

variable {d d' : InMemoryDeployer} {now t : Nat} {key : ReleaseKey} {H : ReleaseKey → ReleaseHistory}
  {h : ReleaseHistory} {r : Release}

/-- The deployer after a call. -/
def afterCall (now : Nat) (d : InMemoryDeployer) : DeployerCall → InMemoryDeployer
  | .health => (healthCheck now d).2
  | .change c => (client.change c now d).2
  | .status name space => (releaseStatus name space now d).2
  | .list kind space filter => (list kind space filter now d).2

/-- The deployer after an event. -/
def afterEvent (now : Nat) (d : InMemoryDeployer) : DeployerEvent → InMemoryDeployer
  | .seed name space version => d.seed name space version now
  | .failNext kind times => d.failNext kind times
  | .setUnhealthy reason => d.setUnhealthy reason
  | .call c => d.afterCall now c

/-- The histories after an event.  A change is in them when the deployer accepts it, and a seed is how the release stood
long ago. -/
def record (now : Nat) (d : InMemoryDeployer) (e : DeployerEvent) (H : ReleaseKey → ReleaseHistory) :
    ReleaseKey → ReleaseHistory :=
  match e with
  | .seed name space version => Function.update H ⟨space, name⟩ ⟨.there "seed" version, []⟩
  | .call (.change c) =>
    match (client.change c now d).1, c.standing? with
    | .ok (), some s => Function.update H c.key ((H c.key).andThen now s)
    | _, _ => H
  | _ => H

/-- A deployer and the histories of its releases after events, each at its time. -/
def replay : List (Nat × DeployerEvent) → InMemoryDeployer → (ReleaseKey → ReleaseHistory) →
    InMemoryDeployer × (ReleaseKey → ReleaseHistory)
  | [], d, H => (d, H)
  | e :: es, d, H => replay es (d.afterEvent e.1 e.2) (d.record e.1 e.2 H)

/-! ## The deployer agrees with the histories -/

/-- The deployer keeps of a release what its history says of the last change and of the time before it. -/
structure Agrees (now : Nat) (r : Release) (h : ReleaseHistory) : Prop where
  current : r.current = h.latest.snapshot
  previous : r.previous = h.earlier.snapshot
  source : ∀ source, h.latest.source?.or h.earlier.source? = some source → r.source = source
  changedAt : ∀ c ∈ h.changes.head?, r.changedAt = c.1 ∧ c.1 ≤ now

/-- A release that the deployer does not know has no history. -/
def Records (now : Nat) (h : ReleaseHistory) : Option Release → Prop
  | none => h = {}
  | some r => Agrees now r h

/-- The deployer agrees with all histories. -/
def Faithful (now : Nat) (d : InMemoryDeployer) (H : ReleaseKey → ReleaseHistory) : Prop :=
  ∀ key, Records now (H key) (d.releases.get? key)

/-- What is seen of a release behind a lag. -/
theorem Agrees.observed_eq (hr : Agrees now r h) (lag : Duration) :
    observed r lag now = (h.shown lag.nanos now).snapshot := by
  obtain ⟨base, changes⟩ := h
  unfold observed
  rw [hr.current, hr.previous]
  cases changes with
  | nil => exact ite_self _
  | cons c older =>
    obtain ⟨t, s⟩ := c
    obtain ⟨ht, hle⟩ : r.changedAt = t ∧ t ≤ now := hr.changedAt (t, s) rfl
    have hiff : lag.nanos ≤ now - r.changedAt ↔ t + lag.nanos ≤ now := by omega
    by_cases hlag : t + lag.nanos ≤ now
    · rw [if_pos (hiff.2 hlag)]
      exact congrArg Standing.snapshot (if_pos hlag).symm
    · rw [if_neg fun hc => hlag (hiff.1 hc), ← Standing.snapshot_withSource s.source?]
      exact congrArg Standing.snapshot (if_neg hlag).symm

theorem statusOf_eq {s : Standing} (h : ∀ source, s.source? = some source → r.source = source) :
    statusOf r s.snapshot = s.status := by
  cases s with
  | gone => rfl
  | there source version =>
    unfold statusOf Standing.snapshot
    rw [h source rfl]
    cases version <;> rfl

theorem Agrees.status_eq (hr : Agrees now r h) (lag : Duration) :
    statusOf r (observed r lag now) = (h.shown lag.nanos now).status := by
  rw [hr.observed_eq]
  exact statusOf_eq fun source hs => hr.source source (ReleaseHistory.source_shown hs)

theorem Agrees.mono (hr : Agrees now r h) (ht : now ≤ t) : Agrees t r h :=
  ⟨hr.current, hr.previous, hr.source, fun c hc => ⟨(hr.changedAt c hc).1, Nat.le_trans (hr.changedAt c hc).2 ht⟩⟩

theorem Faithful.mono (hd : d.Faithful now H) (ht : now ≤ t) : d.Faithful t H := by
  intro key
  have hkey := hd key
  generalize d.releases.get? key = found at hkey ⊢
  cases found with
  | none => exact hkey
  | some r => exact Agrees.mono hkey ht

/-- The deployer has the same releases and lags. -/
structure SameReleases (d d' : InMemoryDeployer) : Prop where
  releases : d'.releases = d.releases
  statusLag : d'.statusLag = d.statusLag
  resourceLag : d'.resourceLag = d.resourceLag

theorem Faithful.same (hd : d.Faithful now H) (h : d'.releases = d.releases) : d'.Faithful now H := by
  intro key
  rw [h]
  exact hd key

theorem Faithful.insert (hd : d.Faithful now H) (hreleases : d'.releases = d.releases.insert key r)
    (hr : Agrees now r h) : d'.Faithful now (Function.update H key h) := by
  intro key'
  rw [hreleases, Table.get?_insert]
  by_cases hkey : key = key'
  · subst hkey
    rw [if_pos rfl, Function.update_self]
    exact hr
  · rw [if_neg hkey, Function.update_of_ne (Ne.symm hkey)]
    exact hd key'

/-! ## One event -/

/-- A call is counted, and refused if calls of its kind are to fail. -/
theorem enter_cases (k : CallKind) (d : InMemoryDeployer) : ∃ d', SameReleases d d' ∧
    ((∃ e, d.enter k = (.error e, d')) ∧ d.failuresLeft k ≠ 0 ∨ d.enter k = (.ok (), d') ∧ d.failuresLeft k = 0) := by
  by_cases hk : d.failuresLeft k = 0
  · exact ⟨{ d with calls := d.calls.insert k (d.callCount k + 1) }, ⟨rfl, rfl, rfl⟩, .inr ⟨if_pos hk, hk⟩⟩
  · let failures := d.failures.insert k (d.failuresLeft k - 1)
    exact ⟨{ d with calls := d.calls.insert k (d.callCount k + 1), failures }, ⟨rfl, rfl, rfl⟩,
      .inl ⟨⟨_, if_neg hk⟩, hk⟩⟩

/-- A call is refused on purpose, or goes on as if it were not counted. -/
theorem counted_cases {α : Type} (k : CallKind) (f : BackendCall InMemoryDeployer α) (now : Nat) (d : InMemoryDeployer) :
    ∃ d', SameReleases d d' ∧
      ((∃ e, counted k f now d = (.error e, d')) ∧ d.failuresLeft k ≠ 0 ∨
        counted k f now d = f now d' ∧ d.failuresLeft k = 0) := by
  unfold counted
  obtain ⟨d', hsame, ⟨⟨e, heq⟩, hk⟩ | ⟨heq, hk⟩⟩ := enter_cases k d
  · rw [heq]
    exact ⟨d', hsame, .inl ⟨⟨e, rfl⟩, hk⟩⟩
  · rw [heq]
    exact ⟨d', hsame, .inr ⟨rfl, hk⟩⟩

theorem SameReleases.present? (h : SameReleases d d') (key : ReleaseKey) : d'.present? key = d.present? key := by
  unfold InMemoryDeployer.present?
  rw [h.releases]

/-- What an accepted change makes of the releases. -/
inductive Accepts (now : Nat) (d : InMemoryDeployer) : ReleaseChange → Table ReleaseKey Release → Prop where
  | installed {request : PackageRequest} (h : d.present? ⟨request.space, request.name⟩ = none) :
    Accepts now d (.install request)
      (d.releases.insert ⟨request.space, request.name⟩ ⟨request.source, {}, ⟨true, request.version⟩, now⟩)
  | upgraded {request : PackageRequest} {r : Release} (h : d.present? ⟨request.space, request.name⟩ = some r) :
    Accepts now d (.upgrade request) (d.releases.insert ⟨request.space, request.name⟩
      { changed r ⟨true, request.version⟩ now with source := request.source })
  | tried {name space : String} : Accepts now d (.uninstall name space true) d.releases
  | removed {name space : String} {r : Release} (h : d.present? ⟨space, name⟩ = some r) :
    Accepts now d (.uninstall name space false) (d.releases.insert ⟨space, name⟩ (changed r {} now))

/-- What a change answers, and what it makes of the deployer. -/
def ChangeResult (now : Nat) (d : InMemoryDeployer) (c : ReleaseChange)
    (result : Except CapabilityError Unit × InMemoryDeployer) : Prop :=
  (∃ e, result.1 = .error e) ∧ SameReleases d result.2 ∨
    result.1 = .ok () ∧ Accepts now d c result.2.releases ∧ result.2.statusLag = d.statusLag ∧
      result.2.resourceLag = d.resourceLag

/-- It is enough to look at a change behind the count of its calls. -/
theorem ChangeResult.counted {k : CallKind} {f : BackendCall InMemoryDeployer Unit} {c : ReleaseChange}
    (h : ∀ d', SameReleases d d' → ChangeResult now d c (f now d')) : ChangeResult now d c (counted k f now d) := by
  obtain ⟨d', hsame, ⟨⟨e, heq⟩, -⟩ | ⟨heq, -⟩⟩ := counted_cases k f now d
  · rw [heq]
    exact .inl ⟨⟨e, rfl⟩, hsame⟩
  · rw [heq]
    exact h d' hsame

/-- **A change is refused and leaves the releases alone, or it is accepted.** -/
theorem change_cases (c : ReleaseChange) (now : Nat) (d : InMemoryDeployer) :
    ChangeResult now d c (client.change c now d) := by
  cases c with
  | install request =>
    show ChangeResult now d _ (install request now d)
    unfold install
    refine ChangeResult.counted fun d' hsame => ?_
    dsimp only
    rw [hsame.present?]
    cases hp : d.present? ⟨request.space, request.name⟩ with
    | some r => exact .inl ⟨⟨_, rfl⟩, hsame⟩
    | none =>
      refine .inr ⟨rfl, ?_, hsame.statusLag, hsame.resourceLag⟩
      dsimp only [put]
      rw [hsame.releases]
      exact .installed hp
  | upgrade request =>
    show ChangeResult now d _ (upgrade request now d)
    unfold upgrade
    refine ChangeResult.counted fun d' hsame => ?_
    dsimp only
    rw [hsame.present?]
    cases hp : d.present? ⟨request.space, request.name⟩ with
    | none => exact .inl ⟨⟨_, rfl⟩, hsame⟩
    | some r =>
      refine .inr ⟨rfl, ?_, hsame.statusLag, hsame.resourceLag⟩
      dsimp only [put]
      rw [hsame.releases]
      exact .upgraded hp
  | uninstall name space dryRun =>
    show ChangeResult now d _ (uninstall name space dryRun now d)
    unfold uninstall
    refine ChangeResult.counted fun d' hsame => ?_
    dsimp only
    rw [hsame.present?]
    cases hp : d.present? ⟨space, name⟩ with
    | none => exact .inl ⟨⟨_, rfl⟩, hsame⟩
    | some r =>
      cases dryRun with
      | true =>
        refine .inr ⟨rfl, ?_, hsame.statusLag, hsame.resourceLag⟩
        show Accepts now d _ d'.releases
        rw [hsame.releases]
        exact .tried
      | false =>
        refine .inr ⟨rfl, ?_, hsame.statusLag, hsame.resourceLag⟩
        show Accepts now d _ (d'.releases.insert ⟨space, name⟩ _)
        rw [hsame.releases]
        exact .removed hp

/-- A release whose last change did not remove it has been there since, under its source. -/
theorem Faithful.of_present (hd : d.Faithful now H) (hp : d.present? key = some r) :
    ∃ version, (H key).latest = .there r.source version ∧ r.current = ⟨true, version⟩ := by
  unfold present? at hp
  obtain ⟨hr, hpresent⟩ := Option.filter_eq_some_iff.1 hp
  have hkey : Records now (H key) (d.releases.get? key) := hd key
  rw [hr] at hkey
  have hkey : Agrees now r (H key) := hkey
  have hcurrent := hkey.current
  cases hl : (H key).latest with
  | gone =>
    rw [hcurrent, hl] at hpresent
    cases hpresent
  | there source version =>
    have hsource : r.source = source := hkey.source source (by rw [hl]; rfl)
    rw [hl] at hcurrent
    exact ⟨version, by rw [hsource], hcurrent⟩

theorem Faithful.of_absent (hd : d.Faithful now H) (hp : d.present? key = none) : (H key).latest = .gone := by
  have hkey : Records now (H key) (d.releases.get? key) := hd key
  unfold present? at hp
  cases hr : d.releases.get? key with
  | none =>
    rw [hr] at hkey
    have hkey : H key = {} := hkey
    rw [hkey]
    rfl
  | some r =>
    rw [hr] at hkey hp
    have hkey : Agrees now r (H key) := hkey
    cases hl : (H key).latest with
    | gone => rfl
    | there source version =>
      have hcurrent := hkey.current
      rw [hl] at hcurrent
      rw [Option.filter_some, hcurrent] at hp
      cases hp

/-- An accepted change enters the history of its release. -/
theorem Faithful.accepts {c : ReleaseChange} {releases : Table ReleaseKey Release} (hd : d.Faithful now H)
    (h : Accepts now d c releases) (hreleases : d'.releases = releases) :
    d'.Faithful now (match c.standing? with
      | some s => Function.update H c.key ((H c.key).andThen now s)
      | none => H) := by
  cases h with
  | @installed request hp =>
    have hl : (H (ReleaseChange.install request).key).latest = .gone := hd.of_absent hp
    refine hd.insert hreleases ⟨rfl, ?_, ?_, ?_⟩
    · rw [ReleaseHistory.earlier_andThen, hl]
      rfl
    · intro source hs
      exact Option.some.inj hs
    · rintro c ⟨⟩
      exact ⟨rfl, Nat.le_refl _⟩
  | @upgraded request r hp =>
    obtain ⟨version, hl, hcurrent⟩ := hd.of_present hp
    have hl : (H (ReleaseChange.upgrade request).key).latest = _ := hl
    refine hd.insert hreleases ⟨rfl, ?_, ?_, ?_⟩
    · rw [ReleaseHistory.earlier_andThen, hl]
      exact hcurrent
    · intro source hs
      exact Option.some.inj hs
    · rintro c ⟨⟩
      exact ⟨rfl, Nat.le_refl _⟩
  | @removed name space r hp =>
    obtain ⟨version, hl, hcurrent⟩ := hd.of_present hp
    have hl : (H (ReleaseChange.uninstall name space false).key).latest = _ := hl
    refine hd.insert hreleases ⟨rfl, ?_, ?_, ?_⟩
    · rw [ReleaseHistory.earlier_andThen, hl]
      exact hcurrent
    · -- The release goes, and what is kept of its source is that of the time before.
      intro source hs
      rw [ReleaseHistory.earlier_andThen, hl] at hs
      exact Option.some.inj hs
    · rintro c ⟨⟩
      exact ⟨rfl, Nat.le_refl _⟩
  | tried => exact hd.same hreleases

/-- A call that only looks leaves the releases alone. -/
theorem SameReleases.of_look {α : Type} {k : CallKind} {f : BackendCall InMemoryDeployer α}
    (h : ∀ d', (f now d').2 = d') : SameReleases d (counted k f now d).2 := by
  obtain ⟨d', hsame, ⟨⟨e, heq⟩, -⟩ | ⟨heq, -⟩⟩ := counted_cases k f now d
  · rw [heq]
    exact hsame
  · rw [heq, h d']
    exact hsame

/-- **What an event does to a release, it does to the history of the release.** -/
theorem Faithful.event (hd : d.Faithful now H) (e : DeployerEvent) :
    (d.afterEvent now e).Faithful now (d.record now e H) ∧ (d.afterEvent now e).statusLag = d.statusLag ∧
      (d.afterEvent now e).resourceLag = d.resourceLag := by
  have hlook : ∀ {d'}, SameReleases d d' → d'.Faithful now H ∧ d'.statusLag = d.statusLag ∧
      d'.resourceLag = d.resourceLag := fun h => ⟨hd.same h.releases, h.statusLag, h.resourceLag⟩
  cases e with
  | seed name space version =>
    refine ⟨hd.insert rfl ⟨rfl, rfl, fun source hs => ?_, nofun⟩, rfl, rfl⟩
    exact Option.some.inj hs
  | failNext | setUnhealthy => exact hlook ⟨rfl, rfl, rfl⟩
  | call c =>
    cases c with
    | health =>
      refine hlook (SameReleases.of_look fun d' => ?_)
      cases d'.unhealthy <;> rfl
    | status name space =>
      refine hlook (SameReleases.of_look fun d' => ?_)
      cases d'.releases.get? ⟨space, name⟩ <;> rfl
    | list => exact hlook (SameReleases.of_look fun d' => rfl)
    | change c =>
      show (client.change c now d).2.Faithful now (match (client.change c now d).1, c.standing? with
        | .ok (), some s => Function.update H c.key ((H c.key).andThen now s)
        | _, _ => H) ∧ (client.change c now d).2.statusLag = _ ∧ (client.change c now d).2.resourceLag = _
      obtain ⟨⟨e, he⟩, hsame⟩ | ⟨hok, haccepts, hlags⟩ := change_cases c now d
      · rw [he]
        exact hlook hsame
      · have hnext := hd.accepts haccepts rfl
        rw [hok]
        cases hs : c.standing? with
        | none =>
          rw [hs] at hnext
          exact ⟨hnext, hlags⟩
        | some s =>
          rw [hs] at hnext
          exact ⟨hnext, hlags⟩

/-! ## All events -/

/-- The deployer agrees with the histories at any later time. -/
theorem Faithful.replay : ∀ (es : List (Nat × DeployerEvent)) {t : Nat} {d : InMemoryDeployer}
    {H : ReleaseKey → ReleaseHistory},
    d.Faithful t H → (t :: (es.map Prod.fst ++ [now])).Pairwise (· ≤ ·) →
    (replay es d H).1.Faithful now (replay es d H).2 ∧ (replay es d H).1.statusLag = d.statusLag ∧
      (replay es d H).1.resourceLag = d.resourceLag
  | [], _, _, _, hd, hclock => ⟨hd.mono (List.rel_of_pairwise_cons hclock List.mem_cons_self), rfl, rfl⟩
  | e :: es, t, d, H, hd, hclock => by
    rw [List.map_cons, List.cons_append, List.pairwise_cons] at hclock
    obtain ⟨hnext, hstatus, hresource⟩ := (hd.mono (hclock.1 e.1 List.mem_cons_self)).event e.2
    obtain ⟨hend, hstatus', hresource'⟩ := Faithful.replay es hnext hclock.2
    exact ⟨hend, hstatus'.trans hstatus, hresource'.trans hresource⟩

/-! ## What is seen -/

/-- A list of resources that is right: one for each release of the namespace that shows, if its name contains the filter,
in the order of the names. -/
structure Listing (H : ReleaseKey → ReleaseHistory) (lag now : Nat) (kind : ResourceKind) (space filter : String)
    (resources : List ResourceRef) : Prop where
  nodup : resources.Nodup
  ordered : resources.Pairwise fun a b => a.name ≤ b.name
  mem_iff : ∀ r, r ∈ resources ↔ ∃ name, r = ⟨kind, space, resourceName kind name⟩ ∧
    ((H ⟨space, name⟩).shown lag now).isPresent = true ∧ Text.contains (resourceName kind name) filter = true

variable {kind : ResourceKind} {space filter : String}

/-- No two releases leave the same resource. -/
theorem nodup_resources (now : Nat) (d : InMemoryDeployer) (kind : ResourceKind) (space filter : String) :
    (d.releases.entries.filterMap (d.resource? kind space filter now)).Nodup := by
  refine List.Pairwise.filterMap _ (fun e e' hne ref hf ref' hf' heq => ?_) (List.pairwise_map.1 d.releases.nodup)
  obtain ⟨hspace, rfl, -⟩ := resource?_eq_some.1 hf
  obtain ⟨hspace', rfl, -⟩ := resource?_eq_some.1 hf'
  exact hne (Owns.unique ⟨hspace.symm, rfl⟩ ⟨hspace'.symm, congrArg ResourceRef.name heq⟩)

theorem nodup_list {resources : List ResourceRef} (h : (list kind space filter now d).1 = .ok resources) :
    resources.Nodup := by
  rw [list_eq_ok h]
  exact (List.mergeSort_perm ..).nodup_iff.2 (nodup_resources ..)

theorem ordered_list {resources : List ResourceRef} (h : (list kind space filter now d).1 = .ok resources) :
    resources.Pairwise fun a b => a.name ≤ b.name := by
  rw [list_eq_ok h]
  refine (List.pairwise_mergeSort (fun a b c hab hbc => ?_) (fun a b => ?_) _).imp of_decide_eq_true
  · exact decide_eq_true (String.le_trans (of_decide_eq_true hab) (of_decide_eq_true hbc))
  · simpa using String.le_total a.name b.name

/-- Resources can be listed if listings are not to fail. -/
theorem exists_list (hf : d.failuresLeft .listResources = 0) (now : Nat) (kind : ResourceKind) (space filter : String) :
    ∃ resources, (list kind space filter now d).1 = .ok resources := by
  obtain ⟨d', -, ⟨-, hne⟩ | ⟨heq, -⟩⟩ := counted_cases .listResources (fun now d =>
    (.ok ((d.releases.entries.filterMap (d.resource? kind space filter now)).mergeSort fun a b => a.name ≤ b.name), d))
    now d
  · exact absurd hf hne
  · exact ⟨_, congrArg Prod.fst heq⟩

/-- A release shows its resources when its history shows it. -/
theorem Faithful.shows_iff (hd : d.Faithful now H) :
    d.Shows now key ↔ ((H key).shown d.resourceLag.nanos now).isPresent = true := by
  have hkey : Records now (H key) (d.releases.get? key) := hd key
  constructor
  · rintro ⟨release, hmem, hshown⟩
    rw [Table.get?_eq_some_iff.2 hmem] at hkey
    rw [Agrees.observed_eq hkey] at hshown
    exact hshown
  · intro hshown
    cases hr : d.releases.get? key with
    | none =>
      rw [hr] at hkey
      have hkey : H key = {} := hkey
      rw [hkey] at hshown
      cases hshown
    | some release =>
      rw [hr] at hkey
      refine ⟨release, Table.get?_eq_some_iff.1 hr, ?_⟩
      rw [Agrees.observed_eq hkey]
      exact hshown

theorem Faithful.listing (hd : d.Faithful now H) (hf : d.failuresLeft .listResources = 0) (kind : ResourceKind)
    (space filter : String) : ∃ resources, (list kind space filter now d).1 = .ok resources ∧
      Listing H d.resourceLag.nanos now kind space filter resources := by
  obtain ⟨resources, hlist⟩ := exists_list hf now kind space filter
  refine ⟨resources, hlist, nodup_list hlist, ordered_list hlist, fun r => (mem_list_iff hlist).trans ?_⟩
  exact exists_congr fun name => and_congr_right fun _ => and_congr_left fun _ => hd.shows_iff

theorem Faithful.release_status (hd : d.Faithful now H) (hf : d.failuresLeft .releaseStatus = 0) (name space : String) :
    (releaseStatus name space now d).1 = .ok ((H ⟨space, name⟩).shown d.statusLag.nanos now).status := by
  obtain ⟨d', hsame, ⟨-, hne⟩ | ⟨heq, -⟩⟩ := counted_cases .releaseStatus (fun now d =>
    match d.releases.get? ⟨space, name⟩ with
    | none => (.ok .absent, d)
    | some r => (.ok (statusOf r (observed r d.statusLag now)), d)) now d
  · exact absurd hf hne
  · refine (congrArg Prod.fst heq).trans ?_
    have hkey : Records now (H ⟨space, name⟩) (d'.releases.get? ⟨space, name⟩) := hd.same hsame.releases _
    rw [← hsame.statusLag]
    cases hr : d'.releases.get? ⟨space, name⟩ with
    | none =>
      rw [hr] at hkey
      have hkey : H ⟨space, name⟩ = {} := hkey
      rw [hkey]
      rfl
    | some r =>
      rw [hr] at hkey
      exact congrArg Except.ok (Agrees.status_eq hkey d'.statusLag)

/-- **What is seen of releases.**  Whatever happens to a deployer that has no releases at first, at times that do not go
back, and whatever its lags: a call that is not told to fail reports the status of a release, and lists the resources of
all releases, as the histories show them.  And if at most one change of a release has yet to settle, then presence and
version that are shown are those of a lag ago, and so is the source unless that change is from one source to another. -/
theorem seen_of_histories (statusLag resourceLag : Duration) (es : List (Nat × DeployerEvent)) (now : Nat)
    (hclock : (es.map Prod.fst ++ [now]).Pairwise (· ≤ ·)) :
    let d := (replay es { statusLag, resourceLag } fun _ => {}).1
    let H := (replay es { statusLag, resourceLag } fun _ => {}).2
    (d.failuresLeft .releaseStatus = 0 → ∀ name space,
      (releaseStatus name space now d).1 = .ok ((H ⟨space, name⟩).shown statusLag.nanos now).status) ∧
    (d.failuresLeft .listResources = 0 → ∀ kind space filter, ∃ resources,
      (list kind space filter now d).1 = .ok resources ∧ Listing H resourceLag.nanos now kind space filter resources) ∧
    ∀ key lag, (H key).Spaced lag now → ((H key).shown lag now).snapshot = ((H key).asOf lag now).snapshot ∧
      ((H key).KeepsSource lag now → (H key).shown lag now = (H key).asOf lag now) := by
  intro d H
  have hempty : Faithful 0 { statusLag, resourceLag } fun _ => {} := fun key => rfl
  have hclock' : (0 :: (es.map Prod.fst ++ [now])).Pairwise (· ≤ ·) :=
    List.pairwise_cons.2 ⟨fun t _ => Nat.zero_le t, hclock⟩
  obtain ⟨hd, hstatus, hresource⟩ := hempty.replay es hclock'
  refine ⟨fun hf name space => ?_, fun hf kind space filter => ?_, fun key lag => ReleaseHistory.shown_of_spaced⟩
  · have hseen := hd.release_status hf name space
    rw [hstatus] at hseen
    exact hseen
  · have hseen := hd.listing hf kind space filter
    rw [hresource] at hseen
    exact hseen

/-! ## Two rows of events -/

/-- A release that is brought to another version, and a look at it an hour later. -/
def patient : List (Nat × DeployerEvent) := [(0, .seed "redis" "cache" (some "17.0.0")),
  (5, .call (.change (.upgrade ⟨"redis", "bitnami/redis", some "18.1.0", "cache", .null⟩)))]

/-- A deployer that shows each change after an hour shows the new version then. -/
theorem seen_of_histories_sample : (patient.map Prod.fst ++ [3600000000005]).Pairwise (· ≤ ·) ∧
    (releaseStatus "redis" "cache" 3600000000005
      (replay patient { statusLag := .ofSecs 3600, resourceLag := .ofSecs 3600 } fun _ => {}).1).1 =
        .ok (Standing.there "bitnami/redis" (some "18.1.0")).status := by
  have hclock : (patient.map Prod.fst ++ [3600000000005]).Pairwise (· ≤ ·) := by decide
  refine ⟨hclock, ?_⟩
  have hseen := (seen_of_histories (.ofSecs 3600) (.ofSecs 3600) patient 3600000000005 hclock).1 (by decide)
    "redis" "cache"
  exact hseen

/-- Changes that follow each other within the lag: a release from one source to another, one that is installed and then
brought to another version, and one that is removed and then installed again. -/
def hasty : List (Nat × DeployerEvent) := [(0, .seed "redis" "cache" (some "17.0.0")),
  (1, .call (.change (.upgrade ⟨"redis", "bitnami/redis", some "18.1.0", "cache", .null⟩))),
  (2, .call (.change (.install ⟨"web", "charts/web", some "1", "cache", .null⟩))),
  (3, .call (.change (.upgrade ⟨"web", "charts/web", some "2", "cache", .null⟩))),
  (4, .seed "db" "cache" (some "1")), (5, .call (.change (.uninstall "db" "cache" false))),
  (6, .call (.change (.install ⟨"db", "charts/db", some "2", "cache", .null⟩)))]

/-- **Changes show before their time.**  A moment after these changes, and almost an hour before any of them should show:
the first release has its new source, the second one is installed and has its resources, and the third one is gone. -/
theorem hasty_changes_show : let seen := replay hasty { statusLag := .ofSecs 3600, resourceLag := .ofSecs 3600 } fun _ => {}
    let lag := (Duration.ofSecs 3600).nanos
    (hasty.map Prod.fst ++ [7]).Pairwise (· ≤ ·) ∧
    (seen.2 ⟨"cache", "redis"⟩).asOf lag 7 = .there "seed" (some "17.0.0") ∧
    (releaseStatus "redis" "cache" 7 seen.1).1 = .ok (Standing.there "bitnami/redis" (some "17.0.0")).status ∧
    (seen.2 ⟨"cache", "web"⟩).asOf lag 7 = .gone ∧
    (releaseStatus "web" "cache" 7 seen.1).1 = .ok (Standing.there "charts/web" (some "1")).status ∧
    (list .pod "cache" "web" 7 seen.1).1 = .ok [⟨.pod, "cache", "web-0"⟩] ∧
    (seen.2 ⟨"cache", "db"⟩).asOf lag 7 = .there "seed" (some "1") ∧
    (releaseStatus "db" "cache" 7 seen.1).1 = .ok Standing.gone.status := by
  refine ⟨by decide, by decide, by decide, by decide, by decide, ?_, by decide, by decide⟩
  decide +kernel

end InMemoryDeployer
end JobRunner
