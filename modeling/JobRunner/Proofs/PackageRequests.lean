import JobRunner.Proofs.Interference
import JobRunner.Proofs.LoneCalls
import JobRunner.Proofs.LoneSpawns
import JobRunner.Proofs.PackageCalls
/-!
# Package requests that fail

A request gets a client, registers a job and hands it over, in this order, so that a request that fails leaves no job
behind.  One that does not get a client has not touched the registry yet, and one that has registered its job does not
fail any more, unless somebody else takes the job away at once: a pool that is closed is written down in the record, and
a unit for which no thread can be made is run by the thread of the request before that is answered.

So what a request does is told of a thread that runs alone, in a pool and a world where all other threads may stand
anywhere.  That no job is touched before there is a client holds among other threads as well.
-/
namespace JobRunner

/-! ## What is asked of a service -/

namespace ReleaseChange

variable {γ : Type}

/-- What every job of a service bears on its label. -/
def common (operation release space : String) (conn : ConnectionConfig) : List (String × String) :=
  [("operation", operation), ("release", release), ("namespace", space), ("target", conn.target.name)]

/-- What the job of a change bears on its label. -/
def labels (conn : ConnectionConfig) : ReleaseChange → List (String × String)
  | install r => common "install" r.name r.space conn
  | upgrade r => common "upgrade" r.name r.space conn
  | uninstall name space dryRun =>
    common "uninstall" name space conn ++ [("dry_run", if dryRun then "true" else "false")]

def task (client : γ) : ReleaseChange → PackageTask γ
  | install r => .install client r
  | upgrade r => .upgrade client r
  | uninstall name space dryRun => .uninstall client name space dryRun

end ReleaseChange

/-- What lies outside, and what was answered whenever a client was to be built. -/
structure Watched (γ ω : Type) where
  outside : ω
  answers : List (ConnectionConfig × CacheAnswer γ CapabilityError) := []

namespace PackageService

open Pool (Solo Carried)
open Orchestrator (Spawned Untouched)
open ClientCache (Occupied)

variable {γ ω τ α : Type} {s : PackageService γ ω τ} {conn : ConnectionConfig}

/-- Requests a change of a release. -/
def launch (s : PackageService γ ω τ) (conn : ConnectionConfig) :
    ReleaseChange → Orchestrator.Action (ServiceEnv γ ω) τ (Except ServiceError JobId)
  | .install r => s.install conn r
  | .upgrade r => s.upgrade conn r
  | .uninstall name space dryRun => s.uninstall conn name space dryRun

theorem launch_eq (c : ReleaseChange) :
    s.launch conn c = s.request conn (.ofList (c.labels conn)) fun client => c.task client := by
  cases c with
  | _ => rfl

/-- The service, of which it is watched how its builder answers. -/
def watched (s : PackageService γ ω τ) : PackageService γ (Watched γ ω) τ where
  config := s.config
  connect conn now w := let r := s.connect conn now w.outside; (r.1, ⟨r.2, w.answers ++ [(conn, r.1)]⟩)
  deployer client := .ofPart (·.outside) (fun outside w => { w with outside }) (s.deployer client)
  task := s.task

/-! ## A client for a request -/

variable {w w' v : World (ServiceEnv γ (Watched γ ω))} {ending : Routine.Ending (Except CapabilityError γ)}
  {ending' : Routine.Ending (Except ServiceError α)}

/-- The answer to whoever asks for the client of a connection to something else. -/
def wrongTarget (conn : ConnectionConfig) : CapabilityError :=
  .rejected (conn.target.name ++ " connection cannot deploy packages")

/-- What comes of asking for the client of a connection. -/
inductive Contact (s : PackageService γ ω τ) (conn : ConnectionConfig) (w w' : World (ServiceEnv γ (Watched γ ω))) :
    Routine.Ending (Except CapabilityError γ) → Prop where
  | elsewhere (h : conn.target ≠ .packages) (hw : w' = w) : Contact s conn w w' (.returned (.error (wrongTarget conn)))
  | fetched {ending : Routine.Ending (Except CapabilityError γ)} (h : conn.target = .packages)
    (hf : Fetched (.ofConnection conn) (s.watched.connect conn) w w' ending) : Contact s conn w w' ending

theorem performs_client {S : Interface} (s : PackageService γ ω τ) (conn : ConnectionConfig)
    (w : World (ServiceEnv γ (Watched γ ω))) : ∃ ending w', Contact s conn w w' ending ∧
      (s.watched.client conn : World.Action (ServiceEnv γ (Watched γ ω)) S _).Performs w ending w' := by
  unfold client
  by_cases h : conn.target = .packages
  · rw [if_pos h]
    obtain ⟨ending, w', hf, hperform⟩ :=
      performs_getOrCreate (S := S) (.ofConnection conn) (s.watched.connect conn) w
    exact ⟨ending, w', .fetched h hf, hperform⟩
  · rw [if_neg h]
    exact ⟨_, w, .elsewhere h rfl, .done ..⟩

/-- What a request leaves in the cache, and how the builder is asked. -/
structure Contacts (s : PackageService γ ω τ) (conn : ConnectionConfig) (w w' : World (ServiceEnv γ (Watched γ ω)))
    (ending : Routine.Ending (Except ServiceError α)) : Prop where
  /-- A connection to something else is refused without a look at the cache. -/
  elsewhere : conn.target ≠ .packages → ending = .returned (.error (.client (wrongTarget conn))) ∧ w' = w
  /-- The builder is asked once at most. -/
  asked : w'.env.outside.answers = w.env.outside.answers ∨ ∃ now, w'.env.outside.answers =
    w.env.outside.answers ++ [(conn, (s.connect conn now w.env.outside.outside).1)]
  /-- It is asked unless a client is there or somebody else is at the gate. -/
  unasked : conn.target = .packages → w'.env.outside.answers = w.env.outside.answers →
    (∃ e, w.env.cache.store.entries.get? (.ofConnection conn) = some e) ∨ ending = .stuck
  /-- If it fails, so does the request, and nothing is kept for the connection. -/
  failed : ∀ e, w'.env.outside.answers = w.env.outside.answers ++ [(conn, .failed e)] →
    ending = .returned (.error (.client e)) ∧
      ClientStore.Lacks (.ofConnection conn) w.env.cache.store w'.env.cache.store
  crashed : ending = .crashed → w'.env.outside.answers = w.env.outside.answers ++ [(conn, .crashed)]
  stuck : ending = .stuck → Occupied (.ofConnection conn) w.env.cache

/-- What a request makes of what has come of its client; with a client it goes on, but touches neither the cache nor the
builder. -/
inductive Follows (w' : World (ServiceEnv γ (Watched γ ω))) : World (ServiceEnv γ (Watched γ ω)) →
    Routine.Ending (Except CapabilityError γ) → Routine.Ending (Except ServiceError α) → Prop where
  | ok {v : World (ServiceEnv γ (Watched γ ω))} (client : γ) (r : Except ServiceError α)
    (ha : v.env.outside.answers = w'.env.outside.answers) : Follows w' v (.returned (.ok client)) (.returned r)
  | error (e : CapabilityError) : Follows w' w' (.returned (.error e)) (.returned (.error (.client e)))
  | crashed : Follows w' w' .crashed .crashed
  | stuck : Follows w' w' .stuck .stuck

/-- The builder of a watched service says what it says, and it is written down. -/
theorem answers_of_connect {now : Nat} {b b' : Watched γ ω} {answer : CacheAnswer γ CapabilityError}
    (h : s.watched.connect conn now b = (answer, b')) :
    b'.answers = b.answers ++ [(conn, answer)] ∧ answer = (s.connect conn now b.outside).1 := by
  cases h
  exact ⟨rfl, rfl⟩

theorem contacts_unasked (ht : conn.target = .packages) (ha : w'.env.outside.answers = w.env.outside.answers)
    (hc : (∃ e, w.env.cache.store.entries.get? (.ofConnection conn) = some e) ∨ ending' = .stuck)
    (hcrash : ending' ≠ .crashed) (hs : ending' = .stuck → Occupied (.ofConnection conn) w.env.cache) :
    Contacts s conn w w' ending' := by
  refine ⟨fun h => absurd ht h, .inl ha, fun _ _ => hc, fun e he => ?_, fun h => absurd h hcrash, hs⟩
  rw [ha] at he
  exact absurd (List.self_eq_append_right.1 he) (List.cons_ne_nil _ _)

theorem contacts_asked {now : Nat} {answer : CacheAnswer γ CapabilityError} (ht : conn.target = .packages)
    (ha : w'.env.outside.answers = w.env.outside.answers ++ [(conn, answer)])
    (hb : answer = (s.connect conn now w.env.outside.outside).1)
    (hf : ∀ e, answer = .failed e → ending' = .returned (.error (.client e)) ∧
      ClientStore.Lacks (.ofConnection conn) w.env.cache.store w'.env.cache.store)
    (hcrash : ending' = .crashed → answer = .crashed) (hs : ending' ≠ .stuck) : Contacts s conn w w' ending' := by
  refine ⟨fun h => absurd ht h, .inr ⟨now, hb ▸ ha⟩, fun _ h => ?_, fun e h => hf e ?_, fun h => hcrash h ▸ ha,
    fun h => absurd h hs⟩
  · rw [ha] at h
    exact absurd (List.self_eq_append_right.1 h.symm) (List.cons_ne_nil _ _)
  · rw [ha] at h
    exact (Prod.mk.inj (List.cons.inj (List.append_cancel_left h)).1).2

/-- **What a request leaves in the cache follows from what has come of its client.** -/
theorem Contact.contacts (h : Contact s conn w w' ending) (hf : Follows w' v ending ending') :
    Contacts s conn w v ending' := by
  cases h with
  | elsewhere h hw =>
    subst hw
    cases hf with
    | error e =>
      refine ⟨fun _ => ⟨rfl, rfl⟩, .inl rfl, fun ht => absurd ht h, fun e he => ?_, nofun, nofun⟩
      exact absurd (List.self_eq_append_right.1 he) (List.cons_ne_nil _ _)
  | fetched h hfetched =>
    cases hfetched with
    | found client hw hentry =>
      cases hf with
      | ok _ r ha => exact contacts_unasked h (ha.trans (congrArg _ hw.outside)) (.inl hentry) nofun nofun
    | waiting hw hheld =>
      cases hf with
      | stuck => exact contacts_unasked h (congrArg _ hw.outside) (.inr rfl) nofun fun _ => hheld
    | built client now hr hb =>
      obtain ⟨hgrown, hanswer⟩ := answers_of_connect hb
      cases hf with
      | ok _ r ha => exact contacts_asked h (ha.trans hgrown) hanswer (fun _ he => by cases he) nofun nofun
    | failed e now hr hb hs =>
      obtain ⟨hgrown, hanswer⟩ := answers_of_connect hb
      cases hf with
      | error =>
        refine contacts_asked h hgrown hanswer (fun _ he => ?_) nofun nofun
        cases he
        exact ⟨rfl, hs⟩
    | crashed now hr hb =>
      obtain ⟨hgrown, hanswer⟩ := answers_of_connect hb
      cases hf with
      | crashed => exact contacts_asked h hgrown hanswer (fun _ he => by cases he) (fun _ => rfl) nofun

theorem Contact.registry (h : Contact s conn w w' ending) : w'.registry = w.registry := by
  cases h with
  | elsewhere h hw => rw [hw]
  | fetched h hf => exact hf.registry

/-- A client is denied to a connection to something else, and to one for which none could be built. -/
theorem Contact.denied {e : CapabilityError} (h : Contact s conn w w' (.returned (.error e))) :
    conn.target ≠ .packages ∨ w'.env.outside.answers = w.env.outside.answers ++ [(conn, .failed e)] := by
  cases h with
  | elsewhere h => exact .inl h
  | fetched h hf =>
    cases hf with
    | failed _ now hr hb => exact .inr (answers_of_connect hb).1

/-! ## Requests alone -/

variable {p q : Pool (World (ServiceEnv γ (Watched γ ω))) (Job τ)} {id : Pool.ThreadId} {ticket : Option Nat}
  {es : List (Pool.Event (Job τ))} {next : Except ServiceError α → Orchestrator.Action (ServiceEnv γ (Watched γ ω)) τ Unit}

/-- What a request does to clients, and that it does nothing to jobs unless it is granted. -/
structure Handled (s : PackageService γ ω τ) (conn : ConnectionConfig)
    (p q : Pool (World (ServiceEnv γ (Watched γ ω))) (Job τ)) (ending : Routine.Ending (Except ServiceError α))
    (es : List (Pool.Event (Job τ))) : Prop where
  contacts : Contacts s conn p.shared q.shared ending
  refused : (∀ a, ending ≠ .returned (.ok a)) → es = [] ∧ Untouched p q

/-- What a request does with what has come of its client. -/
def withClient (next : Except ServiceError α → Orchestrator.Action (ServiceEnv γ (Watched γ ω)) τ Unit)
    (use : γ → Orchestrator.Action (ServiceEnv γ (Watched γ ω)) τ Unit) :
    Except CapabilityError γ → Orchestrator.Action (ServiceEnv γ (Watched γ ω)) τ Unit
  | .ok client => use client
  | .error e => next (.error (.client e))

/-- A request did not get its client: it was denied, or never came. -/
def Clientless (conn : ConnectionConfig) (w w' : World (ServiceEnv γ (Watched γ ω)))
    (ending : Routine.Ending (Except ServiceError α)) : Prop :=
  (∃ e, ending = .returned (.error (.client e)) ∧ (conn.target ≠ .packages ∨
    w'.env.outside.answers = w.env.outside.answers ++ [(conn, .failed e)])) ∨ ending = .crashed ∨ ending = .stuck

theorem Clientless.ne_ok (h : Clientless conn w w' ending') (a : α) : ending' ≠ .returned (.ok a) := by
  rintro rfl
  obtain ⟨_, ⟨⟩, -⟩ | ⟨⟨⟩⟩ | ⟨⟨⟩⟩ := h

/-- **A request without a client is over**, and no job was touched. -/
theorem solo_client {use : γ → Orchestrator.Action (ServiceEnv γ (Watched γ ω)) τ Unit} (hno : p.isHosting id = false)
    (hp : p.threads.get? id =
      some { ticket, phase := .running ((s.watched.client conn).bind (withClient next use)) }) :
    (∃ client u, Solo id p [] u ∧ u.threads.get? id = some { ticket, phase := .running (use client) } ∧
      u.isHosting id = false ∧ Contact s conn p.shared u.shared (.returned (.ok client)) ∧ Untouched p u) ∨
    ∃ ending q, Carried p id ticket next ending [] q ∧ Handled s conn p q ending [] ∧
      Clientless conn p.shared q.shared ending := by
  obtain ⟨ending, w', hcontact, hperform⟩ := performs_client s conn p.shared
  obtain ⟨code, hcode, hsolo⟩ := Pool.solo_of_performs hno hp hperform
  have halone : ∀ {code}, (p.doing id ticket code w').isHosting id = false := Pool.isHosting_doing hno hp
  have huntouched : Untouched p (p.doing id ticket code w') := Orchestrator.untouched_doing hcontact.registry
  cases hcode with
  | returned r =>
    cases r with
    | ok client => exact .inl ⟨client, _, hsolo, Pool.get?_doing, halone, hcontact, huntouched⟩
    | error e =>
      exact .inr ⟨_, _, .of_alone hsolo ⟨_, .returned _, Pool.get?_doing⟩ halone,
        ⟨hcontact.contacts (.error e), fun _ => ⟨rfl, huntouched⟩⟩, .inl ⟨e, rfl, hcontact.denied⟩⟩
  | crashed =>
    exact .inr ⟨_, _, .of_alone hsolo ⟨_, .crashed, Pool.get?_doing⟩ halone,
      ⟨hcontact.contacts .crashed, fun _ => ⟨rfl, huntouched⟩⟩, .inr (.inl rfl)⟩
  | stuck act rest hready =>
    exact .inr ⟨_, _, .of_alone hsolo ⟨_, .stuck act rest hready, Pool.get?_doing⟩ halone,
      ⟨hcontact.contacts .stuck, fun _ => ⟨rfl, huntouched⟩⟩, .inr (.inr rfl)⟩

/-- A granted request for a change has filed one job, labelled after the request, and handed it over.  The job is pending, as
its unit has not begun, be it that a worker or a thread of its own will run it, or the one that made the request. -/
structure Granted (s : PackageService γ ω τ) (conn : ConnectionConfig) (c : ReleaseChange)
    (p q : Pool (World (ServiceEnv γ (Watched γ ω))) (Job τ)) (es : List (Pool.Event (Job τ))) (x : JobId)
    (a : Submission) : Prop where
  free : p.shared.registry.get? x = none
  record : ∃ r, q.shared.registry = ⟨p.shared.registry.jobs.insert x r⟩ ∧ r.id = x ∧
    r.metadata = .ofList (c.labels conn) ∧ (a ≠ .rejected → r.status = .pending) ∧
    (a = .rejected → r.status = .failed ∧ r.error = some Orchestrator.rejectedMessage)
  submitted : ∃ client, es = [.submitted ⟨p.submissions, ⟨⟨x, s.config.retry, s.config.poll⟩, s.task (c.task client)⟩⟩,
    .answered p.submissions a]
  closed : p.isClosed = true → a = .rejected
  isOpen : p.isOpen = true → p.isClosed = false → a ≠ .rejected

/-- What a request for a change does. -/
structure Launched (s : PackageService γ ω τ) (conn : ConnectionConfig) (c : ReleaseChange)
    (p q : Pool (World (ServiceEnv γ (Watched γ ω))) (Job τ)) (ending : Routine.Ending (Except ServiceError JobId))
    (es : List (Pool.Event (Job τ))) : Prop extends Handled s conn p q ending es where
  granted : ∀ x, ending = .returned (.ok x) → ∃ a, Granted s conn c p q es x a
  /-- It is refused only if it has no client, or if the identifier that was made for the job is taken. -/
  denied : (∀ x, ending ≠ .returned (.ok x)) → Clientless conn p.shared q.shared ending ∨
    ∃ x r, ending = .returned (.error (.job (.alreadyExists x))) ∧ p.shared.registry.get? x = some r

theorem request_bind {metadata : Labels} {task : γ → PackageTask γ}
    (next : Except ServiceError JobId → Orchestrator.Action (ServiceEnv γ (Watched γ ω)) τ Unit) :
    (s.watched.request conn metadata task).bind next = (s.watched.client conn).bind (withClient next fun client =>
      (Orchestrator.spawn s.config none metadata (s.task (task client))).bind fun r => next (r.mapError .job)) := by
  refine (Routine.bind_assoc ..).trans (congrArg _ (funext fun r => ?_))
  cases r with
  | error e => rfl
  | ok client => exact Routine.bind_assoc ..

theorem healthCheck_bind (next : Except ServiceError Unit → Orchestrator.Action (ServiceEnv γ (Watched γ ω)) τ Unit) :
    (s.watched.healthCheck conn).bind next = (s.watched.client conn).bind (withClient next fun client =>
      (World.withEnv (clientOf s.watched.deployer client).healthCheck).bind fun r => next (r.mapError .client)) := by
  refine (Routine.bind_assoc ..).trans (congrArg _ (funext fun r => ?_))
  cases r with
  | error e => rfl
  | ok client => exact Routine.bind_assoc ..

theorem solo_healthCheck {next : Except ServiceError Unit → Orchestrator.Action (ServiceEnv γ (Watched γ ω)) τ Unit}
    (hno : p.isHosting id = false)
    (hp : p.threads.get? id = some { ticket, phase := .running ((s.watched.healthCheck conn).bind next) }) :
    ∃ ending q, Carried p id ticket next ending [] q ∧ Handled s conn p q ending [] ∧ Untouched p q := by
  rw [healthCheck_bind] at hp
  obtain ⟨client, u, hsolo, hu, halone, hcontact, huntouched⟩ | ⟨ending, q, hcarried, hhandled, hne⟩ := solo_client hno hp
  · let asked := World.onEnv (clientOf s.watched.deployer client).healthCheck u.shared
    have hask : (World.withEnv (clientOf s.watched.deployer client).healthCheck :
        Orchestrator.Action (ServiceEnv γ (Watched γ ω)) τ _).Performs u.shared (.returned asked.1) asked.2 :=
      Routine.performs_atomically ..
    have huntouched' : Untouched p (u.doing id ticket (next (asked.1.mapError .client)) asked.2) :=
      huntouched.trans (Orchestrator.untouched_doing rfl)
    exact ⟨_, _, .of_alone (hsolo.trans (Pool.solo_of_returned halone hu hask)) ⟨_, .returned _, Pool.get?_doing⟩
        (Pool.isHosting_doing halone hu),
      ⟨hcontact.contacts (.ok client _ rfl), fun _ => ⟨rfl, huntouched'⟩⟩, huntouched'⟩
  · exact ⟨ending, q, hcarried, hhandled, (hhandled.refused hne.ne_ok).2⟩

theorem solo_launch {c : ReleaseChange}
    {next : Except ServiceError JobId → Orchestrator.Action (ServiceEnv γ (Watched γ ω)) τ Unit}
    (hno : p.isHosting id = false)
    (hp : p.threads.get? id = some { ticket, phase := .running ((s.watched.launch conn c).bind next) }) :
    ∃ ending es q, Carried p id ticket next ending es q ∧ Launched s conn c p q ending es := by
  rw [launch_eq, request_bind] at hp
  obtain ⟨client, u, hsolo, hu, halone, hcontact, huntouched⟩ | ⟨ending, q, hcarried, hhandled, hne⟩ := solo_client hno hp
  · obtain ⟨result, es, q, hcarried, henv, hspawned⟩ := Orchestrator.solo_spawn halone hu
    have hcontacts : Contacts s conn p.shared q.shared (.returned (result.mapError ServiceError.job)) :=
      hcontact.contacts (.ok client _ (congrArg (·.outside.answers) henv))
    obtain ⟨code, ⟨⟩, hthread⟩ := hcarried.thread
    refine ⟨_, es, q, Carried.after hsolo ⟨hcarried.run, ⟨_, .returned _, hthread⟩, hcarried.lodger⟩, ?_⟩
    cases huntouched.spawned hspawned with
    | taken hr hq => exact ⟨⟨hcontacts, fun _ => ⟨rfl, hq⟩⟩, nofun, fun _ => .inr ⟨_, _, rfl, hr⟩⟩
    | @filed x a r hfree hr hf hc ho =>
      refine ⟨⟨hcontacts, fun hne => absurd rfl (hne x)⟩, fun y hy => ?_, fun hne => absurd rfl (hne x)⟩
      cases hy
      refine ⟨a, hfree, ⟨r, hr, ?_⟩, ⟨client, rfl⟩, hc, ho⟩
      cases hf with
      | accepted now h => exact ⟨rfl, rfl, fun _ => rfl, fun ha => absurd ha h⟩
      | turnedAway now later => exact ⟨rfl, rfl, fun ha => absurd rfl ha, fun _ => ⟨rfl, rfl⟩⟩
  · exact ⟨ending, [], q, hcarried, ⟨hhandled, fun x hx => absurd hx (hne.ne_ok x), fun _ => .inl hne⟩⟩

/-! ## Requests among others -/

variable {S : Interface} {Q : S.Request → Prop}

/-- The step leaves the registry as it is. -/
def SparesJobs {ε : Type} (w w' : World ε) : Prop := w'.registry = w.registry

theorem does_withEnv {ε : Type} (f : Nat → ε → α × ε) : (World.withEnv f : World.Action ε S α).Does SparesJobs Q :=
  Routine.does_atomically fun _ => rfl

theorem does_callStep (n : Nat) : (callStep n : World.Action (ServiceEnv γ ω) S Unit).Does SparesJobs Q :=
  .step (fun _ => rfl) fun _ => .done ()

theorem does_goOn (n : Nat) : ∀ fuel,
    (goOn n fuel : World.Action (ServiceEnv γ ω) S Unit).Does SparesJobs Q
  | 0 => .done ()
  | fuel + 1 => by
    rw [goOn_succ]
    refine (does_withEnv _).bind fun settled => ?_
    split
    · exact .done ()
    · exact (does_callStep n).bind fun _ => does_goOn n fuel

theorem does_conclude (n : Nat) :
    (conclude n : World.Action (ServiceEnv γ ω) S (Except CapabilityError γ)).Does SparesJobs Q := by
  refine (does_withEnv _).bind fun answer => ?_
  split
  · exact .done _
  · exact .done _
  · exact .crash

theorem does_construct (n : Nat) (build : Nat → ω → CacheAnswer γ CapabilityError × ω) :
    (construct n build : World.Action (ServiceEnv γ ω) S Unit).Does SparesJobs Q :=
  (does_withEnv _).bind fun _ => (does_withEnv _).bind fun _ => does_goOn n _

theorem does_wrapUp (n : Nat) (build : Nat → ω → CacheAnswer γ CapabilityError × ω) :
    (wrapUp n build : World.Action (ServiceEnv γ ω) S (Except CapabilityError γ)).Does SparesJobs Q := by
  refine (does_withEnv _).bind fun building => ?_
  split
  · exact (does_construct n _).bind fun _ => does_conclude n
  · exact does_conclude n

/-- Whatever others do meanwhile, getting a client does nothing to jobs. -/
theorem does_client (s : PackageService γ ω τ) (conn : ConnectionConfig) :
    (s.client conn : World.Action (ServiceEnv γ ω) S _).Does SparesJobs Q := by
  unfold client
  split
  · rw [getOrCreate_eq]
    exact (does_withEnv _).bind fun n => (does_goOn n _).bind fun _ => does_wrapUp n _
  · exact .done _

theorem does_healthCheck (s : PackageService γ ω τ) (conn : ConnectionConfig) :
    (s.healthCheck conn : World.Action (ServiceEnv γ ω) S _).Does SparesJobs Q := by
  refine (does_client s conn).bind fun r => ?_
  cases r with
  | error e => exact .done _
  | ok client => exact (does_withEnv _).bind fun _ => .done _

/-- What holds of requests whatever other threads do meanwhile: they touch no job and ask nothing of the pool before they
have a client, and they are over if they do not get one. -/
structure Guarded (s : PackageService γ ω τ) (conn : ConnectionConfig) : Prop where
  client : (s.client conn : Orchestrator.Action (ServiceEnv γ ω) τ _).Does SparesJobs fun _ => False
  launch : ∀ c, ∃ use, s.launch conn c = (s.client conn).bind use ∧ ∀ e, use (.error e) = .done (.error (.client e))
  healthCheck : (s.healthCheck conn : Orchestrator.Action (ServiceEnv γ ω) τ _).Does SparesJobs fun _ => False

theorem guarded (s : PackageService γ ω τ) (conn : ConnectionConfig) : s.Guarded conn where
  client := does_client s conn
  launch c := by
    rw [launch_eq]
    exact ⟨_, rfl, fun _ => rfl⟩
  healthCheck := does_healthCheck s conn

/-- **Requests fail as a whole.**  A request alone, in whatever state of the jobs, the pool and the cache, either is
granted or leaves all jobs and the pool as they are.  Whether it is granted follows from the connection, the cache and
the builder: a connection to something else is refused without a look at either; if the builder fails, then so does the
request, and the cache has no client for the connection and is otherwise as it was.  A request that is granted has added
one job, which is labelled after it, even if the pool is closed.  Its thread goes on at once, unless no thread could be
made for the unit of the job; then it runs that first, and stays where it is until that has ended. -/
theorem requests_fail_atomically (s : PackageService γ ω τ) (conn : ConnectionConfig)
    (p : Pool (World (ServiceEnv γ (Watched γ ω))) (Job τ)) (id : Pool.ThreadId) (ticket : Option Nat)
    (hno : p.isHosting id = false) :
    (∀ c next,
      p.threads.get? id = some { ticket, phase := .running ((s.watched.launch conn c).bind next) } →
      ∃ ending es q, Carried p id ticket next ending es q ∧ Launched s conn c p q ending es) ∧
    (∀ next,
      p.threads.get? id = some { ticket, phase := .running ((s.watched.healthCheck conn).bind next) } →
      ∃ ending q, Carried p id ticket next ending [] q ∧ Handled s conn p q ending [] ∧ Untouched p q) ∧
    s.Guarded conn :=
  ⟨fun _ _ => solo_launch hno, fun _ => solo_healthCheck hno, guarded s conn⟩

/-! ### A deployer that is not there, and a pool that is closed -/

/-- Where nothing is kept and nobody is at a gate, the builder is asked. -/
theorem Contacts.asked_of_empty (h : Contacts s conn w w' ending') (ht : conn.target = .packages)
    (he : w.env.cache.store.entries = .empty) (hl : w.env.cache.listed = .empty) : ∃ now, w'.env.outside.answers =
      w.env.outside.answers ++ [(conn, (s.connect conn now w.env.outside.outside).1)] := by
  refine h.asked.resolve_left fun hsame => ?_
  rcases h.unasked ht hsame with ⟨e, hentry⟩ | hstuck
  · rw [he] at hentry
    cases hentry
  · obtain ⟨g, m, hlisted, -⟩ := h.stuck hstuck
    rw [hl] at hlisted
    cases hlisted

/-- A service whose builder always gives the same answer, and whose deployer does nothing. -/
def answering (answer : CacheAnswer Unit CapabilityError) : PackageService Unit Unit (PackageTask Unit) where
  config := {}
  connect _ _ b := (answer, b)
  deployer _ :=
    { healthCheck := fun _ b => (.ok (), b)
      releaseStatus := fun _ _ _ b => (.ok .absent, b)
      install := fun _ _ b => (.ok (), b)
      upgrade := fun _ _ b => (.ok (), b)
      uninstall := fun _ _ _ _ b => (.ok (), b)
      list := fun _ _ _ _ b => (.ok [], b) }
  task t := t

/-- A caller requests a change; nothing has happened before, but the pool may be closed. -/
def requesting (answer : CacheAnswer Unit CapabilityError) (conn : ConnectionConfig) (c : ReleaseChange) (isOpen : Bool) :
    Pool (World (ServiceEnv Unit (Watched Unit Unit))) (Job (PackageTask Unit)) :=
  { (Pool.start "sample" 1 (fun _ => .done ()) { env := { cache := .ofConfig {}, outside := { outside := () } } }).call
      (((answering answer).watched.launch conn c).bind fun _ => .done ()) with isOpen, isClosed := !isOpen }

/-- A release is not removed by a deployer that is not there, of which no job remains; and one that is to be removed by a
pool that is closed is a job that failed. -/
theorem requests_fail_atomically_sample :
    let conn : ConnectionConfig := { target := .packages, endpoint := "https://packages" }
    let c : ReleaseChange := .uninstall "redis" "cache" true
    let gone : CapabilityError := .unavailable "no route"
    let rest : Except ServiceError JobId → Orchestrator.Action _ (PackageTask Unit) Unit := fun _ => .done ()
    (∃ q, Carried (requesting (.failed gone) conn c true) (.caller 0) none rest (.returned (.error (.client gone))) [] q ∧
      q.shared.registry.jobs = .empty) ∧
    ∃ x es q r, Carried (requesting (.client ()) conn c false) (.caller 0) none rest (.returned (.ok x)) es q ∧
      q.shared.registry.get? x = some r ∧ r.metadata.get? "dry_run" = some "true" ∧ r.status = .failed := by
  intro conn c gone rest
  constructor
  · obtain ⟨hlaunch, -, -⟩ := requests_fail_atomically (answering (.failed gone)) conn
      (requesting (.failed gone) conn c true) (.caller 0) none rfl
    obtain ⟨ending, es, q, hcarried, hlaunched⟩ := hlaunch c rest rfl
    obtain ⟨now, hasked⟩ := hlaunched.contacts.asked_of_empty rfl rfl rfl
    obtain ⟨rfl, -⟩ := hlaunched.contacts.failed gone hasked
    obtain ⟨rfl, huntouched⟩ := hlaunched.refused nofun
    exact ⟨q, hcarried, congrArg Registry.jobs huntouched.registry⟩
  · obtain ⟨hlaunch, -, -⟩ := requests_fail_atomically (answering (.client ())) conn
      (requesting (.client ()) conn c false) (.caller 0) none rfl
    obtain ⟨ending, es, q, hcarried, hlaunched⟩ := hlaunch c rest rfl
    obtain ⟨now, hasked⟩ := hlaunched.contacts.asked_of_empty rfl rfl rfl
    obtain ⟨x, rfl⟩ : ∃ x, ending = .returned (.ok x) := by
      by_contra hne
      rcases hlaunched.denied fun x hx => hne ⟨x, hx⟩ with (⟨e, -, ht | hfailed⟩ | hcrashed | hstuck) | ⟨x, r, -, hr⟩
      · exact ht rfl
      · rw [hasked] at hfailed
        cases hfailed
      · have hcrash := hlaunched.contacts.crashed hcrashed
        rw [hasked] at hcrash
        cases hcrash
      · obtain ⟨g, m, hlisted, -⟩ := hlaunched.contacts.stuck hstuck
        cases hlisted
      · cases hr
    obtain ⟨a, hgranted⟩ := hlaunched.granted x rfl
    obtain ⟨r, hr, -, hlabels, -, hfailed⟩ := hgranted.record
    refine ⟨x, es, q, r, hcarried, ?_, ?_, (hfailed (hgranted.closed rfl)).1⟩
    · rw [hr]
      exact Table.get?_insert_self ..
    · rw [hlabels]
      decide +kernel

end PackageService
end JobRunner
