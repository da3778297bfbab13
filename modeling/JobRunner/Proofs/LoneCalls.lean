import JobRunner.Package.Service
import JobRunner.Proofs.CacheRun
import JobRunner.Proofs.LoneThreads
/-!
# A call for a client that runs alone

What comes of one call for a client while all other calls stand still, in a cache in which they may stand anywhere.  The
call finds a client, or waits for its turn at a gate that was taken before it came, or asks its builder.  If the builder
fails, nothing is kept under the key, and nothing else was touched.
-/
namespace JobRunner

/-! ## Stores -/

namespace ClientStore

variable {γ : Type} {s s' : ClientStore γ} {key : CacheKey} {now : Nat}

/-- There is no client under the key, and everything under other keys is as it was. -/
structure Lacks (key : CacheKey) (s s' : ClientStore γ) : Prop where
  absent : s'.entries.get? key = none
  others : ∀ k, k ≠ key → s'.entries.get? k = s.entries.get? k

/-- A client that is not found is not there any more. -/
theorem lacks_lookup (h : (s.lookup key now).1 = none) : Lacks key s (s.lookup key now).2 := by
  unfold lookup at h ⊢
  cases he : s.entries.get? key with
  | none => exact ⟨he, fun _ _ => rfl⟩
  | some e =>
    rw [he] at h
    dsimp only at h ⊢
    by_cases hx : s.isExpired now e = true
    · rw [if_pos hx]
      refine ⟨?_, fun k hk => ?_⟩
      · rw [Table.get?_erase, if_pos rfl]
      · rw [Table.get?_erase, if_neg (Ne.symm hk)]
    · rw [if_neg hx] at h
      cases h

/-- A client that is found was there. -/
theorem get?_of_lookup {client : γ} (h : (s.lookup key now).1 = some client) : ∃ e, s.entries.get? key = some e := by
  unfold lookup at h
  cases he : s.entries.get? key with
  | none =>
    rw [he] at h
    cases h
  | some e => exact ⟨e, rfl⟩

theorem lookup_of_get?_eq_none (h : s.entries.get? key = none) : s.lookup key now = (none, s) := by
  rw [lookup, h]

end ClientStore

/-! ## Calls -/

/-- A call at this stage goes no further without its builder. -/
def CacheStage.isSettled {γ ε : Type} : CacheStage γ ε → Bool
  | .building _ _ | .returned _ => true
  | _ => false

namespace ClientCache

variable {γ ε : Type} {c d : ClientCache γ ε} {n g epoch fuel : Nat} {key : CacheKey} {stage : CacheStage γ ε}
  {answer : CacheAnswer γ ε} {client : γ} {Q Q' : ClientCache γ ε → Prop} {W : Prop}

/-- The call goes no further without its builder. -/
def isSettled (n : Nat) (c : ClientCache γ ε) : Bool := c.isBuilding n || (c.answer? n).isSome

/-- However late it is, so many steps of a call lead to what `Q` says, or it has to wait, and then `W` holds. -/
inductive Leads (n : Nat) (Q : ClientCache γ ε → Prop) (W : Prop) : Nat → ClientCache γ ε → Prop where
  | stop {fuel : Nat} {c : ClientCache γ ε} (h : c.isSettled n = true) (hq : Q c) : Leads n Q W (fuel + 1) c
  | next {fuel : Nat} {c : ClientCache γ ε} (after : Nat → ClientCache γ ε) (h : c.isSettled n = false)
    (hs : ∀ now, c.step n now = some (after now)) (hn : ∀ now, Leads n Q W fuel (after now)) : Leads n Q W (fuel + 1) c
  | wait {fuel : Nat} {c : ClientCache γ ε} (h : c.isSettled n = false) (hs : ∀ now, c.step n now = none) (hw : W) :
    Leads n Q W (fuel + 1) c

theorem Leads.mono (h : Leads n Q W fuel c) (hQ : ∀ d, Q d → Q' d) : Leads n Q' W fuel c := by
  induction h with
  | stop h hq => exact .stop h (hQ _ hq)
  | next after h hs _ ih => exact .next after h hs ih
  | wait h hs hw => exact .wait h hs hw

theorem isSettled_eq (h : c.calls.get? n = some ⟨key, stage⟩) : c.isSettled n = stage.isSettled := by
  unfold isSettled isBuilding answer? stage?
  rw [h]
  cases stage with
  | _ => rfl

theorem answer?_of_returned (h : c.calls.get? n = some ⟨key, .returned answer⟩) : c.answer? n = some answer := by
  unfold answer? stage?
  rw [h]
  rfl

theorem isBuilding_eq_false (h : c.answer? n = some answer) : c.isBuilding n = false := by
  unfold answer? at h
  unfold isBuilding
  cases hs : c.stage? n with
  | none => rfl
  | some stage =>
    rw [hs] at h
    cases stage with
    | returned => rfl
    | _ => cases h

theorem isBuilding_of_building (h : c.calls.get? n = some ⟨key, .building g epoch⟩) : c.isBuilding n = true := by
  unfold isBuilding stage?
  rw [h]
  rfl

theorem get?_put_self (c : ClientCache γ ε) (n : Nat) (key : CacheKey) (stage : CacheStage γ ε) :
    (c.put n key stage).calls.get? n = some ⟨key, stage⟩ := Table.get?_insert_self ..

/-! ### Behind the gate -/

theorem leads_leaving (h : c.calls.get? n = some ⟨key, .leaving g answer⟩) :
    Leads n (fun d => d.answer? n = some answer ∧ d.store = c.store) W (fuel + 2) c := by
  have hstep : ∀ now, c.step n now = some (c.leave n key g answer) := by
    intro now
    unfold step
    rw [h]
    rfl
  have hcall : (c.leave n key g answer).calls.get? n = some ⟨key, .returned answer⟩ := by
    rw [calls_leave]
    exact Table.get?_insert_self ..
  exact .next (fun _ => c.leave n key g answer) (isSettled_eq h) hstep fun _ => .stop (isSettled_eq hcall)
    ⟨answer?_of_returned hcall, store_leave ..⟩

theorem leads_releasing (h : c.calls.get? n = some ⟨key, .releasing g answer⟩) :
    Leads n (fun d => d.answer? n = some answer ∧ d.store = c.store) W (fuel + 3) c := by
  have hstep : ∀ now, c.step n now = some ((c.setHolder g none).put n key (.leaving g answer)) := by
    intro now
    unfold step
    rw [h]
    rfl
  refine .next _ (isSettled_eq h) hstep fun _ => (leads_leaving (get?_put_self ..)).mono fun d hd => ?_
  exact ⟨hd.1, hd.2.trans (store_setHolder ..)⟩

theorem leads_keeping (h : c.calls.get? n = some ⟨key, .keeping g epoch client⟩) :
    Leads n (fun d => d.answer? n = some (.client client)) W (fuel + 4) c := by
  have hstep : ∀ now, c.step n now = some
      ({ c with store := c.store.keep key client epoch now }.put n key (.releasing g (.client client))) := by
    intro now
    unfold step
    rw [h]
    rfl
  exact .next _ (isSettled_eq h) hstep fun _ => (leads_releasing (get?_put_self ..)).mono fun _ hd => hd.1

/-! ### On the way to the builder -/

/-- The client of the call is being built, and it looks as if no client had been found under the key. -/
def Builds (n : Nat) (key : CacheKey) (s : ClientStore γ) (d : ClientCache γ ε) : Prop :=
  (∃ g epoch, d.calls.get? n = some ⟨key, .building g epoch⟩) ∧ ClientStore.Lacks key s d.store

/-- The gate of a key was taken. -/
def Occupied (key : CacheKey) (c : ClientCache γ ε) : Prop :=
  ∃ g m, c.listed.get? key = some g ∧ (c.gates.get? g).bind (·.holder) = some m

theorem leads_missing (h : c.calls.get? n = some ⟨key, .missing g⟩) (ha : c.store.entries.get? key = none) :
    Leads n (Builds n key c.store) W (fuel + 2) c := by
  let after := { c with store := c.store.miss.2 }.put n key (.building g c.store.miss.1)
  have hstep : ∀ now, c.step n now = some after := by
    intro now
    unfold step
    rw [h]
    rfl
  have hcall : after.calls.get? n = some ⟨key, .building g c.store.miss.1⟩ := get?_put_self ..
  exact .next (fun _ => after) (isSettled_eq h) hstep fun _ => .stop (isSettled_eq hcall)
    ⟨⟨g, _, hcall⟩, ha, fun _ _ => rfl⟩

theorem leads_rechecking (h : c.calls.get? n = some ⟨key, .rechecking g⟩) (ha : c.store.entries.get? key = none) :
    Leads n (Builds n key c.store) W (fuel + 3) c := by
  have hstep : ∀ now, c.step n now = some (c.put n key (.missing g)) := by
    intro now
    unfold step
    rw [h]
    show some (c.look n key now _ _) = _
    rw [look, ClientStore.lookup_of_get?_eq_none ha]
  exact .next _ (isSettled_eq h) hstep fun _ => leads_missing (get?_put_self ..) ha

theorem leads_queueing (h : c.calls.get? n = some ⟨key, .queueing g⟩) (ha : c.store.entries.get? key = none)
    (hw : ∀ m, (c.gates.get? g).bind (·.holder) = some m → W) : Leads n (Builds n key c.store) W (fuel + 4) c := by
  cases hholder : (c.gates.get? g).bind (·.holder) with
  | some m =>
    have hstep : ∀ now, c.step n now = none := by simp [step, h, hholder]
    exact .wait (isSettled_eq h) hstep (hw m hholder)
  | none =>
    have hstep : ∀ now, c.step n now = some ((c.setHolder g (some n)).put n key (.rechecking g)) := by
      simp [step, h, hholder]
    have hstore : ((c.setHolder g (some n)).put n key (.rechecking g)).store = c.store := store_setHolder ..
    have hleads : Leads n (Builds n key ((c.setHolder g (some n)).put n key (.rechecking g)).store) W (fuel + 3) _ :=
      leads_rechecking (get?_put_self ..) (by rw [hstore]; exact ha)
    rw [hstore] at hleads
    exact .next (fun _ => (c.setHolder g (some n)).put n key (.rechecking g)) (isSettled_eq h) hstep
      fun _ => hleads

theorem enter_spec (c : ClientCache γ ε) (n : Nat) (key : CacheKey) :
    ∃ g, (c.enter n key).calls.get? n = some ⟨key, .queueing g⟩ ∧ (c.enter n key).store = c.store ∧
      ∀ m, ((c.enter n key).gates.get? g).bind (·.holder) = some m → Occupied key c := by
  unfold enter
  cases hl : c.listed.get? key with
  | none =>
    refine ⟨c.gatesMade, get?_put_self .., rfl, fun m hm => ?_⟩
    -- a gate that was just made is nobody's
    have hnew : ((c.gates.insert c.gatesMade { owners := 2 }).get? c.gatesMade).bind (·.holder) = some m := hm
    rw [Table.get?_insert_self] at hnew
    cases hnew
  | some g =>
    refine ⟨g, get?_put_self .., rfl, fun m hm => ⟨g, m, hl, ?_⟩⟩
    have hold : ((c.gates.insert g { (c.gates.get? g).getD { owners := 1 } with
        owners := ((c.gates.get? g).getD { owners := 1 }).owners + 1 }).get? g).bind (·.holder) = some m := hm
    rw [Table.get?_insert_self] at hold
    cases hg : c.gates.get? g with
    | none =>
      rw [hg] at hold
      cases hold
    | some gate =>
      rw [hg] at hold
      exact hold

theorem leads_entering (h : c.calls.get? n = some ⟨key, .entering⟩) (ha : c.store.entries.get? key = none)
    (hw : Occupied key c → W) : Leads n (Builds n key c.store) W (fuel + 5) c := by
  have hstep : ∀ now, c.step n now = some (c.enter n key) := by
    intro now
    unfold step
    rw [h]
    rfl
  obtain ⟨g, hcall, hstore, hholder⟩ := enter_spec c n key
  refine .next (fun _ => c.enter n key) (isSettled_eq h) hstep fun _ => ?_
  rw [← hstore] at ha ⊢
  exact leads_queueing hcall ha fun m hm => hw (hholder m hm)

/-- **A call that arrives** finds a client and returns it, or it has to wait at a gate that was taken, or its client is to
be built. -/
theorem leads_arriving (h : c.calls.get? n = some ⟨key, .arriving⟩) :
    Leads n (fun d => (∃ client, d.answer? n = some (.client client)) ∧ (∃ e, c.store.entries.get? key = some e) ∨
      Builds n key c.store d) (Occupied key c) (fuel + 6) c := by
  have hstep : ∀ now, c.step n now =
      some (c.look n key now (fun client => .returned (.client client)) .entering) := by
    intro now
    unfold step
    rw [h]
    rfl
  refine .next _ (isSettled_eq h) hstep fun now => ?_
  unfold look
  dsimp only
  cases hl : (c.store.lookup key now).1 with
  | some client =>
    have hcall : ({ c with store := (c.store.lookup key now).2 }.put n key (.returned (.client client))).calls.get? n =
        some ⟨key, .returned (.client client)⟩ := get?_put_self ..
    exact .stop (isSettled_eq hcall) (.inl ⟨⟨client, answer?_of_returned hcall⟩, ClientStore.get?_of_lookup hl⟩)
  | none =>
    have hlacks := ClientStore.lacks_lookup hl
    let entered := { c with store := (c.store.lookup key now).2 }.put n key .entering
    have hcall : entered.calls.get? n = some ⟨key, .entering⟩ := get?_put_self ..
    have hleads : Leads n (Builds n key entered.store) (Occupied key c) (fuel + 5) entered :=
      leads_entering hcall hlacks.absent fun hw => hw
    exact hleads.mono fun d hd => .inr ⟨hd.1, hd.2.absent, fun k hk => (hd.2.others k hk).trans (hlacks.others k hk)⟩

/-! ### Behind the builder -/

/-- Whatever the builder reports, the call returns with it. -/
theorem leads_report (h : c.calls.get? n = some ⟨key, .building g epoch⟩) (answer : CacheAnswer γ ε) :
    ∃ d, c.report n answer = some d ∧
      Leads n (fun d => d.answer? n = some answer ∧ ((∀ client, answer ≠ .client client) → d.store = c.store)) W
        (fuel + 4) d := by
  cases answer with
  | client client =>
    refine ⟨c.put n key (.keeping g epoch client), ?_, (leads_keeping (get?_put_self ..)).mono fun d hd =>
      ⟨hd, fun hne => absurd rfl (hne client)⟩⟩
    unfold report
    rw [h]
    rfl
  | failed e =>
    refine ⟨c.put n key (.releasing g (.failed e)), ?_, (leads_releasing (get?_put_self ..)).mono fun d hd =>
      ⟨hd.1, fun _ => hd.2⟩⟩
    unfold report
    rw [h]
    rfl
  | crashed =>
    refine ⟨c.put n key (.releasing g .crashed), ?_, (leads_releasing (get?_put_self ..)).mono fun d hd =>
      ⟨hd.1, fun _ => hd.2⟩⟩
    unfold report
    rw [h]
    rfl

end ClientCache

/-! ## Getting a client -/

namespace PackageService

open Routine (Performs)
open ClientCache (Leads Occupied)

variable {γ ω τ α : Type} {S : Interface} {n fuel : Nat} {key : CacheKey} {w w' v : World (ServiceEnv γ ω)}
  {Q : ClientCache γ CapabilityError → Prop} {W : Prop}

/-- Nothing has changed but the cached clients and the time. -/
structure CacheOnly (w w' : World (ServiceEnv γ ω)) : Prop where
  registry : w'.registry = w.registry
  outside : w'.env.outside = w.env.outside

theorem CacheOnly.trans (h : CacheOnly w v) (h' : CacheOnly v w') : CacheOnly w w' :=
  ⟨h'.registry.trans h.registry, h'.outside.trans h.outside⟩

/-- The world with other cached clients, somewhat later. -/
def withCache (w : World (ServiceEnv γ ω)) (c : ClientCache γ CapabilityError) : World (ServiceEnv γ ω) :=
  { w with clock := w.clock.tick, env := { w.env with cache := c } }

theorem cacheOnly_withCache (w : World (ServiceEnv γ ω)) (c : ClientCache γ CapabilityError) :
    CacheOnly w (withCache w c) := ⟨rfl, rfl⟩

theorem performs_onCache (f : Nat → ClientCache γ CapabilityError → α × ClientCache γ CapabilityError)
    (w : World (ServiceEnv γ ω)) : (onCache f : World.Action (ServiceEnv γ ω) S α).Performs w
      (.returned (f w.clock.read w.env.cache).1) (withCache w (f w.clock.read w.env.cache).2) :=
  Routine.performs_atomically ..

theorem performs_callStep {d : ClientCache γ CapabilityError} (h : w.env.cache.step n w.clock.read = some d) :
    (callStep n : World.Action (ServiceEnv γ ω) S Unit).Performs w (.returned ()) (withCache w d) := by
  have hact : withCache w d = { w with
      clock := w.clock.tick
      env := { w.env with cache := (w.env.cache.step n w.clock.read).getD w.env.cache } } := by
    rw [h]
    rfl
  rw [hact]
  exact .step (by rw [h]; rfl) (.done ..)

theorem performs_callStep_stuck (h : w.env.cache.step n w.clock.read = none) :
    (callStep n : World.Action (ServiceEnv γ ω) S Unit).Performs w .stuck w := .stuck (by rw [h]; rfl)

theorem goOn_succ (n fuel : Nat) : (goOn n (fuel + 1) : World.Action (ServiceEnv γ ω) S Unit) =
    (onCache fun _ c => (c.isSettled n, c)) >>= fun settled =>
      if settled then pure () else callStep n >>= fun _ => goOn n fuel := rfl

/-- A look at the cached clients changes nothing. -/
theorem performs_look (f : ClientCache γ CapabilityError → α) (w : World (ServiceEnv γ ω)) :
    (onCache fun _ c => (f c, c) : World.Action (ServiceEnv γ ω) S α).Performs w (.returned (f w.env.cache))
      (withCache w w.env.cache) := performs_onCache ..

/-- **What a call leads to is what comes of it when it is taken on.** -/
theorem performs_goOn {c : ClientCache γ CapabilityError} (h : Leads n Q W fuel c) (hc : w.env.cache = c) :
    ∃ w', CacheOnly w w' ∧
      ((goOn n fuel : World.Action (ServiceEnv γ ω) S Unit).Performs w (.returned ()) w' ∧ Q w'.env.cache ∨
        (goOn n fuel : World.Action (ServiceEnv γ ω) S Unit).Performs w .stuck w' ∧ W) := by
  induction h generalizing w with
  | @stop fuel c h hq =>
    subst hc
    refine ⟨withCache w w.env.cache, cacheOnly_withCache .., .inl ⟨?_, hq⟩⟩
    rw [goOn_succ]
    refine (performs_look _ w).bind ?_
    rw [if_pos h]
    exact .done ..
  | @next fuel c after h hs hn ih =>
    subst hc
    let looked := withCache w w.env.cache
    let stepped := withCache looked (after looked.clock.read)
    have hcall : (callStep n : World.Action (ServiceEnv γ ω) S Unit).Performs looked (.returned ()) stepped :=
      performs_callStep (hs _)
    obtain ⟨w', hw, hrest⟩ := ih looked.clock.read (w := stepped) rfl
    refine ⟨w', ((cacheOnly_withCache ..).trans (cacheOnly_withCache ..)).trans hw, ?_⟩
    rw [goOn_succ]
    rcases hrest with ⟨hrest, hq⟩ | ⟨hrest, hw⟩
    · refine .inl ⟨(performs_look _ w).bind ?_, hq⟩
      rw [h]
      exact hcall.bind hrest
    · refine .inr ⟨(performs_look _ w).bind ?_, hw⟩
      rw [h]
      exact hcall.bind hrest
  | @wait fuel c h hs hw =>
    subst hc
    refine ⟨withCache w w.env.cache, cacheOnly_withCache .., .inr ⟨?_, hw⟩⟩
    rw [goOn_succ]
    have hcall : (callStep n : World.Action (ServiceEnv γ ω) S Unit).Performs (withCache w w.env.cache) .stuck
        (withCache w w.env.cache) := performs_callStep_stuck (hs _)
    refine (performs_look _ w).bind ?_
    rw [h]
    exact hcall.bind_stuck

/-- What comes of getting a client, and the world after it. -/
inductive Fetched (key : CacheKey) (build : Nat → ω → CacheAnswer γ CapabilityError × ω) (w w' : World (ServiceEnv γ ω)) :
    Routine.Ending (Except CapabilityError γ) → Prop where
  | found (client : γ) (hw : CacheOnly w w') (h : ∃ e, w.env.cache.store.entries.get? key = some e) :
    Fetched key build w w' (.returned (.ok client))
  | waiting (hw : CacheOnly w w') (h : Occupied key w.env.cache) : Fetched key build w w' .stuck
  | built (client : γ) (now : Nat) (hr : w'.registry = w.registry)
    (hb : build now w.env.outside = (.client client, w'.env.outside)) : Fetched key build w w' (.returned (.ok client))
  | failed (e : CapabilityError) (now : Nat) (hr : w'.registry = w.registry)
    (hb : build now w.env.outside = (.failed e, w'.env.outside))
    (hs : ClientStore.Lacks key w.env.cache.store w'.env.cache.store) : Fetched key build w w' (.returned (.error e))
  | crashed (now : Nat) (hr : w'.registry = w.registry)
    (hb : build now w.env.outside = (.crashed, w'.env.outside)) : Fetched key build w w' .crashed

theorem Fetched.registry {build : Nat → ω → CacheAnswer γ CapabilityError × ω}
    {ending : Routine.Ending (Except CapabilityError γ)} (h : Fetched key build w w' ending) :
    w'.registry = w.registry := by
  cases h with
  | found client hw | waiting hw => exact hw.registry
  | built client now hr | failed e now hr | crashed now hr => exact hr

/-- Asks the builder of a call and takes the call on. -/
def construct (n : Nat) (build : Nat → ω → CacheAnswer γ CapabilityError × ω) : World.Action (ServiceEnv γ ω) S Unit := do
  let built ← World.withEnv fun now env => let r := build now env.outside; (r.1, { env with outside := r.2 })
  onCache fun _ c => ((), (c.report n built).getD c)
  goOn n ClientCache.stages

/-- Returns with the answer to a call, which is dismissed. -/
def conclude (n : Nat) : World.Action (ServiceEnv γ ω) S (Except CapabilityError γ) := do
  match ← onCache fun _ c => (c.answer? n, c.dismiss n) with
  | some (.client client) => return .ok client
  | some (.failed e) => return .error e
  | _ => .crash

/-- What is left of getting a client when its call goes no further by itself. -/
def wrapUp (n : Nat) (build : Nat → ω → CacheAnswer γ CapabilityError × ω) :
    World.Action (ServiceEnv γ ω) S (Except CapabilityError γ) := do
  if ← onCache fun _ c => (c.isBuilding n, c) then
    construct n build
    conclude n
  else conclude n

theorem getOrCreate_eq (key : CacheKey) (build : Nat → ω → CacheAnswer γ CapabilityError × ω) :
    (getOrCreate key build : World.Action (ServiceEnv γ ω) S _) =
      (onCache fun _ c => c.arrive key) >>= fun n => goOn n ClientCache.stages >>= fun _ => wrapUp n build := rfl

/-- What an answer to a call makes of getting a client. -/
def endingOf : CacheAnswer γ CapabilityError → Routine.Ending (Except CapabilityError γ)
  | .client client => .returned (.ok client)
  | .failed e => .returned (.error e)
  | .crashed => .crashed

theorem performs_conclude {answer : CacheAnswer γ CapabilityError} (h : w.env.cache.answer? n = some answer) :
    (conclude n : World.Action (ServiceEnv γ ω) S _).Performs w (endingOf answer) (withCache w (w.env.cache.dismiss n)) := by
  refine (performs_onCache (fun _ c => (c.answer? n, c.dismiss n)) w).bind ?_
  rw [h]
  cases answer with
  | client client => exact .done ..
  | failed e => exact .done ..
  | crashed => exact .crash _

theorem performs_construct {g epoch : Nat} (build : Nat → ω → CacheAnswer γ CapabilityError × ω)
    (h : w.env.cache.calls.get? n = some ⟨key, .building g epoch⟩) :
    ∃ now answer w', build now w.env.outside = (answer, w'.env.outside) ∧ w'.registry = w.registry ∧
      w'.env.cache.answer? n = some answer ∧
      ((∀ client, answer ≠ .client client) → w'.env.cache.store = w.env.cache.store) ∧
      (construct n build : World.Action (ServiceEnv γ ω) S Unit).Performs w (.returned ()) w' := by
  let built := build w.clock.read w.env.outside
  let asked : World (ServiceEnv γ ω) := { w with clock := w.clock.tick, env := { w.env with outside := built.2 } }
  have hask : (World.withEnv fun now env => let r := build now env.outside; (r.1, { env with outside := r.2 }) :
      World.Action (ServiceEnv γ ω) S _).Performs w (.returned built.1) asked := Routine.performs_atomically ..
  obtain ⟨d, hreport, hleads⟩ : ∃ d, w.env.cache.report n built.1 = some d ∧ Leads n (fun d => d.answer? n = some built.1 ∧
      ((∀ client, built.1 ≠ .client client) → d.store = w.env.cache.store)) False ClientCache.stages d :=
    ClientCache.leads_report h built.1
  have htell : (onCache fun _ c => ((), (c.report n built.1).getD c) : World.Action (ServiceEnv γ ω) S Unit).Performs asked
      (.returned ()) (withCache asked ((w.env.cache.report n built.1).getD w.env.cache)) := performs_onCache ..
  rw [hreport, Option.getD_some] at htell
  obtain ⟨w', hw, ⟨hgo, hanswer, hstore⟩ | ⟨-, hf⟩⟩ := performs_goOn (S := S) (w := withCache asked d) hleads rfl
  · refine ⟨w.clock.read, built.1, w', ?_, hw.registry, hanswer, hstore, hask.bind (htell.bind hgo)⟩
    rw [hw.outside]
    rfl
  · exact hf.elim

theorem performs_wrapUp_of_answer {answer : CacheAnswer γ CapabilityError}
    (build : Nat → ω → CacheAnswer γ CapabilityError × ω) (h : w.env.cache.answer? n = some answer) :
    ∃ w', CacheOnly w w' ∧ (wrapUp n build : World.Action (ServiceEnv γ ω) S _).Performs w (endingOf answer) w' := by
  let looked := withCache w w.env.cache
  refine ⟨withCache looked (w.env.cache.dismiss n), (cacheOnly_withCache ..).trans (cacheOnly_withCache ..),
    (performs_look _ w).bind ?_⟩
  rw [ClientCache.isBuilding_eq_false h]
  exact performs_conclude (w := looked) h

theorem performs_wrapUp_of_building {g epoch : Nat} (build : Nat → ω → CacheAnswer γ CapabilityError × ω)
    (h : w.env.cache.calls.get? n = some ⟨key, .building g epoch⟩) :
    ∃ now answer w', build now w.env.outside = (answer, w'.env.outside) ∧ w'.registry = w.registry ∧
      ((∀ client, answer ≠ .client client) → w'.env.cache.store = w.env.cache.store) ∧
      (wrapUp n build : World.Action (ServiceEnv γ ω) S _).Performs w (endingOf answer) w' := by
  obtain ⟨now, answer, u, hbuild, hregistry, hanswer, hstore, hconstruct⟩ :=
    performs_construct (S := S) (w := withCache w w.env.cache) build h
  refine ⟨now, answer, withCache u (u.env.cache.dismiss n), hbuild, hregistry, hstore, (performs_look _ w).bind ?_⟩
  rw [ClientCache.isBuilding_of_building h]
  exact hconstruct.bind (performs_conclude hanswer)

/-- **Getting a client** finds one or has it built, unless it has to wait or the builder crashes. -/
theorem performs_getOrCreate (key : CacheKey) (build : Nat → ω → CacheAnswer γ CapabilityError × ω)
    (w : World (ServiceEnv γ ω)) : ∃ ending w', Fetched key build w w' ending ∧
      (getOrCreate key build : World.Action (ServiceEnv γ ω) S _).Performs w ending w' := by
  let n := w.env.cache.callsMade
  let arrived := withCache w (w.env.cache.arrive key).2
  have harrive : (onCache fun _ c => c.arrive key : World.Action (ServiceEnv γ ω) S Nat).Performs w (.returned n) arrived :=
    performs_onCache ..
  have hcall : arrived.env.cache.calls.get? n = some ⟨key, .arriving⟩ := Table.get?_insert_self ..
  have hleads : Leads n _ (Occupied key arrived.env.cache) ClientCache.stages arrived.env.cache :=
    ClientCache.leads_arriving hcall
  obtain ⟨v, hv, hcases⟩ := performs_goOn (S := S) hleads rfl
  have hwv : CacheOnly w v := (cacheOnly_withCache ..).trans hv
  rw [getOrCreate_eq]
  rcases hcases with ⟨hgo, ⟨⟨client, hanswer⟩, hentry⟩ | ⟨⟨g, epoch, hbuilding⟩, hlacks⟩⟩ | ⟨hgo, hheld⟩
  · obtain ⟨w', hw, hwrap⟩ := performs_wrapUp_of_answer (S := S) build hanswer
    exact ⟨_, w', .found client (hwv.trans hw) hentry, harrive.bind (hgo.bind hwrap)⟩
  · obtain ⟨now, answer, w', hbuild, hregistry, hstore, hwrap⟩ := performs_wrapUp_of_building (S := S) build hbuilding
    rw [hwv.outside] at hbuild
    have hr : w'.registry = w.registry := hregistry.trans hwv.registry
    refine ⟨endingOf answer, w', ?_, harrive.bind (hgo.bind hwrap)⟩
    cases answer with
    | client client => exact .built client now hr hbuild
    | crashed => exact .crashed now hr hbuild
    | failed e =>
      refine .failed e now hr hbuild ?_
      rw [hstore nofun]
      exact hlacks
  · exact ⟨.stuck, v, .waiting hwv hheld, harrive.bind hgo.bind_stuck⟩

end PackageService
end JobRunner
