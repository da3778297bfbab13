import JobRunner.Proofs.CacheCalls
/-!
# The list of gates

Calls know which gates they have entered; the converse is said here.  Somebody is at each gate on the list, no gate is
left over that is not on the list, and whoever is said to have the turn at a gate is there and has it.  Each step of a
call keeps it so, the last one to leave a gate included.
-/
namespace JobRunner

/-- The call has entered a gate and not left it. -/
def CacheStage.isInside {γ ε : Type} (stage : CacheStage γ ε) : Bool := stage.gate?.isSome

namespace ClientCache

variable {γ ε : Type} {c d : ClientCache γ ε} {new es : List (CacheEvent γ ε)} {n g : Nat} {key : CacheKey}
  {stage next : CacheStage γ ε}

/-- Nothing is left of gates that nobody is at. -/
structure Tight (c : ClientCache γ ε) : Prop where
  used : ∀ key g, c.listed.get? key = some g → 0 < c.inside g
  listed : ∀ g gate, c.gates.get? g = some gate → ∃ key, c.listed.get? key = some g
  turn : ∀ g gate n, c.gates.get? g = some gate → gate.holder = some n →
    ∃ call, c.calls.get? n = some call ∧ call.stage.gate? = some g ∧ call.stage.hasTurn = true

/-- The call that has its turn at a gate still has it after another call has gone on, or itself without giving it up. -/
theorem Tight.turn_insert {gate : Gate} {m : Nat} (h : c.Tight) (hn : c.calls.get? n = some ⟨key, stage⟩)
    (hkeep : stage.gate? = some g → stage.hasTurn = true → next.gate? = some g ∧ next.hasTurn = true)
    (hgate : c.gates.get? g = some gate) (hm : gate.holder = some m) :
    ∃ call, (c.calls.insert n ⟨key, next⟩).get? m = some call ∧ call.stage.gate? = some g ∧
      call.stage.hasTurn = true := by
  obtain ⟨call, hcall, hat, hturn⟩ := h.turn g gate m hgate hm
  by_cases he : n = m
  · subst he
    rw [hn] at hcall
    cases hcall
    exact ⟨_, Table.get?_insert_self .., hkeep hat hturn⟩
  · exact ⟨call, (Table.get?_insert_ne he).trans hcall, hat, hturn⟩

/-- A call goes on at the same gate with the same turn, or still without one. -/
theorem Tight.put (h : c.Tight) (hn : c.calls.get? n = some ⟨key, stage⟩) (hg : next.gate? = stage.gate?)
    (ht : stage.hasTurn = true → next.hasTurn = true) (s : ClientStore γ) :
    Tight ({ c with store := s }.put n key next) := by
  refine ⟨fun k g hk => ?_, h.listed, fun g gate m hgate hm => ?_⟩
  · rw [inside_eq hn rfl hg]
    exact h.used k g hk
  · exact h.turn_insert hn (fun hat hturn => ⟨hg.trans hat, ht hturn⟩) hgate hm

/-- The turn at a gate is given to a call, or taken back. -/
theorem Tight.setHolder {gate : Gate} (h : c.Tight) (hn : c.calls.get? n = some ⟨key, stage⟩)
    (hg : stage.gate? = some g) (hnext : next.gate? = some g) (hgate : c.gates.get? g = some gate)
    (holder : Option Nat) (hturn : ∀ m, holder = some m → m = n ∧ next.hasTurn = true) :
    Tight ((c.setHolder g holder).put n key next) := by
  rw [setHolder_eq hgate]
  refine ⟨fun k g' hk => ?_, ?_, fun g' gate' m hgate' hm => ?_⟩
  · rw [inside_eq hn rfl (hnext.trans hg.symm)]
    exact h.used k g' hk
  · exact Table.forall_insert h.listed (h.listed g gate hgate)
  · rcases Table.of_get?_insert hgate' with ⟨rfl, rfl⟩ | ⟨hne, hgate'⟩
    · obtain ⟨rfl, ht⟩ := hturn m hm
      exact ⟨_, Table.get?_insert_self .., hnext, ht⟩
    · refine h.turn_insert hn (fun hat _ => ?_) hgate' hm
      exact absurd (Option.some.inj (hat.symm.trans hg)) hne

/-- A call enters a listed gate, or leaves others there. -/
theorem Tight.recount {gate : Gate} {owners : Nat} (h : c.Tight) (hn : c.calls.get? n = some ⟨key, stage⟩)
    (hgate : c.gates.get? g = some gate) (hturn : stage.hasTurn = false)
    (hstage : ∀ g', stage.gate? = some g' → g' = g)
    (hused : 0 < inside ({ c with gates := c.gates.insert g { gate with owners } }.put n key next) g) :
    Tight ({ c with gates := c.gates.insert g { gate with owners } }.put n key next) := by
  have hturn : ∀ g', stage.gate? = some g' → stage.hasTurn = true → next.gate? = some g' ∧ next.hasTurn = true := by
    intro g' _ ht
    rw [hturn] at ht
    cases ht
  refine ⟨fun k g' hk => ?_, ?_, fun g' gate' m hgate' hm => ?_⟩
  · by_cases he : g = g'
    · subst he
      exact hused
    · have hs := inside_insert (g := g')
        (d := { c with gates := c.gates.insert g { gate with owners } }.put n key next) hn rfl
      have hw : weight g' (⟨key, stage⟩ : CacheCall γ ε) = 0 := weight_of_ne fun hg' => he (hstage g' hg').symm
      have hpos := h.used k g' hk
      omega
  · exact Table.forall_insert h.listed (h.listed g gate hgate)
  · rcases Table.of_get?_insert hgate' with ⟨rfl, rfl⟩ | ⟨-, hgate'⟩
    · exact h.turn_insert hn (hturn g') hgate hm
    · exact h.turn_insert hn (hturn g') hgate' hm

theorem Tight.enter (h : c.Tight) (hg : c.Gated) (hn : c.calls.get? n = some ⟨key, .entering⟩) :
    (c.enter n key).Tight := by
  unfold ClientCache.enter
  cases hl : c.listed.get? key with
  | some g =>
    obtain ⟨gate, hgate, -⟩ := hg.owned key g hl
    dsimp only
    rw [hgate]
    refine h.recount hn hgate rfl nofun ?_
    have hone : weight g (⟨key, .queueing g⟩ : CacheCall γ ε) = 1 := weight_of_eq rfl
    exact Nat.lt_of_lt_of_le (by omega) (Table.le_sum (f := fun _ u => weight g u) (Table.get?_insert_self ..))
  | none =>
    refine ⟨fun k g hk => ?_, fun g gate hgate => ?_, fun g gate m hgate hm => ?_⟩
    · have hs := inside_insert (g := g) (d := { c with
        listed := c.listed.insert key c.gatesMade
        gates := c.gates.insert c.gatesMade { owners := 2 }
        gatesMade := c.gatesMade + 1 }.put n key (.queueing c.gatesMade)) hn rfl
      rw [weight_of_none rfl] at hs
      rcases Table.of_get?_insert hk with ⟨-, rfl⟩ | ⟨-, hk⟩
      · rw [weight_of_eq rfl] at hs
        dsimp only
        omega
      · have hpos := h.used k g hk
        dsimp only
        omega
    · rcases Table.of_get?_insert hgate with ⟨rfl, -⟩ | ⟨-, hgate⟩
      · exact ⟨key, Table.get?_insert_self ..⟩
      · obtain ⟨k, hk⟩ := h.listed g gate hgate
        refine ⟨k, (Table.get?_insert_ne ?_).trans hk⟩
        rintro rfl
        rw [hl] at hk
        cases hk
    · rcases Table.of_get?_insert hgate with ⟨-, rfl⟩ | ⟨-, hgate⟩
      · cases hm
      · exact h.turn_insert hn nofun hgate hm

theorem Tight.leave {answer : CacheAnswer γ ε} (h : c.Tight) (hg : c.Gated)
    (hn : c.calls.get? n = some ⟨key, .leaving g answer⟩) : (c.leave n key g answer).Tight := by
  have hl : c.listed.get? key = some g := hg.entered n ⟨key, .leaving g answer⟩ g hn rfl
  obtain ⟨gate, hgate, howners⟩ := hg.owned key g hl
  unfold ClientCache.leave
  rw [hgate, Option.getD_some]
  dsimp only
  by_cases hlast : gate.owners ≤ 2
  · rw [if_pos ⟨hlast, hl⟩]
    refine ⟨fun k g' hk => ?_, fun g' gate' hgate' => ?_, fun g' gate' m hgate' hm => ?_⟩
    · have hk : (c.listed.erase key).get? k = some g' := hk
      rw [Table.get?_erase, Option.ite_none_left_eq_some] at hk
      have hne : g ≠ g' := fun he => hk.1 (hg.apart key k g hl (he ▸ hk.2))
      have hs := inside_insert (g := g') (d := { c.put n key (.returned answer) with
        listed := c.listed.erase key, gates := c.gates.erase g }) hn rfl
      rw [weight_of_gate rfl hne, weight_of_none rfl] at hs
      exact Nat.lt_of_lt_of_eq (h.used k g' hk.2) hs.symm
    · have hgate' : (c.gates.erase g).get? g' = some gate' := hgate'
      rw [Table.get?_erase, Option.ite_none_left_eq_some] at hgate'
      obtain ⟨k, hk⟩ := h.listed g' gate' hgate'.2
      refine ⟨k, ?_⟩
      show (c.listed.erase key).get? k = some g'
      rw [Table.get?_erase, if_neg]
      · exact hk
      · rintro rfl
        exact hgate'.1 (Option.some.inj (hl.symm.trans hk))
    · have hgate' : (c.gates.erase g).get? g' = some gate' := hgate'
      rw [Table.get?_erase, Option.ite_none_left_eq_some] at hgate'
      exact h.turn_insert hn nofun hgate'.2 hm
  · rw [if_neg fun hc => hlast hc.1]
    refine h.recount hn hgate rfl (fun g' hg' => (Option.some.inj hg').symm) ?_
    have hs := inside_insert (g := g)
      (d := { c with gates := c.gates.insert g { gate with owners := gate.owners - 1 } }.put n key (.returned answer))
      hn rfl
    have hleaving : weight g (⟨key, .leaving g answer⟩ : CacheCall γ ε) = 1 := weight_of_eq rfl
    omega

theorem Tight.arrive (h : c.Tight) (hg : c.Gated) (key : CacheKey) :
    Tight { c with calls := c.calls.insert c.callsMade { key }, callsMade := c.callsMade + 1 } := by
  have hnew := hg.get?_callsMade
  refine ⟨fun k g hk => ?_, h.listed, fun g gate m hgate hm => ?_⟩
  · have hinside : inside { c with calls := c.calls.insert c.callsMade { key }, callsMade := c.callsMade + 1 } g =
        c.inside g := Table.sum_insert_of_none hnew (fun _ call => weight g call) { key }
    rw [hinside]
    exact h.used k g hk
  · obtain ⟨call, hcall, hat⟩ := h.turn g gate m hgate hm
    have hne : c.callsMade ≠ m := by
      rintro rfl
      rw [hnew] at hcall
      cases hcall
    exact ⟨call, (Table.get?_insert_ne hne).trans hcall, hat⟩

theorem tight_move (h : c.Tight) (hg : c.Gated) (m : Move c new d) : d.Tight := by
  cases m with
  | arrive key => exact h.arrive hg key
  | hit hn hl hs | miss hn hl hs =>
    rcases hs with ⟨rfl, rfl⟩ | ⟨g, rfl, rfl⟩
    · exact h.put hn (by rfl) nofun _
    · exact h.put hn (by rfl) (fun _ => rfl) _
  | enter hn => exact h.enter hg hn
  | @turn n g key hn hfree =>
    obtain ⟨gate, hgate, -⟩ := hg.owned key g (hg.entered n _ g hn rfl)
    exact h.setHolder hn rfl rfl hgate (some n) fun m hm => ⟨(Option.some.inj hm).symm, rfl⟩
  | @release n g key answer hn =>
    obtain ⟨gate, hgate, -⟩ := hg.owned key g (hg.entered n _ g hn rfl)
    exact h.setHolder hn rfl rfl hgate none nofun
  | built hn hs =>
    rcases hs with ⟨client, rfl, rfl⟩ | ⟨-, rfl⟩
    · exact h.put hn (by rfl) (fun _ => rfl) c.store
    · exact h.put hn (by rfl) (fun _ => rfl) c.store
  | ask hn | keep hn => exact h.put hn (by rfl) (fun _ => rfl) _
  | discard hn he => exact h.put hn (by rfl) (fun _ => rfl) c.store
  | leave hn => exact h.leave hg hn
  | invalidate | cleanup => exact ⟨h.used, h.listed, h.turn⟩

theorem Run.tight {config : CacheConfig} (run : Run (ofConfig config) es c) : c.Tight := by
  induction run with
  | refl => exact ⟨nofun, nofun, nofun⟩
  | tail a before last ih => exact tight_move ih (before.gated (gated_ofConfig config)) (move_of_perform last)

end ClientCache
end JobRunner
