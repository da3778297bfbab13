import JobRunner.Proofs.CacheRun
/-!
# Gates

A gate is on the list as long as some call has entered it, it is the gate of one key, and its owners are the calls
inside and the list.  So a call that leaves with no other call inside takes the gate off the list, and no other call
does; and since all calls for a key that are past the gate had their turn at the same gate, there is one of them at most.
-/
namespace JobRunner

/-- The gate that the call has entered and not left. -/
def CacheStage.gate? {γ ε : Type} : CacheStage γ ε → Option Nat
  | queueing g | rechecking g | missing g | building g _ | keeping g _ _ | releasing g _ | leaving g _ => some g
  | _ => none

/-- It is the turn of the call. -/
def CacheStage.hasTurn {γ ε : Type} : CacheStage γ ε → Bool
  | rechecking _ | missing _ | building _ _ | keeping _ _ _ | releasing _ _ => true
  | _ => false

namespace ClientCache

variable {γ ε : Type} {c d : ClientCache γ ε} {new es : List (CacheEvent γ ε)} {n g : Nat} {key : CacheKey}
  {call : CacheCall γ ε} {stage next : CacheStage γ ε}

/-- The number of calls that a call adds to those at a gate. -/
def weight (g : Nat) (call : CacheCall γ ε) : Nat := (decide (call.stage.gate? = some g)).toNat

/-- The number of calls at a gate. -/
def inside (c : ClientCache γ ε) (g : Nat) : Nat := c.calls.sum fun _ call => weight g call

theorem weight_of_eq (h : call.stage.gate? = some g) : weight g call = 1 := by
  rw [weight, decide_eq_true h]
  rfl

theorem weight_of_ne (h : call.stage.gate? ≠ some g) : weight g call = 0 := by
  rw [weight, decide_eq_false h]
  rfl

theorem weight_of_none (h : call.stage.gate? = none) : weight g call = 0 :=
  weight_of_ne (by rw [h]; exact nofun)

theorem weight_of_gate {g' : Nat} (h : call.stage.gate? = some g') (hne : g' ≠ g) : weight g call = 0 :=
  weight_of_ne fun hg => hne (Option.some.inj (h.symm.trans hg))

theorem inside_insert {call' : CacheCall γ ε} (hn : c.calls.get? n = some call)
    (hd : d.calls = c.calls.insert n call') : d.inside g + weight g call = c.inside g + weight g call' := by
  rw [inside, inside, hd]
  exact Table.sum_insert_of_some hn (fun _ call => weight g call) call'

theorem inside_eq (hn : c.calls.get? n = some ⟨key, stage⟩) (hd : d.calls = c.calls.insert n ⟨key, next⟩)
    (hg : next.gate? = stage.gate?) (g : Nat) : d.inside g = c.inside g := by
  have hw : weight g (⟨key, next⟩ : CacheCall γ ε) = weight g (⟨key, stage⟩ : CacheCall γ ε) := by
    simp only [weight, hg]
  have hs := inside_insert (g := g) hn hd
  omega

/-- The list of gates, the counts of owners, and whose turn it is. -/
structure Gated (c : ClientCache γ ε) : Prop where
  entered : ∀ n call g, c.calls.get? n = some call → call.stage.gate? = some g → c.listed.get? call.key = some g
  owned : ∀ key g, c.listed.get? key = some g → ∃ gate, c.gates.get? g = some gate ∧ gate.owners = c.inside g + 1
  apart : ∀ key key' g, c.listed.get? key = some g → c.listed.get? key' = some g → key = key'
  fresh : ∀ key g, c.listed.get? key = some g → g < c.gatesMade
  held : ∀ n call g gate, c.calls.get? n = some call → call.stage.gate? = some g → call.stage.hasTurn = true →
    c.gates.get? g = some gate → gate.holder = some n
  numbered : ∀ n call, c.calls.get? n = some call → n < c.callsMade

theorem gate?_of_hasTurn (h : stage.hasTurn = true) : ∃ g, stage.gate? = some g := by
  cases stage with
  | rechecking | missing | building | keeping | releasing => exact ⟨_, rfl⟩
  | _ => cases h

/-- **There is one call with its turn for each key at most.** -/
theorem Gated.one {n' : Nat} {call' : CacheCall γ ε} (h : c.Gated) (hn : c.calls.get? n = some call)
    (hn' : c.calls.get? n' = some call') (hkey : call.key = call'.key) (ht : call.stage.hasTurn = true)
    (ht' : call'.stage.hasTurn = true) : n = n' := by
  obtain ⟨g, hg⟩ := gate?_of_hasTurn ht
  obtain ⟨g', hg'⟩ := gate?_of_hasTurn ht'
  have hlisted := h.entered n call g hn hg
  have hlisted' := h.entered n' call' g' hn' hg'
  rw [← hkey, hlisted] at hlisted'
  cases hlisted'
  obtain ⟨gate, hgate, -⟩ := h.owned _ g hlisted
  have hholder := h.held n call g gate hn hg ht hgate
  rw [h.held n' call' g gate hn' hg' ht' hgate] at hholder
  cases hholder
  rfl

theorem Gated.numbered_insert (h : c.Gated) (hn : c.calls.get? n = some call) {call' : CacheCall γ ε} :
    ∀ m u, (c.calls.insert n call').get? m = some u → m < c.callsMade :=
  Table.forall_insert h.numbered (h.numbered n call hn)

/-- A call goes on at the same gate, or still without one. -/
theorem Gated.put (h : c.Gated) (hn : c.calls.get? n = some ⟨key, stage⟩) (hg : next.gate? = stage.gate?)
    (ht : next.hasTurn = true → stage.hasTurn = true) (s : ClientStore γ) :
    Gated ({ c with store := s }.put n key next) := by
  refine ⟨?_, ?_, h.apart, h.fresh, ?_, h.numbered_insert hn⟩
  · intro m u g hm hu
    rcases Table.of_get?_insert hm with ⟨-, rfl⟩ | ⟨-, hm⟩
    · exact h.entered n ⟨key, stage⟩ g hn (hg.symm.trans hu)
    · exact h.entered m u g hm hu
  · intro k g hk
    rw [inside_eq hn rfl hg]
    exact h.owned k g hk
  · intro m u g gate hm hu hturn hgate
    rcases Table.of_get?_insert hm with ⟨rfl, rfl⟩ | ⟨-, hm⟩
    · exact h.held m ⟨key, stage⟩ g gate hn (hg.symm.trans hu) (ht hturn) hgate
    · exact h.held m u g gate hm hu hturn hgate

theorem Gated.onStore (h : c.Gated) (s : ClientStore γ) : Gated { c with store := s } :=
  ⟨h.entered, h.owned, h.apart, h.fresh, h.held, h.numbered⟩

theorem setHolder_eq {gate : Gate} (h : c.gates.get? g = some gate) (holder : Option Nat) :
    c.setHolder g holder = { c with gates := c.gates.insert g { gate with holder } } := by
  rw [setHolder, h]

/-- The turn at a gate is given or taken back. -/
theorem Gated.setHolder (h : c.Gated) (hn : c.calls.get? n = some ⟨key, stage⟩) (hg : stage.gate? = some g)
    (hnext : next.gate? = some g) (holder : Option Nat) (hturn : next.hasTurn = true → holder = some n)
    (hothers : ∀ m call, m ≠ n → c.calls.get? m = some call → call.stage.gate? = some g →
      call.stage.hasTurn = false) : Gated ((c.setHolder g holder).put n key next) := by
  obtain ⟨gate, hgate, howners⟩ := h.owned key g (h.entered n ⟨key, stage⟩ g hn hg)
  rw [setHolder_eq hgate]
  refine ⟨?_, ?_, h.apart, h.fresh, ?_, h.numbered_insert hn⟩
  · intro m u g' hm hu
    rcases Table.of_get?_insert hm with ⟨-, rfl⟩ | ⟨-, hm⟩
    · exact h.entered n ⟨key, stage⟩ g' hn (hg.trans (hnext.symm.trans hu))
    · exact h.entered m u g' hm hu
  · intro k g' hk
    rw [inside_eq hn rfl (hnext.trans hg.symm)]
    show ∃ gate', (c.gates.insert g { gate with holder }).get? g' = some gate' ∧ _
    rw [Table.get?_insert]
    by_cases he : g = g'
    · subst he
      rw [if_pos rfl]
      exact ⟨_, rfl, howners⟩
    · rw [if_neg he]
      exact h.owned k g' hk
  · intro m u g' gate' hm hu ht hgate'
    rcases Table.of_get?_insert hm with ⟨rfl, rfl⟩ | ⟨hmn, hm⟩
    · obtain rfl : g = g' := Option.some.inj (hnext.symm.trans hu)
      have hgate' : (c.gates.insert g { gate with holder }).get? g = some gate' := hgate'
      rw [Table.get?_insert_self] at hgate'
      cases hgate'
      exact hturn ht
    · rcases Table.of_get?_insert hgate' with ⟨rfl, -⟩ | ⟨-, hgate'⟩
      · rw [hothers m u hmn hm hu] at ht
        cases ht
      · exact h.held m u g' gate' hm hu ht hgate'

theorem Gated.arrive (h : c.Gated) (key : CacheKey) :
    Gated { c with calls := c.calls.insert c.callsMade { key }, callsMade := c.callsMade + 1 } := by
  have hnew : c.calls.get? c.callsMade = none := by
    cases hn : c.calls.get? c.callsMade with
    | none => rfl
    | some call => exact absurd (h.numbered _ call hn) (Nat.lt_irrefl _)
  have hinside : ∀ g, inside { c with calls := c.calls.insert c.callsMade { key }, callsMade := c.callsMade + 1 } g =
      c.inside g := by
    intro g
    exact Table.sum_insert_of_none hnew (fun _ call => weight g call) { key }
  refine ⟨?_, ?_, h.apart, h.fresh, ?_, ?_⟩
  · intro m u g hm hu
    rcases Table.of_get?_insert hm with ⟨-, rfl⟩ | ⟨-, hm⟩
    · cases hu
    · exact h.entered m u g hm hu
  · intro k g hk
    rw [hinside]
    exact h.owned k g hk
  · intro m u g gate hm hu ht hgate
    rcases Table.of_get?_insert hm with ⟨-, rfl⟩ | ⟨-, hm⟩
    · cases hu
    · exact h.held m u g gate hm hu ht hgate
  · exact Table.forall_insert (fun m u hm => Nat.lt_succ_of_lt (h.numbered m u hm)) (Nat.lt_succ_self _)

/-- A call enters a listed gate, or leaves others there. -/
theorem Gated.recount {gate : Gate} {owners : Nat} (h : c.Gated) (hn : c.calls.get? n = some ⟨key, stage⟩)
    (hl : c.listed.get? key = some g) (hgate : c.gates.get? g = some gate)
    (hstage : ∀ g', stage.gate? = some g' → g' = g) (hnext : ∀ g', next.gate? = some g' → g' = g)
    (hturn : next.hasTurn = false)
    (hw : owners + weight g (⟨key, stage⟩ : CacheCall γ ε) = gate.owners + weight g (⟨key, next⟩ : CacheCall γ ε)) :
    Gated ({ c with gates := c.gates.insert g { gate with owners } }.put n key next) := by
  obtain ⟨_, hsame, howners⟩ := h.owned key g hl
  rw [hgate] at hsame
  cases hsame
  have hinside := fun g' => inside_insert (g := g')
    (d := { c with gates := c.gates.insert g { gate with owners } }.put n key next) hn rfl
  refine ⟨?_, ?_, h.apart, h.fresh, ?_, h.numbered_insert hn⟩
  · intro m u g' hm hu
    rcases Table.of_get?_insert hm with ⟨-, rfl⟩ | ⟨-, hm⟩
    · rw [hnext g' hu]
      exact hl
    · exact h.entered m u g' hm hu
  · intro k g' hk
    have hs := hinside g'
    show ∃ gate', (c.gates.insert g { gate with owners }).get? g' = some gate' ∧ _
    rw [Table.get?_insert]
    by_cases he : g = g'
    · subst he
      rw [if_pos rfl]
      refine ⟨_, rfl, ?_⟩
      dsimp only
      omega
    · have hw₁ : weight g' (⟨key, stage⟩ : CacheCall γ ε) = 0 := weight_of_ne fun hg' => he (hstage g' hg').symm
      have hw₂ : weight g' (⟨key, next⟩ : CacheCall γ ε) = 0 := weight_of_ne fun hg' => he (hnext g' hg').symm
      rw [if_neg he]
      obtain ⟨gate', hgate', howners'⟩ := h.owned k g' hk
      exact ⟨gate', hgate', by omega⟩
  · intro m u g' gate' hm hu ht hgate'
    rcases Table.of_get?_insert hm with ⟨-, rfl⟩ | ⟨-, hm⟩
    · rw [show next.hasTurn = true from ht] at hturn
      cases hturn
    · rcases Table.of_get?_insert hgate' with ⟨rfl, rfl⟩ | ⟨-, hgate'⟩
      · exact h.held m u g' gate hm hu ht hgate
      · exact h.held m u g' gate' hm hu ht hgate'

theorem Gated.make (h : c.Gated) (hn : c.calls.get? n = some ⟨key, stage⟩) (hstage : stage.gate? = none)
    (hl : c.listed.get? key = none) :
    Gated ({ c with
      listed := c.listed.insert key c.gatesMade
      gates := c.gates.insert c.gatesMade { owners := 2 }
      gatesMade := c.gatesMade + 1 }.put n key (.queueing c.gatesMade)) := by
  -- nobody can be at a gate whose number was never given out
  have hempty : c.inside c.gatesMade = 0 := by
    refine Table.sum_eq_zero fun m u hm => weight_of_ne fun hu => ?_
    exact Nat.lt_irrefl _ (h.fresh _ _ (h.entered m u _ hm hu))
  have hinside := fun g' => inside_insert (g := g') (d := { c with
    listed := c.listed.insert key c.gatesMade
    gates := c.gates.insert c.gatesMade { owners := 2 }
    gatesMade := c.gatesMade + 1 }.put n key (.queueing c.gatesMade)) hn rfl
  have hne : ∀ {k g}, c.listed.get? k = some g → key ≠ k ∧ c.gatesMade ≠ g := by
    intro k g hk
    refine ⟨fun he => ?_, fun he => ?_⟩
    · rw [← he, hl] at hk
      cases hk
    · exact Nat.lt_irrefl _ (he ▸ h.fresh k g hk)
  refine ⟨?_, ?_, ?_, ?_, ?_, h.numbered_insert hn⟩
  · intro m u g hm hu
    rcases Table.of_get?_insert hm with ⟨-, rfl⟩ | ⟨-, hm⟩
    · cases hu
      exact Table.get?_insert_self ..
    · have hlisted := h.entered m u g hm hu
      exact (Table.get?_insert_ne (hne hlisted).1).trans hlisted
  · intro k g hk
    have hs := hinside g
    rw [weight_of_none hstage] at hs
    rcases Table.of_get?_insert hk with ⟨-, rfl⟩ | ⟨-, hk⟩
    · rw [weight_of_eq rfl, hempty] at hs
      refine ⟨_, Table.get?_insert_self .., ?_⟩
      dsimp only
      omega
    · obtain ⟨gate, hgate, howners⟩ := h.owned k g hk
      rw [weight_of_gate rfl (hne hk).2] at hs
      exact ⟨gate, (Table.get?_insert_ne (hne hk).2).trans hgate, by omega⟩
  · intro k k' g hk hk'
    rcases Table.of_get?_insert hk with ⟨rfl, rfl⟩ | ⟨-, hold⟩
    · rcases Table.of_get?_insert hk' with ⟨rfl, -⟩ | ⟨-, hold'⟩
      · rfl
      · exact absurd rfl (hne hold').2
    · rcases Table.of_get?_insert hk' with ⟨rfl, rfl⟩ | ⟨-, hold'⟩
      · exact absurd rfl (hne hold).2
      · exact h.apart k k' g hold hold'
  · exact Table.forall_insert (P := fun _ g => g < c.gatesMade + 1)
      (fun k g hk => Nat.lt_succ_of_lt (h.fresh k g hk)) (Nat.lt_succ_self _)
  · intro m u g gate hm hu ht hgate
    rcases Table.of_get?_insert hm with ⟨-, rfl⟩ | ⟨-, hm⟩
    · cases ht
    · have hother := (hne (h.entered m u g hm hu)).2
      exact h.held m u g gate hm hu ht ((Table.get?_insert_ne hother).symm.trans hgate)

theorem Gated.enter (h : c.Gated) (hn : c.calls.get? n = some ⟨key, .entering⟩) : (c.enter n key).Gated := by
  unfold ClientCache.enter
  cases hl : c.listed.get? key with
  | none => exact h.make hn rfl hl
  | some g =>
    obtain ⟨gate, hgate, -⟩ := h.owned key g hl
    dsimp only
    rw [hgate]
    refine h.recount hn hl hgate nofun (fun g' hg' => (Option.some.inj hg').symm) rfl ?_
    rw [weight_of_none rfl, weight_of_eq rfl]

/-- The last call at a gate takes it off the list. -/
theorem Gated.retire (h : c.Gated) {answer : CacheAnswer γ ε} (hn : c.calls.get? n = some ⟨key, stage⟩)
    (hstage : stage.gate? = some g) (hlast : c.inside g ≤ 1) :
    Gated { c.put n key (.returned answer) with listed := c.listed.erase key, gates := c.gates.erase g } := by
  have hl : c.listed.get? key = some g := h.entered n ⟨key, stage⟩ g hn hstage
  have hinside := fun g' => inside_insert (g := g')
    (d := { c.put n key (.returned answer) with listed := c.listed.erase key, gates := c.gates.erase g }) hn rfl
  -- the call that leaves was the only one at the gate
  have hothers : ∀ m u, (c.calls.insert n ⟨key, .returned answer⟩).get? m = some u → u.stage.gate? ≠ some g := by
    intro m u hm hu
    have hs := hinside g
    have hone : weight g u ≤ inside { c.put n key (.returned answer) with
        listed := c.listed.erase key, gates := c.gates.erase g } g := Table.le_sum (f := fun _ u => weight g u) hm
    rw [weight_of_eq hu] at hone
    rw [weight_of_eq hstage, weight_of_none rfl] at hs
    omega
  have hne : ∀ {k g'}, (c.listed.erase key).get? k = some g' → c.listed.get? k = some g' ∧ g ≠ g' := by
    intro k g' hk
    rw [Table.get?_erase, Option.ite_none_left_eq_some] at hk
    refine ⟨hk.2, fun he => hk.1 ?_⟩
    exact h.apart key k g hl (he ▸ hk.2)
  have hentered : ∀ m u g', (c.calls.insert n ⟨key, .returned answer⟩).get? m = some u → u.stage.gate? = some g' →
      c.calls.get? m = some u ∧ g ≠ g' := by
    intro m u g' hm hu
    refine ⟨?_, fun he => hothers m u hm (he ▸ hu)⟩
    rcases Table.of_get?_insert hm with ⟨-, rfl⟩ | ⟨-, hm⟩
    · cases hu
    · exact hm
  refine ⟨?_, ?_, ?_, ?_, ?_, h.numbered_insert hn⟩
  · intro m u g' hm hu
    obtain ⟨hold, hgg⟩ := hentered m u g' hm hu
    have hlisted := h.entered m u g' hold hu
    show (c.listed.erase key).get? u.key = some g'
    rw [Table.get?_erase, if_neg]
    · exact hlisted
    · intro he
      rw [← he, hl] at hlisted
      exact hgg (Option.some.inj hlisted)
  · intro k g' hk
    obtain ⟨hold, hgg⟩ := hne hk
    obtain ⟨gate, hgate, howners⟩ := h.owned k g' hold
    have hs := hinside g'
    rw [weight_of_gate hstage hgg, weight_of_none rfl] at hs
    refine ⟨gate, ?_, by omega⟩
    show (c.gates.erase g).get? g' = some gate
    rw [Table.get?_erase, if_neg hgg]
    exact hgate
  · intro k k' g' hk hk'
    exact h.apart k k' g' (hne hk).1 (hne hk').1
  · intro k g' hk
    exact h.fresh k g' (hne hk).1
  · intro m u g' gate hm hu ht hgate
    obtain ⟨hold, hgg⟩ := hentered m u g' hm hu
    have hgate : (c.gates.erase g).get? g' = some gate := hgate
    rw [Table.get?_erase, if_neg hgg] at hgate
    exact h.held m u g' gate hold hu ht hgate

theorem Gated.leave (h : c.Gated) {answer : CacheAnswer γ ε} (hn : c.calls.get? n = some ⟨key, .leaving g answer⟩) :
    (c.leave n key g answer).Gated := by
  have hl : c.listed.get? key = some g := h.entered n ⟨key, .leaving g answer⟩ g hn rfl
  obtain ⟨gate, hgate, howners⟩ := h.owned key g hl
  unfold ClientCache.leave
  rw [hgate, Option.getD_some]
  dsimp only
  -- two owners are the list and the call that leaves
  by_cases hlast : gate.owners ≤ 2
  · rw [if_pos ⟨hlast, hl⟩]
    exact h.retire hn rfl (by omega)
  · rw [if_neg fun hc => hlast hc.1]
    refine h.recount hn hl hgate (fun g' hg' => (Option.some.inj hg').symm) nofun rfl ?_
    have hleaving : weight g (⟨key, .leaving g answer⟩ : CacheCall γ ε) = 1 := weight_of_eq rfl
    have hreturned : weight g (⟨key, .returned answer⟩ : CacheCall γ ε) = 0 := weight_of_none rfl
    omega

theorem gated_move (h : c.Gated) (m : Move c new d) : d.Gated := by
  cases m with
  | arrive key => exact h.arrive key
  | hit hn hl hs | miss hn hl hs =>
    rcases hs with ⟨rfl, rfl⟩ | ⟨g, rfl, rfl⟩
    · refine h.put hn ?_ ?_ _
      · rfl
      · exact nofun
    · refine h.put hn ?_ ?_ _
      · rfl
      · exact fun _ => rfl
  | enter hn => exact h.enter hn
  | @turn n g key hn hg =>
    refine h.setHolder hn rfl rfl (some n) (fun _ => rfl) fun m u hmn hm hu => ?_
    cases ht : u.stage.hasTurn with
    | false => rfl
    | true =>
      obtain ⟨gate, hgate, -⟩ := h.owned _ g (h.entered m u g hm hu)
      rw [hgate, Option.bind_some, h.held m u g gate hm hu ht hgate] at hg
      cases hg
  | @release n g key answer hn =>
    refine h.setHolder hn rfl rfl none nofun fun m u hmn hm hu => ?_
    cases ht : u.stage.hasTurn with
    | false => rfl
    | true =>
      obtain ⟨gate, hgate, -⟩ := h.owned _ g (h.entered m u g hm hu)
      have hholder := h.held m u g gate hm hu ht hgate
      rw [h.held n _ g gate hn rfl rfl hgate] at hholder
      exact absurd (Option.some.inj hholder).symm hmn
  | built hn hs =>
    rcases hs with ⟨client, rfl, rfl⟩ | ⟨-, rfl⟩
    · exact h.put hn (by rfl) (fun _ => rfl) c.store
    · exact h.put hn (by rfl) (fun _ => rfl) c.store
  | ask hn | keep hn => exact h.put hn (by rfl) (fun _ => rfl) _
  | discard hn he => exact h.put hn (by rfl) (fun _ => rfl) c.store
  | leave hn => exact h.leave hn
  | invalidate i => exact h.onStore _
  | cleanup now => exact h.onStore _

theorem gated_ofConfig (config : CacheConfig) : (ofConfig config : ClientCache γ ε).Gated :=
  ⟨nofun, nofun, nofun, nofun, nofun, nofun⟩

theorem Run.gated (run : Run c es d) (h : c.Gated) : d.Gated := by
  induction run with
  | refl => exact h
  | tail a _ last ih => exact gated_move ih (move_of_perform last)

end ClientCache
end JobRunner
