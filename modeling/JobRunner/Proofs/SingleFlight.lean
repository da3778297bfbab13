import JobRunner.Proofs.CacheGates
/-!
# One construction for all callers

While a key is left alone, in that its client is neither invalidated nor expired nor evicted, and whatever is built for
it is built without failure, the key goes through three states: there is no client; a client is being built or about to
be kept; there is a client.  Calls that begin in such a time get that one client, and it is built once at most.
-/
namespace JobRunner

/-- The call does not depend on what is being built: it has not had its turn, or is about to look again. -/
def CacheStage.isOutside {γ ε : Type} : CacheStage γ ε → Bool
  | arriving | entering | queueing _ | rechecking _ => true
  | _ => false

def CacheStage.answer? {γ ε : Type} : CacheStage γ ε → Option (CacheAnswer γ ε)
  | releasing _ answer | leaving _ answer | returned answer => some answer
  | _ => none

/-- The builder of a call for the key begins. -/
def CacheEvent.asks {γ ε : Type} (key : CacheKey) : CacheEvent γ ε → Bool
  | asked _ k => k == key
  | _ => false

/-- The event is none of those that disturb a key. -/
def CacheEvent.isCalm {γ ε : Type} (key : CacheKey) : CacheEvent γ ε → Bool
  | invalidated _ => false
  | expired k | evicted k => k != key
  | built _ _ (.client _) => true
  | built _ k _ => k != key
  | _ => true

def CacheEvent.isArrival {γ ε : Type} (n : Nat) (key : CacheKey) : CacheEvent γ ε → Bool
  | arrived m k => m == n && k == key
  | _ => false

namespace ClientCache

variable {γ ε : Type} {c d : ClientCache γ ε} {new es : List (CacheEvent γ ε)} {n : Nat} {key : CacheKey}

/-- No call for the key is in progress. -/
def Quiet (key : CacheKey) (c : ClientCache γ ε) : Prop :=
  ∀ n call, c.calls.get? n = some call → call.key = key → ∃ answer, call.stage = .returned answer

/-- Nothing was invalidated, the client of the key neither expired nor made room for another, and no builder for it
failed. -/
structure Undisturbed (key : CacheKey) (es : List (CacheEvent γ ε)) : Prop where
  valid : ∀ i, CacheEvent.invalidated i ∉ es
  fresh : CacheEvent.expired key ∉ es
  kept : CacheEvent.evicted key ∉ es
  built : ∀ n answer, CacheEvent.built n key answer ∈ es → ∃ client, answer = .client client

theorem Undisturbed.left (h : Undisturbed key (es ++ new)) : Undisturbed key es :=
  ⟨fun i hi => h.valid i (List.mem_append_left _ hi), fun he => h.fresh (List.mem_append_left _ he),
    fun he => h.kept (List.mem_append_left _ he), fun n a ha => h.built n a (List.mem_append_left _ ha)⟩

theorem Undisturbed.right (h : Undisturbed key (es ++ new)) : Undisturbed key new :=
  ⟨fun i hi => h.valid i (List.mem_append_right _ hi), fun he => h.fresh (List.mem_append_right _ he),
    fun he => h.kept (List.mem_append_right _ he), fun n a ha => h.built n a (List.mem_append_right _ ha)⟩

/-- A call that returned before, or has not come to know about the client. -/
def Idle (base n : Nat) (stage : CacheStage γ ε) : Prop :=
  n < base ∧ (∃ answer, stage = .returned answer) ∨ stage.isOutside = true

/-- All calls for the key stand in a place of some kind. -/
def Stand (key : CacheKey) (c : ClientCache γ ε) (P : Nat → CacheStage γ ε → Prop) : Prop :=
  ∀ n call, c.calls.get? n = some call → call.key = key → P n call.stage

/-- The three states of a key that is left alone. -/
inductive Flight (key : CacheKey) (base : Nat) (es : List (CacheEvent γ ε)) (c : ClientCache γ ε) : Prop where
  | absent (asked : es.countP (CacheEvent.asks key) = 0) (store : c.store.client? key = none)
    (calls : Stand key c fun n stage => Idle base n stage ∨ ∃ g, stage = .missing g)
  | filling (m : Nat) (stage : CacheStage γ ε) (asked : es.countP (CacheEvent.asks key) = 1)
    (store : c.store.client? key = none) (hm : c.calls.get? m = some ⟨key, stage⟩)
    (hs : ∃ g, stage = .building g c.store.epoch ∨ ∃ client, stage = .keeping g c.store.epoch client)
    (calls : Stand key c fun n stage => n = m ∨ Idle base n stage)
  | present (client : γ) (asked : es.countP (CacheEvent.asks key) ≤ 1) (store : c.store.client? key = some client)
    (calls : Stand key c fun n stage => Idle base n stage ∨ stage.answer? = some (.client client))

theorem Flight.asked_le {base : Nat} (h : Flight key base es c) : es.countP (CacheEvent.asks key) ≤ 1 := by
  cases h with
  | absent asked => omega
  | filling m stage asked => omega
  | present client asked => exact asked

theorem stand_put {P Q : Nat → CacheStage γ ε → Prop} {next : CacheStage γ ε} (h : Stand key c P)
    (hd : d.calls = c.calls.insert n ⟨key, next⟩)
    (hpq : ∀ m u, m ≠ n → c.calls.get? m = some u → u.key = key → P m u.stage → Q m u.stage) (hn : Q n next) :
    Stand key d Q := by
  intro m u hm hu
  rw [hd] at hm
  rcases Table.of_get?_insert hm with ⟨rfl, rfl⟩ | ⟨hne, hm⟩
  · exact hn
  · exact hpq m u hne hm hu (h m u hm hu)

theorem isFilling_of_since {stage : CacheStage γ ε} {epoch : Nat}
    (h : ∃ g, stage = .building g epoch ∨ ∃ client, stage = .keeping g epoch client) : stage.isFilling = true := by
  obtain ⟨g, rfl | ⟨client, rfl⟩⟩ := h
  · rfl
  · rfl

theorem hasTurn_of_isFilling {stage : CacheStage γ ε} (h : stage.isFilling = true) : stage.hasTurn = true := by
  cases stage with
  | building | keeping => rfl
  | _ => cases h

/-- Who has the turn at the gate of a key and does not fill it keeps others from filling it. -/
theorem isFilling_eq_false_of_hasTurn {m : Nat} {stage st : CacheStage γ ε} (hg : c.Gated)
    (hn : c.calls.get? n = some ⟨key, stage⟩) (ht : stage.hasTurn = true) (hf : stage.isFilling = false)
    (hm : c.calls.get? m = some ⟨key, st⟩) : st.isFilling = false := by
  cases hs : st.isFilling with
  | false => rfl
  | true =>
    obtain rfl := hg.one hn hm rfl ht (hasTurn_of_isFilling hs)
    rw [hn] at hm
    cases hm
    rw [hs] at hf
    cases hf

/-- Calls that are new or changed know nothing about the client, and calls that fill the key stay as they are. -/
theorem Flight.mono {base : Nat} (h : Flight key base es c) (hnew : new.countP (CacheEvent.asks key) = 0)
    (hstore : d.store.client? key = c.store.client? key) (hepoch : d.store.epoch = c.store.epoch)
    (hcalls : ∀ m u, d.calls.get? m = some u → u.key = key → c.calls.get? m = some u ∨ u.stage.isOutside = true)
    (hfill : ∀ m u, c.calls.get? m = some u → u.key = key → u.stage.isFilling = true → d.calls.get? m = some u) :
    Flight key base (es ++ new) d := by
  have hcount : (es ++ new).countP (CacheEvent.asks key) = es.countP (CacheEvent.asks key) := by
    rw [List.countP_append, hnew, Nat.add_zero]
  have hstand : ∀ P : Nat → CacheStage γ ε → Prop, (∀ m stage, stage.isOutside = true → P m stage) → Stand key c P →
      Stand key d P := by
    intro P hout hp m u hm hu
    rcases hcalls m u hm hu with hold | ho
    · exact hp m u hold hu
    · exact hout m u.stage ho
  cases h with
  | absent asked store calls =>
    refine .absent ?_ ?_ (hstand _ (fun _ _ ho => .inl (.inr ho)) calls)
    · rw [hcount, asked]
    · rw [hstore, store]
  | filling m st asked store hm hs calls =>
    refine .filling m st ?_ ?_ ?_ ?_ (hstand _ (fun _ _ ho => .inr (.inr ho)) calls)
    · rw [hcount, asked]
    · rw [hstore, store]
    · exact hfill m _ hm rfl (isFilling_of_since hs)
    · rw [hepoch]
      exact hs
  | present client asked store calls =>
    refine .present client ?_ ?_ (hstand _ (fun _ _ ho => .inl (.inr ho)) calls)
    · rw [hcount]
      exact asked
    · rw [hstore, store]

/-- A call of another key goes on, or one that neither knows nor comes to know about the client. -/
theorem Flight.step {base : Nat} {k : CacheKey} {stage next : CacheStage γ ε} (h : Flight key base es c)
    (hn : c.calls.get? n = some ⟨k, stage⟩) (hd : d.calls = c.calls.insert n ⟨k, next⟩)
    (hk : k = key → stage.isFilling = false ∧ next.isOutside = true) (hnew : new.countP (CacheEvent.asks key) = 0)
    (hstore : d.store.client? key = c.store.client? key) (hepoch : d.store.epoch = c.store.epoch) :
    Flight key base (es ++ new) d := by
  refine h.mono hnew hstore hepoch (fun m u hm hu => ?_) (fun m u hm hu hf => ?_)
  · rw [hd] at hm
    rcases Table.of_get?_insert hm with ⟨-, rfl⟩ | ⟨-, hm⟩
    · exact .inr (hk hu).2
    · exact .inl hm
  · have hne : n ≠ m := by
      rintro rfl
      rw [hn] at hm
      cases hm
      rw [(hk hu).1] at hf
      cases hf
    rw [hd, Table.get?_insert_ne hne]
    exact hm

/-! ## In which state a call of the key finds it -/

theorem not_idle {base : Nat} {stage : CacheStage γ ε} (ho : stage.isOutside = false)
    (hr : ∀ answer, stage ≠ .returned answer) : ¬ Idle base n stage := by
  rintro (⟨-, answer, h⟩ | h)
  · exact hr answer h
  · rw [ho] at h
    cases h

theorem Flight.of_missing {base g : Nat} (h : Flight key base es c) (hg : c.Gated)
    (hn : c.calls.get? n = some ⟨key, .missing g⟩) :
    es.countP (CacheEvent.asks key) = 0 ∧ c.store.client? key = none ∧
      Stand key c fun n stage => Idle base n stage ∨ ∃ g, stage = .missing g := by
  cases h with
  | absent asked store calls => exact ⟨asked, store, calls⟩
  | filling m st asked store hm hs calls =>
    have hf := isFilling_eq_false_of_hasTurn hg hn rfl rfl hm
    rw [isFilling_of_since hs] at hf
    cases hf
  | present client asked store calls =>
    rcases calls n _ hn rfl with hi | ha
    · exact absurd hi (not_idle rfl nofun)
    · cases ha

theorem Flight.of_filling {base : Nat} {stage : CacheStage γ ε} (h : Flight key base es c)
    (hn : c.calls.get? n = some ⟨key, stage⟩) (hf : stage.isFilling = true) :
    es.countP (CacheEvent.asks key) = 1 ∧ c.store.client? key = none ∧
      (∃ g, stage = .building g c.store.epoch ∨ ∃ client, stage = .keeping g c.store.epoch client) ∧
      Stand key c fun m stage => m = n ∨ Idle base m stage := by
  have hidle : ¬ Idle base n stage := by
    cases stage with
    | building | keeping => exact not_idle rfl nofun
    | _ => cases hf
  cases h with
  | absent asked store calls =>
    rcases calls n _ hn rfl with hi | ⟨g, hm⟩
    · exact absurd hi hidle
    · have hm : stage = .missing g := hm
      rw [hm] at hf
      cases hf
  | filling m st asked store hm hs calls =>
    rcases calls n _ hn rfl with rfl | hi
    · rw [hn] at hm
      cases hm
      exact ⟨asked, store, hs, calls⟩
    · exact absurd hi hidle
  | present client asked store calls =>
    rcases calls n _ hn rfl with hi | ha
    · exact absurd hi hidle
    · have ha : stage.answer? = some (.client client) := ha
      cases stage with
      | building | keeping => cases ha
      | _ => cases hf

theorem Flight.of_answer {base : Nat} {stage : CacheStage γ ε} {answer : CacheAnswer γ ε} (h : Flight key base es c)
    (hn : c.calls.get? n = some ⟨key, stage⟩) (ha : stage.answer? = some answer)
    (hr : ∀ answer, stage ≠ .returned answer) :
    ∃ client, answer = .client client ∧ es.countP (CacheEvent.asks key) ≤ 1 ∧ c.store.client? key = some client ∧
      Stand key c fun n stage => Idle base n stage ∨ stage.answer? = some (.client client) := by
  have hidle : ¬ Idle base n stage := by
    cases stage with
    | releasing | leaving => exact not_idle rfl nofun
    | returned answer => exact absurd rfl (hr answer)
    | _ => cases ha
  cases h with
  | absent asked store calls =>
    rcases calls n _ hn rfl with hi | ⟨g, hm⟩
    · exact absurd hi hidle
    · have hm : stage = .missing g := hm
      rw [hm] at ha
      cases ha
  | filling m st asked store hm hs calls =>
    rcases calls n _ hn rfl with rfl | hi
    · rw [hn] at hm
      cases hm
      obtain ⟨g, rfl | ⟨client, rfl⟩⟩ := hs
      · cases ha
      · cases ha
    · exact absurd hi hidle
  | present client asked store calls =>
    rcases calls n _ hn rfl with hi | hc
    · exact absurd hi hidle
    · have hc : stage.answer? = some (.client client) := hc
      rw [ha] at hc
      exact ⟨client, Option.some.inj hc, asked, store, calls⟩

/-! ## Moves -/

theorem countP_lost (l : List CacheKey) {event : CacheKey → CacheEvent γ ε} (h : ∀ k, (event k).asks key = false) :
    (l.map event).countP (CacheEvent.asks key) = 0 := by
  rw [List.countP_eq_zero]
  intro e he
  obtain ⟨k, -, rfl⟩ := List.mem_map.1 he
  rw [h k]
  exact Bool.false_ne_true

theorem client?_of_seen {s s' : ClientStore γ} {event : CacheKey → CacheEvent γ ε}
    (hk : s'.client? key = none ∨ s'.client? key = s.client? key)
    (h : event key ∉ (ClientStore.lost s s').map event) : s'.client? key = s.client? key :=
  ClientStore.client?_of_not_mem_lost hk fun hm => h (List.mem_map_of_mem hm)

theorem Flight.hit {base now : Nat} {next : CacheStage γ ε} {client : γ} {s : ClientStore γ}
    (h : Flight key base es c) (hl : c.store.lookup key now = (some client, s))
    (ha : next.answer? = some (.client client)) :
    Flight key base (es ++ [.hit n key client]) ({ c with store := s }.put n key next) := by
  obtain ⟨hc, hsame, -⟩ := ClientStore.lookup_some hl
  cases h with
  | absent asked store calls =>
    rw [store] at hc
    cases hc
  | filling m st asked store hm hs calls =>
    rw [store] at hc
    cases hc
  | present _ asked store calls =>
    rw [store] at hc
    cases hc
    refine .present client ?_ ((hsame _).trans store) ?_
    · rw [List.countP_append]
      exact asked
    · exact stand_put calls rfl (fun _ _ _ _ _ hp => hp) (.inr ha)

/-- A call that has its turn finds no client, so nobody fills the key. -/
theorem Flight.miss {base g : Nat} {s : ClientStore γ} (h : Flight key base es c) (hg : c.Gated)
    (hn : c.calls.get? n = some ⟨key, .rechecking g⟩) (hsame : s.client? key = c.store.client? key)
    (hnone : s.client? key = none) (hnew : new.countP (CacheEvent.asks key) = 0) :
    Flight key base (es ++ new) ({ c with store := s }.put n key (.missing g)) := by
  cases h with
  | absent asked store calls =>
    refine .absent ?_ hnone ?_
    · rw [List.countP_append, asked, hnew]
    · exact stand_put calls rfl (fun _ _ _ _ _ hp => hp) (.inr ⟨g, rfl⟩)
  | filling m st asked store hm hs calls =>
    have hf := isFilling_eq_false_of_hasTurn hg hn rfl rfl hm
    rw [isFilling_of_since hs] at hf
    cases hf
  | present client asked store calls =>
    rw [hsame, store] at hnone
    cases hnone

theorem Flight.ask {base g : Nat} (h : Flight key base es c) (hg : c.Gated)
    (hn : c.calls.get? n = some ⟨key, .missing g⟩) : Flight key base (es ++ [.asked n key])
      ({ c with store := c.store.miss.2 }.put n key (.building g c.store.epoch)) := by
  obtain ⟨asked, store, calls⟩ := h.of_missing hg hn
  refine .filling n (.building g c.store.epoch) ?_ store (Table.get?_insert_self ..) ⟨g, .inl rfl⟩ ?_
  · rw [List.countP_append, asked]
    simp [CacheEvent.asks]
  -- no other call can be about to have the client built, since it would have its turn as well
  · refine stand_put calls rfl (fun m u hne hm hkey hp => ?_) (.inl rfl)
    rcases hp with hi | ⟨g', hs⟩
    · exact .inr hi
    · have hturn : u.stage.hasTurn = true := by
        rw [hs]
        rfl
      exact absurd (hg.one hm hn hkey hturn rfl) hne

theorem Flight.built {base g epoch : Nat} {client : γ} (h : Flight key base es c)
    (hn : c.calls.get? n = some ⟨key, .building g epoch⟩) :
    Flight key base (es ++ [.built n key (.client client)]) (c.put n key (.keeping g epoch client)) := by
  obtain ⟨asked, store, ⟨g', hs⟩, calls⟩ := h.of_filling hn rfl
  have hepoch : epoch = c.store.epoch := by
    rcases hs with hs | ⟨_, hs⟩
    · cases hs
      rfl
    · cases hs
  subst hepoch
  refine .filling n _ ?_ store (Table.get?_insert_self ..) ⟨g, .inr ⟨client, rfl⟩⟩ ?_
  · rw [List.countP_append, asked]
    rfl
  · exact stand_put calls rfl (fun _ _ _ _ _ hp => hp) (.inl rfl)

/-- The client is kept, and there is nobody else who would keep one. -/
theorem Flight.keep {base g epoch : Nat} {client : γ} {s : ClientStore γ} (h : Flight key base es c)
    (hn : c.calls.get? n = some ⟨key, .keeping g epoch client⟩) (hkept : s.client? key = some client)
    (hnew : new.countP (CacheEvent.asks key) = 0) :
    Flight key base (es ++ new) ({ c with store := s }.put n key (.releasing g (.client client))) := by
  obtain ⟨asked, -, -, calls⟩ := h.of_filling hn rfl
  refine .present client ?_ hkept ?_
  · exact Nat.le_of_eq (by rw [List.countP_append, asked, hnew])
  · refine stand_put calls rfl (fun m u hne _ _ hp => ?_) (.inr rfl)
    exact .inl (hp.resolve_left hne)

theorem Flight.answered {base : Nat} {stage next : CacheStage γ ε} {answer : CacheAnswer γ ε}
    (h : Flight key base es c) (hn : c.calls.get? n = some ⟨key, stage⟩) (ha : stage.answer? = some answer)
    (hr : ∀ answer, stage ≠ .returned answer) (hd : d.calls = c.calls.insert n ⟨key, next⟩)
    (hnext : next.answer? = some answer) (hstore : d.store = c.store) : Flight key base (es ++ []) d := by
  obtain ⟨client, rfl, asked, store, calls⟩ := h.of_answer hn ha hr
  refine .present client ?_ ?_ ?_
  · rw [List.append_nil]
    exact asked
  · rw [hstore, store]
  · exact stand_put calls hd (fun _ _ _ _ _ hp => hp) (.inr hnext)

theorem flight_move {base : Nat} {config : CacheConfig} (h : Flight key base es c) (hg : c.Gated) (hz : Sized config c)
    (hu : Undisturbed key new) (m : Move c new d) : Flight key base (es ++ new) d := by
  cases m with
  | arrive k =>
    have hfree : ∀ m u, c.calls.get? m = some u → c.callsMade ≠ m := fun m u hm he =>
      Nat.lt_irrefl _ (he ▸ hg.numbered m u hm)
    refine h.mono rfl rfl rfl (fun m u hm _ => ?_) (fun m u hm _ _ => ?_)
    · rcases Table.of_get?_insert hm with ⟨-, rfl⟩ | ⟨-, hm⟩
      · exact .inr rfl
      · exact .inl hm
    · exact (Table.get?_insert_ne (hfree m u hm)).trans hm
  | @hit n now k stage next client s hn hl hs =>
    obtain ⟨-, hsame, hshrinks⟩ := ClientStore.lookup_some hl
    by_cases hk : k = key
    · subst hk
      obtain ⟨-, rfl⟩ | ⟨g, -, rfl⟩ := hs
      · exact h.hit hl rfl
      · exact h.hit hl rfl
    · exact h.step hn rfl (fun he => absurd he hk) rfl (hsame key) hshrinks.epoch
  | @miss n now k stage next s hn hl hs =>
    obtain ⟨hnone, hshrinks⟩ := ClientStore.lookup_none hl
    have hsame := client?_of_seen (hshrinks.client key) hu.fresh
    have hcount : ((ClientStore.lost c.store s).map (CacheEvent.expired : CacheKey → CacheEvent γ ε)).countP
        (CacheEvent.asks key) = 0 := countP_lost _ fun _ => rfl
    obtain ⟨rfl, rfl⟩ | ⟨g, rfl, rfl⟩ := hs
    · exact h.step hn rfl (fun _ => ⟨rfl, rfl⟩) hcount hsame hshrinks.epoch
    · by_cases hk : k = key
      · subst hk
        exact h.miss hg hn hsame hnone hcount
      · exact h.step hn rfl (fun he => absurd he hk) hcount hsame hshrinks.epoch
  | @enter n k hn =>
    obtain ⟨g, hcalls⟩ := calls_enter c n k
    exact h.step hn hcalls (fun _ => ⟨rfl, rfl⟩) rfl (by rw [store_enter]) (by rw [store_enter])
  | @turn n g k hn hh =>
    have hcalls := calls_setHolder c g (some n) n k (.rechecking g)
    exact h.step hn hcalls (fun _ => ⟨rfl, rfl⟩) rfl (by rw [store_setHolder]) (by rw [store_setHolder])
  | @ask n g k hn =>
    by_cases hk : k = key
    · subst hk
      exact h.ask hg hn
    · exact h.step hn rfl (fun he => absurd he hk) (by simp [CacheEvent.asks, hk]) rfl rfl
  | @built n g epoch k answer next hn hs =>
    by_cases hk : k = key
    · subst hk
      obtain ⟨client, rfl⟩ := hu.built n answer List.mem_cons_self
      obtain ⟨_, he, rfl⟩ | ⟨hne, -⟩ := hs
      · cases he
        exact h.built hn
      · exact absurd rfl (hne client)
    · exact h.step hn rfl (fun he => absurd he hk) rfl rfl rfl
  | @keep n g now k client hn =>
    have hpos : 0 < c.store.capacity := by
      rw [hz.capacity]
      omega
    obtain ⟨hkept, hothers, hepoch, -, -⟩ := ClientStore.keep_spec k client now hpos hz.size
    have hlost : ((ClientStore.lost c.store (c.store.keep k client c.store.epoch now)).map
        (CacheEvent.evicted : CacheKey → CacheEvent γ ε)).countP (CacheEvent.asks key) = 0 := countP_lost _ fun _ => rfl
    have hcount : ((ClientStore.lost c.store (c.store.keep k client c.store.epoch now)).map CacheEvent.evicted ++
        [(CacheEvent.kept n k client : CacheEvent γ ε)]).countP (CacheEvent.asks key) = 0 := by
      rw [List.countP_append, hlost, Nat.zero_add]
      exact List.countP_cons_of_neg Bool.false_ne_true
    by_cases hk : k = key
    · subst hk
      exact h.keep hn hkept hcount
    · refine h.step hn rfl (fun he => absurd he hk) hcount ?_ hepoch
      exact client?_of_seen (hothers key (Ne.symm hk)) fun he => hu.kept (List.mem_append_left _ he)
  | @discard n g epoch k client hn he =>
    by_cases hk : k = key
    · subst hk
      obtain ⟨-, -, ⟨g', hs⟩, -⟩ := h.of_filling hn rfl
      rcases hs with hs | ⟨_, hs⟩
      · cases hs
      · cases hs
        exact absurd rfl he
    · exact h.step hn rfl (fun he => absurd he hk) rfl rfl rfl
  | @release n g k answer hn =>
    have hcalls := calls_setHolder c g none n k (.leaving g answer)
    by_cases hk : k = key
    · subst hk
      exact h.answered hn rfl nofun hcalls rfl (store_setHolder ..)
    · exact h.step hn hcalls (fun he => absurd he hk) rfl (by rw [store_setHolder]) (by rw [store_setHolder])
  | @leave n g k answer hn =>
    by_cases hk : k = key
    · subst hk
      exact h.answered hn rfl nofun (calls_leave ..) rfl (store_leave ..)
    · exact h.step hn (calls_leave ..) (fun he => absurd he hk) rfl (by rw [store_leave]) (by rw [store_leave])
  | invalidate i => exact absurd List.mem_cons_self (hu.valid i)
  | cleanup now =>
    have hshrinks := ClientStore.shrinks_cleanup now c.store
    refine h.mono (countP_lost _ fun _ => rfl) (client?_of_seen (hshrinks.client key) hu.fresh) hshrinks.epoch ?_ ?_
    · exact fun m u hm _ => .inl hm
    · exact fun m u hm _ _ => hm

/-- **A key that is left alone is in one of the three states**, from a time when no call for it was in progress. -/
theorem Run.flight {config : CacheConfig} {pre : List (CacheEvent γ ε)} (before : Run (ofConfig config) pre c)
    (run : Run c es d) (hq : c.Quiet key) (hu : Undisturbed key es) : Flight key c.callsMade es d := by
  -- the numbers below `c.callsMade` are those of calls that returned before
  induction run with
  | refl =>
    have hidle : Stand key c fun n stage => Idle c.callsMade n stage := by
      intro n call hn hk
      exact .inl ⟨(before.gated (gated_ofConfig config)).numbered n call hn, hq n call hn hk⟩
    cases hc : c.store.client? key with
    | none => exact .absent rfl hc fun n call hn hk => .inl (hidle n call hn hk)
    | some client => exact .present client (Nat.zero_le _) hc fun n call hn hk => .inl (hidle n call hn hk)
  | tail a middle h ih =>
    have run := before.trans middle
    exact flight_move (ih hu.left) (run.gated (gated_ofConfig config)) run.sized hu.right (move_of_perform h)

/-! ## Calls in the course of a run -/

theorem calls_insert {k : CacheKey} {stage next : CacheStage γ ε} {m : Nat} {u : CacheCall γ ε}
    (hn : c.calls.get? n = some ⟨k, stage⟩) (hd : d.calls = c.calls.insert n ⟨k, next⟩)
    (hm : c.calls.get? m = some u) : ∃ u', d.calls.get? m = some u' ∧ u'.key = u.key := by
  rw [hd]
  by_cases he : n = m
  · subst he
    rw [hn] at hm
    cases hm
    exact ⟨⟨k, next⟩, Table.get?_insert_self .., rfl⟩
  · exact ⟨u, (Table.get?_insert_ne he).trans hm, rfl⟩

/-- Calls stay, and new ones get new numbers. -/
theorem calls_move (hg : c.Gated) (m : Move c new d) :
    (∀ n u, c.calls.get? n = some u → ∃ u', d.calls.get? n = some u' ∧ u'.key = u.key) ∧
      ∀ n k, CacheEvent.arrived n k ∈ new → n = c.callsMade ∧ ∃ u, d.calls.get? n = some u ∧ u.key = k := by
  cases m with
  | arrive k =>
    refine ⟨fun n u hn => ⟨u, ?_, rfl⟩, fun n k' h => ?_⟩
    · have hne : c.callsMade ≠ n := fun he => Nat.lt_irrefl _ (he ▸ hg.numbered n u hn)
      exact (Table.get?_insert_ne hne).trans hn
    · cases List.mem_singleton.1 h
      exact ⟨rfl, _, Table.get?_insert_self .., rfl⟩
  | hit hn hl hs => exact ⟨fun n u => calls_insert hn rfl, by simp⟩
  | miss hn hl hs => exact ⟨fun n u => calls_insert hn rfl, by simp⟩
  | @enter n key hn =>
    obtain ⟨g, hcalls⟩ := calls_enter c n key
    exact ⟨fun n u => calls_insert hn hcalls, by simp⟩
  | turn hn | release hn => exact ⟨fun n u => calls_insert hn (calls_setHolder ..), by simp⟩
  | leave hn => exact ⟨fun n u => calls_insert hn (calls_leave ..), by simp⟩
  | ask hn | built hn | keep hn | discard hn => exact ⟨fun n u => calls_insert hn rfl, by simp⟩
  | invalidate | cleanup => exact ⟨fun n u hn => ⟨u, hn, rfl⟩, by simp⟩

theorem callsMade_le (m : Move c new d) : c.callsMade ≤ d.callsMade := by
  cases m with
  | arrive k => exact Nat.le_succ _
  | @enter n key hn =>
    unfold enter
    cases c.listed.get? key with
    | _ => exact Nat.le_refl _
  | turn | release =>
    unfold setHolder
    split
    · exact Nat.le_refl _
    · exact Nat.le_refl _
  | leave =>
    unfold leave
    dsimp only
    split
    · exact Nat.le_refl _
    · exact Nat.le_refl _
  | _ => exact Nat.le_refl _

/-- The calls that arrived in a run are there at its end, with numbers of their own. -/
theorem Run.arrived (run : Run c es d) (hg : c.Gated) : c.callsMade ≤ d.callsMade ∧
    ∀ n k, CacheEvent.arrived n k ∈ es → c.callsMade ≤ n ∧ ∃ u, d.calls.get? n = some u ∧ u.key = k := by
  induction run with
  | refl => exact ⟨Nat.le_refl _, nofun⟩
  | tail a middle h ih =>
    have m := move_of_perform h
    obtain ⟨hstay, hnew⟩ := calls_move (middle.gated hg) m
    refine ⟨Nat.le_trans ih.1 (callsMade_le m), fun n k hk => ?_⟩
    rcases List.mem_append.1 hk with hk | hk
    · obtain ⟨hle, u, hu, rfl⟩ := ih.2 n k hk
      exact ⟨hle, hstay n u hu⟩
    · obtain ⟨rfl, hu⟩ := hnew n k hk
      exact ⟨ih.1, hu⟩

/-- Calls that returned in such a time got the client. -/
theorem Flight.returned {base m : Nat} {call : CacheCall γ ε} {answer : CacheAnswer γ ε} (h : Flight key base es c)
    (hm : c.calls.get? m = some call) (hk : call.key = key) (hb : base ≤ m) (hr : call.stage = .returned answer) :
    ∃ client, c.store.client? key = some client ∧ answer = .client client := by
  have hidle : ¬ Idle base m call.stage := by
    rw [hr]
    rintro (⟨hlt, -⟩ | ho)
    · exact Nat.lt_irrefl _ (Nat.lt_of_lt_of_le hlt hb)
    · cases ho
  cases h with
  | absent asked store calls =>
    rcases calls m call hm hk with hi | ⟨g, hs⟩
    · exact absurd hi hidle
    · rw [hr] at hs
      cases hs
  | filling n stage asked store hn hs calls =>
    rcases calls m call hm hk with rfl | hi
    · rw [hm] at hn
      cases hn
      rw [show stage = .returned answer from hr] at hs
      obtain ⟨g, hs | ⟨client, hs⟩⟩ := hs
      · cases hs
      · cases hs
    · exact absurd hi hidle
  | present client asked store calls =>
    rcases calls m call hm hk with hi | ha
    · exact absurd hi hidle
    · rw [hr] at ha
      exact ⟨client, store, Option.some.inj ha⟩

/-- **One construction for all callers.**  However calls, builders, invalidations and clean-ups come in between each
other: there are never two builders at work for one key; each key has one client at most, and there are no more clients
than the capacity allows.  From a time when no call for a key is in progress to another such time, if the key was left
alone, a builder was asked once at most, and all calls for the key got the same client. -/
theorem single_flight {config : CacheConfig} {pre : List (CacheEvent γ ε)} (before : Run (ofConfig config) pre c) :
    (∀ m n key g g' epoch epoch', c.calls.get? m = some ⟨key, .building g epoch⟩ →
      c.calls.get? n = some ⟨key, .building g' epoch'⟩ → m = n) ∧
    c.store.entries.keys.Nodup ∧ c.store.size ≤ max 1 config.capacity.toNat ∧
    ∀ key es d, Run c es d → c.Quiet key → d.Quiet key → Undisturbed key es →
      es.countP (CacheEvent.asks key) ≤ 1 ∧
      ∀ m n, CacheEvent.arrived m key ∈ es → CacheEvent.arrived n key ∈ es →
        ∃ client, d.answer? m = some (.client client) ∧ d.answer? n = some (.client client) := by
  have hg := before.gated (gated_ofConfig config)
  refine ⟨fun m n key g g' epoch epoch' hm hn => hg.one hm hn rfl rfl rfl, c.store.entries.nodup, ?_, ?_⟩
  · rw [← before.sized.capacity]
    exact before.sized.size
  · intro key es d run hc hd hu
    have hflight := before.flight run hc hu
    have hanswer : ∀ n, CacheEvent.arrived n key ∈ es →
        ∃ client, d.store.client? key = some client ∧ d.answer? n = some (.client client) := by
      intro n hn
      obtain ⟨hbase, u, hu, hkey⟩ := (run.arrived hg).2 n key hn
      obtain ⟨answer, hreturned⟩ := hd n u hu hkey
      obtain ⟨client, hstore, rfl⟩ := hflight.returned hu hkey hbase hreturned
      refine ⟨client, hstore, ?_⟩
      rw [answer?, stage?, hu, Option.map_some, hreturned]
    refine ⟨hflight.asked_le, fun m n hm hn => ?_⟩
    obtain ⟨client, hstore, hclient⟩ := hanswer m hm
    obtain ⟨client', hstore', hclient'⟩ := hanswer n hn
    rw [hstore] at hstore'
    cases hstore'
    exact ⟨client, hclient, hclient'⟩

theorem quiet_of_all (h : (c.calls.entries.all fun e => (answer? e.1 c).isSome) = true) : c.Quiet key := by
  intro n call hn _
  rw [List.all_eq_true] at h
  have hsome := h (n, call) (Table.get?_eq_some_iff.1 hn)
  simp only [answer?, stage?, hn, Option.map_some] at hsome
  cases hs : call.stage with
  | returned answer => exact ⟨answer, rfl⟩
  | _ => rw [hs] at hsome; cases hsome

theorem undisturbed_of_all (h : (es.all (CacheEvent.isCalm key)) = true) : Undisturbed key es := by
  rw [List.all_eq_true] at h
  refine ⟨fun i hi => ?_, fun he => ?_, fun he => ?_, fun n answer ha => ?_⟩
  · exact Bool.false_ne_true (h _ hi)
  · exact bne_iff_ne.1 (h _ he) rfl
  · exact bne_iff_ne.1 (h _ he) rfl
  · cases answer with
    | client client => exact ⟨client, rfl⟩
    | failed | crashed => exact absurd rfl (bne_iff_ne.1 (h _ ha))

theorem arrived_of_any (h : es.any (CacheEvent.isArrival n key) = true) : CacheEvent.arrived n key ∈ es := by
  rw [List.any_eq_true] at h
  obtain ⟨e, he, ha⟩ := h
  cases e with
  | arrived m k =>
    rw [CacheEvent.isArrival, Bool.and_eq_true, beq_iff_eq, beq_iff_eq] at ha
    rw [← ha.1, ← ha.2]
    exact he
  | _ => cases ha

/-- Two callers find nothing and go to the gate; the first has the client built, and the second gets it. -/
theorem single_flight_two_callers : ∃ (es : List (CacheEvent Nat Unit)) (d : ClientCache Nat Unit),
    Run (ofConfig { capacity := 2, ttl := none }) es d ∧ es.countP (CacheEvent.asks ⟨.packages, "a"⟩) ≤ 1 ∧
      ∃ client, d.answer? 0 = some (.client client) ∧ d.answer? 1 = some (.client client) := by
  let key : CacheKey := ⟨.packages, "a"⟩
  let actions : List (Action Nat Unit) := [.arrive key, .arrive key, .step 0 0, .step 1 1, .step 1 2, .step 0 3,
    .step 0 4, .step 0 5, .step 0 6, .report 0 (.client 7), .step 0 7, .step 0 8, .step 1 9, .step 1 10, .step 0 11,
    .step 1 12, .step 1 13]
  have hends : ((follow actions (ofConfig { capacity := 2, ttl := none })).any fun r =>
      (r.2.calls.entries.all fun e => (answer? e.1 r.2).isSome) && r.1.all (CacheEvent.isCalm key) &&
        (r.1.any (CacheEvent.isArrival 0 key) && r.1.any (CacheEvent.isArrival 1 key))) = true := by decide +kernel
  rw [Option.any_eq_true] at hends
  obtain ⟨⟨es, d⟩, hfollow, hend⟩ := hends
  rw [Bool.and_eq_true, Bool.and_eq_true, Bool.and_eq_true] at hend
  obtain ⟨⟨hquiet, hcalm⟩, hfirst, hsecond⟩ := hend
  have run : Run (ofConfig { capacity := 2, ttl := none }) es d := run_of_follow hfollow
  obtain ⟨-, -, -, hstretch⟩ := single_flight (Run.refl (c := ofConfig { capacity := 2, ttl := none }))
  obtain ⟨hasked, hsame⟩ := hstretch key es d run nofun (quiet_of_all hquiet) (undisturbed_of_all hcalm)
  exact ⟨es, d, run, hasked, hsame 0 1 (arrived_of_any hfirst) (arrived_of_any hsecond)⟩

end ClientCache
end JobRunner
