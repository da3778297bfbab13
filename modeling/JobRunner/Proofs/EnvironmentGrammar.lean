import JobRunner.Proofs.ConfigForms
import JobRunner.Proofs.Numerals
/-!
# What environments are accepted

An environment is accepted when each variable that is looked at is unset, or set to a numeral below its limit with or
without blanks around it; then each field is what its own variable says.  Otherwise the first variable that is set to
something else is reported, as it is set, with the first fault in what blanks surround there.
-/
namespace JobRunner

open Text (Surrounds)
open Text.Decimal (IsNumeral IsFaulty Fault)

namespace Environment

/-- A variable and the limit of what it may be set to. -/
structure Variable where
  name : String
  limit : Nat
  pos : 0 < limit := by decide

variable {env : Environment} {v : Variable} {vs : List Variable} {e : ConfigError} {n : Nat} {a : Option Nat}
  {name : String} {limit : Nat} {α : Type}

/-- The variable is set to a numeral, blanks around it apart. -/
def IsSetTo (env : Environment) (name : String) (n : Nat) : Prop :=
  ∃ raw core, env name = some raw ∧ Surrounds raw.toList core ∧ IsNumeral core n

/-- The variable is unset, or set to a numeral below its limit. -/
def Fits (env : Environment) (v : Variable) : Prop := env v.name = none ∨ ∃ n < v.limit, env.IsSetTo v.name n

/-- The variable is set to something else. -/
def Offends (env : Environment) (v : Variable) (e : ConfigError) : Prop :=
  ∃ raw core fault, env v.name = some raw ∧ Surrounds raw.toList core ∧ IsFaulty v.limit core fault ∧
    e = ⟨v.name, raw, fault⟩

/-- The first variable that is set to something else. -/
def FirstOffends (env : Environment) : List Variable → ConfigError → Prop
  | [], _ => False
  | v :: vs, e => env.Offends v e ∨ env.Fits v ∧ env.FirstOffends vs e

/-- What is asked for is a number of units, or else the default. -/
structure AsksFor (env : Environment) (name : String) (unit default amount : Nat) : Prop where
  unset : env name = none → amount = default
  set : ∀ n, env.IsSetTo name n → amount = n * unit

/-! ## One variable -/

/-- What a variable that fits has to say. -/
def Says (env : Environment) (v : Variable) : Option Nat → Prop
  | none => env v.name = none
  | some n => n < v.limit ∧ env.IsSetTo v.name n

/-- What is surrounded is one thing only. -/
theorem surrounds_unique {text core core' : List Char} (h : Surrounds text core) (h' : Surrounds text core') :
    core = core' :=
  (Text.surrounds_iff.1 h).symm.trans (Text.surrounds_iff.1 h')

theorem surrounds_trim (s : String) : Surrounds s.toList (Text.trim s).toList :=
  Text.surrounds_iff.2 (Text.toList_trim s).symm

/-- A variable is read as what it says. -/
theorem number?_eq_ok_iff {hl : 0 < limit} : env.number? name limit = .ok a ↔ env.Says ⟨name, limit, hl⟩ a := by
  unfold number?
  cases hraw : env name with
  | none =>
    cases a with
    | none => exact ⟨fun _ => hraw, fun _ => rfl⟩
    | some n =>
      refine ⟨nofun, fun ⟨_, raw, _, hset, _⟩ => ?_⟩
      rw [hraw] at hset
      cases hset
  | some raw =>
    cases a with
    | none =>
      constructor
      · intro h
        dsimp only at h
        split at h <;> cases h
      · intro h
        rw [show env name = none from h] at hraw
        cases hraw
    | some n =>
      have hread : Text.Decimal.read limit (Text.trim raw).toList = .ok n ↔ env.Says ⟨name, limit, hl⟩ (some n) := by
        rw [Text.Decimal.read_eq_ok_iff hl, and_comm]
        refine and_congr_right fun _ => ⟨fun h => ⟨raw, _, hraw, surrounds_trim raw, h⟩, ?_⟩
        rintro ⟨raw', core, hset, hcore, h⟩
        cases hset.symm.trans hraw
        rwa [surrounds_unique (surrounds_trim raw) hcore]
      rw [← hread]
      dsimp only
      cases Text.Decimal.read limit (Text.trim raw).toList with
      | ok m => simp
      | error fault => exact ⟨nofun, nofun⟩

/-- A variable that offends is reported. -/
theorem number?_eq_error_iff {hl : 0 < limit} :
    env.number? name limit = .error e ↔ env.Offends ⟨name, limit, hl⟩ e := by
  unfold number?
  cases hraw : env name with
  | none =>
    refine ⟨nofun, fun ⟨raw, _, _, hset, _⟩ => ?_⟩
    rw [hraw] at hset
    cases hset
  | some raw =>
    dsimp only
    cases hread : Text.Decimal.read limit (Text.trim raw).toList with
    | ok m =>
      refine ⟨nofun, fun ⟨raw', core, fault, hset, hcore, hfault, _⟩ => ?_⟩
      cases hset.symm.trans hraw
      rw [surrounds_unique hcore (surrounds_trim raw), ← Text.Decimal.read_eq_error_iff hl, hread] at hfault
      cases hfault
    | error fault =>
      constructor
      · rintro ⟨⟩
        exact ⟨raw, _, fault, hraw, surrounds_trim raw, (Text.Decimal.read_eq_error_iff hl).1 hread, rfl⟩
      · rintro ⟨raw', core, fault', hset, hcore, hfault, rfl⟩
        cases hset.symm.trans hraw
        rw [surrounds_unique hcore (surrounds_trim raw), ← Text.Decimal.read_eq_error_iff hl, hread] at hfault
        cases hfault
        rfl

theorem fits_iff : env.Fits v ↔ ∃ a, env.Says v a := by
  constructor
  · rintro (hunset | ⟨n, hlt, hset⟩)
    · exact ⟨none, hunset⟩
    · exact ⟨some n, hlt, hset⟩
  · rintro ⟨_ | n, h⟩
    · exact .inl h
    · exact .inr ⟨n, h⟩

theorem not_isSetTo (h : env name = none) : ¬ env.IsSetTo name n := by
  rintro ⟨raw, _, hset, -⟩
  rw [h] at hset
  cases hset

/-- A variable is set to one number only. -/
theorem isSetTo_unique {m : Nat} (h : env.IsSetTo name n) (h' : env.IsSetTo name m) : m = n := by
  obtain ⟨raw, core, hraw, hcore, sign, ds, rfl, hsign, -, hds, rfl⟩ := h
  obtain ⟨raw', core', hraw', hcore', sign', ds', rfl, hsign', -, hds', rfl⟩ := h'
  cases hraw.symm.trans hraw'
  have hsame := congrArg Text.Decimal.unsigned (surrounds_unique hcore' hcore)
  rw [Text.Decimal.unsigned_numeral hsign hds, Text.Decimal.unsigned_numeral hsign' hds'] at hsame
  rw [hsame]

/-- What is asked for follows from what the variable says. -/
theorem asksFor_iff (h : env.Says v a) {unit default amount : Nat} :
    env.AsksFor v.name unit default amount ↔ amount = (a.map (· * unit)).getD default := by
  cases a with
  | none => exact ⟨fun hask => hask.unset h, fun heq => ⟨fun _ => heq, fun n hset => absurd hset (not_isSetTo h)⟩⟩
  | some n =>
    obtain ⟨-, hset⟩ := h
    refine ⟨fun hask => hask.set n hset, fun heq => ⟨fun hunset => absurd hset (not_isSetTo hunset), fun m hm => ?_⟩⟩
    rw [heq, isSetTo_unique hset hm]
    rfl

/-! ## Several variables -/

/-- When what comes after a variable reports the first of the variables `vs` that offends, whatever the variable says,
then the whole reports the first of all of them. -/
theorem bind_eq_error_iff {hl : 0 < limit} {f : Option Nat → Except ConfigError α}
    (hf : ∀ a, f a = .error e ↔ env.FirstOffends vs e) :
    (env.number? name limit >>= f) = .error e ↔ env.FirstOffends (⟨name, limit, hl⟩ :: vs) e := by
  show _ ↔ env.Offends ⟨name, limit, hl⟩ e ∨ env.Fits ⟨name, limit, hl⟩ ∧ env.FirstOffends vs e
  rw [fits_iff, ← number?_eq_error_iff]
  simp only [← number?_eq_ok_iff]
  cases env.number? name limit with
  | ok a => simp [bind, Except.bind, hf]
  | error e' => simp [bind, Except.bind]

/-- None of the variables offends if all fit. -/
theorem not_firstOffends (h : ∀ v ∈ vs, env.Fits v) : ¬ env.FirstOffends vs e := by
  induction vs with
  | nil => exact id
  | cons v vs ih =>
    rw [List.forall_mem_cons] at h
    rintro (hv | ⟨-, hvs⟩)
    · obtain ⟨a, ha⟩ := fits_iff.1 h.1
      rw [← number?_eq_ok_iff] at ha
      rw [← number?_eq_error_iff, ha] at hv
      cases hv
    · exact ih h.2 hvs

/-- The first variable that does not fit offends. -/
theorem fits_of_not_firstOffends (h : ∀ e, ¬ env.FirstOffends vs e) : ∀ v ∈ vs, env.Fits v := by
  induction vs with
  | nil => exact nofun
  | cons v vs ih =>
    have hv : env.Fits v := by
      rw [fits_iff]
      cases hread : env.number? v.name v.limit with
      | ok a => exact ⟨a, number?_eq_ok_iff.1 hread⟩
      | error e => exact absurd (.inl (number?_eq_error_iff.1 hread)) (h e)
    exact List.forall_mem_cons.2 ⟨hv, ih fun e he => h e (.inr ⟨hv, he⟩)⟩

/-- What reports the first variable that offends, and nothing else, comes to a value exactly when all fit. -/
theorem exists_ok_iff {x : Except ConfigError α} (hx : ∀ e, x = .error e ↔ env.FirstOffends vs e) :
    (∃ c, x = .ok c) ↔ ∀ v ∈ vs, env.Fits v := by
  constructor
  · rintro ⟨c, rfl⟩
    exact fits_of_not_firstOffends fun e he => nomatch (hx e).2 he
  · intro h
    cases x with
    | ok c => exact ⟨c, rfl⟩
    | error e => exact absurd ((hx e).1 rfl) (not_firstOffends h)

/-- A quantity is the one asked for exactly when it measures so many units. -/
theorem asksFor_measure {τ : Type} {size : τ → Nat} (hinj : Function.Injective size) (hl : 0 < limit)
    (h : env.number? name limit = .ok a) {make : Nat → τ} {unit : Nat} (hmake : ∀ n < limit, size (make n) = n * unit)
    (x d : τ) : env.AsksFor name unit (size d) (size x) ↔ x = (a.map make).getD d := by
  have hsaid : env.Says ⟨name, limit, hl⟩ a := number?_eq_ok_iff.1 h
  rw [asksFor_iff hsaid]
  cases a with
  | none => exact hinj.eq_iff
  | some n =>
    rw [Option.map_some, Option.map_some, Option.getD_some, Option.getD_some, ← hmake n hsaid.1]
    exact hinj.eq_iff

theorem toNat_inj_uint64 : Function.Injective UInt64.toNat := fun _ _ => UInt64.toNat_inj.1

theorem toNat_inj_uint32 : Function.Injective UInt32.toNat := fun _ _ => UInt32.toNat_inj.1

theorem nanos_inj : Function.Injective Duration.nanos := fun _ _ => Duration.ext

theorem toNat_uint64 : ∀ n < UInt64.size, (UInt64.ofNat n).toNat = n * 1 := fun n hn =>
  (UInt64.toNat_ofNat_of_lt' hn).trans (Nat.mul_one n).symm

theorem toNat_uint32 : ∀ n < UInt32.size, (UInt32.ofNat n).toNat = n * 1 := fun n hn =>
  (UInt32.toNat_ofNat_of_lt' hn).trans (Nat.mul_one n).symm

theorem nanos_millis : ∀ n < UInt64.size, (Duration.ofMillis (.ofNat n)).nanos = n * 1000000 := fun _ hn =>
  congrArg (· * 1000000) (UInt64.toNat_ofNat_of_lt' hn)

theorem nanos_secs : ∀ n < UInt64.size, (Duration.ofSecs (.ofNat n)).nanos = n * 1000000000 := fun _ hn =>
  congrArg (· * 1000000000) (UInt64.toNat_ofNat_of_lt' hn)

end Environment

open Environment (AsksFor Says)

namespace OrchestratorConfig

variable {env : Environment} {c : OrchestratorConfig} {e : ConfigError}

/-- The variables in the order in which they are looked at. -/
def consulted : List Environment.Variable :=
  [⟨workersVariable, UInt64.size, by decide⟩, ⟨retryAttemptsVariable, UInt32.size, by decide⟩,
    ⟨retryDelayVariable, UInt64.size, by decide⟩, ⟨pollTimeoutVariable, UInt64.size, by decide⟩,
    ⟨pollTickVariable, UInt64.size, by decide⟩]

/-- Each field is what its own variable asks for: a count, or a time in milliseconds or seconds. -/
structure IsAskedFor (env : Environment) (c : OrchestratorConfig) : Prop where
  workers : env.AsksFor workersVariable 1 4 c.workers.toNat
  attempts : env.AsksFor retryAttemptsVariable 1 3 c.retry.maxAttempts.toNat
  delay : env.AsksFor retryDelayVariable 1000000 5000000000 c.retry.delay.nanos
  timeout : env.AsksFor pollTimeoutVariable 1000000000 300000000000 c.poll.timeout.nanos
  tick : env.AsksFor pollTickVariable 1000000 5000000000 c.poll.tick.nanos

theorem ofEnvironment_eq_error_iff : ofEnvironment env = .error e ↔ env.FirstOffends consulted e := by
  unfold ofEnvironment
  refine Environment.bind_eq_error_iff fun workers => ?_
  refine Environment.bind_eq_error_iff fun attempts => ?_
  refine Environment.bind_eq_error_iff fun delay => ?_
  refine Environment.bind_eq_error_iff fun timeout => ?_
  refine Environment.bind_eq_error_iff fun tick => ?_
  exact ⟨nofun, False.elim⟩

/-- An environment that is accepted asks for one configuration. -/
theorem isAskedFor_iff (h : ofEnvironment env = .ok c) (c' : OrchestratorConfig) : c'.IsAskedFor env ↔ c' = c := by
  obtain ⟨workers, attempts, delay, timeout, tick, hworkers, hattempts, hdelay, htimeout, htick, rfl⟩ :=
    of_ofEnvironment h
  have hworkers := Environment.asksFor_measure Environment.toNat_inj_uint64 (by decide) hworkers
    Environment.toNat_uint64 c'.workers 4
  have hattempts := Environment.asksFor_measure Environment.toNat_inj_uint32 (by decide) hattempts
    Environment.toNat_uint32 c'.retry.maxAttempts 3
  have hdelay := Environment.asksFor_measure Environment.nanos_inj (by decide) hdelay
    Environment.nanos_millis c'.retry.delay (.ofSecs 5)
  have htimeout := Environment.asksFor_measure Environment.nanos_inj (by decide) htimeout
    Environment.nanos_secs c'.poll.timeout (.ofSecs 300)
  have htick := Environment.asksFor_measure Environment.nanos_inj (by decide) htick
    Environment.nanos_millis c'.poll.tick (.ofSecs 5)
  obtain ⟨workers', ⟨attempts', delay'⟩, timeout', tick'⟩ := c'
  rw [mk.injEq, RetryPolicy.mk.injEq, PollPolicy.mk.injEq, ← hworkers, ← hattempts, ← hdelay, ← htimeout, ← htick]
  exact ⟨fun ⟨hw, ha, hd, ht, hk⟩ => ⟨hw, ⟨ha, hd⟩, ht, hk⟩, fun ⟨hw, ⟨ha, hd⟩, ht, hk⟩ => ⟨hw, ha, hd, ht, hk⟩⟩

end OrchestratorConfig

namespace CacheConfig

variable {env : Environment} {c : CacheConfig} {e : ConfigError}

/-- The variables in the order in which they are looked at. -/
def consulted : List Environment.Variable :=
  [⟨capacityVariable, UInt64.size, by decide⟩, ⟨ttlVariable, UInt64.size, by decide⟩]

/-- Each field is what its own variable asks for; no seconds at all stand for no limit. -/
structure IsAskedFor (env : Environment) (c : CacheConfig) : Prop where
  capacity : env.AsksFor capacityVariable 1 100 c.capacity.toNat
  ttl_unset : env ttlVariable = none → c.ttl = some (.ofSecs 1800)
  ttl_zero : env.IsSetTo ttlVariable 0 → c.ttl = none
  ttl_set : ∀ n, env.IsSetTo ttlVariable n → n ≠ 0 → c.ttl.map (·.nanos) = some (n * 1000000000)

theorem ofEnvironment_eq_error_iff : ofEnvironment env = .error e ↔ env.FirstOffends consulted e := by
  unfold ofEnvironment
  refine Environment.bind_eq_error_iff fun capacity => ?_
  refine Environment.bind_eq_error_iff fun ttl => ?_
  exact ⟨nofun, False.elim⟩

/-- An environment that is accepted asks for one configuration. -/
theorem isAskedFor_iff (h : ofEnvironment env = .ok c) (c' : CacheConfig) : c'.IsAskedFor env ↔ c' = c := by
  unfold ofEnvironment at h
  obtain ⟨capacity, hcapacity, h⟩ := exists_of_bind_eq_ok h
  obtain ⟨ttl, httl, h⟩ := exists_of_bind_eq_ok h
  cases h
  have hcapacity := Environment.asksFor_measure Environment.toNat_inj_uint64 (by decide) hcapacity
    Environment.toNat_uint64 c'.capacity 100
  have hsaid : env.Says ⟨ttlVariable, UInt64.size, by decide⟩ ttl := Environment.number?_eq_ok_iff.1 httl
  obtain ⟨capacity', ttl'⟩ := c'
  rw [mk.injEq, ← hcapacity]
  constructor
  · rintro ⟨hc, hunset, hzero, hset⟩
    refine ⟨hc, ?_⟩
    match ttl, hsaid with
    | none, hsaid => exact hunset hsaid
    | some 0, hsaid => exact hzero hsaid.2
    | some (n + 1), hsaid =>
      obtain ⟨d, hd, hnanos⟩ := Option.map_eq_some_iff.1 (hset _ hsaid.2 (Nat.succ_ne_zero n))
      rw [show ttl' = some d from hd]
      exact congrArg some (Duration.ext (hnanos.trans (Environment.nanos_secs _ hsaid.1).symm))
  · rintro ⟨hc, rfl⟩
    refine ⟨hc, ?_, ?_, ?_⟩
    · intro hunset
      cases ttl with
      | none => rfl
      | some n => exact absurd hsaid.2 (Environment.not_isSetTo hunset)
    · intro hset
      cases ttl with
      | none => exact absurd hset (Environment.not_isSetTo hsaid)
      | some n =>
        cases Environment.isSetTo_unique hset hsaid.2
        rfl
    · intro m hset hm
      match ttl, hsaid with
      | none, hsaid => exact absurd hset (Environment.not_isSetTo hsaid)
      | some 0, hsaid => exact absurd (Environment.isSetTo_unique hsaid.2 hset) hm
      | some (n + 1), hsaid =>
        cases Environment.isSetTo_unique hsaid.2 hset
        exact congrArg some (Environment.nanos_secs _ hsaid.1)

end CacheConfig

namespace Environment

/-- **What environments are accepted.**  An environment gives a configuration of jobs exactly when each of its five
variables is unset or set to a numeral below its limit, and then it gives the one that the variables ask for, field by
field.  Otherwise the first of them that is set to something else is reported, with what it is set to and the first
fault in it.  So it is for the two variables of kept clients. -/
theorem accepted_exactly (env : Environment) :
    ((∃ c, OrchestratorConfig.ofEnvironment env = .ok c) ↔ ∀ v ∈ OrchestratorConfig.consulted, env.Fits v) ∧
    (∀ c, OrchestratorConfig.ofEnvironment env = .ok c ↔
      (∀ v ∈ OrchestratorConfig.consulted, env.Fits v) ∧ c.IsAskedFor env) ∧
    (∀ e, OrchestratorConfig.ofEnvironment env = .error e ↔ env.FirstOffends OrchestratorConfig.consulted e) ∧
    ((∃ c, CacheConfig.ofEnvironment env = .ok c) ↔ ∀ v ∈ CacheConfig.consulted, env.Fits v) ∧
    (∀ c, CacheConfig.ofEnvironment env = .ok c ↔ (∀ v ∈ CacheConfig.consulted, env.Fits v) ∧ c.IsAskedFor env) ∧
    ∀ e, CacheConfig.ofEnvironment env = .error e ↔ env.FirstOffends CacheConfig.consulted e := by
  have hjobs : (∃ c, OrchestratorConfig.ofEnvironment env = .ok c) ↔ _ :=
    exists_ok_iff fun _ => OrchestratorConfig.ofEnvironment_eq_error_iff
  have hclients : (∃ c, CacheConfig.ofEnvironment env = .ok c) ↔ _ :=
    exists_ok_iff fun _ => CacheConfig.ofEnvironment_eq_error_iff
  refine ⟨hjobs, fun c => ⟨fun hc => ?_, fun ⟨hfits, hasked⟩ => ?_⟩,
    fun e => OrchestratorConfig.ofEnvironment_eq_error_iff, hclients,
    fun c => ⟨fun hc => ?_, fun ⟨hfits, hasked⟩ => ?_⟩, fun e => CacheConfig.ofEnvironment_eq_error_iff⟩
  · exact ⟨hjobs.1 ⟨c, hc⟩, (OrchestratorConfig.isAskedFor_iff hc c).2 rfl⟩
  · obtain ⟨c', hc'⟩ := hjobs.2 hfits
    rw [hc', (OrchestratorConfig.isAskedFor_iff hc' c).1 hasked]
  · exact ⟨hclients.1 ⟨c, hc⟩, (CacheConfig.isAskedFor_iff hc c).2 rfl⟩
  · obtain ⟨c', hc'⟩ := hclients.2 hfits
    rw [hc', (CacheConfig.isAskedFor_iff hc' c).1 hasked]

/-- An environment in which the number of workers has a sign, zeros in front and blanks around it, the number of
attempts is one more than 32 bits hold, the delay is no numeral, and clients are kept without limit. -/
def overdone : Environment := fun name =>
  let bindings := [("FLEETOPS_WORKERS", "\u2003+007\n"), ("FLEETOPS_RETRY_ATTEMPTS", " 4294967296 "),
    ("FLEETOPS_RETRY_DELAY_MS", "-1"), ("FLEETOPS_CACHE_TTL_SECS", "+00")]
  (bindings.find? fun binding => binding.1 == name).map (·.2)

/-- It is the number of attempts that is reported; the clients are not concerned. -/
theorem accepted_exactly_overdone :
    overdone.IsSetTo "FLEETOPS_WORKERS" 7 ∧
      overdone.FirstOffends OrchestratorConfig.consulted ⟨"FLEETOPS_RETRY_ATTEMPTS", " 4294967296 ", .tooLarge⟩ ∧
      (¬ ∃ c, OrchestratorConfig.ofEnvironment overdone = .ok c) ∧
      (⟨100, none⟩ : CacheConfig).IsAskedFor overdone := by
  obtain ⟨-, -, hreported, -, hclients, -⟩ := accepted_exactly overdone
  have hworkers : overdone.number? "FLEETOPS_WORKERS" UInt64.size = .ok (some 7) := by with_unfolding_all rfl
  have herror : OrchestratorConfig.ofEnvironment overdone =
      .error ⟨"FLEETOPS_RETRY_ATTEMPTS", " 4294967296 ", .tooLarge⟩ := by
    with_unfolding_all rfl
  have hcache : CacheConfig.ofEnvironment overdone = .ok ⟨100, none⟩ := by with_unfolding_all rfl
  have hsaid : overdone.Says ⟨"FLEETOPS_WORKERS", UInt64.size, by decide⟩ (some 7) := number?_eq_ok_iff.1 hworkers
  refine ⟨hsaid.2, (hreported _).1 herror, ?_, ((hclients _).1 hcache).2⟩
  rintro ⟨c, hc⟩
  rw [herror] at hc
  cases hc

end Environment
end JobRunner
