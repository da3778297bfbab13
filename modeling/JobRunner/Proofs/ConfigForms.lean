import JobRunner.Proofs.WireForms
/-!
# Configurations on the wire

A configuration that an environment asks for may be written down and read again.  Lengths of time under which jobs run
are written in whole milliseconds of 64 bits.  Those that the environment gives in milliseconds fit, and so do the
defaults; but a time-out is given in seconds, and 64 bits hold more seconds than they hold milliseconds.  A time-out that
is too long comes back as what is left of it beyond a multiple of `2 ^ 64` milliseconds.  How long clients are kept is
written in full and always comes back.
-/
namespace JobRunner

open Wire (decode? encode)

namespace Duration

variable {d : Duration}

/-- The whole milliseconds are all of the duration. -/
theorem ofMillis_millis_iff : ofMillis d.millis = d ↔ d.nanos % 1000000 = 0 ∧ d.nanos / 1000000 < UInt64.size := by
  rw [Duration.ext_iff]
  show (UInt64.ofNat (d.nanos / 1000000)).toNat * 1000000 = d.nanos ↔ _
  rw [UInt64.toNat_ofNat', UInt64.size]
  omega

theorem ofMillis_millis_ofMillis (ms : UInt64) : ofMillis (ofMillis ms).millis = ofMillis ms :=
  congrArg ofMillis (millis_ofMillis ms)

theorem ofMillis_millis_ofSecs_iff {s : UInt64} :
    ofMillis (ofSecs s).millis = ofSecs s ↔ s.toNat * 1000 < UInt64.size := by
  rw [ofMillis_millis_iff]
  show s.toNat * 1000000000 % 1000000 = 0 ∧ s.toNat * 1000000000 / 1000000 < UInt64.size ↔ _
  omega

theorem ofMillis?_toMillis (d : Duration) : ofMillis? d.toMillis = some (ofMillis d.millis) :=
  congrArg (Option.map ofMillis) (Wire.isFaithful_uint64 d.millis)

end Duration

/-- A retry policy whose delay is given in milliseconds is read again. -/
theorem RetryPolicy.decode?_encode_ofMillis {p : RetryPolicy} {ms : UInt64} (h : p.delay = .ofMillis ms) :
    decode? (encode p) = some p := by
  refine RetryPolicy.decode?_encode ((Duration.ofMillis?_toMillis _).trans ?_)
  rw [h, Duration.ofMillis_millis_ofMillis]

/-- What is read again of a poll policy. -/
theorem PollPolicy.decode?_encode_millis (p : PollPolicy) :
    decode? (encode p) = some (⟨.ofMillis p.timeout.millis, .ofMillis p.tick.millis⟩ : PollPolicy) := by
  refine (decode?_obj p.timeout.toMillis p.tick.toMillis).trans ?_
  rw [Duration.ofMillis?_toMillis, Duration.ofMillis?_toMillis]
  rfl

namespace Environment

variable {env : Environment} {name : String} {limit n : Nat}

/-- A number that a variable is set to is below the limit. -/
theorem number?_lt (hl : 0 < limit) (h : env.number? name limit = .ok (some n)) : n < limit := by
  unfold number? at h
  split at h
  · cases h
  · split at h
    case h_1 hread =>
      cases h
      exact Text.Decimal.read_lt hl hread
    case h_2 => cases h

end Environment

theorem exists_of_bind_eq_ok {ε α β : Type} {x : Except ε α} {f : α → Except ε β} {b : β} (h : x >>= f = .ok b) :
    ∃ a, x = .ok a ∧ f a = .ok b := by
  cases x with
  | error e => cases h
  | ok a => exact ⟨a, rfl, h⟩

namespace OrchestratorConfig

variable {env : Environment} {c : OrchestratorConfig}

/-- What an environment that is not refused asks for. -/
theorem of_ofEnvironment (h : ofEnvironment env = .ok c) : ∃ workers attempts delay timeout tick,
    env.number? workersVariable UInt64.size = .ok workers ∧
    env.number? retryAttemptsVariable UInt32.size = .ok attempts ∧
    env.number? retryDelayVariable UInt64.size = .ok delay ∧
    env.number? pollTimeoutVariable UInt64.size = .ok timeout ∧
    env.number? pollTickVariable UInt64.size = .ok tick ∧
    c = {
      workers := (workers.map .ofNat).getD 4
      retry := ⟨(attempts.map .ofNat).getD 3, (delay.map fun ms => .ofMillis (.ofNat ms)).getD (.ofSecs 5)⟩
      poll := ⟨(timeout.map fun s => .ofSecs (.ofNat s)).getD (.ofSecs 300),
        (tick.map fun ms => .ofMillis (.ofNat ms)).getD (.ofSecs 5)⟩ } := by
  unfold ofEnvironment at h
  obtain ⟨workers, hworkers, h⟩ := exists_of_bind_eq_ok h
  obtain ⟨attempts, hattempts, h⟩ := exists_of_bind_eq_ok h
  obtain ⟨delay, hdelay, h⟩ := exists_of_bind_eq_ok h
  obtain ⟨timeout, htimeout, h⟩ := exists_of_bind_eq_ok h
  obtain ⟨tick, htick, h⟩ := exists_of_bind_eq_ok h
  exact ⟨workers, attempts, delay, timeout, tick, hworkers, hattempts, hdelay, htimeout, htick, (Except.ok.inj h).symm⟩

/-- A length of time that is set in milliseconds, or five seconds. -/
theorem exists_millis (ms : Option Nat) :
    ∃ n, (ms.map fun ms => .ofMillis (.ofNat ms)).getD (.ofSecs 5) = Duration.ofMillis n := by
  cases ms with
  | none => exact ⟨5000, rfl⟩
  | some ms => exact ⟨.ofNat ms, rfl⟩

/-- All but the time-out of an accepted configuration is read again. -/
theorem decode?_encode_of_accepted (h : ofEnvironment env = .ok c) :
    decode? (encode c) = some { c with poll := { c.poll with timeout := .ofMillis c.poll.timeout.millis } } := by
  -- the time-out alone may be no number of milliseconds of 64 bits
  have hmillis : (∃ ms, c.retry.delay = .ofMillis ms) ∧ ∃ ms, c.poll.tick = .ofMillis ms := by
    obtain ⟨workers, attempts, delay, timeout, tick, -, -, -, -, -, rfl⟩ := of_ofEnvironment h
    exact ⟨exists_millis delay, exists_millis tick⟩
  obtain ⟨⟨ms, hdelay⟩, ms', htick⟩ := hmillis
  refine (decode?_obj (encode c.workers) (encode c.retry) (encode c.poll)).trans ?_
  rw [Wire.isFaithful_uint64, RetryPolicy.decode?_encode_ofMillis hdelay, PollPolicy.decode?_encode_millis, htick,
    Duration.ofMillis_millis_ofMillis, ← htick]
  rfl

/-- The time-out of an accepted configuration is all there in milliseconds, unless it was set and is too long. -/
theorem timeout_iff (h : ofEnvironment env = .ok c) : Duration.ofMillis c.poll.timeout.millis = c.poll.timeout ↔
    ∀ s, env.number? pollTimeoutVariable UInt64.size = .ok (some s) → s * 1000 < UInt64.size := by
  obtain ⟨workers, attempts, delay, timeout, tick, -, -, -, htimeout, -, rfl⟩ := of_ofEnvironment h
  rw [htimeout]
  cases timeout with
  | none => exact ⟨fun _ => nofun, fun _ => Duration.ofMillis_millis_ofSecs_iff.2 (by decide)⟩
  | some s =>
    have hlt : s < UInt64.size := Environment.number?_lt (by decide) htimeout
    refine Duration.ofMillis_millis_ofSecs_iff.trans ?_
    rw [UInt64.toNat_ofNat_of_lt' hlt]
    constructor
    · rintro hs _ ⟨⟩
      exact hs
    · exact fun hs => hs s rfl

end OrchestratorConfig

/-- **Accepted configurations come back**, but for a time-out that 64 bits do not hold in milliseconds.  Whatever the
environment: a configuration of jobs that it asks for is read again from what is written of it, in all but the time-out,
of which only milliseconds below `2 ^ 64` come back; so it comes back as it was unless the variable of the time-out is set
to too many seconds.  A configuration of kept clients always comes back. -/
theorem Environment.accepted_configs_come_back (env : Environment) :
    (∀ c, OrchestratorConfig.ofEnvironment env = .ok c →
      decode? (encode c) = some { c with poll := { c.poll with timeout := .ofMillis c.poll.timeout.millis } } ∧
      (decode? (encode c) = some c ↔ ∀ s,
        env.number? OrchestratorConfig.pollTimeoutVariable UInt64.size = .ok (some s) → s * 1000 < UInt64.size)) ∧
    ∀ c, CacheConfig.ofEnvironment env = .ok c → decode? (encode c) = some c := by
  refine ⟨fun c hc => ⟨OrchestratorConfig.decode?_encode_of_accepted hc, ?_⟩, fun c _ => CacheConfig.isFaithful c⟩
  rw [← OrchestratorConfig.timeout_iff hc, OrchestratorConfig.decode?_encode_of_accepted hc, Option.some_inj]
  constructor
  · intro heq
    exact congrArg (fun c : OrchestratorConfig => c.poll.timeout) heq
  · intro htimeout
    rw [htimeout]

/-- An environment that sets all variables of jobs, and for how long clients are kept. -/
def Environment.patient (timeout : String) : Environment := fun name =>
  ([("FLEETOPS_WORKERS", "8"), ("FLEETOPS_RETRY_ATTEMPTS", " 5 "), ("FLEETOPS_RETRY_DELAY_MS", "18446744073709551615"),
    ("FLEETOPS_POLL_TIMEOUT_SECS", timeout), ("FLEETOPS_POLL_TICK_MS", "+500"),
    ("FLEETOPS_CACHE_TTL_SECS", "18446744073709551615")].find? fun binding => binding.1 == name).map (·.2)

namespace Environment

/-- The longest time-out that comes back. -/
theorem accepted_configs_come_back_longest : let env := patient "18446744073709551"
    (∃ c, OrchestratorConfig.ofEnvironment env = .ok c ∧ c.poll.timeout = .ofSecs 18446744073709551 ∧
        decode? (encode c) = some c) ∧
      ∃ c, CacheConfig.ofEnvironment env = .ok c ∧ c.ttl = some (.ofSecs 18446744073709551615) ∧
        decode? (encode c) = some c := by
  intro env
  obtain ⟨hjobs, hclients⟩ := accepted_configs_come_back env
  have hset : env.number? OrchestratorConfig.pollTimeoutVariable UInt64.size = .ok (some 18446744073709551) := by
    with_unfolding_all rfl
  have hconfig : OrchestratorConfig.ofEnvironment env = .ok ⟨8, ⟨5, .ofMillis 18446744073709551615⟩,
      ⟨.ofSecs 18446744073709551, .ofMillis 500⟩⟩ := by
    with_unfolding_all rfl
  have hcache : CacheConfig.ofEnvironment env = .ok ⟨100, some (.ofSecs 18446744073709551615)⟩ := by
    with_unfolding_all rfl
  refine ⟨⟨_, hconfig, rfl, (hjobs _ hconfig).2.2 fun s hs => ?_⟩, _, hcache, rfl, hclients _ hcache⟩
  cases hset.symm.trans hs
  decide

/-- **A time-out of more milliseconds than 64 bits hold does not come back**: of one that is a second longer than the
longest that does, less than half a second is left. -/
theorem long_timeout_is_lost : ∃ c c' : OrchestratorConfig,
    OrchestratorConfig.ofEnvironment (patient "18446744073709552") = .ok c ∧ c.poll.timeout = .ofSecs 18446744073709552 ∧
      decode? (encode c) = some c' ∧ c'.poll.timeout = .ofMillis 384 ∧ c' ≠ c := by
  have hconfig : OrchestratorConfig.ofEnvironment (patient "18446744073709552") =
      .ok ⟨8, ⟨5, .ofMillis 18446744073709551615⟩, ⟨.ofSecs 18446744073709552, .ofMillis 500⟩⟩ := by
    with_unfolding_all rfl
  refine ⟨_, _, hconfig, rfl, OrchestratorConfig.decode?_encode_of_accepted hconfig, by decide, fun heq => ?_⟩
  have htimeout := congrArg (fun c : OrchestratorConfig => c.poll.timeout) heq
  exact absurd htimeout (by decide)

end Environment
end JobRunner
