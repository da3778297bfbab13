import JobRunner.Config
import JobRunner.Connection
import JobRunner.Job.Record
import JobRunner.Package.Basic
import JobRunner.Proofs.TimestampText
/-!
# What was read is read again

Reading is lenient and writing has one form: whatever was read from some JSON value is read again, as the same value, from
the form in which it is written.  Most values are read from what is written of them wherever they come from.  Only times
are not: a length of time is written in whole milliseconds in most places, and a point in time may have no text that can
be read; but those that were read do come back.
-/
namespace JobRunner

namespace Labels

theorem place_of_lt {key value : String} : ∀ {l : List (String × String)}, (∀ p ∈ l, p.1 < key) →
    place key value l = l ++ [(key, value)]
  | [], _ => rfl
  | (k, v) :: l, h => by
    rw [List.forall_mem_cons] at h
    rw [place, if_neg fun hlt => String.lt_irrefl _ (String.lt_trans h.1 hlt), if_pos h.1, place_of_lt h.2]
    rfl

theorem entries_foldl_insert : ∀ (bindings : List (String × String)) (l : Labels),
    (l.entries ++ bindings).Pairwise (fun a b => a.1 < b.1) →
      (bindings.foldl (fun l p => l.insert p.1 p.2) l).entries = l.entries ++ bindings
  | [], l, _ => (List.append_nil _).symm
  | p :: bindings, l, h => by
    have hp : place p.1 p.2 l.entries = l.entries ++ [p] :=
      place_of_lt fun q hq => (List.pairwise_append.1 h).2.2 q hq p List.mem_cons_self
    have hinsert : (l.insert p.1 p.2).entries = l.entries ++ [p] := hp
    rw [List.foldl_cons, entries_foldl_insert bindings, hinsert, List.append_assoc]
    · rfl
    · rwa [hinsert, List.append_assoc]

/-- Labels are made again from their bindings. -/
theorem ofList_toList (l : Labels) : ofList l.toList = l :=
  Labels.ext (entries_foldl_insert l.entries empty l.sorted)

end Labels

namespace Wire

variable {α β : Type} [Wire α] [Wire β]

/-- What a value is read from, in whatever form, is read again from the form in which the value is written. -/
def IsNormalising (α : Type) [Wire α] : Prop := ∀ (v : Json) (x : α), decode? v = some x → decode? (encode x) = some x

/-- Every value is read from the form in which it is written. -/
def IsFaithful (α : Type) [Wire α] : Prop := ∀ x : α, decode? (encode x) = some x

theorem IsFaithful.isNormalising (h : IsFaithful α) : IsNormalising α := fun _ x _ => h x

/-! ## Plain values -/

theorem isFaithful_string : IsFaithful String := fun _ => rfl

theorem isFaithful_bool : IsFaithful Bool := fun _ => rfl

theorem isFaithful_jobId : IsFaithful JobId := fun _ => rfl

theorem natBelow?_int {limit n : Nat} (h : n < limit) : natBelow? limit (.int n) = some n := by
  simp [natBelow?, h]

theorem isFaithful_uint8 : IsFaithful UInt8 := fun n => by
  show (natBelow? UInt8.size (.int n.toNat)).map UInt8.ofNat = some n
  rw [natBelow?_int n.toNat_lt, Option.map_some, UInt8.ofNat_toNat]

theorem isFaithful_uint32 : IsFaithful UInt32 := fun n => by
  show (natBelow? UInt32.size (.int n.toNat)).map UInt32.ofNat = some n
  rw [natBelow?_int n.toNat_lt, Option.map_some, UInt32.ofNat_toNat]

theorem isFaithful_uint64 : IsFaithful UInt64 := fun n => by
  show (natBelow? UInt64.size (.int n.toNat)).map UInt64.ofNat = some n
  rw [natBelow?_int n.toNat_lt, Option.map_some, UInt64.ofNat_toNat]

theorem mapM_decode?_members (ps : List (String × String)) :
    ((ps.map fun p => (p.1, Json.str p.2)).mapM fun m => (decode? (α := String) m.2).map fun v => (m.1, v)) =
      some ps := by
  induction ps with
  | nil => rfl
  | cons p ps ih =>
    rw [List.map_cons, List.mapM_cons, ih]
    rfl

theorem isFaithful_labels : IsFaithful Labels := fun l => by
  have hread : decode? (encode l) = (some l.toList).map Labels.ofList :=
    congrArg (Option.map Labels.ofList) (mapM_decode?_members l.toList)
  rw [hread, Option.map_some, Labels.ofList_toList]

theorem isFaithful_targetSystem : IsFaithful TargetSystem := TargetSystem.ofName?_name

theorem isFaithful_resourceKind : IsFaithful ResourceKind := fun k => by cases k <;> decide +kernel

theorem isFaithful_jobStatus : IsFaithful JobStatus := fun s => by cases s <;> decide +kernel

/-! ## Fields of records -/

/-- A field that has to be there is read again. -/
theorem IsNormalising.of_required {field : Option Json} {x : α} (h : IsNormalising α) (hx : required field = some x) :
    decode? (encode x) = some x := by
  obtain ⟨v, -, hv⟩ := Option.bind_eq_some_iff.1 hx
  exact h v x hv

theorem optional_map_str (s : Option String) : optional (s.map .str) = some s := by
  cases s <;> rfl

/-- A value of any kind that may be absent is never read as null, so it is read again. -/
theorem optional_json {field x : Option Json} (hx : optional field = some x) : optional x = some x := by
  cases x with
  | none => rfl
  | some x =>
    cases x with
    | null =>
      unfold optional at hx
      split at hx
      · cases hx
      · cases hx
      · rename_i hnull
        obtain ⟨y, hy, hyx⟩ := Option.map_eq_some_iff.1 hx
        cases hyx
        cases hy
        exact absurd rfl hnull
    | _ => rfl

theorem ofMillis?_toMillis {v : Json} {d : Duration} (h : Duration.ofMillis? v = some d) :
    Duration.ofMillis? d.toMillis = some d := by
  obtain ⟨ms, -, rfl⟩ := Option.map_eq_some_iff.1 h
  have hread : Duration.ofMillis? (Duration.ofMillis ms).toMillis =
      (decode? (encode (Duration.ofMillis ms).millis)).map Duration.ofMillis := rfl
  rw [hread, isFaithful_uint64, Option.map_some, Duration.millis_ofMillis]

theorem decode?_parts (secs nanos : Json) : decode? (α := Duration) (.obj [("secs", secs), ("nanos", nanos)]) =
    (decode? secs).bind fun s => (decode? nanos).bind fun n => Duration.ofParts? s n := rfl

theorem encode_uint64 {n : Nat} (h : n < UInt64.size) : Json.int n = encode (UInt64.ofNat n) := by
  show _ = Json.int (UInt64.ofNat n).toNat
  rw [UInt64.toNat_ofNat_of_lt' h]

theorem encode_uint32 {n : Nat} (h : n < UInt32.size) : Json.int n = encode (UInt32.ofNat n) := by
  show _ = Json.int (UInt32.ofNat n).toNat
  rw [UInt32.toNat_ofNat_of_lt' h]

theorem decode?_ints {s n : Nat} (hs : s < UInt64.size) (hn : n < UInt32.size) :
    decode? (.obj [("secs", .int s), ("nanos", .int n)]) = Duration.ofParts? (.ofNat s) (.ofNat n) := by
  rw [decode?_parts, encode_uint64 hs, encode_uint32 hn, isFaithful_uint64, isFaithful_uint32, Option.bind_some,
    Option.bind_some]

theorem isFaithful_duration : IsFaithful Duration := fun d => by
  have hlt : d.subsecNanos < UInt32.size := Nat.lt_trans (Nat.mod_lt _ (by decide)) (by decide)
  have hsum : d.secs * 1000000000 + d.subsecNanos = d.nanos := by
    unfold Duration.secs Duration.subsecNanos
    omega
  refine (decode?_ints d.secs_lt hlt).trans ?_
  simp only [Duration.ofParts?, UInt64.toNat_ofNat_of_lt' d.secs_lt, UInt32.toNat_ofNat_of_lt' hlt, hsum, d.nanos_lt,
    dif_pos]

theorem isNormalising_timestamp : IsNormalising Timestamp := by
  intro v t h
  cases v with
  | str s => exact Timestamp.ofText?_text (.of_ofText? h)
  | _ => cases h

theorem IsNormalising.list (h : IsNormalising α) : IsNormalising (List α) := by
  intro v xs hxs
  cases v with
  | arr items =>
    have hread : ∀ {items : List Json} {xs : List α}, items.mapM decode? = some xs →
        (xs.map encode).mapM decode? = some xs := by
      intro items
      induction items with
      | nil =>
        rintro _ ⟨⟩
        rfl
      | cons v items ih =>
        intro xs hxs
        simp only [List.mapM_cons, Option.bind_eq_bind, Option.bind_eq_some_iff] at hxs
        obtain ⟨x, hx, rest, hrest, hxs⟩ := hxs
        cases hxs
        rw [List.map_cons, List.mapM_cons, h v x hx, ih hrest]
        rfl
    exact hread hxs
  | _ => cases hxs

end Wire

/-! ## Records

Each record is read field by field from what is written of it, so it comes back if its fields do. -/

open Wire (decode? encode IsNormalising IsFaithful)

theorem LogEntry.decode?_obj (t m : Json) : decode? (.obj [("timestamp", t), ("message", m)]) =
    (decode? t).bind fun t => (decode? m).bind fun m => some (⟨t, m⟩ : LogEntry) := rfl

theorem LogEntry.decode?_encode {e : LogEntry} (ht : decode? (encode e.timestamp) = some e.timestamp) :
    decode? (encode e) = some e := by
  refine (decode?_obj (encode e.timestamp) (encode e.message)).trans ?_
  rw [ht, Wire.isFaithful_string]
  rfl

theorem LogEntry.isNormalising : IsNormalising LogEntry := by
  intro v e h
  simp only [decode?, Option.bind_eq_bind, Option.bind_eq_some_iff] at h
  obtain ⟨fields, -, h⟩ := h
  split at h
  case h_2 => cases h
  simp only [Option.bind_eq_some_iff] at h
  obtain ⟨t, ht, m, -, h⟩ := h
  cases h
  exact decode?_encode (Wire.isNormalising_timestamp.of_required ht)

theorem JobRecord.decode?_objOf (i s p m l : Json) (res err : Option Json) (labels c u : Json) :
    decode? (.objOf [("id", some i), ("status", some s), ("progress", some p), ("message", some m), ("logs", some l),
      ("result", res), ("error", err), ("metadata", some labels), ("created_at", some c), ("updated_at", some u)]) =
    (do
      let i ← decode? i
      let s ← decode? s
      let p ← decode? p
      let m ← decode? m
      let l ← decode? l
      let res ← Wire.optional res
      let err ← Wire.optional err
      let labels ← decode? labels
      let c ← decode? c
      let u ← decode? u
      some (⟨i, s, p, m, l, res, err, labels, c, u⟩ : JobRecord)) := by
  cases res <;> cases err <;> rfl

/-- The result is read as a field that may be absent, so it need not be the one that was written. -/
theorem JobRecord.decode?_encode_result {r : JobRecord} {result : Option Json}
    (hlogs : decode? (encode r.logs) = some r.logs) (hresult : Wire.optional r.result = some result)
    (hcreated : decode? (encode r.createdAt) = some r.createdAt)
    (hupdated : decode? (encode r.updatedAt) = some r.updatedAt) : decode? (encode r) = some { r with result } := by
  refine (decode?_objOf (encode r.id) (encode r.status) (encode r.progress) (encode r.message) (encode r.logs) r.result
    (r.error.map .str) (encode r.metadata) (encode r.createdAt) (encode r.updatedAt)).trans ?_
  rw [Wire.isFaithful_jobId, Wire.isFaithful_jobStatus, Wire.isFaithful_uint8, Wire.isFaithful_string, hlogs, hresult,
    Wire.optional_map_str, Wire.isFaithful_labels, hcreated, hupdated]
  rfl

theorem JobRecord.isNormalising : IsNormalising JobRecord := by
  intro v r h
  simp only [decode?, Option.bind_eq_bind, Option.bind_eq_some_iff] at h
  obtain ⟨fields, -, h⟩ := h
  split at h
  case h_2 => cases h
  simp only [Option.bind_eq_some_iff] at h
  obtain ⟨i, -, s, -, p, -, m, -, l, hl, res, hres, err, -, labels, -, c, hc, u, hu, h⟩ := h
  cases h
  exact decode?_encode_result (LogEntry.isNormalising.list.of_required hl) (Wire.optional_json hres)
    (Wire.isNormalising_timestamp.of_required hc) (Wire.isNormalising_timestamp.of_required hu)

theorem ConnectionConfig.decode?_objOf (t e : Json) (c n : Option String) (s : Json) :
    decode? (.objOf [("target", some t), ("endpoint", some e), ("context", c.map .str), ("namespace", n.map .str),
      ("settings", some s)]) =
    (decode? t).bind fun t => (decode? e).bind fun e => (decode? s).bind fun s =>
      some (⟨t, e, c, n, s⟩ : ConnectionConfig) := by
  cases c <;> cases n <;> rfl

theorem ConnectionConfig.isFaithful : IsFaithful ConnectionConfig := fun c => by
  refine (decode?_objOf (encode c.target) (encode c.endpoint) c.context c.space (encode c.settings)).trans ?_
  rw [Wire.isFaithful_targetSystem, Wire.isFaithful_string, Wire.isFaithful_labels]
  rfl

theorem PackageRequest.isFaithful : IsFaithful PackageRequest := fun r => by
  obtain ⟨name, source, version, space, values⟩ := r
  cases version <;> rfl

theorem ReleaseStatus.decode?_obj (i d : Json) : decode? (.obj [("installed", i), ("metadata", d)]) =
    (decode? i).bind fun i => (decode? d).bind fun d => some (⟨i, d⟩ : ReleaseStatus) := rfl

theorem ReleaseStatus.isFaithful : IsFaithful ReleaseStatus := fun s => by
  refine (decode?_obj (encode s.installed) (encode s.details)).trans ?_
  rw [Wire.isFaithful_bool, Wire.isFaithful_labels]
  rfl

theorem ResourceRef.decode?_obj (k s n : Json) : decode? (.obj [("kind", k), ("namespace", s), ("name", n)]) =
    (decode? k).bind fun k => (decode? s).bind fun s => (decode? n).bind fun n => some (⟨k, s, n⟩ : ResourceRef) := rfl

theorem ResourceRef.isFaithful : IsFaithful ResourceRef := fun r => by
  refine (decode?_obj (encode r.kind) (encode r.space) (encode r.name)).trans ?_
  rw [Wire.isFaithful_resourceKind, Wire.isFaithful_string, Wire.isFaithful_string]
  rfl

theorem RetryPolicy.decode?_obj (n d : Json) : decode? (.obj [("max_attempts", n), ("delay", d)]) =
    (decode? n).bind fun n => (Duration.ofMillis? d).bind fun d => some (⟨n, d⟩ : RetryPolicy) := rfl

theorem RetryPolicy.decode?_encode {p : RetryPolicy} (hd : Duration.ofMillis? p.delay.toMillis = some p.delay) :
    decode? (encode p) = some p := by
  refine (decode?_obj (encode p.maxAttempts) p.delay.toMillis).trans ?_
  rw [Wire.isFaithful_uint32, hd]
  rfl

theorem RetryPolicy.isNormalising : IsNormalising RetryPolicy := by
  intro v p h
  simp only [decode?, Option.bind_eq_bind, Option.bind_eq_some_iff] at h
  obtain ⟨fields, -, h⟩ := h
  split at h
  case h_2 => cases h
  simp only [Option.bind_eq_some_iff] at h
  obtain ⟨n, -, d, ⟨_, -, hd⟩, h⟩ := h
  cases h
  exact decode?_encode (Wire.ofMillis?_toMillis hd)

theorem PollPolicy.decode?_obj (t k : Json) : decode? (.obj [("timeout", t), ("tick", k)]) =
    (Duration.ofMillis? t).bind fun t => (Duration.ofMillis? k).bind fun k => some (⟨t, k⟩ : PollPolicy) := rfl

theorem PollPolicy.decode?_encode {p : PollPolicy} (ht : Duration.ofMillis? p.timeout.toMillis = some p.timeout)
    (hk : Duration.ofMillis? p.tick.toMillis = some p.tick) : decode? (encode p) = some p := by
  refine (decode?_obj p.timeout.toMillis p.tick.toMillis).trans ?_
  rw [ht, hk]
  rfl

theorem PollPolicy.isNormalising : IsNormalising PollPolicy := by
  intro v p h
  simp only [decode?, Option.bind_eq_bind, Option.bind_eq_some_iff] at h
  obtain ⟨fields, -, h⟩ := h
  split at h
  case h_2 => cases h
  simp only [Option.bind_eq_some_iff] at h
  obtain ⟨t, ⟨_, -, ht⟩, k, ⟨_, -, hk⟩, h⟩ := h
  cases h
  exact decode?_encode (Wire.ofMillis?_toMillis ht) (Wire.ofMillis?_toMillis hk)

theorem OrchestratorConfig.decode?_obj (w r p : Json) : decode? (.obj [("workers", w), ("retry", r), ("poll", p)]) =
    (decode? w).bind fun w => (decode? r).bind fun r => (decode? p).bind fun p =>
      some (⟨w, r, p⟩ : OrchestratorConfig) := rfl

theorem OrchestratorConfig.decode?_encode {c : OrchestratorConfig} (hr : decode? (encode c.retry) = some c.retry)
    (hp : decode? (encode c.poll) = some c.poll) : decode? (encode c) = some c := by
  refine (decode?_obj (encode c.workers) (encode c.retry) (encode c.poll)).trans ?_
  rw [Wire.isFaithful_uint64, hr, hp]
  rfl

theorem OrchestratorConfig.isNormalising : IsNormalising OrchestratorConfig := by
  intro v c h
  simp only [decode?, Option.bind_eq_bind, Option.bind_eq_some_iff] at h
  obtain ⟨fields, -, h⟩ := h
  split at h
  case h_2 => cases h
  simp only [Option.bind_eq_some_iff] at h
  obtain ⟨w, -, r, hr, p, hp, h⟩ := h
  cases h
  exact decode?_encode (RetryPolicy.isNormalising.of_required hr) (PollPolicy.isNormalising.of_required hp)

theorem CacheConfig.decode?_obj (c t : Json) : decode? (.obj [("capacity", c), ("ttl", t)]) =
    (decode? c).bind fun c => (Wire.optional (some t)).bind fun t => some (⟨c, t⟩ : CacheConfig) := rfl

theorem CacheConfig.isFaithful : IsFaithful CacheConfig := fun c => by
  obtain ⟨capacity, ttl⟩ := c
  have httl : Wire.optional (some ((ttl.map encode).getD .null)) = some ttl := by
    cases ttl with
    | none => rfl
    | some d => exact congrArg (Option.map some) (Wire.isFaithful_duration d)
  refine (decode?_obj (encode capacity) ((ttl.map encode).getD .null)).trans ?_
  rw [Wire.isFaithful_uint64, httl]
  rfl

/-! ## All that is read -/

namespace Wire

/-- **What was read is read again.**  For each kind of value that has a wire form: a value that was read from any JSON
value is read from the form in which it is written.  What holds no time is so wherever it comes from. -/
theorem decoding_normalises :
    (IsNormalising ConnectionConfig ∧ IsNormalising PackageRequest ∧ IsNormalising ReleaseStatus ∧
      IsNormalising ResourceRef ∧ IsNormalising JobId ∧ IsNormalising LogEntry ∧ IsNormalising JobRecord ∧
      IsNormalising RetryPolicy ∧ IsNormalising PollPolicy ∧ IsNormalising OrchestratorConfig ∧
      IsNormalising CacheConfig) ∧
    IsFaithful ConnectionConfig ∧ IsFaithful PackageRequest ∧ IsFaithful ReleaseStatus ∧ IsFaithful ResourceRef ∧
      IsFaithful JobId ∧ IsFaithful CacheConfig :=
  ⟨⟨ConnectionConfig.isFaithful.isNormalising, PackageRequest.isFaithful.isNormalising,
      ReleaseStatus.isFaithful.isNormalising, ResourceRef.isFaithful.isNormalising, isFaithful_jobId.isNormalising,
      LogEntry.isNormalising, JobRecord.isNormalising, RetryPolicy.isNormalising, PollPolicy.isNormalising,
      OrchestratorConfig.isNormalising, CacheConfig.isFaithful.isNormalising⟩,
    ConnectionConfig.isFaithful, PackageRequest.isFaithful, ReleaseStatus.isFaithful, ResourceRef.isFaithful,
    isFaithful_jobId, CacheConfig.isFaithful⟩

/-- A connection with an unknown member, a null and a constant that is written as an object; a lifetime whose
nanoseconds carry; a record as an array, with a leap second of another time zone. -/
theorem decoding_normalises_sample :
    let connection := Json.obj [("target", .obj [("packages", .null)]), ("endpoint", .str "https://a"),
      ("context", .null), ("colour", .str "red")]
    let cache := Json.arr [.int 7, .arr [.int 1, .int 2000000000]]
    let record := Json.arr [.str "a", .str "pending", .int 0, .str "", .arr [], .null, .null, .obj [],
      .str "2016-12-31 15:59:60.5-08:00", .str "+02017-1-1T0:0:0Z"]
    (∃ c : ConnectionConfig, decode? connection = some c ∧ decode? (encode c) = some c) ∧
      (∃ c : CacheConfig, decode? cache = some c ∧ decode? (encode c) = some c) ∧
      ∃ r : JobRecord, decode? record = some r ∧ decode? (encode r) = some r := by
  intro connection cache record
  have hconnection : (decode? connection : Option ConnectionConfig).isSome = true := by decide +kernel
  have hcache : (decode? cache : Option CacheConfig).isSome = true := by decide +kernel
  have hrecord : (decode? record : Option JobRecord).isSome = true := by decide +kernel
  obtain ⟨a, ha⟩ := Option.isSome_iff_exists.1 hconnection
  obtain ⟨b, hb⟩ := Option.isSome_iff_exists.1 hcache
  obtain ⟨r, hr⟩ := Option.isSome_iff_exists.1 hrecord
  obtain ⟨⟨hA, -, -, -, -, -, hR, -, -, -, hC⟩, -⟩ := decoding_normalises
  exact ⟨⟨a, ha, hA _ a ha⟩, ⟨b, hb, hC _ b hb⟩, r, hr, hR _ r hr⟩

end Wire
end JobRunner
