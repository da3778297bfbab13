import JobRunner.Cache.Key
import JobRunner.Proofs.JsonText
import JobRunner.Proofs.KeptClients
import Mathlib.Data.List.Sort
import Mathlib.Data.Set.Function
/-!
# What a fingerprint tells apart

A client is kept under the digest of a text that says what it was built from.  Two connections that differ at all have
different texts, whatever stands in their fields and settings, and two systems never have the same bytes digested.  So as
far as the digest tells its inputs apart, a key stands for one connection.
-/
namespace JobRunner

/-! ## Labels with the same bindings -/

namespace Labels

variable {a b : Labels} {key value : String}

theorem nodup_keys (l : Labels) : (l.entries.map Prod.fst).Nodup :=
  List.pairwise_map.2 (l.sorted.imp String.ne_of_lt)

theorem mem_entries (l : Labels) : (key, value) ∈ l.entries ↔ l.get? key = some value := by
  unfold get?
  rw [Option.map_eq_some_iff]
  constructor
  · intro hmem
    have hsome : (l.entries.find? fun p => p.1 == key).isSome = true :=
      List.find?_isSome.2 ⟨_, hmem, beq_self_eq_true key⟩
    obtain ⟨p, hp⟩ := Option.isSome_iff_exists.1 hsome
    have hkey : p.1 = key := beq_iff_eq.1 (List.find?_eq_some_iff_append.1 hp).1
    have hsame : p = (key, value) := List.inj_on_of_nodup_map l.nodup_keys (List.mem_of_find?_eq_some hp) hmem hkey
    exact ⟨p, hp, congrArg Prod.snd hsame⟩
  · rintro ⟨p, hp, rfl⟩
    have hkey : p.1 = key := beq_iff_eq.1 (List.find?_eq_some_iff_append.1 hp).1
    subst hkey
    exact List.mem_of_find?_eq_some hp

/-- **Labels are what they bind.** -/
theorem ext_get? (h : ∀ key, a.get? key = b.get? key) : a = b := by
  refine ext (List.Perm.eq_of_pairwise (fun p q _ _ hpq hqp => ?_) a.sorted b.sorted ?_)
  · exact absurd (String.lt_trans hpq hqp) (String.lt_irrefl _)
  · refine (List.perm_ext_iff_of_nodup a.nodup_keys.of_map b.nodup_keys.of_map).2 fun ⟨key, value⟩ => ?_
    rw [mem_entries, mem_entries, h]

/-- Bindings of different keys can be made in either order. -/
theorem insert_comm {k k' : String} (hne : k ≠ k') (v v' : String) (l : Labels) :
    (l.insert k v).insert k' v' = (l.insert k' v').insert k v := by
  refine ext_get? fun key => ?_
  rw [get?_insert, get?_insert, get?_insert, get?_insert]
  by_cases hk : k = key
  · subst hk
    rw [if_neg hne.symm, if_pos rfl, if_pos rfl]
  · rw [if_neg hk, if_neg hk]

theorem encode_inj (h : Wire.encode a = Wire.encode b) : a = b := by
  have hmembers : a.entries.map (fun p => (p.1, Json.str p.2)) = b.entries.map fun p => (p.1, Json.str p.2) :=
    Json.obj.inj h
  refine ext ((List.map_injective_iff.2 fun p q hpq => ?_) hmembers)
  obtain ⟨hkey, hvalue⟩ := Prod.mk.inj hpq
  exact Prod.ext hkey (Json.str.inj hvalue)

theorem isNumberless_encode (l : Labels) : (Wire.encode l).isNumberless = true := by
  show Json.haveNumberless (l.entries.map fun p => (p.1, Json.str p.2)) = true
  induction l.entries with
  | nil => rfl
  | cons p ps ih => exact Bool.and_eq_true_iff.2 ⟨rfl, ih⟩

end Labels

/-! ## Connections with the same text -/

namespace ConnectionConfig

variable {a b : ConnectionConfig}

/-- A reader finds the fields of a connection in what is written of it. -/
theorem fields?_encode (c : ConnectionConfig) : Wire.fields? fieldNames 2 (Wire.encode c) =
    some [some (Wire.encode c.target), some (.str c.endpoint), c.context.map .str, c.space.map .str,
      some (Wire.encode c.settings)] := by
  obtain ⟨target, endpoint, context, space, settings⟩ := c
  cases context <;> cases space <;> rfl

theorem encode_inj (h : Wire.encode a = Wire.encode b) : a = b := by
  have hfields := congrArg (Wire.fields? fieldNames 2) h
  rw [fields?_encode, fields?_encode] at hfields
  simp only [Option.some.injEq, List.cons.injEq, and_true] at hfields
  obtain ⟨htarget, hendpoint, hcontext, hspace, hsettings⟩ := hfields
  have hstr : Function.Injective (Option.map Json.str) := Option.map_injective fun _ _ => Json.str.inj
  obtain ⟨target, endpoint, context, space, settings⟩ := a
  obtain ⟨target', endpoint', context', space', settings'⟩ := b
  rw [mk.injEq]
  exact ⟨TargetSystem.name_inj (Json.str.inj htarget), Json.str.inj hendpoint, hstr hcontext, hstr hspace,
    Labels.encode_inj hsettings⟩

theorem isNumberless_encode (c : ConnectionConfig) : (Wire.encode c).isNumberless = true := by
  have hsettings := c.settings.isNumberless_encode
  obtain ⟨target, endpoint, context, space, settings⟩ := c
  cases context <;> cases space <;> simpa [Wire.encode, Json.objOf, Json.isNumberless, Json.haveNumberless] using hsettings

/-- **Connections are told apart by their texts.** -/
theorem compact_inj (h : (Wire.encode a).compact = (Wire.encode b).compact) : a = b :=
  encode_inj (Json.compact_inj a.isNumberless_encode b.isNumberless_encode h)

/-- The connection with more settings, one after the other. -/
def withSettings (settings : List (String × String)) (c : ConnectionConfig) : ConnectionConfig :=
  settings.foldl (fun c s => c.withSetting s.1 s.2) c

/-- Settings with different keys can be added in any order. -/
theorem withSettings_perm {settings settings' : List (String × String)} (h : settings.Perm settings')
    (hkeys : (settings.map Prod.fst).Nodup) (c : ConnectionConfig) : c.withSettings settings = c.withSettings settings' := by
  refine h.foldl_eq' (fun s hs s' hs' c => ?_) c
  by_cases hkey : s.1 = s'.1
  · rw [List.inj_on_of_nodup_map hkeys hs hs' hkey]
  · unfold withSetting
    rw [Labels.insert_comm hkey]

end ConnectionConfig

/-! ## Bytes and digits -/

namespace Text

theorem toList_loop (bytes : ByteArray) (i : Nat) (before : List UInt8) :
    ByteArray.toList.loop bytes i before = before.reverse ++ bytes.data.toList.drop i := by
  fun_induction ByteArray.toList.loop bytes i before with
  | case1 i before hi ih =>
    have hi : i < bytes.data.toList.length := hi
    have hget : bytes.get! i = bytes.data.toList[i] := getElem!_pos bytes.data i hi
    rw [ih, List.drop_eq_getElem_cons hi, List.reverse_cons, List.append_assoc, hget]
    rfl
  | case2 i before hi =>
    have hi : bytes.data.toList.length ≤ i := Nat.not_lt.1 hi
    rw [List.drop_eq_nil_of_le hi, List.append_nil]

/-- Texts are told apart by their bytes. -/
theorem toUTF8_inj {s t : String} (h : s.toUTF8.toList = t.toUTF8.toList) : s = t := by
  unfold ByteArray.toList at h
  rw [toList_loop, toList_loop] at h
  exact String.toByteArray_inj.1 (ByteArray.ext (Array.toList_inj.1 h))

theorem hexDigit_inj {m n : Nat} (hm : m < 16) (hn : n < 16) (h : hexDigit m = hexDigit n) : m = n := by
  have hvalue := congrArg Json.Read.hexValue? h
  rw [Json.hexValue?_hexDigit m hm, Json.hexValue?_hexDigit n hn] at hvalue
  exact Option.some.inj hvalue

/-- Bytes are told apart by their digits. -/
theorem hexBytes_inj : ∀ {bs cs : List UInt8}, hexBytes bs = hexBytes cs → bs = cs
  | [], [], _ => rfl
  | [], _ :: _, h | _ :: _, [], h => by cases h
  | b :: bs, c :: cs, h => by
    unfold hexBytes at h
    rw [List.flatMap_cons, List.flatMap_cons] at h
    obtain ⟨hhigh, hrest⟩ := List.cons.inj h
    obtain ⟨hlow, hrest⟩ := List.cons.inj hrest
    have hb := b.toNat_lt
    have hc := c.toNat_lt
    have hhigh := hexDigit_inj (by omega) (by omega) hhigh
    have hlow := hexDigit_inj (by omega) (by omega) hlow
    have hbc : b.toNat = c.toNat := by omega
    rw [UInt8.toNat_inj.1 hbc, hexBytes_inj hrest]

end Text

/-! ## Keys -/

namespace CacheKey

variable {t t' : TargetSystem} {v v' : Json} {a b : ConnectionConfig}

theorem zero_notMem_name (t : TargetSystem) : 0 ∉ t.name.toUTF8.toList := by
  cases t <;> decide +kernel

/-- What stands before the first zero byte is the name of the system. -/
theorem takeWhile_hashedBytes (t : TargetSystem) (v : Json) :
    (hashedBytes t v).takeWhile (· != 0) = t.name.toUTF8.toList := by
  have hname : ∀ byte ∈ t.name.toUTF8.toList, (byte != 0) = true := fun byte hmem =>
    bne_iff_ne.2 fun e => zero_notMem_name t (e ▸ hmem)
  unfold hashedBytes
  rw [List.takeWhile_append_of_pos hname]
  simp

/-- **The digested bytes tell systems and texts apart.** -/
theorem hashedBytes_eq_iff : hashedBytes t v = hashedBytes t' v' ↔ t = t' ∧ v.compact = v'.compact := by
  constructor
  · intro h
    have hname := congrArg (List.takeWhile (· != 0)) h
    rw [takeWhile_hashedBytes, takeWhile_hashedBytes] at hname
    have ht : t = t' := TargetSystem.name_inj (Text.toUTF8_inj hname)
    subst ht
    exact ⟨rfl, Text.toUTF8_inj (List.cons.inj (List.append_cancel_left h)).2⟩
  · rintro ⟨rfl, hv⟩
    unfold hashedBytes
    rw [hv]

/-- The bytes that are digested for a connection. -/
def connectionBytes (c : ConnectionConfig) : List UInt8 := hashedBytes c.target (Wire.encode c)

theorem connectionBytes_inj (h : connectionBytes a = connectionBytes b) : a = b :=
  ConnectionConfig.compact_inj (hashedBytes_eq_iff.1 h).2

/-- As far as the digest tells its inputs apart, a key tells connections apart. -/
theorem ofConnection_eq_iff {inputs : Set (List UInt8)} (h : inputs.InjOn Sha256.digest)
    (ha : connectionBytes a ∈ inputs) (hb : connectionBytes b ∈ inputs) : ofConnection a = ofConnection b ↔ a = b := by
  constructor
  · intro hkey
    have hdigest : Sha256.digest (connectionBytes a) = Sha256.digest (connectionBytes b) :=
      Text.hexBytes_inj (String.ofList_injective (congrArg CacheKey.digest hkey))
    exact connectionBytes_inj (h ha hb hdigest)
  · rintro rfl
    rfl

/-! ## Sharing -/

variable {γ : Type} {s : ClientStore γ} {client : γ} {now later : Nat} {key : CacheKey}

/-- A client that was just kept is found under its key until it has reached the lifetime. -/
theorem lookup_keep (key : CacheKey) (client : γ) (hc : 0 < s.capacity)
    (hyoung : ∀ ttl ∈ s.config.ttl, later - now < ttl.nanos) :
    ((s.keep key client s.epoch now).lookup key later).1 = some client := by
  obtain ⟨hshrinks, -⟩ := ClientStore.makeRoom_spec key hc (Nat.le_refl s.size)
  have hconfig : (s.keep key client s.epoch now).config = s.config := by
    unfold ClientStore.keep
    rw [if_neg (not_not_intro rfl)]
    exact hshrinks.config
  obtain ⟨e, he, hclient, hcreated⟩ : ∃ e, (s.keep key client s.epoch now).entries.get? key = some e ∧
      e.client = client ∧ e.createdAt = now := by
    unfold ClientStore.keep
    rw [if_neg (not_not_intro rfl)]
    exact ⟨_, Table.get?_insert_self .., rfl, rfl⟩
  have hfresh : (s.keep key client s.epoch now).isExpired later e = false := by
    unfold ClientStore.isExpired
    rw [hconfig, hcreated]
    cases hl : s.config.ttl with
    | none => rfl
    | some ttl => exact decide_eq_false (Nat.not_le.2 (hyoung ttl hl))
  unfold ClientStore.lookup
  simp only [he, hfresh, Bool.false_eq_true, if_false, hclient]

/-- A client that was just kept is found under no other key, unless it was there before. -/
theorem key_eq_of_lookup_keep {key key' : CacheKey} (hc : 0 < s.capacity) (hs : s.size ≤ s.capacity)
    (hnew : s.client? key' ≠ some client)
    (h : ((s.keep key client s.epoch now).lookup key' later).1 = some client) : key' = key := by
  refine Classical.byContradiction fun hne => hnew ?_
  have hfound := (ClientStore.lookup_some (Prod.ext h rfl)).1
  rcases (ClientStore.keep_spec key client now hc hs).2.1 key' hne with hnone | hsame
  · rw [hnone] at hfound
    cases hfound
  · rw [← hsame, hfound]

/-- **What a fingerprint tells apart.**  The bytes that are digested differ for any two connections, and for any two
systems or texts.  So among inputs for which the digest has no collision, keys are equal exactly when the connections
are, in whatever order settings with different keys were added; and a client that is kept for one connection, and was not
there before for the other one, is found for that one exactly when the connections are equal. -/
theorem keys_are_connections :
    (∀ a b, connectionBytes a = connectionBytes b ↔ a = b) ∧
    (∀ t t' v v', hashedBytes t v = hashedBytes t' v' ↔ t = t' ∧ v.compact = v'.compact) ∧
    (∀ (c : ConnectionConfig) {settings settings' : List (String × String)}, settings.Perm settings' →
      (settings.map Prod.fst).Nodup → ofConnection (c.withSettings settings) = ofConnection (c.withSettings settings')) ∧
    ∀ inputs : Set (List UInt8), inputs.InjOn Sha256.digest → ∀ a b, connectionBytes a ∈ inputs →
      connectionBytes b ∈ inputs → (ofConnection a = ofConnection b ↔ a = b) ∧
        ∀ {γ : Type} (s : ClientStore γ) (client : γ) (now later : Nat), 0 < s.capacity → s.size ≤ s.capacity →
          (∀ ttl ∈ s.config.ttl, later - now < ttl.nanos) → s.client? (ofConnection b) ≠ some client →
          (((s.keep (ofConnection a) client s.epoch now).lookup (ofConnection b) later).1 = some client ↔ a = b) := by
  refine ⟨fun a b => ⟨connectionBytes_inj, congrArg connectionBytes⟩, fun t t' v v' => hashedBytes_eq_iff,
    fun c settings settings' hperm hkeys => by rw [ConnectionConfig.withSettings_perm hperm hkeys],
    fun inputs hinputs a b ha hb => ?_⟩
  have hkey := ofConnection_eq_iff hinputs ha hb
  refine ⟨hkey, fun s client now later hc hs hyoung hnew => ⟨fun hfound => ?_, ?_⟩⟩
  · exact hkey.1 (key_eq_of_lookup_keep hc hs hnew hfound).symm
  · rintro rfl
    exact lookup_keep _ client hc hyoung

/-- A connection, and one whose endpoint spells out the context of the first one. -/
def forged : ConnectionConfig × ConnectionConfig :=
  (⟨.packages, "https://k8s.local", some "prod", none, .empty⟩,
    ⟨.packages, "https://k8s.local\",\"context\":\"prod", none, none, .empty⟩)

/-- The two do not share a client. -/
theorem forged_keys_differ : ofConnection forged.1 ≠ ofConnection forged.2 ∧
    (((ClientStore.ofConfig {} : ClientStore Nat).keep (ofConnection forged.1) 1 0 0).lookup
      (ofConnection forged.2) 0).1 ≠ some 1 := by
  have hdigest : Sha256.digest (connectionBytes forged.1) ≠ Sha256.digest (connectionBytes forged.2) := by
    decide +kernel
  have hinputs : Set.InjOn Sha256.digest {connectionBytes forged.1, connectionBytes forged.2} :=
    Set.injOn_pair.2 fun h => absurd h hdigest
  obtain ⟨hkey, hshare⟩ := keys_are_connections.2.2.2 _ hinputs forged.1 forged.2 (.inl rfl) (.inr rfl)
  have hne : forged.1 ≠ forged.2 := by decide
  refine ⟨fun h => hne (hkey.1 h), fun h => hne ?_⟩
  exact (hshare (ClientStore.ofConfig {}) 1 0 0 (by decide) (by decide) (by decide) (by decide)).1 h

end CacheKey
end JobRunner
