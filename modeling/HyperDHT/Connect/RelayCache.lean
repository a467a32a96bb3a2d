import HyperDHT.Compact.Ipv4
import HyperDHT.Lib.AssocMap
import HyperDHT.Lib.LittleEndian
import HyperDHT.Lib.Runs
import HyperDHT.Pools.Keys

/-!
# The relay cache

After a successful connect the node keeps the relays of the peer (`cache_relay_addresses`, `dht.cpp`),
and the next connect to the same peer starts with them (`get_cached_relay_addresses`). The cache is a
hash map of at most 512 peers. A call stores first and then, if the map has become too large, erases the
entry that its iteration begins with. Which one that is depends on the hash map, and it may be the entry
that was just stored.

## Main definitions

* `RelayCache.Cache`, `RelayCache.HashOrder` — the map, and the order in which it is iterated.
* `RelayCache.cacheRelayAddresses`, `RelayCache.getCachedRelayAddresses` — the two functions.
* `RelayCache.step` — a call as a step of the cache.
* `RelayCache.KeepsStored` — the cache is bounded, and what was stored is there until it is overwritten or
  another call evicts it.
* `RelayCache.Spares` — a call does not erase the entry it has stored.

## Main results

* `RelayCache.length_step_le` — the cache is bounded.
* `RelayCache.spares_iff` — a call finds what it has stored exactly when it spares it.
* `RelayCache.keepsStored_iff` — the cache keeps what was stored exactly when every call spares it.
* `RelayCache.not_keepsStored_fill` — a new peer that comes first in the full map is lost at once.

## Design

The map is an association list in the order of its iteration. An insertion may change the whole order,
so every call comes with the order of the map after it.
-/

set_option autoImplicit false

namespace HyperDHT

open Compact Pools

namespace RelayCache

/-! ## The cache -/

/-- `kMaxRelayAddressCache`. -/
def kMaxRelayAddressCache : ℕ := 512

/-- The relays of each peer, in the order in which the hash map is iterated. -/
abbrev Cache := AList fun _ : List Char => List Ipv4Address

/-- The order in which a hash map is iterated. -/
structure HashOrder where
  arrange : Cache → Cache
  perm : ∀ m, (arrange m).entries.Perm m.entries

/-- `pk_to_hex`. -/
def pkToHex (pk : PublicKey) : List Char := pk.toList.flatMap byteHex

/-- Keep the relays of a peer. -/
def cacheRelayAddresses (order : HashOrder) (cache : Cache) (pk : PublicKey)
    (relays : List Ipv4Address) : Cache :=
  if relays.isEmpty then cache
  else
    let cache := order.arrange (cache.insert (pkToHex pk) relays)
    if cache.entries.length > kMaxRelayAddressCache then AssocMap.eraseBegin cache else cache

/-- The relays that are kept of a peer. -/
def getCachedRelayAddresses (cache : Cache) (pk : PublicKey) : List Ipv4Address :=
  match cache.lookup (pkToHex pk) with
  | some relays => relays
  | none => []

/-- A call of `cache_relay_addresses`. -/
structure CacheCall where
  pk : PublicKey
  relays : List Ipv4Address
  order : HashOrder

/-- A call changes the cache. -/
def step (cache : Cache) (c : CacheCall) : Cache :=
  cacheRelayAddresses c.order cache c.pk c.relays

/-! ## The specification -/

/-- The call stores other relays of the peer. -/
def Overwrites (pk : PublicKey) (c : CacheCall) : Prop := c.pk = pk ∧ c.relays ≠ []

/-- The call is for another peer, and this one is no longer in the cache afterwards. -/
def Evicts (pk : PublicKey) (cache : Cache) (c : CacheCall) : Prop :=
  c.pk ≠ pk ∧ pkToHex pk ∈ cache ∧ pkToHex pk ∉ step cache c

/-- The cache keeps what was stored, in a sequence of calls. -/
structure KeepsStored (calls : List CacheCall) : Prop where
  bounded : Runs.EveryState step (fun cache => cache.entries.length ≤ kMaxRelayAddressCache) ∅ calls
  /-- What a call has stored is found as long as no later call overwrites or evicts it. -/
  stored : ∀ before c mid after, calls = before ++ c :: (mid ++ after) → c.relays ≠ [] →
    Runs.EveryStep step (fun cache later => ¬ Overwrites c.pk later ∧ ¬ Evicts c.pk cache later)
      (Runs.run step ∅ (before ++ [c])) mid →
    getCachedRelayAddresses (Runs.run step ∅ (before ++ c :: mid)) c.pk = c.relays

/-- The call does not erase the entry it has stored: it stores nothing, it makes no entry, the cache is not
full, or the iteration begins with another entry. -/
def Spares (cache : Cache) (c : CacheCall) : Prop :=
  c.relays = [] ∨ pkToHex c.pk ∈ cache ∨ cache.entries.length < kMaxRelayAddressCache ∨
    AssocMap.beginKey (c.order.arrange (cache.insert (pkToHex c.pk) c.relays)) ≠ some (pkToHex c.pk)

/-! ## One call -/

lemma pkToHex_injective : Function.Injective pkToHex := keyHex_injective

lemma lookup_arrange (order : HashOrder) (m : Cache) (key : List Char) :
    (order.arrange m).lookup key = m.lookup key :=
  AList.perm_lookup (order.perm m)

lemma length_arrange (order : HashOrder) (m : Cache) :
    (order.arrange m).entries.length = m.entries.length :=
  (order.perm m).length_eq

lemma step_of_ne_nil {c : CacheCall} (h : c.relays ≠ []) (cache : Cache) :
    step cache c =
      if (cache.insert (pkToHex c.pk) c.relays).entries.length > kMaxRelayAddressCache then
        AssocMap.eraseBegin (c.order.arrange (cache.insert (pkToHex c.pk) c.relays))
      else c.order.arrange (cache.insert (pkToHex c.pk) c.relays) := by
  have hempty : ¬ c.relays.isEmpty := by simpa using h
  rw [step, cacheRelayAddresses, if_neg hempty,
    ← length_arrange c.order (cache.insert (pkToHex c.pk) c.relays)]

lemma step_of_nil {c : CacheCall} (h : c.relays = []) (cache : Cache) : step cache c = cache := by
  rw [step, cacheRelayAddresses, h]
  rfl

/-- **The cache is bounded.** -/
lemma length_step_le {cache : Cache} (h : cache.entries.length ≤ kMaxRelayAddressCache)
    (c : CacheCall) : (step cache c).entries.length ≤ kMaxRelayAddressCache := by
  by_cases hnil : c.relays = []
  case pos => rwa [step_of_nil hnil]
  case neg =>
    have hinsert := AssocMap.length_insert_le cache (pkToHex c.pk) c.relays
    rw [step_of_ne_nil hnil]
    split
    case isTrue =>
      rw [AssocMap.length_eraseBegin, length_arrange]
      omega
    case isFalse hle =>
      rw [length_arrange]
      exact not_lt.1 hle

lemma lookup_step_of_ne {pk : PublicKey} {c : CacheCall} (h : c.pk ≠ pk) (cache : Cache) :
    (step cache c).lookup (pkToHex pk) = cache.lookup (pkToHex pk) ∨
      (step cache c).lookup (pkToHex pk) = none := by
  by_cases hnil : c.relays = []
  case pos => exact .inl (by rw [step_of_nil hnil])
  case neg =>
    have hkey : pkToHex pk ≠ pkToHex c.pk := fun heq => h (pkToHex_injective heq).symm
    rw [step_of_ne_nil hnil]
    split
    case isTrue =>
      rw [AssocMap.lookup_eraseBegin, lookup_arrange, AList.lookup_insert_ne hkey]
      exact ite_eq_or_eq _ _ _ |>.symm
    case isFalse => exact .inl (by rw [lookup_arrange, AList.lookup_insert_ne hkey])

lemma length_insert_gt_iff {cache : Cache} (hle : cache.entries.length ≤ kMaxRelayAddressCache)
    (key : List Char) (relays : List Ipv4Address) :
    (cache.insert key relays).entries.length > kMaxRelayAddressCache ↔
      key ∉ cache ∧ ¬ cache.entries.length < kMaxRelayAddressCache := by
  by_cases hkey : key ∈ cache
  case pos =>
    obtain ⟨old, hold⟩ := Option.isSome_iff_exists.1 (AList.lookup_isSome.2 hkey)
    rw [AssocMap.length_insert_of_lookup hold]
    exact iff_of_false (not_lt.2 hle) fun h => h.1 hkey
  case neg =>
    rw [AList.entries_insert_of_notMem hkey, List.length_cons]
    constructor
    · exact fun h => ⟨hkey, by omega⟩
    · exact fun h => by omega

/-- **A call finds what it has stored exactly when it spares it.** -/
lemma spares_iff {cache : Cache} (hle : cache.entries.length ≤ kMaxRelayAddressCache) {c : CacheCall}
    (hnil : c.relays ≠ []) :
    Spares cache c ↔ getCachedRelayAddresses (step cache c) c.pk = c.relays := by
  rw [getCachedRelayAddresses, step_of_ne_nil hnil]
  by_cases hgrown :
      (cache.insert (pkToHex c.pk) c.relays).entries.length > kMaxRelayAddressCache
  case pos =>
    obtain ⟨hkey, hfull⟩ := (length_insert_gt_iff hle _ _).1 hgrown
    rw [if_pos hgrown, AssocMap.lookup_eraseBegin, lookup_arrange, AList.lookup_insert]
    by_cases hbegin : AssocMap.beginKey
        (c.order.arrange (cache.insert (pkToHex c.pk) c.relays)) = some (pkToHex c.pk)
    case pos =>
      rw [if_pos hbegin]
      simp [Spares, hnil, hkey, hfull, hbegin, Ne.symm hnil]
    case neg =>
      rw [if_neg hbegin]
      simp [Spares, hbegin]
  case neg =>
    have hspares : Spares cache c := by
      rw [length_insert_gt_iff hle, not_and_or, not_not, not_not] at hgrown
      exact .inr (hgrown.imp_right Or.inl)
    rw [if_neg hgrown, lookup_arrange, AList.lookup_insert]
    exact iff_of_true hspares rfl

/-! ## Runs of calls -/

lemma length_run_le (calls : List CacheCall) :
    (Runs.run step ∅ calls).entries.length ≤ kMaxRelayAddressCache :=
  Runs.run_invariant (P := fun cache : Cache => cache.entries.length ≤ kMaxRelayAddressCache)
    (fun _ c h => length_step_le h c) (Nat.zero_le _) calls

lemma lookup_step_of_not {pk : PublicKey} {cache : Cache} {later : CacheCall}
    (hmem : pkToHex pk ∈ cache) (hover : ¬ Overwrites pk later) (hevict : ¬ Evicts pk cache later) :
    (step cache later).lookup (pkToHex pk) = cache.lookup (pkToHex pk) := by
  by_cases hnil : later.relays = []
  case pos => rw [step_of_nil hnil]
  case neg =>
    have hpk : later.pk ≠ pk := fun h => hover ⟨h, hnil⟩
    rcases lookup_step_of_ne hpk cache with hsame | hnone
    · exact hsame
    · exact absurd ⟨hpk, hmem, AList.lookup_eq_none.1 hnone⟩ hevict

lemma lookup_run {pk : PublicKey} {relays : List Ipv4Address} {cache : Cache}
    (h : cache.lookup (pkToHex pk) = some relays) {mid : List CacheCall}
    (hmid : Runs.EveryStep step
      (fun cache later => ¬ Overwrites pk later ∧ ¬ Evicts pk cache later) cache mid) :
    (Runs.run step cache mid).lookup (pkToHex pk) = some relays := by
  refine Runs.run_invariant_of_everyStep
    (P := fun cache => cache.lookup (pkToHex pk) = some relays) (fun cache later h hlater => ?_) h hmid
  have hmem : pkToHex pk ∈ cache := AList.lookup_isSome.1 (by rw [h]; rfl)
  rw [lookup_step_of_not hmem hlater.1 hlater.2, h]

lemma getCachedRelayAddresses_eq_iff {cache : Cache} {pk : PublicKey} {relays : List Ipv4Address}
    (h : relays ≠ []) :
    getCachedRelayAddresses cache pk = relays ↔ cache.lookup (pkToHex pk) = some relays := by
  rw [getCachedRelayAddresses]
  cases cache.lookup (pkToHex pk) with
  | none => simp [Ne.symm h]
  | some stored => simp

lemma KeepsStored.spares {before after : List CacheCall} {c : CacheCall}
    (h : KeepsStored (before ++ c :: after)) : Spares (Runs.run step ∅ before) c := by
  by_cases hnil : c.relays = []
  case pos => exact .inl hnil
  case neg =>
    have hfound := h.stored before c [] after rfl hnil trivial
    rw [Runs.run_append, Runs.run_cons, Runs.run_nil] at hfound
    exact (spares_iff (length_run_le before) hnil).2 hfound

/-- **The cache keeps what was stored exactly when every call spares what it stores.** -/
theorem keepsStored_iff (calls : List CacheCall) :
    KeepsStored calls ↔ Runs.EveryStep step Spares ∅ calls := by
  rw [Runs.everyStep_iff_forall]
  constructor
  · rintro h before c after rfl
    exact h.spares
  · intro hspares
    refine ⟨?_, fun before c mid after hsplit hnil hmid => ?_⟩
    · exact Runs.everyState_of_everyStep (C := fun _ _ => True) (fun _ c h _ => length_step_le h c)
        (Nat.zero_le _) (Runs.everyStep_iff_forall.2 fun _ _ _ _ => trivial)
    · have hfound := (spares_iff (length_run_le before) hnil).1 (hspares before c (mid ++ after) hsplit)
      rw [getCachedRelayAddresses_eq_iff hnil] at hfound ⊢
      rw [Runs.run_append, Runs.run_cons] at hmid
      rw [Runs.run_append, Runs.run_cons]
      exact lookup_run hfound hmid

/-! ## A full cache -/

lemma length_key (n : ℕ) : (LittleEndian.toLe 32 n).length = 32 := LittleEndian.length_toLe 32 n

/-- A peer with a number for a key. -/
def numbered (n : ℕ) : PublicKey := ⟨LittleEndian.toLe 32 n, length_key n⟩

lemma numbered_inj {m n : ℕ} (hm : m < 256 ^ 32) (hn : n < 256 ^ 32) (h : numbered m = numbered n) :
    m = n := by
  have hbytes : LittleEndian.toLe 32 m = LittleEndian.toLe 32 n := congrArg List.Vector.toList h
  rw [← LittleEndian.ofLe_toLe hm, hbytes, LittleEndian.ofLe_toLe hn]

def fillRelay : Ipv4Address := .ofOctets 10 0 0 1 49737

/-- A call for a numbered peer, after which the iteration begins with the entry it has made, as that of a
hash map does when the bucket of the new entry was empty. -/
def fillCall (n : ℕ) : CacheCall where
  pk := numbered n
  relays := [fillRelay]
  order := ⟨id, fun _ => .refl _⟩

def fill : List CacheCall := (List.range (kMaxRelayAddressCache + 1)).map fillCall

/-- The keys of the first peers, the newest one first. -/
def fillKeys (n : ℕ) : List (List Char) := ((List.range n).map fun i => pkToHex (numbered i)).reverse

lemma notMem_fillKeys {n : ℕ} (hn : n ≤ kMaxRelayAddressCache) :
    pkToHex (numbered n) ∉ fillKeys n := by
  have hbound : n < 256 ^ 32 := lt_of_le_of_lt hn (by decide)
  rw [fillKeys, List.mem_reverse, List.mem_map]
  rintro ⟨i, hi, heq⟩
  have hlt := List.mem_range.1 hi
  have hsame := numbered_inj (hlt.trans hbound) hbound (pkToHex_injective heq)
  omega

lemma length_of_keys {cache : Cache} {n : ℕ} (h : cache.keys = fillKeys n) :
    cache.entries.length = n := by
  have hlength := congrArg List.length h
  simpa [AList.keys, List.keys, fillKeys] using hlength

lemma keys_run_fill {n : ℕ} (hn : n ≤ kMaxRelayAddressCache) :
    (Runs.run step ∅ ((List.range n).map fillCall)).keys = fillKeys n := by
  induction n with
  | zero => rfl
  | succ n ih =>
    have hkeys := ih (by omega)
    rw [List.range_succ, List.map_append, Runs.run_append]
    generalize Runs.run step ∅ ((List.range n).map fillCall) = cache at hkeys
    have hnew : pkToHex (numbered n) ∉ cache.keys := hkeys ▸ notMem_fillKeys (by omega)
    have hroom : ¬ (cache.insert (pkToHex (numbered n)) [fillRelay]).entries.length >
        kMaxRelayAddressCache := by
      rw [AList.entries_insert_of_notMem hnew, List.length_cons, length_of_keys hkeys]
      omega
    have hstep : step cache (fillCall n) = cache.insert (pkToHex (numbered n)) [fillRelay] :=
      (step_of_ne_nil (List.cons_ne_nil _ _) cache).trans (if_neg hroom)
    calc (step cache (fillCall n)).keys = pkToHex (numbered n) :: cache.keys := by
          rw [hstep, AList.keys, AList.entries_insert_of_notMem hnew]
          rfl
      _ = fillKeys (n + 1) := by
          rw [hkeys, fillKeys, fillKeys, List.range_succ, List.map_append, List.reverse_append]
          rfl

/-- **A new peer that comes first in the full map is lost at once.** -/
theorem not_keepsStored_fill : ¬ KeepsStored fill := by
  intro h
  have hkeys := keys_run_fill le_rfl
  have hsplit : fill = (List.range kMaxRelayAddressCache).map fillCall ++
      fillCall kMaxRelayAddressCache :: [] := by
    rw [fill, List.range_succ, List.map_append]
    rfl
  rw [hsplit] at h
  have hspares := h.spares
  generalize Runs.run step ∅ ((List.range kMaxRelayAddressCache).map fillCall) = cache at hkeys hspares
  rcases hspares with hnil | hmem | hroom | hbegin
  · exact List.cons_ne_nil _ _ hnil
  · have hmem' : pkToHex (numbered kMaxRelayAddressCache) ∈ cache.keys := hmem
    exact notMem_fillKeys le_rfl (hkeys ▸ hmem')
  · exact (length_of_keys hkeys).not_lt hroom
  · exact hbegin rfl

end RelayCache

end HyperDHT
