import HyperDHT.Handlers.AnnounceStore
import HyperDHT.Lib.Runs

/-!
# The bounds of the store of announcements

What holds of the store after any calls: no target is without records, none has more than twenty or two
from one address, and there are at most 65536 targets. In such a store each call does what it is for, and
no more.

## Main definitions

* `Handlers.AnnounceStore.Access`, `Handlers.AnnounceStore.apply` — the calls that change the store.
* `Handlers.AnnounceStore.Tidy` — the invariant.
* `Handlers.AnnounceStore.Exact` — what each call does to the records.

## Main results

* `Handlers.AnnounceStore.Tidy.apply` — every call keeps the invariant.
* `Handlers.AnnounceStore.exact_run` — the bounds and the calls, in every state of a run.
* `Handlers.AnnounceStore.oldest_stays_announcedAgain` — an announcer that announces again to a target with
  twenty records takes its own place.
-/

set_option autoImplicit false

namespace HyperDHT.Handlers.AnnounceStore

open Compact Routing

/-- A call that changes the store. -/
inductive Access where
  | put (target : NodeId) (ann : PeerAnnouncement)
  | remove (target : NodeId) (addr : Ipv4Address)
  | gc (now : UInt64)

/-- The store after a call. -/
def apply (s : AnnounceStore) : Access → AnnounceStore
  | .put target ann => s.put target ann
  | .remove target addr => (s.remove target addr).1
  | .gc now => s.gc now

/-! ## The targets -/

/-- No target is without records. -/
def Filled (s : AnnounceStore) : Prop :=
  ∀ target peers, s.store.lookup target = some peers → peers ≠ []

variable {s : AnnounceStore}

lemma filled_insert (h : s.Filled) (target : NodeId) {peers : List PeerAnnouncement}
    (hpeers : peers ≠ []) : Filled ⟨s.store.insert target peers⟩ := by
  intro t found ht
  by_cases heq : t = target
  · subst heq
    rw [AList.lookup_insert] at ht
    exact Option.some.inj ht ▸ hpeers
  · rw [AList.lookup_insert_ne heq] at ht
    exact h t found ht

lemma filled_erase (h : s.Filled) (target : NodeId) : Filled ⟨s.store.erase target⟩ := by
  intro t found ht
  by_cases heq : t = target
  · subst heq
    rw [AList.lookup_erase] at ht
    cases ht
  · rw [AList.lookup_erase_ne heq] at ht
    exact h t found ht

/-- The number of targets. -/
def targetCount (s : AnnounceStore) : ℕ := s.store.entries.length

lemma targetCount_eq (s : AnnounceStore) : s.targetCount = s.store.keys.length := by
  simp [targetCount, AList.keys, List.keys]

lemma targetCount_insert_of_mem {target : NodeId} (h : target ∈ s.store)
    (peers : List PeerAnnouncement) :
    targetCount ⟨s.store.insert target peers⟩ = s.targetCount := by
  have hkey : target ∈ s.store.keys := AList.mem_keys.1 h
  rw [targetCount_eq, targetCount_eq, AList.keys_insert, List.length_cons,
    List.length_erase_of_mem hkey]
  have hpos := List.length_pos_of_mem hkey
  omega

lemma targetCount_insert_of_notMem {target : NodeId} (h : target ∉ s.store)
    (peers : List PeerAnnouncement) :
    targetCount ⟨s.store.insert target peers⟩ = s.targetCount + 1 := by
  rw [targetCount_eq, targetCount_eq, AList.keys_insert, List.length_cons,
    List.erase_of_not_mem fun hkey => h (AList.mem_keys.2 hkey)]

lemma targetCount_erase_le (s : AnnounceStore) (target : NodeId) :
    targetCount ⟨s.store.erase target⟩ ≤ s.targetCount := by
  rw [targetCount_eq, targetCount_eq, AList.keys_erase]
  exact List.length_erase_le

/-! ## The invariant -/

/-- **The store is tidy**: every target has records, at most twenty and no two from one address, and there
are not too many targets. -/
structure Tidy (s : AnnounceStore) : Prop where
  filled : s.Filled
  bounded : s.Bounded
  distinct : s.Distinct
  targets : s.targetCount ≤ maxTotalTargets

lemma Filled.put (h : s.Filled) (target : NodeId) (ann : PeerAnnouncement) :
    (s.put target ann).Filled := by
  unfold AnnounceStore.put
  split
  · exact filled_insert h target (List.ne_nil_of_mem (mem_putPeer_self _ ann))
  · exact h

lemma targetCount_put_le (h : s.targetCount ≤ maxTotalTargets) (target : NodeId)
    (ann : PeerAnnouncement) : (s.put target ann).targetCount ≤ maxTotalTargets := by
  unfold AnnounceStore.put
  split
  next hroom =>
    by_cases hmem : target ∈ s.store
    · rw [targetCount_insert_of_mem hmem]
      exact h
    · rw [targetCount_insert_of_notMem hmem]
      rw [hasRoom, Bool.or_eq_true, decide_eq_true_eq] at hroom
      exact hroom.resolve_right fun hfound => hmem (AList.lookup_isSome.1 hfound)
  · exact h

lemma Tidy.put (h : s.Tidy) (target : NodeId) (ann : PeerAnnouncement) :
    (s.put target ann).Tidy where
  filled := h.filled.put target ann
  bounded := h.bounded.put target ann
  distinct := h.distinct.put target ann
  targets := targetCount_put_le h.targets target ann

lemma Tidy.remove (h : s.Tidy) (target : NodeId) (addr : Ipv4Address) :
    (s.remove target addr).1.Tidy := by
  refine ⟨?_, h.bounded.remove target addr, h.distinct.remove target addr, ?_⟩
  · unfold AnnounceStore.remove
    split
    · exact h.filled
    · split
      · dsimp only
        split
        · exact filled_erase h.filled target
        next hsome => exact filled_insert h.filled target fun hnil => hsome (by rw [hnil]; rfl)
      · exact h.filled
  · unfold AnnounceStore.remove
    split
    · exact h.targets
    next peers hpeers =>
      split
      · dsimp only
        split
        · exact (targetCount_erase_le s target).trans h.targets
        · rw [targetCount_insert_of_mem (AList.lookup_isSome.1 (by rw [hpeers]; rfl))]
          exact h.targets
      · exact h.targets

lemma get_of_lookup {target : NodeId} {peers : List PeerAnnouncement}
    (h : s.store.lookup target = some peers) : s.get target = peers := by
  simp [get, h]

lemma hasRoom_iff (s : AnnounceStore) (target : NodeId) :
    s.hasRoom target = true ↔ target ∈ s.store ∨ s.targetCount < maxTotalTargets := by
  rw [hasRoom, Bool.or_eq_true, decide_eq_true_eq, AList.lookup_isSome, or_comm]
  rfl

lemma mem_store_of_get {target : NodeId} (h : s.get target ≠ []) : target ∈ s.store := by
  rw [← AList.lookup_isSome]
  by_contra hnone
  rw [Option.not_isSome_iff_eq_none] at hnone
  exact h (by simp [get, hnone])

lemma gcTarget_tidies (now : UInt64) (target : NodeId) (h : s.Filled)
    (hcount : s.targetCount ≤ maxTotalTargets) :
    (gcTarget now s target).Filled ∧ (gcTarget now s target).targetCount ≤ maxTotalTargets := by
  unfold gcTarget
  dsimp only
  split
  · exact ⟨filled_erase h target, (targetCount_erase_le s target).trans hcount⟩
  next hsome =>
    have hmem : target ∈ s.store := mem_store_of_get fun hnil => hsome (by rw [hnil]; rfl)
    refine ⟨filled_insert h target fun hnil => hsome (by rw [hnil]; rfl), ?_⟩
    rw [targetCount_insert_of_mem hmem]
    exact hcount

lemma Tidy.gc (h : s.Tidy) (now : UInt64) : (s.gc now).Tidy := by
  have hloop (targets : List NodeId) (s : AnnounceStore) (hfilled : s.Filled)
      (hcount : s.targetCount ≤ maxTotalTargets) : (targets.foldl (gcTarget now) s).Filled ∧
        (targets.foldl (gcTarget now) s).targetCount ≤ maxTotalTargets := by
    induction targets generalizing s with
    | nil => exact ⟨hfilled, hcount⟩
    | cons target targets ih =>
      obtain ⟨hfilled', hcount'⟩ := gcTarget_tidies now target hfilled hcount
      exact ih _ hfilled' hcount'
  obtain ⟨hfilled, hcount⟩ := hloop s.store.keys s h.filled h.targets
  exact ⟨hfilled, h.bounded.gc now, h.distinct.gc now, hcount⟩

/-- **Every call keeps the store tidy.** -/
theorem Tidy.apply (h : s.Tidy) (a : Access) : (s.apply a).Tidy := by
  cases a with
  | put target ann => exact h.put target ann
  | remove target addr => exact h.remove target addr
  | gc now => exact h.gc now

/-! ## What the calls do -/

/-- The addresses that records of a target are from. -/
def addresses (s : AnnounceStore) (target : NodeId) : List Ipv4Address :=
  (s.get target).map PeerAnnouncement.fromAddr

/-- **What the store is, and what each call does to it.** -/
structure Exact (s : AnnounceStore) : Prop where
  stored : ∀ target peers, s.store.lookup target = some peers →
    1 ≤ peers.length ∧ peers.length ≤ maxPeersPerTarget ∧
      (peers.map PeerAnnouncement.fromAddr).Nodup
  targets : s.targetCount ≤ maxTotalTargets
  /-- A new target is refused when there are as many as may be. -/
  put_refused : ∀ target ann, target ∉ s.store → maxTotalTargets ≤ s.targetCount →
    s.put target ann = s
  put_retrievable : ∀ target ann, target ∈ s.store ∨ s.targetCount < maxTotalTargets →
    ann ∈ (s.put target ann).get target
  /-- A record from a new address takes the place of one of the oldest. -/
  put_evicts : ∀ target ann, (s.get target).length = maxPeersPerTarget →
    ann.fromAddr ∉ s.addresses target → ∃ old ∈ s.get target,
      (∀ r ∈ s.get target, old.createdAt ≤ r.createdAt) ∧
        ∀ r, r ∈ (s.put target ann).get target ↔ r = ann ∨ r ∈ s.get target ∧ r ≠ old
  /-- A record from an address that has one takes its place. -/
  put_replaces : ∀ target ann, ann.fromAddr ∈ s.addresses target →
    ∀ r, r ∈ (s.put target ann).get target ↔
      r = ann ∨ r ∈ s.get target ∧ r.fromAddr ≠ ann.fromAddr
  remove_exact : ∀ target addr r,
    r ∈ (s.remove target addr).1.get target ↔ r ∈ s.get target ∧ r.fromAddr ≠ addr
  gc_exact : ∀ now target r, r ∈ (s.gc now).get target ↔
    r ∈ s.get target ∧
      ¬ (r.createdAt.toNat ≤ now.toNat ∧ r.ttl.toNat < now.toNat - r.createdAt.toNat)
  /-- The other targets are left alone. -/
  others : ∀ target t, t ≠ target →
    (∀ ann, (s.put target ann).get t = s.get t) ∧
      ∀ addr, (s.remove target addr).1.get t = s.get t

lemma get_put_of_mem {target : NodeId} (h : target ∈ s.store) (ann : PeerAnnouncement) :
    (s.put target ann).get target = putPeer (s.get target) ann := by
  rw [get_put, if_pos ⟨rfl, (hasRoom_iff s target).2 (.inl h)⟩]

lemma any_sentFrom_iff (peers : List PeerAnnouncement) (addr : Ipv4Address) :
    peers.any (sentFrom addr) = true ↔ addr ∈ peers.map PeerAnnouncement.fromAddr := by
  simp [sentFrom_iff]

lemma getElem_oldest_le {peers : List PeerAnnouncement} (h : peers ≠ []) :
    ∃ old, peers[oldest peers]? = some old ∧ ∀ r ∈ peers, old.createdAt ≤ r.createdAt := by
  refine ⟨_, List.getElem?_eq_getElem (oldest_lt h), ?_⟩
  have hall := List.findIdx_getElem (w := oldest_lt h)
  rw [List.all_eq_true] at hall
  exact fun r hr => of_decide_eq_true (hall r hr)

lemma putPeer_evicts {peers : List PeerAnnouncement} {ann : PeerAnnouncement}
    (hnodup : (peers.map PeerAnnouncement.fromAddr).Nodup)
    (hfull : peers.length = maxPeersPerTarget)
    (hnew : ann.fromAddr ∉ peers.map PeerAnnouncement.fromAddr) :
    ∃ old ∈ peers, (∀ r ∈ peers, old.createdAt ≤ r.createdAt) ∧
      ∀ r, r ∈ putPeer peers ann ↔ r = ann ∨ r ∈ peers ∧ r ≠ old := by
  have hne : peers ≠ [] := by
    rintro rfl
    cases hfull
  obtain ⟨old, hold, hleast⟩ := getElem_oldest_le hne
  have hevicted : evicted peers ann = some old := by
    have hnone : peers.any (sentFrom ann.fromAddr) = false := by
      rw [← Bool.not_eq_true, any_sentFrom_iff]
      exact hnew
    simp [evicted, hnone, hfull, hold]
  refine ⟨old, List.mem_of_getElem? hold, hleast, fun r => ?_⟩
  rw [mem_putPeer_iff hnodup, hevicted]
  refine or_congr_right (and_congr_right fun hr => ?_)
  have hother : r.fromAddr ≠ ann.fromAddr := fun h => hnew (h ▸ List.mem_map_of_mem hr)
  rw [and_iff_right hother, ne_eq, Option.some.injEq, eq_comm]

lemma expired_iff (now : UInt64) (a : PeerAnnouncement) :
    expired now a = true ↔
      a.createdAt.toNat ≤ now.toNat ∧ a.ttl.toNat < now.toNat - a.createdAt.toNat := by
  rw [expired, Bool.and_eq_true, decide_eq_true_eq, decide_eq_true_eq, ge_iff_le,
    UInt64.le_iff_toNat_le]
  refine and_congr_right fun hle => ?_
  rw [gt_iff_lt, UInt64.lt_iff_toNat_lt, UInt64.toNat_sub_of_le _ _ (UInt64.le_iff_toNat_le.2 hle)]

/-- **The calls are exact** in a tidy store. -/
lemma Tidy.exact (h : s.Tidy) : s.Exact where
  stored := by
    intro target peers hlookup
    have hget := get_of_lookup hlookup
    exact ⟨List.length_pos_iff.2 (h.filled target peers hlookup), hget ▸ h.bounded target,
      hget ▸ h.distinct target⟩
  targets := h.targets
  put_refused := by
    intro target ann hnew hfull
    have hroom : ¬ s.hasRoom target = true := by
      rw [hasRoom_iff]
      exact fun hroom => hroom.elim hnew (not_lt.2 hfull)
    rw [AnnounceStore.put, if_neg hroom]
  put_retrievable := by
    intro target ann hroom
    rw [get_put, if_pos ⟨rfl, (hasRoom_iff s target).2 hroom⟩]
    exact mem_putPeer_self _ ann
  put_evicts := by
    intro target ann hfull hnew
    have hmem : target ∈ s.store := mem_store_of_get fun hnil => by
      rw [hnil] at hfull
      cases hfull
    rw [get_put_of_mem hmem]
    exact putPeer_evicts (h.distinct target) hfull hnew
  put_replaces := by
    intro target ann hold r
    have hmem : target ∈ s.store := mem_store_of_get fun hnil => by
      simp [addresses, hnil] at hold
    have hkeeps : evicted (s.get target) ann = none := by
      rw [evicted, (any_sentFrom_iff _ _).2 hold]
      rfl
    rw [get_put_of_mem hmem, mem_putPeer_iff (h.distinct target), hkeeps]
    simp
  remove_exact := by
    intro target addr r
    rw [get_remove, if_pos rfl, List.mem_filter, Bool.not_eq_true', ← Bool.not_eq_true,
      sentFrom_iff]
  gc_exact := by
    intro now target r
    rw [get_gc, List.mem_filter, Bool.not_eq_true', ← Bool.not_eq_true, expired_iff]
  others := by
    intro target t hne
    refine ⟨fun ann => ?_, fun addr => ?_⟩
    · rw [get_put, if_neg fun heq => hne heq.1]
    · rw [get_remove, if_neg hne]

lemma tidy_empty : Tidy {} where
  filled := by
    intro target peers h
    cases h
  bounded := fun target => by simp [get]
  distinct := fun target => by simp [get]
  targets := Nat.zero_le _

/-- **The bounds of the store**, and what its calls do, in every state that any calls lead to.

**Proof sketch.** Every call keeps the store tidy: a record that joins has a place, a target that has lost
its records is erased, and a new target comes only while there is room. -/
theorem exact_run (calls : List Access) : (Runs.run apply {} calls).Exact :=
  (Runs.run_invariant (P := Tidy) (fun _ a h => h.apply a) tidy_empty calls).exact

/-! ## An announcer that announces again -/

def twentyRecords : List Access :=
  (List.range 20).map fun n => .put .zero
    { fromAddr := .ofOctets 10 0 0 (UInt8.ofNat n) 7, value := [], createdAt := UInt64.ofNat n
      ttl := 1000 }

def announcedAgain : PeerAnnouncement where
  fromAddr := .ofOctets 10 0 0 19 7
  value := []
  createdAt := 20
  ttl := 1000

set_option maxRecDepth 10000 in
/-- **An announcer takes its own place**, though its target is full: the oldest record stays. -/
theorem oldest_stays_announcedAgain :
    ((Runs.run apply {} twentyRecords).get .zero).length = maxPeersPerTarget ∧
      ∀ old ∈ (Runs.run apply {} twentyRecords).get .zero,
        (∀ r ∈ (Runs.run apply {} twentyRecords).get .zero, old.createdAt ≤ r.createdAt) →
          old ∈ ((Runs.run apply {} twentyRecords).put .zero announcedAgain).get .zero := by
  decide +kernel

end HyperDHT.Handlers.AnnounceStore
