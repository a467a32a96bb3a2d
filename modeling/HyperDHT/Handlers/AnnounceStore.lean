import Mathlib.Data.Finset.Max
import Mathlib.Data.List.AList
import HyperDHT.Compact.Ipv4
import HyperDHT.Routing.NodeId

/-!
# The store of announcements

The records of peers by target (`announce.cpp`). A target has at most twenty records, at most one
from each address; a further one takes the place of the oldest.

## Main definitions

* `Handlers.PeerAnnouncement`, `Handlers.AnnounceStore` — a record, and the records of each target.
* `Handlers.AnnounceStore.put`, `remove`, `get`, `gc` — the code.

## Main results

* `Handlers.AnnounceStore.get_put_cases` — what a target has after a record was stored.
* `Handlers.AnnounceStore.get_remove` — what it has after the records of an address were removed.
* `Handlers.AnnounceStore.get_gc` — the garbage collection keeps what has not outlived its time.
* `Handlers.AnnounceStore.mem_putPeer_iff` — what stays when a record joins.
-/

set_option autoImplicit false

namespace HyperDHT.Handlers

open Compact Routing

def maxPeersPerTarget : ℕ := 20
def maxTotalTargets : ℕ := 65536

/-- A record: who sent it, its bytes, when it was stored and for how long. -/
structure PeerAnnouncement where
  fromAddr : Ipv4Address
  value : List UInt8
  createdAt : UInt64
  ttl : UInt64
  deriving DecidableEq

/-- The records of each target. -/
structure AnnounceStore where
  store : AList fun _ : NodeId => List PeerAnnouncement := ∅

namespace AnnounceStore

/-- A record was sent from the address. -/
def sentFrom (addr : Ipv4Address) (a : PeerAnnouncement) : Bool :=
  a.fromAddr.hostString = addr.hostString ∧ a.fromAddr.port = addr.port

/-- The records of a target. -/
def get (s : AnnounceStore) (target : NodeId) : List PeerAnnouncement :=
  (s.store.lookup target).getD []

/-- The position of the first record that is at least as old as all the others. -/
def oldest (peers : List PeerAnnouncement) : ℕ :=
  peers.findIdx fun a => peers.all fun b => a.createdAt ≤ b.createdAt

/-- A record joins those of its target: it replaces the one from the same address, or the oldest one
if there are enough, and is appended otherwise. -/
def putPeer (peers : List PeerAnnouncement) (ann : PeerAnnouncement) : List PeerAnnouncement :=
  if peers.any (sentFrom ann.fromAddr) then peers.set (peers.findIdx (sentFrom ann.fromAddr)) ann
  else if peers.length ≥ maxPeersPerTarget then peers.set (oldest peers) ann
  else peers ++ [ann]

/-- There is room for the target. -/
def hasRoom (s : AnnounceStore) (target : NodeId) : Bool :=
  s.store.entries.length < maxTotalTargets || (s.store.lookup target).isSome

/-- Store a record, unless its target is new and there are too many targets. -/
def put (s : AnnounceStore) (target : NodeId) (ann : PeerAnnouncement) : AnnounceStore :=
  if s.hasRoom target then ⟨s.store.insert target (putPeer (s.get target) ann)⟩ else s

/-- Remove the records that an address sent for a target. -/
def remove (s : AnnounceStore) (target : NodeId) (addr : Ipv4Address) : AnnounceStore × Bool :=
  match s.store.lookup target with
  | none => (s, false)
  | some peers =>
    if peers.any (sentFrom addr) then
      let kept := peers.filter fun a => !sentFrom addr a
      if kept.isEmpty then (⟨s.store.erase target⟩, true) else (⟨s.store.insert target kept⟩, true)
    else (s, false)

/-- A record has outlived its time. -/
def expired (now : UInt64) (a : PeerAnnouncement) : Bool :=
  now ≥ a.createdAt && now - a.createdAt > a.ttl

/-- The body of the loop over the targets: drop the records that have outlived their time, and a
target that has none left. -/
def gcTarget (now : UInt64) (s : AnnounceStore) (target : NodeId) : AnnounceStore :=
  let kept := (s.get target).filter fun a => !expired now a
  if kept.isEmpty then ⟨s.store.erase target⟩ else ⟨s.store.insert target kept⟩

/-- Drop the records that have outlived their time. -/
def gc (s : AnnounceStore) (now : UInt64) : AnnounceStore := s.store.keys.foldl (gcTarget now) s

/-! ## What a target has -/

@[simp] lemma get_insert_self (s : AnnounceStore) (target : NodeId)
    (peers : List PeerAnnouncement) : get ⟨s.store.insert target peers⟩ target = peers := by
  simp [get]

lemma get_insert_of_ne (s : AnnounceStore) {target t : NodeId} (h : t ≠ target)
    (peers : List PeerAnnouncement) : get ⟨s.store.insert target peers⟩ t = s.get t := by
  simp [get, AList.lookup_insert_ne h]

@[simp] lemma get_erase_self (s : AnnounceStore) (target : NodeId) :
    get ⟨s.store.erase target⟩ target = [] := by
  simp [get]

lemma get_erase_of_ne (s : AnnounceStore) {target t : NodeId} (h : t ≠ target) :
    get ⟨s.store.erase target⟩ t = s.get t := by
  simp [get, AList.lookup_erase_ne h]

/-- **Storing a record** changes its target only, and only if there is room. -/
theorem get_put (s : AnnounceStore) (target : NodeId) (ann : PeerAnnouncement) (t : NodeId) :
    (s.put target ann).get t =
      if t = target ∧ s.hasRoom target = true then putPeer (s.get target) ann else s.get t := by
  unfold put
  by_cases hroom : s.hasRoom target = true
  · rw [if_pos hroom]
    by_cases ht : t = target
    · subst ht
      simp [hroom]
    · simp [ht, get_insert_of_ne s ht]
  · simp [hroom]

/-- **Removing the records of an address** keeps the other records of the target, and the other
targets. -/
theorem get_remove (s : AnnounceStore) (target : NodeId) (addr : Ipv4Address) (t : NodeId) :
    (s.remove target addr).1.get t =
      if t = target then (s.get target).filter (fun a => !sentFrom addr a) else s.get t := by
  unfold remove
  split
  · next hnone =>
    by_cases ht : t = target
    · subst ht
      simp [get, hnone]
    · simp [ht]
  · next peers hpeers =>
    have hget : s.get target = peers := by simp [get, hpeers]
    rw [hget]
    split
    · dsimp only
      split
      · next hempty =>
        by_cases ht : t = target
        · subst ht
          simpa using (List.isEmpty_iff.1 hempty).symm
        · simp [ht, get_erase_of_ne s ht]
      · by_cases ht : t = target
        · subst ht
          simp
        · simp [ht, get_insert_of_ne s ht]
    · next hnone =>
      by_cases ht : t = target
      · subst ht
        rw [hget, if_pos rfl, List.filter_eq_self.2]
        intro a ha
        simp only [List.any_eq_true, not_exists, not_and] at hnone
        simpa using hnone a ha
      · simp [ht]

lemma get_gcTarget (now : UInt64) (s : AnnounceStore) (target t : NodeId) :
    (gcTarget now s target).get t =
      if t = target then (s.get target).filter (fun a => !expired now a) else s.get t := by
  unfold gcTarget
  dsimp only
  by_cases ht : t = target
  · subst ht
    split
    · next hempty => simpa using (List.isEmpty_iff.1 hempty).symm
    · simp
  · split
    · exact get_erase_of_ne s ht
    · exact get_insert_of_ne s ht _

lemma get_foldl_gcTarget (now : UInt64) (s : AnnounceStore) (targets : List NodeId) (t : NodeId) :
    (targets.foldl (gcTarget now) s).get t =
      if t ∈ targets then (s.get t).filter (fun a => !expired now a) else s.get t := by
  induction targets generalizing s with
  | nil => simp
  | cons target targets ih =>
    rw [List.foldl_cons, ih, get_gcTarget]
    by_cases ht : t = target
    · subst ht
      simp [List.filter_filter]
    · simp [ht]

/-- **The garbage collection** keeps the records that have not outlived their time. -/
theorem get_gc (s : AnnounceStore) (now : UInt64) (t : NodeId) :
    (s.gc now).get t = (s.get t).filter fun a => !expired now a := by
  rw [gc, get_foldl_gcTarget]
  split
  · rfl
  · next hnone =>
    have hget : s.get t = [] := by
      rw [get, AList.lookup_eq_none.2 hnone, Option.getD_none]
    rw [hget, List.filter_nil]

/-- **The garbage collection adds nothing.** -/
theorem gc_subset (s : AnnounceStore) (now : UInt64) (t : NodeId) : (s.gc now).get t ⊆ s.get t := by
  rw [get_gc]
  exact List.filter_subset_self _

/-! ## The records of one target -/

lemma sentFrom_iff (addr : Ipv4Address) (a : PeerAnnouncement) :
    sentFrom addr a = true ↔ a.fromAddr = addr := by
  rw [sentFrom, decide_eq_true_iff, Ipv4Address.hostString_and_port_eq_iff]

lemma oldest_lt {peers : List PeerAnnouncement} (h : peers ≠ []) : oldest peers < peers.length := by
  obtain ⟨first, hfirst⟩ := List.exists_mem_of_ne_nil peers h
  obtain ⟨a, ha, hle⟩ := peers.toFinset.exists_min_image (fun a => a.createdAt.toNat)
    ⟨first, List.mem_toFinset.2 hfirst⟩
  refine List.findIdx_lt_length.2 ⟨a, List.mem_toFinset.1 ha, ?_⟩
  simp only [List.all_eq_true, decide_eq_true_eq]
  intro b hb
  exact UInt64.le_iff_toNat_le.2 (hle b (List.mem_toFinset.2 hb))

/-- The record that has to give way to a new one: the oldest, if there are enough and none is from
the same address. -/
def evicted (peers : List PeerAnnouncement) (ann : PeerAnnouncement) : Option PeerAnnouncement :=
  if !peers.any (sentFrom ann.fromAddr) && peers.length ≥ maxPeersPerTarget then
    peers[oldest peers]?
  else none

lemma mem_putPeer_self (peers : List PeerAnnouncement) (ann : PeerAnnouncement) :
    ann ∈ putPeer peers ann := by
  unfold putPeer
  split
  · next hany =>
    exact List.mem_set (List.findIdx_lt_length.2 (by simpa using hany)) ann
  · split
    · next hfull =>
      have hne : peers ≠ [] := by
        rintro rfl
        simp [maxPeersPerTarget] at hfull
      exact List.mem_set (oldest_lt hne) ann
    · simp

lemma mem_of_mem_putPeer {peers : List PeerAnnouncement} {ann r : PeerAnnouncement}
    (h : r ∈ putPeer peers ann) : r = ann ∨ r ∈ peers := by
  unfold putPeer at h
  split at h
  · exact (List.mem_or_eq_of_mem_set h).symm
  · split at h
    · exact (List.mem_or_eq_of_mem_set h).symm
    · simpa [or_comm] using h

lemma length_putPeer_le {peers : List PeerAnnouncement} (h : peers.length ≤ maxPeersPerTarget)
    (ann : PeerAnnouncement) : (putPeer peers ann).length ≤ maxPeersPerTarget := by
  unfold putPeer
  split
  · simpa using h
  · split
    · simpa using h
    · next hfew =>
      simp only [List.length_append, List.length_cons, List.length_nil]
      omega

lemma mem_set_or_getElem? {α : Type*} {l : List α} {a b : α} (i : ℕ) (h : a ∈ l) :
    a ∈ l.set i b ∨ l[i]? = some a := by
  obtain ⟨j, hj, rfl⟩ := List.mem_iff_getElem.1 h
  by_cases hij : i = j
  · subst hij
    exact .inr (List.getElem?_eq_getElem hj)
  · refine .inl (List.mem_iff_getElem.2 ⟨j, by simpa using hj, ?_⟩)
    exact List.getElem_set_ne hij (by simpa using hj)

/-- **A record from another address stays**, or is the one that has to give way. -/
theorem mem_putPeer_of_ne {peers : List PeerAnnouncement} {ann r : PeerAnnouncement} (h : r ∈ peers)
    (hne : r.fromAddr ≠ ann.fromAddr) :
    r ∈ putPeer peers ann ∨ evicted peers ann = some r := by
  unfold putPeer evicted
  cases hany : peers.any (sentFrom ann.fromAddr) with
  | true =>
    simp only [if_true]
    refine .inl ((mem_set_or_getElem? _ h).resolve_right fun hat => ?_)
    -- the record that is replaced is from the same address
    have hsame : sentFrom ann.fromAddr r = true := by
      obtain ⟨hlt, hget⟩ := List.getElem?_eq_some_iff.1 hat
      rw [← hget]
      exact List.findIdx_getElem (w := hlt)
    exact hne ((sentFrom_iff _ r).1 hsame)
  | false =>
    by_cases hfull : peers.length ≥ maxPeersPerTarget
    · simp only [Bool.false_eq_true, if_false, hfull, if_true, Bool.not_false, Bool.true_and,
        decide_true]
      exact mem_set_or_getElem? _ h
    · simp only [Bool.false_eq_true, if_false, hfull]
      exact .inl (List.mem_append_left _ h)

/-! ## Every target at once -/

/-- What holds of every record of every target. -/
def Holds (P : NodeId → PeerAnnouncement → Prop) (s : AnnounceStore) : Prop :=
  ∀ target, ∀ r ∈ s.get target, P target r

/-- No target has more records than it may have. -/
def Bounded (s : AnnounceStore) : Prop := ∀ target, (s.get target).length ≤ maxPeersPerTarget

variable {P : NodeId → PeerAnnouncement → Prop} {s : AnnounceStore}

lemma Holds.put (h : s.Holds P) {target : NodeId} {ann : PeerAnnouncement} (hann : P target ann) :
    (s.put target ann).Holds P := by
  intro t r hr
  rw [get_put] at hr
  split at hr
  · next ht =>
    rcases mem_of_mem_putPeer hr with rfl | hmem
    · exact ht.1 ▸ hann
    · exact ht.1 ▸ h target r hmem
  · exact h t r hr

lemma Holds.of_subset {s' : AnnounceStore} (h : s.Holds P) (hsub : ∀ t, s'.get t ⊆ s.get t) :
    s'.Holds P :=
  fun t r hr => h t r (hsub t hr)

lemma remove_subset (s : AnnounceStore) (target : NodeId) (addr : Ipv4Address) (t : NodeId) :
    (s.remove target addr).1.get t ⊆ s.get t := by
  rw [get_remove]
  split
  · next ht => exact ht ▸ List.filter_subset_self _
  · exact List.Subset.refl _

lemma Bounded.put (h : s.Bounded) (target : NodeId) (ann : PeerAnnouncement) :
    (s.put target ann).Bounded := by
  intro t
  rw [get_put]
  split
  · exact length_putPeer_le (h target) ann
  · exact h t

lemma Bounded.remove (h : s.Bounded) (target : NodeId) (addr : Ipv4Address) :
    (s.remove target addr).1.Bounded := by
  intro t
  rw [get_remove]
  split
  · exact (List.length_filter_le _ _).trans (h target)
  · exact h t

lemma Bounded.gc (h : s.Bounded) (now : UInt64) : (s.gc now).Bounded := by
  intro t
  rw [get_gc]
  exact (List.length_filter_le _ _).trans (h t)

/-- No target has two records from one address. -/
def Distinct (s : AnnounceStore) : Prop :=
  ∀ target, ((s.get target).map (·.fromAddr)).Nodup

lemma nodup_putPeer {peers : List PeerAnnouncement} (h : (peers.map (·.fromAddr)).Nodup)
    (ann : PeerAnnouncement) : ((putPeer peers ann).map (·.fromAddr)).Nodup := by
  unfold putPeer
  split
  · next hany =>
    -- the record that is replaced is from the same address
    have hlt : peers.findIdx (sentFrom ann.fromAddr) < peers.length :=
      List.findIdx_lt_length.2 (by simpa using hany)
    have hsame := (sentFrom_iff _ _).1 (List.findIdx_getElem (w := hlt))
    generalize peers.findIdx (sentFrom ann.fromAddr) = place at hlt hsame ⊢
    have hlt' : place < (peers.map (·.fromAddr)).length := by rwa [List.length_map]
    have haddr : (peers.map (·.fromAddr))[place] = ann.fromAddr := by
      rw [List.getElem_map, hsame]
    rw [List.map_set, ← haddr, List.set_getElem_self]
    exact h
  · next hnone =>
    have hnew : ann.fromAddr ∉ peers.map (·.fromAddr) := by
      intro hmem
      obtain ⟨a, ha, hsame⟩ := List.mem_map.1 hmem
      exact hnone (List.any_eq_true.2 ⟨a, ha, (sentFrom_iff _ _).2 hsame⟩)
    split
    · rw [List.map_set]
      exact h.set hnew
    · rw [List.map_append, List.map_singleton, ← List.concat_eq_append]
      exact h.concat hnew

/-- **What stays when a record joins**: the records from other addresses, but the one that has to
give way. -/
theorem mem_putPeer_iff {peers : List PeerAnnouncement} (h : (peers.map (·.fromAddr)).Nodup)
    (ann r : PeerAnnouncement) :
    r ∈ putPeer peers ann ↔
      r = ann ∨ r ∈ peers ∧ r.fromAddr ≠ ann.fromAddr ∧ evicted peers ann ≠ some r := by
  constructor
  · intro hr
    refine or_iff_not_imp_left.2 fun hne => ?_
    have haddr : r.fromAddr ≠ ann.fromAddr := fun hsame =>
      hne (List.inj_on_of_nodup_map (nodup_putPeer h ann) hr (mem_putPeer_self _ _) hsame)
    refine ⟨(mem_of_mem_putPeer hr).resolve_left hne, haddr, fun hevicted => ?_⟩
    -- the place of the record that gives way is the only one it had
    unfold evicted at hevicted
    split at hevicted
    · next hfull =>
      simp only [Bool.and_eq_true, Bool.not_eq_true', decide_eq_true_eq] at hfull
      rw [putPeer, if_neg (by simp [hfull.1]), if_pos hfull.2] at hr
      obtain ⟨hlt, hold⟩ := List.getElem?_eq_some_iff.1 hevicted
      obtain ⟨j, hj, hget⟩ := List.mem_iff_getElem.1 hr
      rw [List.getElem_set] at hget
      split at hget
      · exact hne hget.symm
      · next hplace =>
        rw [List.length_set] at hj
        exact hplace ((h.of_map _).getElem_inj_iff.1 (hold.trans hget.symm))
    · simp at hevicted
  · rintro (rfl | ⟨hr, haddr, hstays⟩)
    · exact mem_putPeer_self peers r
    · exact (mem_putPeer_of_ne hr haddr).resolve_right hstays

lemma Distinct.put (h : s.Distinct) (target : NodeId) (ann : PeerAnnouncement) :
    (s.put target ann).Distinct := by
  intro t
  rw [get_put]
  split
  · exact nodup_putPeer (h target) ann
  · exact h t

lemma Distinct.remove (h : s.Distinct) (target : NodeId) (addr : Ipv4Address) :
    (s.remove target addr).1.Distinct := by
  intro t
  rw [get_remove]
  split
  · exact (h target).sublist (List.filter_sublist.map _)
  · exact h t

lemma Distinct.gc (h : s.Distinct) (now : UInt64) : (s.gc now).Distinct := by
  intro t
  rw [get_gc]
  exact (h t).sublist (List.filter_sublist.map _)

end AnnounceStore

end HyperDHT.Handlers
