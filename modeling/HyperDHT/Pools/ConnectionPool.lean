import HyperDHT.Lib.Runs
import HyperDHT.Pools.Keys

/-!
# The pool of connections

`ConnectionPool`: at most one connection to each peer, either connecting or connected. When a second one is
attached, a rule decides which of the two stays.

## Main definitions

* `Pools.ConnectionRef`, `Pools.ConnectionPool` — a connection as the pool knows it, and the two maps.
* `Pools.shouldKeepNew` — the rule.
* `ConnectionPool.attachStream`, `markOpened`, `remove`, `get` — the methods.
* `Pools.PoolState`, `Pools.poolStep` — a pool as a machine over the calls of its methods.
* `Pools.Slot` — what a pool is for one peer: the connection it keeps, and those it had destroyed.

## Main results

* `Pools.wf_poolRun` — in every run the two maps are those of different peers.
* `ConnectionPool.Wf.length_held_le` — at most one connection to a peer is held.
* `Pools.slot_run` — the calls about a peer, in their order, say what becomes of its connections.

## Design

The callbacks of a connection are events: `on_destroy` and `on_open` are always set, and do not call the pool. The
count of the users of a connection, which the pool does not read, is left out.
-/

set_option autoImplicit false

namespace HyperDHT.Pools

/-! ## The pool -/

/-- A connection, as one of its ends knows it. -/
structure ConnectionRef where
  localPublicKey : PublicKey
  remotePublicKey : PublicKey
  isInitiator : Bool := false
  id : UInt32 := 0
  deriving DecidableEq

/-- What `attach_stream` returns. -/
inductive AttachResult where
  | attached
  | duplicateKeptNew
  | duplicateKeptOld
  deriving DecidableEq

/-- A callback of a connection. -/
inductive PoolEvent where
  | onDestroy (ref : ConnectionRef)
  | onOpen (ref : ConnectionRef)
  deriving DecidableEq

/-- The connections of a row of callbacks that were destroyed. -/
def PoolEvent.destroyed? : PoolEvent → Option ConnectionRef
  | .onDestroy ref => some ref
  | .onOpen _ => none

/-- The connections that are not open yet, and those that are, by the key of the peer. -/
structure ConnectionPool where
  connecting : AList fun _ : List Char => ConnectionRef := ∅
  connections : AList fun _ : List Char => ConnectionRef := ∅

/-- The rule: a new connection wins if both have the same mode, or if our key is the greater one. -/
def shouldKeepNew (existing newRef : ConnectionRef) : Bool :=
  newRef.isInitiator == existing.isInitiator ||
    memcmp newRef.localPublicKey newRef.remotePublicKey == .gt

namespace ConnectionPool

/-- `ConnectionPool::get`: connected first, then connecting. -/
def get (p : ConnectionPool) (remoteKey : PublicKey) : Option ConnectionRef :=
  (p.connections.lookup (keyHex remoteKey)).or (p.connecting.lookup (keyHex remoteKey))

/-- `ConnectionPool::has`. -/
def has (p : ConnectionPool) (remoteKey : PublicKey) : Bool := (p.get remoteKey).isSome

/-- `ConnectionPool::remove`. -/
def remove (p : ConnectionPool) (remoteKey : PublicKey) : ConnectionPool where
  connecting := p.connecting.erase (keyHex remoteKey)
  connections := p.connections.erase (keyHex remoteKey)

/-- A connection goes into the map of its state. -/
def put (p : ConnectionPool) (ref : ConnectionRef) (opened : Bool) : ConnectionPool :=
  if opened then { p with connections := p.connections.insert (keyHex ref.remotePublicKey) ref }
  else { p with connecting := p.connecting.insert (keyHex ref.remotePublicKey) ref }

/-- `ConnectionPool::attach_stream`. -/
def attachStream (p : ConnectionPool) (ref : ConnectionRef) (opened : Bool) :
    ConnectionPool × AttachResult × List PoolEvent :=
  match p.get ref.remotePublicKey with
  | none => (p.put ref opened, .attached, [])
  | some existing =>
    if shouldKeepNew existing ref then
      ((p.remove existing.remotePublicKey).put ref opened, .duplicateKeptNew, [.onDestroy existing])
    else (p, .duplicateKeptOld, [.onDestroy ref])

/-- `ConnectionPool::mark_opened`. -/
def markOpened (p : ConnectionPool) (remoteKey : PublicKey) : ConnectionPool × List PoolEvent :=
  match p.connecting.lookup (keyHex remoteKey) with
  | none => (p, [])
  | some ref =>
    ({ connecting := p.connecting.erase (keyHex remoteKey)
       connections := p.connections.insert (keyHex remoteKey) ref }, [.onOpen ref])

/-- The connections to a peer that are in the maps. -/
def held (p : ConnectionPool) (remoteKey : PublicKey) : List ConnectionRef :=
  ((p.connecting.entries ++ p.connections.entries).map Sigma.snd).filter fun ref =>
    ref.remotePublicKey = remoteKey

end ConnectionPool

/-- A call of a method that changes the pool. -/
inductive PoolCall where
  | attachStream (ref : ConnectionRef) (opened : Bool)
  | markOpened (remoteKey : PublicKey)
  | remove (remoteKey : PublicKey)

/-- A pool, and the callbacks it has called. -/
structure PoolState where
  pool : ConnectionPool := {}
  events : List PoolEvent := []

/-- A method is called. -/
def poolStep (s : PoolState) : PoolCall → PoolState
  | .attachStream ref opened =>
    { pool := (s.pool.attachStream ref opened).1
      events := s.events ++ (s.pool.attachStream ref opened).2.2 }
  | .markOpened remoteKey =>
    { pool := (s.pool.markOpened remoteKey).1
      events := s.events ++ (s.pool.markOpened remoteKey).2 }
  | .remove remoteKey => { s with pool := s.pool.remove remoteKey }

/-! ## The two maps -/

/-- An entry is that of the peer of its connection, and a peer is in one map only. -/
structure ConnectionPool.Wf (p : ConnectionPool) : Prop where
  connecting : ∀ hex ref, p.connecting.lookup hex = some ref → keyHex ref.remotePublicKey = hex
  connections : ∀ hex ref, p.connections.lookup hex = some ref → keyHex ref.remotePublicKey = hex
  apart : ∀ hex, p.connections.lookup hex = none ∨ p.connecting.lookup hex = none

namespace ConnectionPool

variable {p : ConnectionPool} {ref existing : ConnectionRef} {key remoteKey : PublicKey} {hex : List Char}
  {opened : Bool}

lemma wf_empty : ({} : ConnectionPool).Wf := ⟨by simp, by simp, by simp⟩

lemma lookup_insert_eq (m : AList fun _ : List Char => ConnectionRef) (a b : List Char)
    (ref : ConnectionRef) : (m.insert a ref).lookup b = if b = a then some ref else m.lookup b := by
  split_ifs with h
  · subst h
    exact AList.lookup_insert m
  · exact AList.lookup_insert_ne h

lemma lookup_erase_eq (m : AList fun _ : List Char => ConnectionRef) (a b : List Char) :
    (m.erase a).lookup b = if b = a then none else m.lookup b := by
  split_ifs with h
  · subst h
    exact AList.lookup_erase b m
  · exact AList.lookup_erase_ne h

lemma Wf.remotePublicKey_eq (h : p.Wf) (hget : p.get key = some ref) : ref.remotePublicKey = key := by
  rw [get, Option.or_eq_some_iff] at hget
  apply keyHex_injective
  rcases hget with hget | ⟨-, hget⟩
  · exact h.connections _ _ hget
  · exact h.connecting _ _ hget

lemma get_eq_none_iff : p.get key = none ↔
    p.connections.lookup (keyHex key) = none ∧ p.connecting.lookup (keyHex key) = none := by
  rw [get, Option.or_eq_none_iff]

lemma get_remove (p : ConnectionPool) (key remoteKey : PublicKey) :
    (p.remove remoteKey).get key = if key = remoteKey then none else p.get key := by
  simp only [get, remove, lookup_erase_eq, keyHex_injective.eq_iff]
  split_ifs <;> rfl

lemma Wf.remove (h : p.Wf) (remoteKey : PublicKey) : (p.remove remoteKey).Wf := by
  refine ⟨fun hex ref hin => ?_, fun hex ref hin => ?_, fun hex => ?_⟩
  · rw [ConnectionPool.remove, lookup_erase_eq] at hin
    split_ifs at hin
    exact h.connecting hex ref hin
  · rw [ConnectionPool.remove, lookup_erase_eq] at hin
    split_ifs at hin
    exact h.connections hex ref hin
  · simp only [ConnectionPool.remove, lookup_erase_eq]
    split_ifs
    · exact Or.inl rfl
    · exact h.apart hex

lemma get_put (hnone : p.get ref.remotePublicKey = none) (key : PublicKey) :
    (p.put ref opened).get key = if key = ref.remotePublicKey then some ref else p.get key := by
  obtain ⟨hconnections, hconnecting⟩ := get_eq_none_iff.1 hnone
  cases opened with
  | false =>
    have hput : (p.put ref false).get key = (p.connections.lookup (keyHex key)).or
        ((p.connecting.insert (keyHex ref.remotePublicKey) ref).lookup (keyHex key)) := rfl
    rw [hput, lookup_insert_eq]
    simp only [keyHex_injective.eq_iff]
    split_ifs with hkey
    · rw [hkey, hconnections, Option.none_or]
    · rfl
  | true =>
    have hput : (p.put ref true).get key =
        ((p.connections.insert (keyHex ref.remotePublicKey) ref).lookup (keyHex key)).or
        (p.connecting.lookup (keyHex key)) := rfl
    rw [hput, lookup_insert_eq]
    simp only [keyHex_injective.eq_iff]
    split_ifs <;> rfl

lemma Wf.put (h : p.Wf) (hnone : p.get ref.remotePublicKey = none) : (p.put ref opened).Wf := by
  obtain ⟨hconnections, hconnecting⟩ := get_eq_none_iff.1 hnone
  have hkeyed : ∀ (m : AList fun _ : List Char => ConnectionRef),
      (∀ hex r, m.lookup hex = some r → keyHex r.remotePublicKey = hex) →
      ∀ hex r, (m.insert (keyHex ref.remotePublicKey) ref).lookup hex = some r →
        keyHex r.remotePublicKey = hex := by
    intro m hm hex r hin
    rw [lookup_insert_eq] at hin
    split_ifs at hin with hhex
    · obtain rfl := Option.some.inj hin
      exact hhex.symm
    · exact hm hex r hin
  cases opened with
  | false =>
    refine ⟨hkeyed _ h.connecting, h.connections, fun hex => ?_⟩
    by_cases hhex : hex = keyHex ref.remotePublicKey
    · exact Or.inl (hhex ▸ hconnections)
    · refine (h.apart hex).imp_right fun hout => ?_
      exact (lookup_insert_eq _ _ _ _).trans ((if_neg hhex).trans hout)
  | true =>
    refine ⟨h.connecting, hkeyed _ h.connections, fun hex => ?_⟩
    by_cases hhex : hex = keyHex ref.remotePublicKey
    · exact Or.inr (hhex ▸ hconnecting)
    · refine (h.apart hex).imp_left fun hout => ?_
      exact (lookup_insert_eq _ _ _ _).trans ((if_neg hhex).trans hout)

lemma Wf.get_markOpened (h : p.Wf) (key remoteKey : PublicKey) :
    (p.markOpened remoteKey).1.get key = p.get key := by
  rw [markOpened]
  split
  · rfl
  · rename_i ref hconnecting
    simp only [get, lookup_insert_eq, lookup_erase_eq, keyHex_injective.eq_iff]
    split_ifs with hkey
    · subst hkey
      rw [(h.apart _).resolve_right (by simp [hconnecting]), hconnecting]
      rfl
    · rfl

lemma Wf.markOpened (h : p.Wf) (remoteKey : PublicKey) : (p.markOpened remoteKey).1.Wf := by
  rw [ConnectionPool.markOpened]
  split
  · exact h
  · rename_i ref hconnecting
    refine ⟨fun hex r hin => ?_, fun hex r hin => ?_, fun hex => ?_⟩
    · rw [lookup_erase_eq] at hin
      split_ifs at hin
      exact h.connecting hex r hin
    · rw [lookup_insert_eq] at hin
      split_ifs at hin with hhex
      · obtain rfl := Option.some.inj hin
        rw [hhex]
        exact h.connecting _ _ hconnecting
      · exact h.connections hex r hin
    · simp only [lookup_insert_eq, lookup_erase_eq]
      split_ifs with hhex
      · exact Or.inr rfl
      · exact h.apart hex

lemma Wf.attachStream (h : p.Wf) (ref : ConnectionRef) (opened : Bool) :
    (p.attachStream ref opened).1.Wf := by
  rw [ConnectionPool.attachStream]
  split
  · rename_i hnone
    exact h.put hnone
  · rename_i existing hsome
    split_ifs
    · refine (h.remove _).put ?_
      rw [get_remove, if_pos (h.remotePublicKey_eq hsome).symm]
    · exact h

lemma Wf.nodup_keys (h : p.Wf) : (p.connecting.keys ++ p.connections.keys).Nodup := by
  refine p.connecting.keys_nodup.append p.connections.keys_nodup fun hex hconnecting hconnections => ?_
  have hin := AList.lookup_isSome.2 (AList.mem_keys.2 hconnecting)
  have hin' := AList.lookup_isSome.2 (AList.mem_keys.2 hconnections)
  rcases h.apart hex with hnone | hnone
  · simp [hnone] at hin'
  · simp [hnone] at hin

/-- **At most one connection to a peer** is in the maps. -/
theorem Wf.length_held_le (h : p.Wf) (key : PublicKey) : (p.held key).length ≤ 1 := by
  let entries := (p.connecting.entries ++ p.connections.entries).filter fun e =>
    e.2.remotePublicKey = key
  have hheld : p.held key = entries.map Sigma.snd := by
    rw [held, List.filter_map]
    rfl
  have hnodup : (entries.map Sigma.fst).Nodup := by
    have hkeys : (p.connecting.entries ++ p.connections.entries).map Sigma.fst =
        p.connecting.keys ++ p.connections.keys := List.map_append
    exact (hkeys ▸ h.nodup_keys).sublist (List.filter_sublist.map _)
  have hall : ∀ hex ∈ entries.map Sigma.fst, hex = keyHex key := by
    intro hex hin
    obtain ⟨⟨hex', ref⟩, he, rfl⟩ := List.mem_map.1 hin
    obtain ⟨hentry, hkey⟩ := List.mem_filter.1 he
    obtain rfl : ref.remotePublicKey = key := of_decide_eq_true hkey
    rcases List.mem_append.1 hentry with hentry | hentry
    · exact (h.connecting _ _ (AList.mem_lookup_iff.2 hentry)).symm
    · exact (h.connections _ _ (AList.mem_lookup_iff.2 hentry)).symm
  rw [List.eq_replicate_of_mem hall, List.nodup_replicate, List.length_map] at hnodup
  rwa [hheld, List.length_map]

end ConnectionPool

/-- Every call keeps the maps apart. -/
theorem wf_poolStep (s : PoolState) (c : PoolCall) (h : s.pool.Wf) : (poolStep s c).pool.Wf := by
  cases c with
  | attachStream ref opened => exact h.attachStream ref opened
  | markOpened remoteKey => exact h.markOpened remoteKey
  | remove remoteKey => exact h.remove remoteKey

/-- **In every run** the maps are those of different peers. -/
theorem wf_poolRun (calls : List PoolCall) : (Runs.run poolStep {} calls).pool.Wf :=
  Runs.run_invariant wf_poolStep ConnectionPool.wf_empty calls

/-! ## One peer -/

/-- What a pool is for one peer. -/
structure Slot where
  kept : Option ConnectionRef := none
  destroyed : List ConnectionRef := []
  deriving DecidableEq

namespace Slot

/-- A connection to the peer is attached: one of two stays. -/
def attach (slot : Slot) (ref : ConnectionRef) : Slot :=
  match slot.kept with
  | none => { slot with kept := some ref }
  | some existing =>
    if shouldKeepNew existing ref then ⟨some ref, slot.destroyed ++ [existing]⟩
    else ⟨some existing, slot.destroyed ++ [ref]⟩

/-- A method is called: it concerns one peer at most. -/
def call (peer : PublicKey) (slot : Slot) : PoolCall → Slot
  | .attachStream ref _ => if ref.remotePublicKey = peer then slot.attach ref else slot
  | .markOpened _ => slot
  | .remove remoteKey => if remoteKey = peer then { slot with kept := none } else slot

end Slot

/-- The connections to a peer that were destroyed. -/
def destroyedAt (peer : PublicKey) (events : List PoolEvent) : List ConnectionRef :=
  (events.filterMap PoolEvent.destroyed?).filter fun ref => ref.remotePublicKey = peer

lemma destroyedAt_append (peer : PublicKey) (events new : List PoolEvent) :
    destroyedAt peer (events ++ new) = destroyedAt peer events ++ destroyedAt peer new := by
  simp [destroyedAt]

lemma destroyedAt_onDestroy (peer : PublicKey) (ref : ConnectionRef) :
    destroyedAt peer [.onDestroy ref] = if ref.remotePublicKey = peer then [ref] else [] := by
  by_cases h : ref.remotePublicKey = peer <;> simp [destroyedAt, PoolEvent.destroyed?, h]

/-- What a pool is for a peer. -/
def PoolState.slot (s : PoolState) (peer : PublicKey) : Slot where
  kept := s.pool.get peer
  destroyed := destroyedAt peer s.events

lemma slot_attachStream (peer : PublicKey) {s : PoolState} (h : s.pool.Wf) (ref : ConnectionRef)
    (opened : Bool) : (poolStep s (.attachStream ref opened)).slot peer =
      (s.slot peer).call peer (.attachStream ref opened) := by
  rcases hget : s.pool.get ref.remotePublicKey with _ | existing
  · have hattach : s.pool.attachStream ref opened = (s.pool.put ref opened, .attached, []) := by
      rw [ConnectionPool.attachStream, hget]
    simp only [poolStep, hattach, PoolState.slot, ConnectionPool.get_put hget, List.append_nil, Slot.call]
    by_cases hpeer : ref.remotePublicKey = peer
    · subst hpeer
      simp [Slot.attach, hget]
    · rw [if_neg hpeer, if_neg (Ne.symm hpeer)]
  · have hexisting := h.remotePublicKey_eq hget
    by_cases hkeep : shouldKeepNew existing ref = true
    · have hattach : s.pool.attachStream ref opened =
          ((s.pool.remove ref.remotePublicKey).put ref opened, .duplicateKeptNew,
            [.onDestroy existing]) := by
        rw [ConnectionPool.attachStream, hget, ← hexisting]
        exact if_pos hkeep
      have hnone : (s.pool.remove ref.remotePublicKey).get ref.remotePublicKey = none := by
        rw [ConnectionPool.get_remove, if_pos rfl]
      simp only [poolStep, hattach, PoolState.slot, ConnectionPool.get_put hnone,
        ConnectionPool.get_remove, destroyedAt_append, destroyedAt_onDestroy, hexisting, Slot.call]
      by_cases hpeer : ref.remotePublicKey = peer
      · subst hpeer
        simp [Slot.attach, hget, hkeep]
      · simp [hpeer, Ne.symm hpeer]
    · have hattach : s.pool.attachStream ref opened =
          (s.pool, .duplicateKeptOld, [.onDestroy ref]) := by
        rw [ConnectionPool.attachStream, hget]
        exact if_neg hkeep
      simp only [poolStep, hattach, PoolState.slot, destroyedAt_append, destroyedAt_onDestroy, Slot.call]
      by_cases hpeer : ref.remotePublicKey = peer
      · subst hpeer
        simp [Slot.attach, hget, hkeep]
      · simp [hpeer]

/-- **A call of a method** is a call on the slot of each peer. -/
theorem slot_step (peer : PublicKey) {s : PoolState} (h : s.pool.Wf) (c : PoolCall) :
    (poolStep s c).slot peer = (s.slot peer).call peer c := by
  cases c with
  | attachStream ref opened => exact slot_attachStream peer h ref opened
  | markOpened remoteKey =>
    have hevents : destroyedAt peer (s.pool.markOpened remoteKey).2 = [] := by
      rw [ConnectionPool.markOpened]
      split <;> rfl
    simp only [poolStep, PoolState.slot, h.get_markOpened, destroyedAt_append, hevents,
      List.append_nil, Slot.call]
  | remove remoteKey =>
    simp only [poolStep, PoolState.slot, ConnectionPool.get_remove, Slot.call]
    by_cases hpeer : remoteKey = peer
    · rw [if_pos hpeer.symm, if_pos hpeer]
    · rw [if_neg (Ne.symm hpeer), if_neg hpeer]

/-- **A run** is a run of the slot of each peer. -/
theorem slot_run (peer : PublicKey) {s : PoolState} (h : s.pool.Wf) (calls : List PoolCall) :
    (Runs.run poolStep s calls).slot peer = Runs.run (Slot.call peer) (s.slot peer) calls := by
  induction calls generalizing s with
  | nil => rfl
  | cons c calls ih => rw [Runs.run_cons, Runs.run_cons, ih (wf_poolStep s c h), slot_step peer h]

end HyperDHT.Pools
