import HyperDHT.Pools.ConnectionPool

/-!
# Two peers that connect to each other

Two peers open a connection each to the other, and each side attaches both to its pool. No message is exchanged: each
pool decides by its own rule which of the two stays.

## Main definitions

* `Pools.Meeting` — one side: a run of its pool in which the two connections are attached.
* `Pools.SameSurvivor` — both sides keep the same connection, and destroy the other.
* `Pools.NoSurvivor` — each side keeps the connection that the other destroys.

## Main results

* `Pools.Meeting.keeps` — which of the two a side keeps.
* `Pools.tieBreak` — the two sides keep the same one in exactly the cases in which each attaches its own first, or
  each attaches its own last.
* `Pools.not_sameSurvivor_sameOrder` — both sides attach the same connection first.

## Design

Each side knows a connection by its own end of it. The connection that the one side opened is the one that the other
did not, so *own* at one side is *not own* at the other.
-/

set_option autoImplicit false

namespace HyperDHT.Pools

/-! ## The two sides -/

/-- The connection to a peer that a call attaches. -/
def PoolCall.attached? (peer : PublicKey) : PoolCall → Option ConnectionRef
  | .attachStream ref _ => if ref.remotePublicKey = peer then some ref else none
  | .markOpened _ => none
  | .remove _ => none

/-- Our end of one of the two connections: of our own, or of theirs. -/
def endOf (ours theirs : PublicKey) (id : Bool → UInt32) (own : Bool) : ConnectionRef where
  localPublicKey := ours
  remotePublicKey := theirs
  isInitiator := own
  id := id own

/-- One side. The pool has no connection to the peer; then it is called in any way, except that the calls about
that peer, besides `mark_opened`, are those that attach the two connections. -/
structure Meeting (ours theirs : PublicKey) where
  before : List PoolCall
  free : (Runs.run poolStep {} before).pool.get theirs = none
  id : Bool → UInt32
  /-- The connection of this side is attached first. -/
  ownFirst : Bool
  calls : List PoolCall
  attaches : calls.filterMap (PoolCall.attached? theirs) =
    [endOf ours theirs id ownFirst, endOf ours theirs id !ownFirst]
  stays : PoolCall.remove theirs ∉ calls

namespace Meeting

variable {ours theirs : PublicKey}

/-- What the pool is for the peer at the end; the connections that were destroyed before do not count. -/
def slot (m : Meeting ours theirs) : Slot :=
  (Runs.run poolStep { pool := (Runs.run poolStep {} m.before).pool } m.calls).slot theirs

/-- One of the two is kept, and `on_destroy` is called on the other. -/
def Keeps (m : Meeting ours theirs) (own : Bool) : Prop :=
  m.slot = { kept := some (endOf ours theirs m.id own), destroyed := [endOf ours theirs m.id !own] }

instance (m : Meeting ours theirs) (own : Bool) : Decidable (m.Keeps own) :=
  inferInstanceAs (Decidable (_ = _))

end Meeting

/-- Both sides keep the same one of the two connections. -/
def SameSurvivor {ours theirs : PublicKey} (a : Meeting ours theirs) (b : Meeting theirs ours) : Prop :=
  ∃ own : Bool, a.Keeps own ∧ b.Keeps !own

/-- Each side keeps the connection that the other one destroys. -/
def NoSurvivor {ours theirs : PublicKey} (a : Meeting ours theirs) (b : Meeting theirs ours) : Prop :=
  ∃ own : Bool, a.Keeps own ∧ b.Keeps own

/-! ## What a side keeps -/

lemma run_call_eq {peer : PublicKey} {calls : List PoolCall} (h : PoolCall.remove peer ∉ calls)
    (slot : Slot) : Runs.run (Slot.call peer) slot calls =
      (calls.filterMap (PoolCall.attached? peer)).foldl Slot.attach slot := by
  induction calls generalizing slot with
  | nil => rfl
  | cons c calls ih =>
    rw [List.mem_cons, not_or] at h
    rw [Runs.run_cons, ih h.2]
    cases c with
    | attachStream ref opened =>
      by_cases hpeer : ref.remotePublicKey = peer <;>
        simp [Slot.call, PoolCall.attached?, hpeer]
    | markOpened remoteKey => rfl
    | remove remoteKey =>
      have hne : remoteKey ≠ peer := fun heq => h.1 (heq ▸ rfl)
      rw [Slot.call, if_neg hne]
      rfl

namespace Meeting

variable {ours theirs : PublicKey}

lemma slot_eq (m : Meeting ours theirs) : m.slot =
    (Slot.attach { kept := some (endOf ours theirs m.id m.ownFirst) }
      (endOf ours theirs m.id !m.ownFirst)) := by
  let start : PoolState := { pool := (Runs.run poolStep {} m.before).pool }
  have hwf : start.pool.Wf := wf_poolRun m.before
  have hstart : start.slot theirs = {} := by
    rw [PoolState.slot, m.free]
    rfl
  calc m.slot = Runs.run (Slot.call theirs) (start.slot theirs) m.calls := slot_run theirs hwf m.calls
    _ = Slot.attach (Slot.attach {} (endOf ours theirs m.id m.ownFirst))
        (endOf ours theirs m.id !m.ownFirst) := by
      rw [run_call_eq m.stays, m.attaches, hstart, List.foldl_cons, List.foldl_cons, List.foldl_nil]

/-- **What a side keeps**: the first one, unless its own key is the greater. -/
theorem keeps (m : Meeting ours theirs) : m.Keeps (m.ownFirst ^^ (memcmp ours theirs == .gt)) := by
  have hrule : shouldKeepNew (endOf ours theirs m.id m.ownFirst) (endOf ours theirs m.id !m.ownFirst) =
      (memcmp ours theirs == .gt) := by
    cases hown : m.ownFirst <;> simp [shouldKeepNew, endOf]
  rw [Keeps, slot_eq]
  simp only [Slot.attach, hrule]
  cases memcmp ours theirs == .gt <;> simp

lemma keeps_iff (m : Meeting ours theirs) (own : Bool) :
    m.Keeps own ↔ own = (m.ownFirst ^^ (memcmp ours theirs == .gt)) := by
  constructor
  · intro h
    have hkept := congrArg Slot.kept (h.symm.trans m.keeps)
    exact congrArg ConnectionRef.isInitiator (Option.some.inj hkept)
  · rintro rfl
    exact m.keeps

end Meeting

/-! ## The tie-break -/

/-- **The tie-break**: the two sides keep the same connection in exactly the cases in which each attaches its own
first, or each attaches its own last; in the others no connection is kept by both. A pool never holds two
connections to one peer. -/
theorem tieBreak {ours theirs : PublicKey} (hne : ours ≠ theirs) (a : Meeting ours theirs)
    (b : Meeting theirs ours) (calls : List PoolCall) (key : PublicKey) :
    (SameSurvivor a b ↔ a.ownFirst = b.ownFirst) ∧ (NoSurvivor a b ↔ a.ownFirst ≠ b.ownFirst) ∧
      ((Runs.run poolStep {} calls).pool.held key).length ≤ 1 := by
  have hgreater : (memcmp ours theirs == .gt) = !(memcmp theirs ours == .gt) := by
    rw [Bool.eq_iff_iff]
    simp [memcmp_eq_gt_iff hne]
  refine ⟨?_, ?_, (wf_poolRun calls).length_held_le key⟩
  · simp only [SameSurvivor, Meeting.keeps_iff, hgreater]
    cases a.ownFirst <;> cases b.ownFirst <;> cases memcmp theirs ours == .gt <;> decide
  · simp only [NoSurvivor, Meeting.keeps_iff, hgreater]
    cases a.ownFirst <;> cases b.ownFirst <;> cases memcmp theirs ours == .gt <;> decide

/-- A key. -/
def keyOf (byte : UInt8) : PublicKey := List.Vector.replicate 32 byte

/-- A side whose pool is new, and does nothing else. -/
def newMeeting (ours theirs : PublicKey) (ownFirst : Bool) : Meeting ours theirs where
  before := []
  free := rfl
  id own := if own then 1 else 2
  ownFirst := ownFirst
  calls := [.attachStream (endOf ours theirs (fun own => if own then 1 else 2) ownFirst) false,
    .markOpened theirs,
    .attachStream (endOf ours theirs (fun own => if own then 1 else 2) !ownFirst) true]
  attaches := by simp [PoolCall.attached?, endOf, List.filterMap_cons]
  stays := by simp

/-- Each side attaches its own connection first: that of the peer with the smaller key stays. -/
theorem tieBreak_ownFirst :
    SameSurvivor (newMeeting (keyOf 1) (keyOf 2) true) (newMeeting (keyOf 2) (keyOf 1) true) ∧
      ((Runs.run poolStep {} (newMeeting (keyOf 1) (keyOf 2) true).calls).pool.held (keyOf 2)).length ≤ 1 :=
  have h := tieBreak (by decide +kernel) (newMeeting (keyOf 1) (keyOf 2) true)
    (newMeeting (keyOf 2) (keyOf 1) true) (newMeeting (keyOf 1) (keyOf 2) true).calls (keyOf 2)
  ⟨h.1.2 rfl, h.2.2⟩

/-- Both sides attach the connection of the peer with the smaller key first: that peer keeps it, and the other one
destroys it. -/
theorem not_sameSurvivor_sameOrder : keyOf 1 ≠ keyOf 2 ∧
    ¬ SameSurvivor (newMeeting (keyOf 1) (keyOf 2) true) (newMeeting (keyOf 2) (keyOf 1) false) := by
  unfold SameSurvivor
  decide +kernel

end HyperDHT.Pools
