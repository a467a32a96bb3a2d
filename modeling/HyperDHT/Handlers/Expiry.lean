import HyperDHT.Handlers.Announcements

/-!
# Announcements that have outlived their time

A record is stored with a time to live. Only the garbage collection looks at it, once a minute; a
lookup reads what is stored. So a record whose time is over is still returned, until a collection
takes it out, its sender replaces or withdraws it, or it gives way to another one.

## Main definitions

* `Handlers.RpcHandlers.Stores`, `Handlers.RpcHandlers.TakesOut` — a step stores a record, or takes
  it out.
* `Handlers.RpcHandlers.LooksUp`, `Handlers.RpcHandlers.FindsPeer` — a step reads the records of a
  target.
* `Handlers.RpcHandlers.ServesLive` — the records that a step returns have not outlived their time.
* `Handlers.RpcHandlers.SweptInTime` — the records that have outlived their time are taken out
  before they are read.

## Main results

* `Handlers.RpcHandlers.stored_iff` — what is stored was stored by a step and not taken out since.
* `Handlers.RpcHandlers.servesLive_iff` — only live records are returned in exactly the runs in
  which the others are taken out in time.
-/

set_option autoImplicit false

namespace HyperDHT.Handlers

open Compact Routing Rpc

namespace RpcHandlers

/-! ## What a target has after a run -/

section Steps

variable (env : HandlerEnv) (s : RpcHandlers) (target : NodeId)

/-- A persistent node that is not closing accepts an announcement for the target. -/
structure TakesIn (id : Option NodeId) (req : Incoming) (value : List UInt8) : Prop where
  isOpen : s.node.socket.closing = false
  reaches : (s.heard env id req).Reaches req cmdAnnounce
  accepts : ∃ peer, AcceptsAnnounce env (s.heard env id req) req target value peer

/-- A persistent node that is not closing accepts a withdrawal for the target. -/
structure TakesBack (id : Option NodeId) (req : Incoming) : Prop where
  isOpen : s.node.socket.closing = false
  reaches : (s.heard env id req).Reaches req cmdUnannounce
  accepts : AcceptsUnannounce env (s.heard env id req) req target

/-- The record of an announcement. -/
def recordOf (now : UInt64) (req : Incoming) (value : List UInt8) : PeerAnnouncement :=
  { fromAddr := req.fromAddr, value, createdAt := now, ttl := s.annTtlMs }

/-- The step accepts an announcement and stores its record. -/
def Stores (i : Input) (r : PeerAnnouncement) : Prop :=
  ∃ now id req value, i = .request now id req ∧ TakesIn env s target id req value ∧
    s.store.hasRoom target = true ∧ r = s.recordOf now req value

/-- The step takes the record out: a garbage collection after its time, an announcement from its
address, one from another address before which it has to give way, or a withdrawal. -/
inductive TakesOut (r : PeerAnnouncement) : Input → Prop
  | swept {now : UInt64} (h : AnnounceStore.expired now r = true) : TakesOut r (.gcTick now)
  | replaced {now : UInt64} {id : Option NodeId} {req : Incoming} {value : List UInt8}
      (h : TakesIn env s target id req value) (haddr : r.fromAddr = req.fromAddr) :
      TakesOut r (.request now id req)
  | gaveWay {now : UInt64} {id : Option NodeId} {req : Incoming} {value : List UInt8}
      (h : TakesIn env s target id req value)
      (hway : AnnounceStore.evicted (s.store.get target) (s.recordOf now req value) = some r) :
      TakesOut r (.request now id req)
  | withdrawn {now : UInt64} {id : Option NodeId} {req : Incoming}
      (h : TakesBack env s target id req) (haddr : r.fromAddr = req.fromAddr) :
      TakesOut r (.request now id req)

end Steps

variable {env : HandlerEnv} {s : RpcHandlers} {target : NodeId} {r : PeerAnnouncement}

lemma get_of_not_hasRoom {store : AnnounceStore} (h : ¬ store.hasRoom target = true) :
    store.get target = [] := by
  simp only [AnnounceStore.hasRoom, Bool.or_eq_true, not_or] at h
  rw [AnnounceStore.get, Option.not_isSome_iff_eq_none.1 h.2, Option.getD_none]

lemma TakesIn.value_eq {id : Option NodeId} {req : Incoming} {value : List UInt8}
    (h : TakesIn env s target id req value) : req.value = some value := by
  obtain ⟨_, haccepts⟩ := h.accepts
  exact haccepts.2.1

lemma TakesIn.store_eq {id : Option NodeId} {req : Incoming} {value : List UInt8}
    (h : TakesIn env s target id req value) (now : UInt64) :
    (s.step env (.request now id req)).store =
      s.store.put target (s.recordOf now req value) := by
  obtain ⟨peer, haccepts⟩ := h.accepts
  exact step_store_of_accepts h.isOpen h.reaches haccepts

lemma TakesBack.store_eq {id : Option NodeId} {req : Incoming}
    (h : TakesBack env s target id req) (now : UInt64) :
    (s.step env (.request now id req)).store = (s.store.remove target req.fromAddr).1 := by
  rw [step, onRequest, if_neg (by simp [h.isOpen]), handle_unannounce now h.reaches,
    handleUnannounce_of_accepts h.accepts]
  rfl

lemma step_request_store_eq {now : UInt64} {id : Option NodeId} {req : Incoming}
    (hin : ∀ target value, ¬ TakesIn env s target id req value)
    (hback : ∀ target, ¬ TakesBack env s target id req) :
    (s.step env (.request now id req)).store = s.store := by
  rw [step, onRequest]
  split
  · rfl
  · next hopen =>
    have hopen' : s.node.socket.closing = false := by simpa using hopen
    have hdispatched := handle_dispatched env (s.heard env id req) now req
    generalize (s.heard env id req).handle env now req = result at hdispatched ⊢
    cases hdispatched with
    | elsewhere hsame => exact hsame.store
    | announce hreaches =>
      rcases handleAnnounce_cases env (s.heard env id req) now req with
        h | ⟨target, value, peer, haccepts, -⟩
      · rw [h]
        rfl
      · exact absurd ⟨hopen', hreaches, peer, haccepts⟩ (hin target value)
    | unannounce hreaches =>
      rcases handleUnannounce_cases env (s.heard env id req) req with h | ⟨target, haccepts, -⟩
      · rw [h]
        rfl
      · exact absurd ⟨hopen', hreaches, haccepts⟩ (hback target)
    | mutablePut =>
      rcases handleMutablePut_cases env (s.heard env id req) now req with
        (h | ⟨_, h⟩) | ⟨_, _, _, _, h⟩ <;> rw [h] <;> rfl
    | mutableGet =>
      rcases handleMutableGet_cases env (s.heard env id req) req with h | ⟨_, h⟩ <;> rw [h] <;> rfl
    | immutablePut =>
      rcases handleImmutablePut_cases env (s.heard env id req) now req with
        h | ⟨_, _, _, h⟩ <;> rw [h] <;> rfl
    | immutableGet =>
      rcases handleImmutableGet_cases env (s.heard env id req) req with
        h | ⟨_, h⟩ <;> rw [h] <;> rfl

lemma get_step_request_eq {now : UInt64} {id : Option NodeId} {req : Incoming}
    (hin : ∀ value, ¬ TakesIn env s target id req value)
    (hback : ¬ TakesBack env s target id req) :
    (s.step env (.request now id req)).store.get target = s.store.get target := by
  by_cases hother : ∃ target' value, TakesIn env s target' id req value
  · obtain ⟨target', value, htakes⟩ := hother
    have hne : target ≠ target' := by
      rintro rfl
      exact hin value htakes
    rw [htakes.store_eq now, AnnounceStore.get_put, if_neg (by simp [hne])]
  · by_cases hother' : ∃ target', TakesBack env s target' id req
    · obtain ⟨target', htakes⟩ := hother'
      have hne : target ≠ target' := by
        rintro rfl
        exact hback htakes
      rw [htakes.store_eq now, AnnounceStore.get_remove, if_neg hne]
    · simp only [not_exists] at hother hother'
      rw [step_request_store_eq hother hother']

lemma TakesIn.mem_step_iff (hdistinct : s.store.Distinct) {id : Option NodeId} {req : Incoming}
    {value : List UInt8} (h : TakesIn env s target id req value) (now : UInt64) :
    r ∈ (s.step env (.request now id req)).store.get target ↔
      Stores env s target (.request now id req) r ∨
        r ∈ s.store.get target ∧ ¬ TakesOut env s target r (.request now id req) := by
  have hback : ¬ TakesBack env s target id req := fun hback =>
    absurd (h.reaches.2.2.symm.trans hback.reaches.2.2) (by decide)
  have hvalue : ∀ {value'}, TakesIn env s target id req value' → value' = value := fun h' =>
    Option.some.inj (h'.value_eq.symm.trans h.value_eq)
  have hout : TakesOut env s target r (.request now id req) ↔ r.fromAddr = req.fromAddr ∨
      AnnounceStore.evicted (s.store.get target) (s.recordOf now req value) = some r := by
    constructor
    · rintro (_ | ⟨-, haddr⟩ | ⟨h', hway⟩ | ⟨h', -⟩)
      · exact .inl haddr
      · exact .inr (hvalue h' ▸ hway)
      · exact absurd h' hback
    · rintro (haddr | hway)
      · exact .replaced h haddr
      · exact .gaveWay h hway
  by_cases hroom : s.store.hasRoom target = true
  · have hstores : Stores env s target (.request now id req) r ↔ r = s.recordOf now req value := by
      constructor
      · rintro ⟨_, _, _, value', hinput, h', -, rfl⟩
        cases hinput
        rw [hvalue h']
      · exact fun hr => ⟨now, id, req, value, rfl, h, hroom, hr⟩
    rw [h.store_eq now, AnnounceStore.get_put, if_pos ⟨rfl, hroom⟩,
      AnnounceStore.mem_putPeer_iff (hdistinct target), hstores, hout, not_or]
    rfl
  · have hstores : ¬ Stores env s target (.request now id req) r := by
      rintro ⟨_, _, _, _, -, -, hroom', -⟩
      exact hroom hroom'
    rw [h.store_eq now, AnnounceStore.get_put, if_neg (by simp [hroom]), get_of_not_hasRoom hroom]
    simp [hstores]

lemma TakesBack.mem_step_iff {id : Option NodeId} {req : Incoming}
    (h : TakesBack env s target id req) (now : UInt64) :
    r ∈ (s.step env (.request now id req)).store.get target ↔
      Stores env s target (.request now id req) r ∨
        r ∈ s.store.get target ∧ ¬ TakesOut env s target r (.request now id req) := by
  have hin : ∀ value, ¬ TakesIn env s target id req value := fun value hin =>
    absurd (hin.reaches.2.2.symm.trans h.reaches.2.2) (by decide)
  have hstores : ¬ Stores env s target (.request now id req) r := by
    rintro ⟨_, _, _, value, hinput, h', -⟩
    cases hinput
    exact hin value h'
  have hout : TakesOut env s target r (.request now id req) ↔ r.fromAddr = req.fromAddr := by
    constructor
    · rintro (_ | ⟨-, haddr⟩ | ⟨h', -⟩ | ⟨-, haddr⟩)
      · exact haddr
      · exact absurd h' (hin _)
      · exact haddr
    · exact .withdrawn h
  have hsent : (!AnnounceStore.sentFrom req.fromAddr r) = true ↔ r.fromAddr ≠ req.fromAddr := by
    rw [Bool.not_eq_true', ← Bool.not_eq_true, AnnounceStore.sentFrom_iff]
  rw [h.store_eq now, AnnounceStore.get_remove, if_pos rfl, List.mem_filter, hsent, hout]
  simp [hstores]

lemma mem_step_iff_of_ne {i : Input} (hrequest : ∀ now id req, i ≠ .request now id req)
    (hgc : ∀ now, i ≠ .gcTick now) :
    r ∈ (s.step env i).store.get target ↔
      Stores env s target i r ∨ r ∈ s.store.get target ∧ ¬ TakesOut env s target r i := by
  have hstores : ¬ Stores env s target i r := by
    rintro ⟨now, id, req, _, rfl, -⟩
    exact hrequest now id req rfl
  have hout : ¬ TakesOut env s target r i := by
    intro h
    cases h with
    | swept => exact hgc _ rfl
    | replaced | gaveWay | withdrawn => exact hrequest _ _ _ rfl
  have hstore : (s.step env i).store = s.store := by
    cases i with
    | request now id req => exact absurd rfl (hrequest now id req)
    | gcTick now => exact absurd rfl (hgc now)
    | delayedPing k =>
      simp only [step, onDelayedPingFire]
      split <;> rfl
    | rotate | listen | node => rfl
  rw [hstore]
  simp [hstores, hout]

/-- **What a target has after a step**: what the step stores, and what was stored and is not taken
out.

**Proof sketch.** By cases on the input. Only announcements and withdrawals that are accepted and the
garbage collection take records out. -/
theorem mem_step_iff (hdistinct : s.store.Distinct) (i : Input) :
    r ∈ (s.step env i).store.get target ↔
      Stores env s target i r ∨ r ∈ s.store.get target ∧ ¬ TakesOut env s target r i := by
  cases i with
  | request now id req =>
    by_cases hin : ∃ value, TakesIn env s target id req value
    · obtain ⟨value, hin⟩ := hin
      exact hin.mem_step_iff hdistinct now
    · by_cases hback : TakesBack env s target id req
      · exact hback.mem_step_iff now
      · rw [not_exists] at hin
        have hstores : ¬ Stores env s target (.request now id req) r := by
          rintro ⟨_, _, _, value, hinput, h', -⟩
          cases hinput
          exact hin value h'
        have hout : ¬ TakesOut env s target r (.request now id req) := by
          rintro (_ | ⟨h', -⟩ | ⟨h', -⟩ | ⟨h', -⟩)
          · exact hin _ h'
          · exact hin _ h'
          · exact hback h'
        rw [get_step_request_eq hin hback]
        simp [hstores, hout]
  | gcTick now =>
    have hstores : ¬ Stores env s target (.gcTick now) r := by
      rintro ⟨_, _, _, _, hinput, -⟩
      cases hinput
    have hout : TakesOut env s target r (.gcTick now) ↔ AnnounceStore.expired now r = true :=
      ⟨fun h => by cases h; assumption, .swept⟩
    have hget : (s.step env (.gcTick now)).store = s.store.gc now := rfl
    rw [hget, AnnounceStore.get_gc, List.mem_filter, Bool.not_eq_true', hout, Bool.not_eq_true]
    simp [hstores]
  | delayedPing | rotate | listen | node => exact mem_step_iff_of_ne (by simp) (by simp)

lemma distinct_step (hs : s.store.Distinct) (i : Input) : (s.step env i).store.Distinct := by
  have hstep := step_storage env s i
  generalize (s.step env i).store = store', (s.step env i).mutables = mutables',
    (s.step env i).immutables = immutables' at hstep ⊢
  cases hstep with
  | same | mutableGet | mutablePut | immutableGet | immutablePut => exact hs
  | announce => exact hs.put _ _
  | unannounce => exact hs.remove _ _
  | gc now => exact hs.gc now

/-- **What is stored after a run** was stored by one of its steps and not taken out since. -/
theorem stored_iff {s₀ : RpcHandlers} (hempty : s₀.store = {}) {is : List Input} :
    r ∈ (Runs.run (step env) s₀ is).store.get target ↔
      ∃ before i mid, is = before ++ i :: mid ∧
        Stores env (Runs.run (step env) s₀ before) target i r ∧
        Runs.EveryStep (step env) (fun s i => ¬ TakesOut env s target r i)
          (Runs.run (step env) s₀ (before ++ [i])) mid := by
  have hnone : ∀ t, s₀.store.get t = [] := fun t => by rw [hempty]; rfl
  refine @Runs.holds_run_iff _ _ (step env) PeerAnnouncement (fun s => s.store.Distinct)
    (fun s r => r ∈ s.store.get target) (fun s i r => Stores env s target i r)
    (fun s i r => TakesOut env s target r i) (fun s i hs => distinct_step hs i)
    (fun s i r hs => mem_step_iff hs i) s₀ (fun t => ?_) r ?_ is
  · rw [hnone]
    exact List.nodup_nil
  · rw [hnone]
    exact List.not_mem_nil

/-! ## What a lookup returns -/

section Lookups

variable (env : HandlerEnv) (s : RpcHandlers) (target : NodeId)

/-- A LOOKUP for the target reaches the store. -/
def LooksUp (i : Input) (now : UInt64) : Prop :=
  ∃ id req, i = .request now id req ∧ s.node.socket.closing = false ∧
    (s.heard env id req).Reaches req cmdLookup ∧ req.target = some target

/-- A FIND_PEER for the target reaches the store: no server that listens here answers it. -/
def FindsPeer (i : Input) (now : UInt64) : Prop :=
  ∃ id req, i = .request now id req ∧ s.node.socket.closing = false ∧
    (s.heard env id req).Reaches req cmdFindPeer ∧ req.target = some target ∧
    (s.router.bind fun record => record target) = none

def foundPeer : Option PeerAnnouncement := (s.store.get target).getLast?
def lookedUp : List PeerAnnouncement := (s.store.get target).take maxPeersPerTarget

end Lookups

lemma FindsPeer.answer {i : Input} {now : UInt64} (h : FindsPeer env s target i now) :
    ∃ id req, i = .request now id req ∧ (s.onRequest env now id req).2 =
      some { (s.heard env id req).makeQueryResponse env req with
        value := (s.foundPeer target).map (·.value) } := by
  obtain ⟨id, req, rfl, hopen, hreaches, htarget, hrouter⟩ := h
  have hrouter' : ((s.heard env id req).router.bind fun record => record target) = none := hrouter
  have hstore : ((s.heard env id req).store.get target).getLast? = s.foundPeer target := rfl
  refine ⟨id, req, rfl, ?_⟩
  rw [onRequest, if_neg (by simp [hopen]), handle_findPeer now hreaches, handleFindPeer]
  simp only [htarget, hrouter', hstore]
  cases s.foundPeer target <;> rfl

lemma LooksUp.answer {i : Input} {now : UInt64} (h : LooksUp env s target i now) :
    ∃ id req, i = .request now id req ∧ (s.onRequest env now id req).2 =
      some { (s.heard env id req).makeQueryResponse env req with
        value := if (s.lookedUp target).isEmpty then none
          else some (encodeLookupPeers ((s.lookedUp target).map (·.value))) } := by
  obtain ⟨id, req, rfl, hopen, hreaches, htarget⟩ := h
  have hstore : ((s.heard env id req).store.get target).take maxPeersPerTarget =
      s.lookedUp target := rfl
  refine ⟨id, req, rfl, ?_⟩
  rw [onRequest, if_neg (by simp [hopen]), handle_lookup now hreaches, handleLookup]
  simp only [htarget, hstore]
  split <;> rfl

/-- At a time the record has not outlived its time to live. -/
def Live (now : UInt64) (r : PeerAnnouncement) : Prop :=
  now.toNat ≤ r.createdAt.toNat + r.ttl.toNat

/-- The records that a step returns have not outlived their time. -/
def ServesLive (env : HandlerEnv) (s : RpcHandlers) (i : Input) : Prop :=
  ∀ target now r,
    (LooksUp env s target i now ∧ r ∈ s.lookedUp target ∨
      FindsPeer env s target i now ∧ s.foundPeer target = some r) → Live now r

/-- A step of `mid`, which comes after `before` and `i`, takes the record out. -/
def TakenOut (env : HandlerEnv) (s₀ : RpcHandlers) (before : List Input) (i : Input)
    (mid : List Input) (target : NodeId) (r : PeerAnnouncement) : Prop :=
  ∃ mid₁ k mid₂, mid = mid₁ ++ k :: mid₂ ∧
    TakesOut env (Runs.run (step env) s₀ (before ++ i :: mid₁)) target r k

/-- **The records that have outlived their time are taken out before they are read**: between the
step that stores a record and a LOOKUP for its target after its time, a step takes the record out.
The same holds of a FIND_PEER, unless another record stands last. -/
structure SweptInTime (env : HandlerEnv) (s₀ : RpcHandlers) (is : List Input) : Prop where
  beforeLookup : ∀ before i mid j after target now r, is = before ++ i :: (mid ++ j :: after) →
    Stores env (Runs.run (step env) s₀ before) target i r →
    LooksUp env (Runs.run (step env) s₀ (before ++ i :: mid)) target j now → ¬ Live now r →
    TakenOut env s₀ before i mid target r
  beforeFindPeer : ∀ before i mid j after target now r, is = before ++ i :: (mid ++ j :: after) →
    Stores env (Runs.run (step env) s₀ before) target i r →
    FindsPeer env (Runs.run (step env) s₀ (before ++ i :: mid)) target j now → ¬ Live now r →
    TakenOut env s₀ before i mid target r ∨
      ((Runs.run (step env) s₀ (before ++ i :: mid)).store.get target).getLast? ≠ some r

lemma takenOut_iff {s₀ : RpcHandlers} {before mid : List Input} {i : Input} :
    TakenOut env s₀ before i mid target r ↔
      ¬ Runs.EveryStep (step env) (fun s i => ¬ TakesOut env s target r i)
        (Runs.run (step env) s₀ (before ++ [i])) mid := by
  have hrun : ∀ mid₁, Runs.run (step env) (Runs.run (step env) s₀ (before ++ [i])) mid₁ =
      Runs.run (step env) s₀ (before ++ i :: mid₁) := fun mid₁ => by
    rw [← Runs.run_append, List.append_assoc, List.singleton_append]
  simp only [Runs.everyStep_iff_forall, hrun, TakenOut]
  push Not
  rfl

/-- **Only live records are returned** in exactly the runs in which the others are taken out in
time.

**Proof sketch.** What a lookup returns is stored, so a step stored it and none took it out since;
and it returns all records of the target, at most twenty. -/
theorem servesLive_iff (env : HandlerEnv) (localId : NodeId) (firstTid : UInt16)
    (tokens : TokenStore) (config : StorageCacheConfig) (is : List Input) :
    Runs.EveryStep (step env) (ServesLive env) (.init localId firstTid tokens config) is ↔
      SweptInTime env (.init localId firstTid tokens config) is := by
  set s₀ : RpcHandlers := .init localId firstTid tokens config
  have hempty : s₀.store = {} := rfl
  have hall : ∀ pre target, (Runs.run (step env) s₀ pre).lookedUp target =
      (Runs.run (step env) s₀ pre).store.get target := fun pre target => by
    have hservable : Servable (Runs.run (step env) s₀ pre) :=
      Runs.run_invariant (P := Servable) (fun t i ht => servable_step ht i)
        (servable_init localId firstTid tokens config) pre
    exact List.take_of_length_le (hservable.bounded target)
  -- a record that is not taken out is still stored
  have hkept : ∀ before i mid target r, Stores env (Runs.run (step env) s₀ before) target i r →
      ¬ TakenOut env s₀ before i mid target r →
      r ∈ (Runs.run (step env) s₀ (before ++ i :: mid)).store.get target :=
    fun before i mid target r hstores hkept =>
      (stored_iff hempty).2 ⟨before, i, mid, rfl, hstores, not_not.1 (takenOut_iff.not.1 hkept)⟩
  rw [Runs.everyStep_iff_forall]
  constructor
  · intro hlive
    constructor
    · rintro before i mid j after target now r rfl hstores hlooks hover
      by_contra hout
      refine hover (hlive (before ++ i :: mid) j after (by simp) target now r (.inl ⟨hlooks, ?_⟩))
      rw [hall]
      exact hkept before i mid target r hstores hout
    · rintro before i mid j after target now r rfl - hfinds hover
      exact .inr fun hlast =>
        hover (hlive (before ++ i :: mid) j after (by simp) target now r (.inr ⟨hfinds, hlast⟩))
  · rintro hswept pre j after hsplit target now r hserves
    have hstored : r ∈ (Runs.run (step env) s₀ pre).store.get target := by
      rcases hserves with ⟨-, hr⟩ | ⟨-, hr⟩
      · rwa [hall] at hr
      · exact List.mem_of_getLast? hr
    obtain ⟨before, i, mid, rfl, hstores, hnone⟩ := (stored_iff hempty).1 hstored
    have hsplit' : is = before ++ i :: (mid ++ j :: after) := by simpa using hsplit
    have hin : ¬ TakenOut env s₀ before i mid target r := takenOut_iff.not.2 (not_not.2 hnone)
    by_contra hover
    rcases hserves with ⟨hlooks, -⟩ | ⟨hfinds, hlast⟩
    · exact hin (hswept.beforeLookup _ _ _ _ _ _ _ _ hsplit' hstores hlooks hover)
    · rcases hswept.beforeFindPeer _ _ _ _ _ _ _ _ hsplit' hstores hfinds hover with hout | hlast'
      · exact hin hout
      · exact hlast' hlast

/-- Garbage collections at the fixed interval of a minute, after the first `n`. -/
def collections (n m : ℕ) : List Input :=
  (List.range m).map fun k => .gcTick (60000 * UInt64.ofNat (n + k + 1))

/-- A record is stored right after the collection at twenty minutes, and the collections go on until
forty minutes. -/
def lateRun : List Input :=
  becomePersistent ++ collections 0 20 ++
    [.request 1200001 none (signedRequest cmdAnnounce 9 someAddr)] ++ collections 20 20

def lateRecord : PeerAnnouncement where
  fromAddr := someAddr
  value := signedMessage 9
  createdAt := 1200001
  ttl := 1200000

set_option maxRecDepth 10000 in
/-- **A record that has outlived its time is returned**: a LOOKUP after the time of the record and
before the next collection reads it. -/
theorem not_servesLive_lateRun :
    ¬ Runs.EveryStep (step namedSignerEnv) (ServesLive namedSignerEnv) freshHandlers
      (lateRun ++ [.request 2400002 none (signedRequest cmdLookup 8 otherAddr)]) := by
  intro hlive
  obtain ⟨-, hlast, -⟩ := Runs.everyStep_append.1 hlive
  set s := Runs.run (step namedSignerEnv) freshHandlers lateRun with hs
  have hopen : s.node.socket.closing = false := by decide +kernel
  have hpersistent :
      (s.heard namedSignerEnv none (signedRequest cmdLookup 8 otherAddr)).node.ephemeral = false := by
    decide +kernel
  have hstored : lateRecord ∈ s.lookedUp someTarget := by decide +kernel
  have hlooks : LooksUp namedSignerEnv s someTarget
      (.request 2400002 none (signedRequest cmdLookup 8 otherAddr)) 2400002 :=
    ⟨none, _, rfl, hopen, ⟨rfl, hpersistent, rfl⟩, rfl⟩
  have hover : 2400002 ≤ 1200001 + 1200000 := hlast someTarget _ lateRecord (.inl ⟨hlooks, hstored⟩)
  exact absurd hover (by decide)

end RpcHandlers

end HyperDHT.Handlers
