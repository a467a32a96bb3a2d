import HyperDHT.Handlers.Announcements
import HyperDHT.Handlers.LruIndex
import HyperDHT.Handlers.Storage
import Mathlib.Data.Finset.Card
import Mathlib.Data.Finset.Image

/-!
# What was stored is there

A node that has acknowledged a value answers requests for it, until the value is too old or too many
others were used after it. The entries ahead of one in the cache are those that were used after it, so
that an entry with fewer ahead than the cache has room for is never the one that is dropped.

## Main definitions

* `Handlers.LruCache.Holds` — a recent entry with no others ahead than those of a set.
* `Handlers.RpcHandlers.Input.Spares` — an input that uses no other targets than those of a set, and
  does not collect what is not too old.

## Main results

* `Handlers.LruCache.Holds.run` — such an entry stays.
* `Handlers.mutable_put_get`, `Handlers.immutable_put_get` — what is acknowledged can be looked up.
-/

set_option autoImplicit false

namespace HyperDHT.Handlers

open Compact Routing Rpc

/-! ## Caches -/

variable {κ ν : Type*}

/-- A call uses the key or one of the set, and removes nothing that was written since then. -/
def CacheOp.Spares (key : κ) (keys : Finset κ) (since : UInt64) : CacheOp κ ν → Prop
  | .get k => k = key ∨ k ∈ keys
  | .put k _ now => k = key ∧ since ≤ now ∨ k ∈ keys
  | .remove k => k ≠ key
  | .gc now maxAge => now < since ∨ now - since ≤ maxAge

namespace LruCache

/-- An entry was written since then, and the entries ahead of it have keys of the set. -/
def Holds (c : LruCache κ ν) (key : κ) (keys : Finset κ) (since : UInt64) : Prop :=
  ∃ ahead e behind, c.entries = ahead ++ e :: behind ∧ e.key = key ∧ since ≤ e.createdAt ∧
    ∀ a ∈ ahead, a.key ∈ keys

section Holds

variable {c : LruCache κ ν} {key : κ} {keys : Finset κ} {since : UInt64}

/-- The newest entry. -/
lemma holds_of_cons {e : Entry κ ν} {rest : List (Entry κ ν)} (h : c.entries = e :: rest)
    (hkey : e.key = key) (hsince : since ≤ e.createdAt) : c.Holds key keys since :=
  ⟨[], e, rest, h, hkey, hsince, by simp⟩

lemma not_expired {now maxAge : UInt64} {e : Entry κ ν} (hsince : since ≤ e.createdAt)
    (h : now < since ∨ now - since ≤ maxAge) : expired now maxAge e = false := by
  rw [expired, Bool.and_eq_false_iff]
  by_cases hnow : e.createdAt ≤ now
  · have hle := UInt64.le_trans hsince hnow
    rcases h with h | h
    · exact absurd hle (UInt64.not_le.2 h)
    · refine .inr (decide_eq_false (UInt64.not_lt.2 (UInt64.le_trans ?_ h)))
      rw [UInt64.le_iff_toNat_le] at *
      rw [UInt64.toNat_sub_of_le _ _ hnow, UInt64.toNat_sub_of_le _ _ hle]
      omega
  · exact .inl (decide_eq_false hnow)

/-- What is filtered out is not the entry. -/
lemma Holds.filter (h : c.Holds key keys since) {kept : Entry κ ν → Bool}
    (hkept : ∀ e : Entry κ ν, e.key = key → since ≤ e.createdAt → kept e = true) {c' : LruCache κ ν}
    (hc' : c'.entries = c.entries.filter kept) : c'.Holds key keys since := by
  obtain ⟨ahead, e, behind, hentries, hsame, hsince, hahead⟩ := h
  refine ⟨ahead.filter kept, e, behind.filter kept, ?_, hsame, hsince, fun a ha =>
    hahead a (List.mem_of_mem_filter ha)⟩
  rw [hc', hentries, List.filter_append, List.filter_cons_of_pos (hkept e hsame hsince)]

variable [DecidableEq κ]

lemma Holds.find (h : c.Holds key keys since) : ∃ e, c.find key = some e ∧ since ≤ e.createdAt := by
  obtain ⟨ahead, e, behind, hentries, rfl, hsince, -⟩ := h
  exact ⟨e, find_of_mem (by simp [hentries]), hsince⟩

lemma put_entries (c : LruCache κ ν) (key : κ) (value : ν) (now : UInt64) :
    ∃ rest, (c.put key value now).entries = ⟨key, value, now⟩ :: rest := by
  unfold put
  split <;> exact ⟨_, rfl⟩

/-- Another entry that is used, or written again, goes ahead. -/
lemma Holds.toFront (h : c.Holds key keys since) {e : Entry κ ν} (hmem : e.key ∈ keys)
    (hne : e.key ≠ key) {c' : LruCache κ ν} (hc' : c'.entries = e :: without e.key c.entries) :
    c'.Holds key keys since := by
  obtain ⟨ahead, e₀, behind, hentries, rfl, hsince, hahead⟩ := h
  refine ⟨e :: without e.key ahead, e₀, without e.key behind, ?_, rfl, hsince, ?_⟩
  · rw [hc', hentries]
    simp [without, hne.symm]
  · intro a ha
    rcases List.mem_cons.1 ha with rfl | ha
    · exact hmem
    · exact hahead a (List.mem_of_mem_filter ha)

/-- A new entry goes ahead. What is ahead has fewer keys than the set, and the set is smaller than the
cache. -/
lemma Holds.added (h : c.Holds key keys since) (hfew : keys.card < c.maxSize) {e : Entry κ ν}
    (hmem : e.key ∈ keys) (hnew : c.find e.key = none) {c' : LruCache κ ν}
    (hc' : c'.entries = e :: c.entries.take (c.maxSize - 1)) : c'.Holds key keys since := by
  obtain ⟨ahead, e₀, behind, hentries, rfl, hsince, hahead⟩ := h
  have hnodup : (ahead.map Entry.key).Nodup := by
    have hall := c.nodup
    rw [hentries, List.map_append] at hall
    exact (List.nodup_append.1 hall).1
  have hsub : (ahead.map Entry.key).toFinset ⊆ keys.erase e.key := by
    intro k hk
    obtain ⟨a, ha, rfl⟩ := List.mem_map.1 (List.mem_toFinset.1 hk)
    refine Finset.mem_erase.2 ⟨fun hsame => ?_, hahead a ha⟩
    have hfound := find_of_mem (c := c) (e := a) (by simp [hentries, ha])
    rw [hsame, hnew] at hfound
    simp at hfound
  have hlength : ahead.length + 1 ≤ keys.card := by
    have hcard := Finset.card_le_card hsub
    rw [List.toFinset_card_of_nodup hnodup, List.length_map, Finset.card_erase_of_mem hmem] at hcard
    have hpos := Finset.card_pos.2 ⟨_, hmem⟩
    omega
  refine ⟨e :: ahead, e₀, behind.take (c.maxSize - 1 - ahead.length - 1), ?_, rfl, hsince, ?_⟩
  · rw [hc', hentries, List.take_append, List.take_of_length_le (by omega),
      List.take_cons (by omega : 0 < c.maxSize - 1 - ahead.length), List.cons_append]
  · intro a ha
    rcases List.mem_cons.1 ha with rfl | ha
    · exact hmem
    · exact hahead a ha

/-- **A call** keeps the entry. -/
lemma Holds.step (h : c.Holds key keys since) (hfew : keys.card < c.maxSize) (hkey : key ∉ keys)
    {op : CacheOp κ ν} (hop : op.Spares key keys since) : (c.step op).1.Holds key keys since := by
  obtain ⟨e₀, hfind, hsince⟩ := h.find
  cases op with
  | get k =>
    change (c.get k).1.Holds key keys since
    unfold LruCache.get
    split
    · exact h
    · next e he =>
      obtain rfl := find_key he
      rcases hop with rfl | hmem
      · rw [hfind] at he
        obtain rfl := Option.some.inj he
        exact holds_of_cons rfl rfl hsince
      · exact h.toFront hmem (fun hsame => hkey (hsame ▸ hmem)) rfl
  | put k value now =>
    rcases hop with ⟨rfl, hnow⟩ | hmem
    · obtain ⟨rest, hrest⟩ := put_entries c k value now
      exact holds_of_cons hrest rfl hnow
    · change (c.put k value now).Holds key keys since
      unfold LruCache.put
      split
      · exact h.toFront (e := ⟨k, value, now⟩) hmem (fun hsame => hkey (hsame ▸ hmem)) rfl
      · next hnew => exact h.added (e := ⟨k, value, now⟩) hfew hmem hnew rfl
  | remove k => exact h.filter (fun e he _ => by simpa [he] using Ne.symm hop) rfl
  | gc now maxAge => exact h.filter (fun e _ hsince => by simp [not_expired hsince hop]) rfl

/-- **A recent entry stays**, if fewer others are used than the cache has room for. -/
theorem Holds.run (h : c.Holds key keys since) (hfew : keys.card < c.maxSize) (hkey : key ∉ keys)
    {ops : List (CacheOp κ ν)} (hops : ∀ op ∈ ops, op.Spares key keys since) :
    (c.run ops).1.Holds key keys since ∧ (c.run ops).1.maxSize = c.maxSize := by
  induction ops generalizing c with
  | nil => exact ⟨h, rfl⟩
  | cons op ops ih =>
    have hnext := ih (h.step hfew hkey (hops op (by simp))) (by rwa [maxSize_step])
      fun op hop => hops op (by simp [hop])
    exact ⟨hnext.1, hnext.2.trans (maxSize_step c op)⟩

end Holds

end LruCache

namespace RpcHandlers

variable {env : HandlerEnv} {s : RpcHandlers}

/-! ## What a request does to the caches -/

/-- A call that uses the entry of a target. -/
def OnTarget (target : Option NodeId) (now : UInt64) : CacheOp (List Char) (List UInt8) → Prop
  | .get key => ∃ t, target = some t ∧ key = toHexKey t
  | .put key _ time => ∃ t, target = some t ∧ key = toHexKey t ∧ time = now
  | .remove _ | .gc _ _ => False

/-- A cache after calls that use the entry of a target. -/
def Touched (target : Option NodeId) (now : UInt64) (c c' : LruCache (List Char) (List UInt8)) : Prop :=
  ∃ ops, c' = (c.run ops).1 ∧ ∀ op ∈ ops, OnTarget target now op

lemma Touched.refl (target : Option NodeId) (now : UInt64) (c : LruCache (List Char) (List UInt8)) :
    Touched target now c c :=
  ⟨[], rfl, by simp⟩

/-- What a request does to the caches of a node: the commands of one kind of values use the entry of
their target. -/
structure Uses (now : UInt64) (req : Incoming) (s s' : RpcHandlers) : Prop where
  mutables : s'.mutables = s.mutables ∨
    (req.command = cmdMutableGet ∨ req.command = cmdMutablePut) ∧
      Touched req.target now s.mutables s'.mutables
  immutables : s'.immutables = s.immutables ∨
    (req.command = cmdImmutableGet ∨ req.command = cmdImmutablePut) ∧
      Touched req.target now s.immutables s'.immutables

lemma handleMutablePut_touched (env : HandlerEnv) (s : RpcHandlers) (now : UInt64) (req : Incoming) :
    Touched req.target now s.mutables (s.handleMutablePut env now req).1.mutables ∧
      (s.handleMutablePut env now req).1.immutables = s.immutables := by
  unfold handleMutablePut
  split
  · next target token value htarget _ _ =>
    rw [htarget]
    split_ifs
    · exact ⟨.refl _ _ _, rfl⟩
    · exact ⟨.refl _ _ _, rfl⟩
    · unfold putMutable
      dsimp only
      split
      · exact ⟨⟨[.get (toHexKey target)], rfl, by simp [OnTarget]⟩, rfl⟩
      · exact ⟨⟨[.get (toHexKey target), .put (toHexKey target) _ now], rfl, by simp [OnTarget]⟩, rfl⟩
  · exact ⟨.refl _ _ _, rfl⟩

lemma handleMutableGet_touched (env : HandlerEnv) (s : RpcHandlers) (now : UInt64) (req : Incoming) :
    Touched req.target now s.mutables (s.handleMutableGet env req).1.mutables ∧
      (s.handleMutableGet env req).1.immutables = s.immutables := by
  unfold handleMutableGet
  split
  · next target value htarget _ =>
    rw [htarget]
    have htouched : Touched (some target) now s.mutables (s.mutables.get (toHexKey target)).1 :=
      ⟨[.get (toHexKey target)], rfl, by simp [OnTarget]⟩
    dsimp only
    split
    · exact ⟨htouched, rfl⟩
    · split_ifs <;> exact ⟨htouched, rfl⟩
  · exact ⟨.refl _ _ _, rfl⟩

lemma handleImmutablePut_touched (env : HandlerEnv) (s : RpcHandlers) (now : UInt64) (req : Incoming) :
    Touched req.target now s.immutables (s.handleImmutablePut env now req).1.immutables ∧
      (s.handleImmutablePut env now req).1.mutables = s.mutables := by
  rcases handleImmutablePut_cases env s now req with h | ⟨target, value, haccepts, h⟩
  · rw [h]
    exact ⟨.refl _ _ _, rfl⟩
  · rw [h, haccepts.1]
    exact ⟨⟨[.put (toHexKey target) value now], rfl, by simp [OnTarget]⟩, rfl⟩

lemma handleImmutableGet_touched (env : HandlerEnv) (s : RpcHandlers) (now : UInt64) (req : Incoming) :
    Touched req.target now s.immutables (s.handleImmutableGet env req).1.immutables ∧
      (s.handleImmutableGet env req).1.mutables = s.mutables := by
  unfold handleImmutableGet
  split
  · exact ⟨.refl _ _ _, rfl⟩
  · next target htarget =>
    rw [htarget]
    exact ⟨⟨[.get (toHexKey target)], rfl, by simp [OnTarget]⟩, rfl⟩

lemma onRequest_uses (env : HandlerEnv) (s : RpcHandlers) (now : UInt64) (id : Option NodeId)
    (req : Incoming) : Uses now req s (s.onRequest env now id req).1 := by
  unfold onRequest
  split
  · exact ⟨.inl rfl, .inl rfl⟩
  · have hdispatched := handle_dispatched env (s.heard env id req) now req
    generalize (s.heard env id req).handle env now req = result at hdispatched
    cases hdispatched with
    | elsewhere h => exact ⟨.inl h.mutables, .inl h.immutables⟩
    | announce =>
      rcases handleAnnounce_cases env (s.heard env id req) now req with h | ⟨_, _, _, -, h⟩ <;> rw [h] <;>
        exact ⟨.inl rfl, .inl rfl⟩
    | unannounce =>
      rcases handleUnannounce_cases env (s.heard env id req) req with h | ⟨_, -, h⟩ <;> rw [h] <;>
        exact ⟨.inl rfl, .inl rfl⟩
    | mutablePut hreaches =>
      have htouched := handleMutablePut_touched env (s.heard env id req) now req
      exact ⟨.inr ⟨.inr hreaches.2.2, htouched.1⟩, .inl htouched.2⟩
    | mutableGet hreaches =>
      have htouched := handleMutableGet_touched env (s.heard env id req) now req
      exact ⟨.inr ⟨.inl hreaches.2.2, htouched.1⟩, .inl htouched.2⟩
    | immutablePut hreaches =>
      have htouched := handleImmutablePut_touched env (s.heard env id req) now req
      exact ⟨.inl htouched.2, .inr ⟨.inr hreaches.2.2, htouched.1⟩⟩
    | immutableGet hreaches =>
      have htouched := handleImmutableGet_touched env (s.heard env id req) now req
      exact ⟨.inl htouched.2, .inr ⟨.inl hreaches.2.2, htouched.1⟩⟩

/-! ## Runs -/

/-- Of the values of one kind, an input uses none but that of the target and of those of a set, from then
on, and it collects nothing that was written since then. -/
def Input.Spares (get put : UInt32) (target : NodeId) (targets : Finset NodeId) (since : UInt64)
    (s : RpcHandlers) : Input → Prop
  | .request now _ req => req.command = get ∨ req.command = put →
      since ≤ now ∧ ∀ t, req.target = some t → t = target ∨ t ∈ targets
  | .gcTick now => now < since ∨ now - since ≤ s.storageTtlMs
  | _ => True

/-- The keys of the other targets. -/
def otherKeys (target : NodeId) (targets : Finset NodeId) : Finset (List Char) :=
  (targets.erase target).image toHexKey

/-- The entry of the target is recent, and the others fit. -/
def Recent (target : NodeId) (targets : Finset NodeId) (since : UInt64)
    (c : LruCache (List Char) (List UInt8)) : Prop :=
  c.Holds (toHexKey target) (otherKeys target targets) since ∧ targets.card < c.maxSize

section Recent

variable {target : NodeId} {targets : Finset NodeId} {since : UInt64}
  {c c' : LruCache (List Char) (List UInt8)}

lemma Recent.run (h : Recent target targets since c) {ops : List (CacheOp (List Char) (List UInt8))}
    (hops : ∀ op ∈ ops, op.Spares (toHexKey target) (otherKeys target targets) since) :
    Recent target targets since (c.run ops).1 := by
  have hfew : (otherKeys target targets).card < c.maxSize :=
    (Finset.card_image_le.trans (Finset.card_le_card (Finset.erase_subset _ _))).trans_lt h.2
  have hkey : toHexKey target ∉ otherKeys target targets := by
    simp [otherKeys, toHexKey_injective.eq_iff]
  obtain ⟨hholds, hsize⟩ := h.1.run hfew hkey hops
  exact ⟨hholds, hsize ▸ h.2⟩

lemma Recent.touched (h : Recent target targets since c) {t : Option NodeId} {now : UInt64}
    (hnow : since ≤ now) (ht : ∀ t', t = some t' → t' = target ∨ t' ∈ targets)
    (htouched : Touched t now c c') : Recent target targets since c' := by
  obtain ⟨ops, rfl, hops⟩ := htouched
  have hkeys : ∀ t', t = some t' → t' = target ∨ toHexKey t' ∈ otherKeys target targets := by
    intro t' ht'
    rcases eq_or_ne t' target with rfl | hne
    · exact .inl rfl
    · exact .inr (Finset.mem_image_of_mem _ (Finset.mem_erase.2 ⟨hne, (ht t' ht').resolve_left hne⟩))
  refine h.run fun op hop => ?_
  have hon := hops op hop
  cases op with
  | get k =>
    obtain ⟨t', ht', rfl⟩ := hon
    exact (hkeys t' ht').imp_left (congrArg toHexKey)
  | put k v time =>
    obtain ⟨t', ht', rfl, rfl⟩ := hon
    exact (hkeys t' ht').imp_left fun hsame => ⟨congrArg toHexKey hsame, hnow⟩
  | remove k | gc now maxAge => exact hon.elim

/-- **A step** that spares the entry keeps it, in either cache. -/
lemma recent_step (env : HandlerEnv) (s : RpcHandlers) (i : Input) :
    (i.Spares cmdMutableGet cmdMutablePut target targets since s →
      Recent target targets since s.mutables → Recent target targets since (s.step env i).mutables) ∧
    (i.Spares cmdImmutableGet cmdImmutablePut target targets since s →
      Recent target targets since s.immutables → Recent target targets since (s.step env i).immutables) := by
  cases i with
  | request now id req =>
    obtain ⟨hmutables, himmutables⟩ := onRequest_uses env s now id req
    constructor
    · intro hspares h
      rcases hmutables with hsame | ⟨hcommand, htouched⟩
      · exact hsame ▸ h
      · exact h.touched (hspares hcommand).1 (hspares hcommand).2 htouched
    · intro hspares h
      rcases himmutables with hsame | ⟨hcommand, htouched⟩
      · exact hsame ▸ h
      · exact h.touched (hspares hcommand).1 (hspares hcommand).2 htouched
  | gcTick now =>
    have hops : ∀ {s : RpcHandlers}, (now < since ∨ now - since ≤ s.storageTtlMs) →
        ∀ op ∈ [(.gc now s.storageTtlMs : CacheOp (List Char) (List UInt8))],
          op.Spares (toHexKey target) (otherKeys target targets) since := by
      intro s hspares op hop
      rw [List.mem_singleton.1 hop]
      exact hspares
    exact ⟨fun hspares h => h.run (hops hspares), fun hspares h => h.run (hops hspares)⟩
  | delayedPing k =>
    simp only [step, onDelayedPingFire]
    split <;> exact ⟨fun _ h => h, fun _ h => h⟩
  | rotate | listen router | node i => exact ⟨fun _ h => h, fun _ h => h⟩

end Recent

/-! ## Acknowledged values -/

section Acknowledged

variable {now : UInt64} {id : Option NodeId} {req : Incoming} {resp : Response} {command : UInt32}
  {target : NodeId} {value : List UInt8}

lemma onRequest_of_reaches (hopen : s.node.socket.closing = false)
    (hreaches : (s.heard env id req).Reaches req command) (hhandshake : command ≠ cmdPeerHandshake)
    (hholepunch : command ≠ cmdPeerHolepunch) :
    s.onRequest env now id req = (s.heard env id req).handleStorage env now req := by
  rw [onRequest, if_neg (by simp [hopen]), handle_of_reaches now hreaches hhandshake hholepunch]

/-- A request for the store that is answered has reached its handler. -/
lemma onRequest_of_answered (hinternal : req.internal = false) (hcommand : req.command = command)
    (hhandshake : command ≠ cmdPeerHandshake) (hholepunch : command ≠ cmdPeerHolepunch)
    (h : (s.onRequest env now id req).2 = some resp) :
    s.onRequest env now id req = (s.heard env id req).handleStorage env now req := by
  cases hopen : s.node.socket.closing with
  | true => simp [onRequest, hopen] at h
  | false =>
    cases hephemeral : (s.heard env id req).node.ephemeral with
    | true =>
      rw [onRequest, if_neg (by simp [hopen]), handle, if_neg (by simp [hinternal]),
        if_neg (by simp [hcommand, hhandshake, hholepunch]), if_pos hephemeral] at h
      simp at h
    | false => exact onRequest_of_reaches hopen ⟨hinternal, hephemeral, hcommand⟩ hhandshake hholepunch

lemma step_of_mutablePut (hinternal : req.internal = false) (hcommand : req.command = cmdMutablePut)
    (htarget : req.target = some target) (hvalue : req.value = some value)
    (h : (s.onRequest env now id req).2 = some resp) (herror : resp.error = none) :
    MutablePutRequest.valid env (decodeMutablePut value) target = true ∧
      (s.step env (.request now id req)).mutables = (s.mutables.get (toHexKey target)).1.put
        (toHexKey target) (storedOf (decodeMutablePut value)) now := by
  have hhandled : s.onRequest env now id req = (s.heard env id req).handleMutablePut env now req := by
    rw [onRequest_of_answered hinternal hcommand (by decide) (by decide) h, handleStorage, hcommand,
      if_neg (by decide), if_neg (by decide), if_neg (by decide), if_neg (by decide), if_pos rfl]
  rw [step, hhandled]
  rw [hhandled] at h
  unfold handleMutablePut at h ⊢
  rw [htarget, hvalue] at h ⊢
  cases htoken : req.token with
  | none => simp [htoken] at h
  | some token =>
    simp only [htoken] at h ⊢
    split at h
    · simp at h
    · next hvalid =>
      rw [if_neg hvalid]
      split at h
      · simp at h
      · next hput =>
        rw [if_neg hput]
        refine ⟨by simpa using hput, ?_⟩
        unfold putMutable at h ⊢
        dsimp only at h ⊢
        split at h
        · obtain rfl := Option.some.inj h
          simp [errorReply] at herror
        · rfl

lemma step_of_immutablePut (hinternal : req.internal = false) (hcommand : req.command = cmdImmutablePut)
    (htarget : req.target = some target) (hvalue : req.value = some value)
    (h : (s.onRequest env now id req).2 = some resp) :
    (s.step env (.request now id req)).immutables = s.immutables.put (toHexKey target) value now ∧
      env.blake2b value = target := by
  have hhandled : s.onRequest env now id req = (s.heard env id req).handleImmutablePut env now req := by
    rw [onRequest_of_answered hinternal hcommand (by decide) (by decide) h, handleStorage, hcommand,
      if_neg (by decide), if_neg (by decide), if_neg (by decide), if_neg (by decide), if_neg (by decide),
      if_neg (by decide), if_pos rfl]
  rw [step, hhandled]
  rw [hhandled] at h
  unfold handleImmutablePut at h ⊢
  rw [htarget, hvalue] at h ⊢
  cases htoken : req.token with
  | none => simp [htoken] at h
  | some token =>
    simp only [htoken] at h ⊢
    split_ifs at h ⊢ with _ _ _ hdigest
    exact ⟨rfl, not_not.1 hdigest⟩

end Acknowledged

/-- The newest entry of a cache is recent. -/
lemma recent_put {target : NodeId} {targets : Finset NodeId} {now : UInt64}
    {c : LruCache (List Char) (List UInt8)} (hfew : targets.card < c.maxSize) (value : List UInt8) :
    Recent target targets now (c.put (toHexKey target) value now) := by
  obtain ⟨rest, hrest⟩ := LruCache.put_entries c (toHexKey target) value now
  refine ⟨LruCache.holds_of_cons hrest rfl (UInt64.le_refl now), ?_⟩
  rwa [show (c.put (toHexKey target) value now).maxSize = c.maxSize from
    LruCache.maxSize_step c (.put (toHexKey target) value now)]

end RpcHandlers

open RpcHandlers

/-- **What is acknowledged can be looked up.** A node has acknowledged a mutable value, and then fewer
other targets are used than it has room for, and nothing that is not too old is collected. A request that
names no larger number is answered with a value that its sender can check, whose number is not smaller;
if it is the same, the value is the same.

**Proof sketch.** The entry of the target is recent after every step, so that it is there; and what is
there is what was stored, or has replaced it. -/
theorem mutable_put_get (env : HandlerEnv) {s : RpcHandlers} {now : UInt64} {id : Option NodeId}
    {req : Incoming} {resp : Response} {target : NodeId} {value : List UInt8}
    (hinternal : req.internal = false) (hcommand : req.command = cmdMutablePut)
    (htarget : req.target = some target) (hvalue : req.value = some value)
    (hack : (s.onRequest env now id req).2 = some resp) (herror : resp.error = none)
    {targets : Finset NodeId} (hfew : targets.card < s.mutables.maxSize) {is : List RpcHandlers.Input}
    (hspares : Runs.EveryStep (RpcHandlers.step env)
      (fun s i => i.Spares cmdMutableGet cmdMutablePut target targets now s)
      (s.step env (.request now id req)) is) :
    let put := decodeMutablePut value
    let s' := Runs.run (RpcHandlers.step env) (s.step env (.request now id req)) is
    ∀ now' id' get seq, s'.node.socket.closing = false → (s'.heard env id' get).Reaches get cmdMutableGet →
      get.target = some target → get.value = some (uintEncode seq) → seq ≤ put.seq →
      ∃ answer bytes, (s'.onRequest env now' id' get).2 = some answer ∧ answer.value = some bytes ∧
        MutableIntact env target bytes ∧ put.seq ≤ (decodeMutableGetResp bytes).seq ∧
        ((decodeMutableGetResp bytes).seq = put.seq → (decodeMutableGetResp bytes).value = put.value) := by
  intro put s' now' id' get seq hopen hreaches hgetTarget hgetValue hseq
  obtain ⟨hvalid, hstored⟩ := step_of_mutablePut hinternal hcommand htarget hvalue hack herror
  have hsize : (s.mutables.get (toHexKey target)).1.maxSize = s.mutables.maxSize :=
    LruCache.maxSize_step s.mutables (.get (toHexKey target))
  -- the entry, and what became of it
  have hkept : Recent target targets now s'.mutables ∧ ∃ e, s'.mutables.find (toHexKey target) = some e ∧
      NoRollback ⟨toHexKey target, storedOf put, now⟩ e ∧ MutableIntact env target e.value := by
    refine Runs.run_invariant_of_everyStep (P := fun s : RpcHandlers =>
      Recent target targets now s.mutables ∧ ∃ e, s.mutables.find (toHexKey target) = some e ∧
        NoRollback ⟨toHexKey target, storedOf put, now⟩ e ∧ MutableIntact env target e.value)
      (fun s i h hi => ?_) ⟨?_, _, ?_, .refl _, mutableIntact_storedOf hvalid⟩ hspares
    · obtain ⟨hrecent, e, he, hno, hintact⟩ := h
      have hnext := (recent_step env s i).1 hi hrecent
      obtain ⟨e', he', -⟩ := hnext.1.find
      refine ⟨hnext, e', he', hno.trans (noRollback_step env he he'), ?_⟩
      rcases find_mutables_step env s i (toHexKey target) with
        hsame | hnone | ⟨_, _, _, t, _, -, ⟨-, -, -, -, -, -, -, hwritten⟩, -, hkey, hput⟩
      · rw [hsame, he] at he'
        exact Option.some.inj he' ▸ hintact
      · simp [hnone] at he'
      · rw [hput] at he'
        obtain rfl := Option.some.inj he'
        rw [toHexKey_injective hkey]
        exact mutableIntact_storedOf hwritten
    · rw [hstored]
      exact recent_put (hsize ▸ hfew) _
    · rw [hstored]
      exact LruCache.find_put_self _ _ _ _
  obtain ⟨-, e, he, ⟨hle, hsame⟩, hintact⟩ := hkept
  have hfirst : decodeMutableGetResp (storedOf put) =
      { seq := put.seq, value := put.value, signature := put.signature } := decode_storedOf hvalid
  simp only [storedSeq, storedValue, hfirst] at hle hsame
  -- the answer
  obtain ⟨answer, hanswer, hbytes⟩ := handleMutableGet_value env (s'.heard env id' get) hgetTarget hgetValue
  have hhandled : s'.onRequest env now' id' get = (s'.heard env id' get).handleMutableGet env get := by
    rw [onRequest_of_reaches hopen hreaches (by decide) (by decide), handleStorage, hreaches.2.2,
      if_neg (by decide), if_neg (by decide), if_neg (by decide), if_neg (by decide),
      if_neg (by decide), if_pos rfl]
  rw [requestedSeq_uintEncode] at hbytes
  exact ⟨answer, e.value, by rw [hhandled, hanswer],
    (hbytes _).2 ⟨e, he, rfl, UInt64.le_trans hseq hle⟩, hintact, hle, fun heq => (hsame heq.symm).symm⟩

/-- A node with empty caches that serves requests. -/
def servingNode : RpcHandlers :=
  { freshHandlers with node := { freshHandlers.node with ephemeral := false } }

/-- A value with the number 3 for the key of zeros, and a request for it with the number 2. -/
def putThree : Incoming where
  fromAddr := .zero
  command := cmdMutablePut
  target := some (namedSignerEnv.blake2b (List.replicate 32 0))
  token := some someTokens.current
  value := some (encodeMutablePut { seq := 3, value := [7] })
  valueFits := by rintro v ⟨⟩; decide

def getTwo : Incoming where
  fromAddr := .zero
  command := cmdMutableGet
  target := some (namedSignerEnv.blake2b (List.replicate 32 0))
  value := some (uintEncode 2)
  valueFits := by rintro v ⟨⟩; decide

theorem mutable_put_get_three :
    let s' := Runs.run (RpcHandlers.step namedSignerEnv)
      (servingNode.step namedSignerEnv (.request 5 none putThree)) [.rotate, .gcTick 9]
    ∃ answer bytes, (s'.onRequest namedSignerEnv 10 none getTwo).2 = some answer ∧
      answer.value = some bytes ∧ 3 ≤ (decodeMutableGetResp bytes).seq := by
  intro s'
  have hack : (servingNode.onRequest namedSignerEnv 5 none putThree).2 = some {} := by decide +kernel
  have hseq : (decodeMutablePut (encodeMutablePut { seq := 3, value := [7] })).seq = 3 := by decide
  obtain ⟨answer, bytes, hanswer, hbytes, -, hle, -⟩ := @mutable_put_get namedSignerEnv servingNode 5 none
    putThree {} _ _ rfl rfl rfl rfl hack rfl ∅ (by decide) [.rotate, .gcTick 9]
    ⟨trivial, .inr (by decide), trivial⟩ 10 none getTwo 2 (by decide +kernel)
    ⟨rfl, by decide +kernel, rfl⟩ rfl rfl (by rw [hseq]; decide)
  exact ⟨answer, bytes, hanswer, hbytes, hseq ▸ hle⟩

/-- **An immutable value that is acknowledged can be looked up** in the same way. -/
theorem immutable_put_get (env : HandlerEnv) {s : RpcHandlers} {now : UInt64} {id : Option NodeId}
    {req : Incoming} {resp : Response} {target : NodeId} {value : List UInt8}
    (hinternal : req.internal = false) (hcommand : req.command = cmdImmutablePut)
    (htarget : req.target = some target) (hvalue : req.value = some value)
    (hack : (s.onRequest env now id req).2 = some resp)
    {targets : Finset NodeId} (hfew : targets.card < s.immutables.maxSize) {is : List RpcHandlers.Input}
    (hspares : Runs.EveryStep (RpcHandlers.step env)
      (fun s i => i.Spares cmdImmutableGet cmdImmutablePut target targets now s)
      (s.step env (.request now id req)) is) :
    let s' := Runs.run (RpcHandlers.step env) (s.step env (.request now id req)) is
    ∀ now' id' get, s'.node.socket.closing = false → (s'.heard env id' get).Reaches get cmdImmutableGet →
      get.target = some target →
      ∃ answer bytes, (s'.onRequest env now' id' get).2 = some answer ∧ answer.value = some bytes ∧
        env.blake2b bytes = target := by
  intro s' now' id' get hopen hreaches hgetTarget
  obtain ⟨hstored, hdigest⟩ := step_of_immutablePut hinternal hcommand htarget hvalue hack
  have hkept : Recent target targets now s'.immutables ∧ ∃ e,
      s'.immutables.find (toHexKey target) = some e ∧ env.blake2b e.value = target := by
    refine Runs.run_invariant_of_everyStep (P := fun s : RpcHandlers =>
      Recent target targets now s.immutables ∧ ∃ e, s.immutables.find (toHexKey target) = some e ∧
        env.blake2b e.value = target) (fun s i h hi => ?_)
      ⟨?_, ⟨toHexKey target, value, now⟩, ?_, hdigest⟩ hspares
    · obtain ⟨hrecent, e, he, hsame⟩ := h
      have hnext := (recent_step env s i).2 hi hrecent
      obtain ⟨e', he', -⟩ := hnext.1.find
      refine ⟨hnext, e', he', ?_⟩
      rcases find_immutables_step env s i (toHexKey target) with
        hfound | hnone | ⟨now, _, _, t, v, -, haccepts, hput⟩
      · rw [hfound, he] at he'
        exact Option.some.inj he' ▸ hsame
      · simp [hnone] at he'
      · have hkey : toHexKey t = toHexKey target := LruCache.find_key hput
        rw [hput] at he'
        obtain rfl := Option.some.inj he'
        rw [← toHexKey_injective hkey]
        exact haccepts.2.2.2.2.2
    · rw [hstored]
      exact recent_put hfew _
    · rw [hstored]
      exact LruCache.find_put_self _ _ _ _
  obtain ⟨-, e, he, hsame⟩ := hkept
  have hhandled : s'.onRequest env now' id' get = (s'.heard env id' get).handleImmutableGet env get := by
    rw [onRequest_of_reaches hopen hreaches (by decide) (by decide), handleStorage, hreaches.2.2,
      if_neg (by decide), if_neg (by decide), if_neg (by decide), if_neg (by decide),
      if_neg (by decide), if_neg (by decide), if_neg (by decide), if_pos rfl]
  have hfind : (s'.heard env id' get).immutables.find (toHexKey target) = some e := he
  refine ⟨_, e.value, by rw [hhandled, handleImmutableGet, hgetTarget], ?_, hsame⟩
  dsimp only
  rw [LruCache.get_eq, hfind, Option.map_some]

def immutableRequest (command : UInt32) : Incoming where
  fromAddr := .zero
  command := command
  target := some (namedSignerEnv.blake2b [7])
  token := some someTokens.current
  value := some [7]
  valueFits := by rintro v ⟨⟩; decide

theorem immutable_put_get_seven :
    let s' := Runs.run (RpcHandlers.step namedSignerEnv)
      (servingNode.step namedSignerEnv (.request 5 none (immutableRequest cmdImmutablePut)))
      [.rotate, .gcTick 9]
    ∃ answer bytes,
      (s'.onRequest namedSignerEnv 10 none (immutableRequest cmdImmutableGet)).2 = some answer ∧
        answer.value = some bytes ∧ namedSignerEnv.blake2b bytes = namedSignerEnv.blake2b [7] := by
  intro s'
  have hack : (servingNode.onRequest namedSignerEnv 5 none (immutableRequest cmdImmutablePut)).2 =
      some {} := by decide +kernel
  exact @immutable_put_get namedSignerEnv servingNode 5 none (immutableRequest cmdImmutablePut) {} _ _ rfl
    rfl rfl rfl hack ∅ (by decide) [.rotate, .gcTick 9] ⟨trivial, .inr (by decide), trivial⟩ 10 none
    (immutableRequest cmdImmutableGet) (by decide +kernel) ⟨rfl, by decide +kernel, rfl⟩ rfl

end HyperDHT.Handlers
