import HyperDHT.Handlers.Basic

/-!
# Mutable and immutable values

What a node keeps of the values that others store with it. Every entry of the two caches was written
by a request with a valid token and can be checked by its readers: an immutable value by its digest,
a mutable value by its signature under a key whose digest is the target. A mutable value is only
ever replaced by one with a larger number, or by itself.

## Main definitions

* `Handlers.MutableIntact`, `Handlers.ImmutableIntact` — what readers can check of an entry.
* `Handlers.MutableWritten`, `Handlers.ImmutableWritten` — the request that wrote an entry.
* `Handlers.NoRollback` — a mutable value is followed by another one.
* `Handlers.Refused` — what speaks against a request to store a mutable value.

## Main results

* `Handlers.record_store_integrity` — every entry of every reachable state is intact and was written
  by a request with a valid token.
* `Handlers.mutable_records_never_roll_back` — as long as a key is present its number never
  decreases, a refused request changes nothing, and a lookup returns what is new enough.
-/

set_option autoImplicit false

namespace HyperDHT.Handlers

open Compact Routing Rpc

/-! ## Keys -/

lemma hexChar_injOn : Set.InjOn hexChar { n | n < 16 } := by
  have hall : ∀ a < 16, ∀ b < 16, hexChar a = hexChar b → a = b := by decide
  exact fun a ha b hb hab => hall a ha b hb hab

/-- **Different targets have different keys.** -/
theorem toHexKey_injective : Function.Injective toHexKey := by
  have hlist : ∀ as bs : List UInt8,
      (as.flatMap fun b => [hexChar (b.toNat / 16), hexChar (b.toNat % 16)]) =
        (bs.flatMap fun b => [hexChar (b.toNat / 16), hexChar (b.toNat % 16)]) → as = bs := by
    intro as
    induction as with
    | nil =>
      intro bs h
      cases bs with
      | nil => rfl
      | cons b bs => simp at h
    | cons a as ih =>
      intro bs h
      cases bs with
      | nil => simp at h
      | cons b bs =>
        simp only [List.flatMap_cons, List.cons_append, List.nil_append, List.cons.injEq] at h
        obtain ⟨hhigh, hlow, hrest⟩ := h
        have ha : a.toNat < 256 := a.toNat_lt
        have hb : b.toNat < 256 := b.toNat_lt
        have hhigh' : a.toNat / 16 = b.toNat / 16 :=
          hexChar_injOn (by simp; omega) (by simp; omega) hhigh
        have hlow' : a.toNat % 16 = b.toNat % 16 :=
          hexChar_injOn (by simp; omega) (by simp; omega) hlow
        rw [ih bs hrest, UInt8.toNat_inj.1 (show a.toNat = b.toNat by omega)]
  rintro ⟨a⟩ ⟨b⟩ h
  exact congrArg NodeId.mk (List.Vector.eq a b (hlist _ _ h))

/-! ## Integrity -/

/-- A mutable value that its readers can check. -/
def MutableIntact (env : HandlerEnv) (target : NodeId) (bytes : List UInt8) : Prop :=
  let stored := decodeMutableGetResp bytes
  1 ≤ stored.value.length ∧ stored.value.length ≤ maxStoredValue ∧
    ∃ publicKey : List.Vector UInt8 32, env.blake2b publicKey.toList = target ∧
      verifyMutable env.blake2b env.verify stored.signature stored.seq stored.value publicKey = true

/-- An immutable value that its readers can check. -/
def ImmutableIntact (env : HandlerEnv) (target : NodeId) (bytes : List UInt8) : Prop :=
  bytes ≠ [] ∧ bytes.length ≤ maxStoredValue ∧ env.blake2b bytes = target

lemma decode_storedOf {env : HandlerEnv} {put : MutablePutRequest} {target : NodeId}
    (h : RpcHandlers.MutablePutRequest.valid env put target = true) :
    decodeMutableGetResp (RpcHandlers.storedOf put) =
      { seq := put.seq, value := put.value, signature := put.signature } := by
  refine decodeMutableGetResp_encodeMutableGetResp _ ?_
  simp only [RpcHandlers.MutablePutRequest.valid, Bool.and_eq_true, decide_eq_true_eq] at h
  exact h.1.2.trans (by decide)

lemma mutableIntact_storedOf {env : HandlerEnv} {put : MutablePutRequest} {target : NodeId}
    (h : RpcHandlers.MutablePutRequest.valid env put target = true) :
    MutableIntact env target (RpcHandlers.storedOf put) := by
  have hstored := decode_storedOf h
  simp only [RpcHandlers.MutablePutRequest.valid, Bool.and_eq_true, decide_eq_true_eq,
    Bool.not_eq_true', List.isEmpty_eq_false_iff] at h
  obtain ⟨⟨⟨hdigest, hne⟩, hlen⟩, hverify⟩ := h
  simp only [MutableIntact, hstored]
  exact ⟨List.length_pos_iff.2 hne, hlen, put.publicKey, hdigest, hverify⟩

section Written

variable (env : HandlerEnv) (s₀ : RpcHandlers) (is : List RpcHandlers.Input)

/-- In a run, a request with a valid token and a valid message wrote the entry of the mutable
values. -/
def MutableWritten (e : Entry (List Char) (List UInt8)) : Prop :=
  ∃ before now id req after target put,
    is = before ++ .request now id req :: after ∧
    RpcHandlers.AcceptsMutablePut env
      ((Runs.run (RpcHandlers.step env) s₀ before).heard env id req) req target put ∧
    e = ⟨toHexKey target, RpcHandlers.storedOf put, now⟩

/-- In a run, a request with a valid token wrote the entry of the immutable values. -/
def ImmutableWritten (e : Entry (List Char) (List UInt8)) : Prop :=
  ∃ before now id req after target value,
    is = before ++ .request now id req :: after ∧
    RpcHandlers.AcceptsImmutablePut env
      ((Runs.run (RpcHandlers.step env) s₀ before).heard env id req) req target value ∧
    e = ⟨toHexKey target, value, now⟩

end Written

/-! ## What a step does to an entry -/

lemma LruCache.find_put_cases {κ ν : Type*} [DecidableEq κ] (c : LruCache κ ν) (key k : κ)
    (value : ν) (now : UInt64) :
    (c.put key value now).find k = c.find k ∨ (c.put key value now).find k = none ∨
      k = key ∧ (c.put key value now).find k = some ⟨key, value, now⟩ := by
  by_cases hk : key = k
  · subst hk
    exact .inr (.inr ⟨rfl, LruCache.find_put_self _ _ _ _⟩)
  · rcases LruCache.find_put_of_ne c hk value now with hsame | ⟨hnone, -⟩
    · exact .inl hsame
    · exact .inr (.inl hnone)

lemma LruCache.find_gc_cases {κ ν : Type*} [DecidableEq κ] (c : LruCache κ ν) (now maxAge : UInt64)
    (k : κ) : (c.gc now maxAge).find k = c.find k ∨ (c.gc now maxAge).find k = none := by
  rw [LruCache.find_gc]
  cases c.find k with
  | none => exact .inl rfl
  | some e =>
    by_cases hexpired : LruCache.expired now maxAge e
    · exact .inr (by simp [Option.filter, hexpired])
    · exact .inl (by simp [Option.filter, hexpired])

/-- **What a step does to a mutable value**: it stays, it goes, or it is written by a request with a
valid token that may replace what was there. -/
theorem find_mutables_step (env : HandlerEnv) (s : RpcHandlers) (i : RpcHandlers.Input)
    (key : List Char) :
    (s.step env i).mutables.find key = s.mutables.find key ∨
      (s.step env i).mutables.find key = none ∨
      ∃ now id req target put, i = .request now id req ∧
        RpcHandlers.AcceptsMutablePut env (s.heard env id req) req target put ∧
        s.MayReplace target put ∧ key = toHexKey target ∧
        (s.step env i).mutables.find key =
          some ⟨toHexKey target, RpcHandlers.storedOf put, now⟩ := by
  have hstep := RpcHandlers.step_storage env s i
  generalize (s.step env i).store = store', (s.step env i).mutables = mutables',
    (s.step env i).immutables = immutables' at hstep ⊢
  cases hstep with
  | same | announce | unannounce | immutableGet | immutablePut => exact .inl rfl
  | mutableGet target => exact .inl (LruCache.find_get s.mutables _ key)
  | @mutablePut now id req target put haccepts hreplace =>
    rcases LruCache.find_put_cases (s.mutables.get (toHexKey target)).1 (toHexKey target) key
      (RpcHandlers.storedOf put) now with hput | hput | ⟨hkey, hput⟩
    · exact .inl (hput.trans (LruCache.find_get s.mutables _ key))
    · exact .inr (.inl hput)
    · exact .inr (.inr ⟨now, id, req, target, put, rfl, haccepts, hreplace, hkey, hput⟩)
  | gc now =>
    rcases LruCache.find_gc_cases s.mutables now s.storageTtlMs key with h | h
    · exact .inl h
    · exact .inr (.inl h)

/-- **What a step does to an immutable value**: it stays, it goes, or it is written by a request
with a valid token. -/
theorem find_immutables_step (env : HandlerEnv) (s : RpcHandlers) (i : RpcHandlers.Input)
    (key : List Char) :
    (s.step env i).immutables.find key = s.immutables.find key ∨
      (s.step env i).immutables.find key = none ∨
      ∃ now id req target value, i = .request now id req ∧
        RpcHandlers.AcceptsImmutablePut env (s.heard env id req) req target value ∧
        (s.step env i).immutables.find key = some ⟨toHexKey target, value, now⟩ := by
  have hstep := RpcHandlers.step_storage env s i
  generalize (s.step env i).store = store', (s.step env i).mutables = mutables',
    (s.step env i).immutables = immutables' at hstep ⊢
  cases hstep with
  | same | announce | unannounce | mutableGet | mutablePut => exact .inl rfl
  | immutableGet target => exact .inl (LruCache.find_get s.immutables _ key)
  | @immutablePut now id req target value haccepts =>
    rcases LruCache.find_put_cases s.immutables (toHexKey target) key value now with
      hput | hput | ⟨-, hput⟩
    · exact .inl hput
    · exact .inr (.inl hput)
    · exact .inr (.inr ⟨now, id, req, target, value, rfl, haccepts, hput⟩)
  | gc now =>
    rcases LruCache.find_gc_cases s.immutables now s.storageTtlMs key with h | h
    · exact .inl h
    · exact .inr (.inl h)

/-! ## The integrity of the store -/

lemma mutableWritten_run (env : HandlerEnv) {s₀ : RpcHandlers} (hempty : s₀.mutables.entries = [])
    {is : List RpcHandlers.Input} {key : List Char} {e : Entry (List Char) (List UInt8)}
    (he : (Runs.run (RpcHandlers.step env) s₀ is).mutables.find key = some e) :
    MutableWritten env s₀ is e := by
  have horigin := @Runs.origin _ _ (RpcHandlers.step env) _
    (fun s e => s.mutables.find key = some e)
    (fun s i e => ∃ now id req target put, i = .request now id req ∧
      RpcHandlers.AcceptsMutablePut env (s.heard env id req) req target put ∧
      e = ⟨toHexKey target, RpcHandlers.storedOf put, now⟩) ?_ s₀ is e he
  · rcases horigin with hfirst | ⟨before, _, after, hsplit, now, id, req, target, put, rfl, hwrote⟩
    · simp [LruCache.find, hempty] at hfirst
    · exact ⟨before, now, id, req, after, target, put, hsplit, hwrote⟩
  · intro s i e he
    rcases find_mutables_step env s i key with
      hsame | hnone | ⟨now, id, req, target, put, hi, haccepts, -, -, hput⟩
    · exact .inl (hsame ▸ he)
    · simp [hnone] at he
    · rw [hput] at he
      exact .inr ⟨now, id, req, target, put, hi, haccepts, (Option.some.inj he).symm⟩

lemma immutableWritten_run (env : HandlerEnv) {s₀ : RpcHandlers}
    (hempty : s₀.immutables.entries = []) {is : List RpcHandlers.Input} {key : List Char}
    {e : Entry (List Char) (List UInt8)}
    (he : (Runs.run (RpcHandlers.step env) s₀ is).immutables.find key = some e) :
    ImmutableWritten env s₀ is e := by
  have horigin := @Runs.origin _ _ (RpcHandlers.step env) _
    (fun s e => s.immutables.find key = some e)
    (fun s i e => ∃ now id req target value, i = .request now id req ∧
      RpcHandlers.AcceptsImmutablePut env (s.heard env id req) req target value ∧
      e = ⟨toHexKey target, value, now⟩) ?_ s₀ is e he
  · rcases horigin with hfirst | ⟨before, _, after, hsplit, now, id, req, target, value, rfl, hwrote⟩
    · simp [LruCache.find, hempty] at hfirst
    · exact ⟨before, now, id, req, after, target, value, hsplit, hwrote⟩
  · intro s i e he
    rcases find_immutables_step env s i key with
      hsame | hnone | ⟨now, id, req, target, value, hi, haccepts, hput⟩
    · exact .inl (hsame ▸ he)
    · simp [hnone] at he
    · rw [hput] at he
      exact .inr ⟨now, id, req, target, value, hi, haccepts, (Option.some.inj he).symm⟩

lemma MutableWritten.intact {env : HandlerEnv} {s₀ : RpcHandlers} {is : List RpcHandlers.Input}
    {e : Entry (List Char) (List UInt8)} (h : MutableWritten env s₀ is e) {target : NodeId}
    (hkey : e.key = toHexKey target) : MutableIntact env target e.value := by
  obtain ⟨_, _, _, _, _, target', put, -, ⟨-, -, -, -, -, -, -, hvalid⟩, rfl⟩ := h
  rw [← toHexKey_injective hkey]
  exact mutableIntact_storedOf hvalid

lemma ImmutableWritten.intact {env : HandlerEnv} {s₀ : RpcHandlers} {is : List RpcHandlers.Input}
    {e : Entry (List Char) (List UInt8)} (h : ImmutableWritten env s₀ is e) {target : NodeId}
    (hkey : e.key = toHexKey target) : ImmutableIntact env target e.value := by
  obtain ⟨_, _, _, _, _, target', value, -, ⟨-, -, -, hne, hlen, hdigest⟩, rfl⟩ := h
  rw [← toHexKey_injective hkey]
  exact ⟨hne, hlen, hdigest⟩

/-- **Integrity of the store.** In every state that requests, ticks and anything else that happens
to the node can lead to, every entry of the mutable values under the key of a target is a value with
a number and a signature that is valid under a key whose digest is the target, and every entry of
the immutable values is a value whose digest is the target; the values are neither empty nor too
long, and each entry was written by a request whose token was valid for the host it came from.

**Proof sketch.** An entry stays, goes or is written in a step; so each entry was written by a
request of the run that was accepted. What such a request stores is read back by the decoder, and
different targets have different keys. -/
theorem record_store_integrity (env : HandlerEnv) (localId : NodeId) (firstTid : UInt16)
    (tokens : TokenStore) (config : RpcHandlers.StorageCacheConfig)
    (is : List RpcHandlers.Input) :
    (∀ e ∈ (Runs.run (RpcHandlers.step env) (.init localId firstTid tokens config) is
        ).mutables.entries,
      (∀ target, e.key = toHexKey target → MutableIntact env target e.value) ∧
        MutableWritten env (.init localId firstTid tokens config) is e) ∧
    (∀ e ∈ (Runs.run (RpcHandlers.step env) (.init localId firstTid tokens config) is
        ).immutables.entries,
      (∀ target, e.key = toHexKey target → ImmutableIntact env target e.value) ∧
        ImmutableWritten env (.init localId firstTid tokens config) is e) := by
  constructor
  · intro e he
    have hwritten := @mutableWritten_run env (.init localId firstTid tokens config) rfl _ _ _
      (LruCache.find_of_mem he)
    exact ⟨fun target hkey => hwritten.intact hkey, hwritten⟩
  · intro e he
    have hwritten := @immutableWritten_run env (.init localId firstTid tokens config) rfl _ _ _
      (LruCache.find_of_mem he)
    exact ⟨fun target hkey => hwritten.intact hkey, hwritten⟩

/-! ## No rollback -/

/-- The number of a stored mutable value. -/
def storedSeq (e : Entry (List Char) (List UInt8)) : UInt64 := (decodeMutableGetResp e.value).seq

/-- The value of a stored mutable value. -/
def storedValue (e : Entry (List Char) (List UInt8)) : List UInt8 :=
  (decodeMutableGetResp e.value).value

/-- A mutable value is followed by another one: the number does not decrease, and the value of a
number stays. -/
def NoRollback (e e' : Entry (List Char) (List UInt8)) : Prop :=
  storedSeq e ≤ storedSeq e' ∧ (storedSeq e = storedSeq e' → storedValue e = storedValue e')

lemma NoRollback.refl (e : Entry (List Char) (List UInt8)) : NoRollback e e :=
  ⟨UInt64.le_refl _, fun _ => rfl⟩

lemma NoRollback.trans {a b c : Entry (List Char) (List UInt8)} (hab : NoRollback a b)
    (hbc : NoRollback b c) : NoRollback a c := by
  refine ⟨UInt64.le_trans hab.1 hbc.1, fun hac => ?_⟩
  have hba : storedSeq b ≤ storedSeq a := hac ▸ hbc.1
  have heq : storedSeq a = storedSeq b := UInt64.le_antisymm hab.1 hba
  rw [hab.2 heq, hbc.2 (heq ▸ hac)]

lemma noRollback_of_mayReplace {env : HandlerEnv} {s : RpcHandlers} {target : NodeId}
    {put : MutablePutRequest} {e : Entry (List Char) (List UInt8)}
    (hvalid : RpcHandlers.MutablePutRequest.valid env put target = true)
    (hreplace : s.MayReplace target put) (he : s.mutables.find (toHexKey target) = some e)
    (now : UInt64) : NoRollback e ⟨toHexKey target, RpcHandlers.storedOf put, now⟩ := by
  have hnone := hreplace e he
  simp only [NoRollback, storedSeq, storedValue, decode_storedOf hvalid]
  unfold RpcHandlers.seqError at hnone
  split at hnone
  · simp at hnone
  · next hreused =>
    split at hnone
    · simp at hnone
    · next hlow =>
      exact ⟨UInt64.not_lt.1 hlow, fun heq => not_not.1 fun hne => hreused ⟨heq, hne⟩⟩

lemma noRollback_step (env : HandlerEnv) {s : RpcHandlers} {i : RpcHandlers.Input} {key : List Char}
    {e e' : Entry (List Char) (List UInt8)} (he : s.mutables.find key = some e)
    (he' : (s.step env i).mutables.find key = some e') : NoRollback e e' := by
  rcases find_mutables_step env s i key with
    hsame | hnone | ⟨now, id, req, target, put, -, ⟨-, -, -, -, -, -, -, hvalid⟩, hreplace, rfl, hput⟩
  · rw [hsame, he] at he'
    rw [Option.some.inj he']
    exact .refl e'
  · simp [hnone] at he'
  · rw [hput] at he'
    rw [← Option.some.inj he']
    exact noRollback_of_mayReplace hvalid hreplace he now

lemma noRollback_run (env : HandlerEnv) {key : List Char} {s : RpcHandlers}
    {is : List RpcHandlers.Input} {e e' : Entry (List Char) (List UInt8)}
    (hpresent : Runs.EveryState (RpcHandlers.step env)
      (fun s => (s.mutables.find key).isSome) s is)
    (he : s.mutables.find key = some e)
    (he' : (Runs.run (RpcHandlers.step env) s is).mutables.find key = some e') :
    NoRollback e e' := by
  induction is generalizing s e with
  | nil =>
    rw [Runs.run_nil, he] at he'
    rw [Option.some.inj he']
    exact .refl e'
  | cons i is ih =>
    obtain ⟨e₁, he₁⟩ := Option.isSome_iff_exists.1 hpresent.2.head
    exact (noRollback_step env he he₁).trans (ih hpresent.2 he₁ he')

/-- What speaks against a request to store a mutable value: a field is missing, the token is not
valid, the target is not the digest of the key, the value is empty or too long, the signature is not
valid, or the stored value has a larger number, or the same number and is another one. -/
def Refused (env : HandlerEnv) (s : RpcHandlers) (req : Incoming) : Prop :=
  ∀ target token value, req.target = some target → req.token = some token →
    req.value = some value →
    s.tokens.validate env req.fromAddr.hostString token = false ∨
    env.blake2b (decodeMutablePut value).publicKey.toList ≠ target ∨
    (decodeMutablePut value).value = [] ∨ (decodeMutablePut value).value.length > maxStoredValue ∨
    verifyMutable env.blake2b env.verify (decodeMutablePut value).signature
      (decodeMutablePut value).seq (decodeMutablePut value).value
      (decodeMutablePut value).publicKey = false ∨
    ∃ e, s.mutables.find (toHexKey target) = some e ∧
      ((decodeMutablePut value).seq < storedSeq e ∨
        storedSeq e = (decodeMutablePut value).seq ∧
          storedValue e ≠ (decodeMutablePut value).value)

lemma Refused.not_accepted {env : HandlerEnv} {s : RpcHandlers} {req : Incoming}
    (h : Refused env s req) {target : NodeId} {put : MutablePutRequest}
    (haccepts : RpcHandlers.AcceptsMutablePut env s req target put) :
    ¬ s.MayReplace target put := by
  obtain ⟨htarget, token, value, htoken, hvalue, hvalidate, rfl, hvalid⟩ := haccepts
  intro hreplace
  simp only [RpcHandlers.MutablePutRequest.valid, Bool.and_eq_true, decide_eq_true_eq,
    Bool.not_eq_true', List.isEmpty_eq_false_iff] at hvalid
  obtain ⟨⟨⟨hdigest, hne⟩, hlen⟩, hverify⟩ := hvalid
  rcases h target token value htarget htoken hvalue with
    hbad | hbad | hbad | hbad | hbad | ⟨e, he, hseq⟩
  · simp [hvalidate] at hbad
  · exact hbad hdigest
  · exact hne hbad
  · omega
  · simp [hverify] at hbad
  · have hnone := hreplace e he
    rcases hseq with hlow | ⟨heq, hother⟩
    · have hlow' : (decodeMutablePut value).seq < (decodeMutableGetResp e.value).seq := hlow
      have hne : (decodeMutableGetResp e.value).seq ≠ (decodeMutablePut value).seq :=
        fun h => UInt64.lt_irrefl _ (h ▸ hlow')
      simp [RpcHandlers.seqError, hne, hlow'] at hnone
    · have heq' : (decodeMutableGetResp e.value).seq = (decodeMutablePut value).seq := heq
      have hother' : (decodeMutableGetResp e.value).value ≠ (decodeMutablePut value).value := hother
      simp [RpcHandlers.seqError, heq', hother'] at hnone

lemma find_handleMutablePut_of_refused {env : HandlerEnv} {s : RpcHandlers} {req : Incoming}
    (h : Refused env s req) (now : UInt64) (key : List Char) :
    (s.handleMutablePut env now req).1.mutables.find key = s.mutables.find key := by
  rcases RpcHandlers.handleMutablePut_cases env s now req with
    (hsame | ⟨target, hget⟩) | ⟨target, put, haccepts, hreplace, -⟩
  · rw [hsame]
  · rw [hget]
    exact LruCache.find_get s.mutables _ key
  · exact absurd hreplace (h.not_accepted haccepts)

lemma handleMutableGet_value (env : HandlerEnv) (s : RpcHandlers) {req : Incoming} {target : NodeId}
    {value : List UInt8} (htarget : req.target = some target) (hvalue : req.value = some value) :
    ∃ resp, (s.handleMutableGet env req).2 = some resp ∧ ∀ bytes, resp.value = some bytes ↔
      ∃ e, s.mutables.find (toHexKey target) = some e ∧ e.value = bytes ∧
        RpcHandlers.requestedSeq value ≤ storedSeq e := by
  unfold RpcHandlers.handleMutableGet
  rw [htarget, hvalue]
  dsimp only
  rw [LruCache.get_eq]
  cases hfind : s.mutables.find (toHexKey target) with
  | none => exact ⟨_, rfl, by simp [RpcHandlers.makeQueryResponse]⟩
  | some e =>
    simp only [Option.map_some]
    split
    · next hge => exact ⟨_, rfl, fun bytes => by simpa [storedSeq] using fun _ => hge⟩
    · next hlt =>
      exact ⟨_, rfl, fun bytes => by
        simpa [RpcHandlers.makeQueryResponse, storedSeq] using fun _ => UInt64.not_le.1 hlt⟩

lemma requestedSeq_uintEncode (seq : UInt64) : RpcHandlers.requestedSeq (uintEncode seq) = seq := by
  have hne : uintEncode seq ≠ [] := by
    simp only [uintEncode]
    split_ifs <;> simp
  have hdecode := uintDecode_uintEncode seq []
  rw [List.append_nil] at hdecode
  simp [RpcHandlers.requestedSeq, hne, State.forDecode, hdecode]

/-- **Mutable values never roll back.** From every state, reached by a run or not: as long as a key
stays present, its number does not decrease and the value of a number stays; a refused request
leaves the bytes and the time of every key; and a lookup with the number `seq` returns a value
exactly when one is stored with a number that is not smaller.

**Proof sketch.** A step writes the value of a key only for a request that may replace it. -/
theorem mutable_records_never_roll_back (env : HandlerEnv) (s : RpcHandlers) :
    (∀ key is e e',
      Runs.EveryState (RpcHandlers.step env) (fun s => (s.mutables.find key).isSome) s is →
      s.mutables.find key = some e →
      (Runs.run (RpcHandlers.step env) s is).mutables.find key = some e' → NoRollback e e') ∧
    (∀ now req, Refused env s req → ∀ key,
      (s.handleMutablePut env now req).1.mutables.find key = s.mutables.find key) ∧
    (∀ req target seq, req.target = some target → req.value = some (uintEncode seq) →
      ∃ resp, (s.handleMutableGet env req).2 = some resp ∧ ∀ bytes, resp.value = some bytes ↔
        ∃ e, s.mutables.find (toHexKey target) = some e ∧ e.value = bytes ∧
          seq ≤ storedSeq e) := by
  refine ⟨fun key is e e' hpresent he he' => noRollback_run env hpresent he he',
    fun now req hrefused key => find_handleMutablePut_of_refused hrefused now key,
    fun req target seq htarget hvalue => ?_⟩
  have hget := handleMutableGet_value env s htarget hvalue
  rwa [requestedSeq_uintEncode] at hget

end HyperDHT.Handlers
