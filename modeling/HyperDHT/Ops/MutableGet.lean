import Mathlib.Data.List.Induction
import HyperDHT.Ops.Basic

/-!
# The newest value

What `HyperDHT::mutable_get` reports. The callback of `dht_ops::mutable_get` lets the replies through that
decode to a value with a valid signature that is not too old; the one of the node keeps the best of them.
The walk is not ended early, as the node does not pass `latest` on.

## Main definitions

* `Ops.MutableGetResult` — what is reported.
* `Ops.onMutableReply`, `keepBest`, `mutableGet` — the two callbacks, and what they come to.
* `Ops.Verified` — a reply has a value that was asked for.
* `Ops.IsNewest` — what is reported is one of these values, and none of the others is newer.

## Main results

* `Ops.mutableGet_eq` — only the verified replies count.
* `Ops.newest_mutableGet` — the newest of them is reported, or the first one.
-/

set_option autoImplicit false

namespace HyperDHT.Ops

open Compact Handlers Routing Rpc

/-- What is reported. -/
structure MutableGetResult where
  found : Bool := false
  seq : UInt64 := 0
  value : List UInt8 := []
  signature : List.Vector UInt8 64 := List.Vector.replicate 64 0
  deriving DecidableEq

variable (blake2b : List UInt8 → NodeId) (verify : Verify) (publicKey : List.Vector UInt8 32)
  (minSeq : UInt64)

/-- The callback for a reply that `dht_ops::mutable_get` installs, on what the caller's callback keeps and
whether the query was destroyed. -/
def onMutableReply {σ : Type*} (latest : Bool) (onResult : σ → MutableGetResponse → σ) (s : σ × Bool)
    (reply : QueryReply) : σ × Bool :=
  if s.2 then s
  else
    match reply.value with
    | none => s
    | some bytes =>
      if bytes.isEmpty then s
      else
        let resp := decodeMutableGetResp bytes
        if resp.value.isEmpty then s
        else if resp.seq < minSeq then s
        else if !verifyMutable blake2b verify resp.signature resp.seq resp.value publicKey then s
        else (onResult s.1 resp, !latest)

/-- The callback of the node for a verified value. -/
def keepBest (latest : Bool) (result : MutableGetResult) (r : MutableGetResponse) : MutableGetResult :=
  if !result.found then ⟨true, r.seq, r.value, r.signature⟩
  else if !latest then result
  else if r.seq > result.seq then
    { result with seq := r.seq, value := r.value, signature := r.signature }
  else result

/-- What the node reports after the replies. It does not pass `latest` on, which is true then. -/
def mutableGet (latest : Bool) (replies : List QueryReply) : MutableGetResult :=
  (replies.foldl (onMutableReply blake2b verify publicKey minSeq true (keepBest latest))
    ({}, false)).1

/-- **A reply has a value that was asked for**: its bytes decode to a value that is not empty nor too old,
with a valid signature. -/
def Verified (reply : QueryReply) (resp : MutableGetResponse) : Prop :=
  ∃ bytes, reply.value = some bytes ∧ decodeMutableGetResp bytes = resp ∧ resp.value ≠ [] ∧
    minSeq ≤ resp.seq ∧
    verifyMutable blake2b verify resp.signature resp.seq resp.value publicKey = true

/-- A value, as it is reported. -/
def MutableGetResult.ofResponse (resp : MutableGetResponse) : MutableGetResult :=
  ⟨true, resp.seq, resp.value, resp.signature⟩

/-! ## What is let through -/

/-- The value of a reply that is let through. -/
def letThrough (reply : QueryReply) : Option MutableGetResponse :=
  (reply.value.map decodeMutableGetResp).filter fun resp =>
    !resp.value.isEmpty && minSeq ≤ resp.seq &&
      verifyMutable blake2b verify resp.signature resp.seq resp.value publicKey

variable {blake2b verify publicKey minSeq}

lemma letThrough_eq_some_iff {reply : QueryReply} {resp : MutableGetResponse} :
    letThrough blake2b verify publicKey minSeq reply = some resp ↔
      Verified blake2b verify publicKey minSeq reply resp := by
  simp only [letThrough, Verified, Option.filter_eq_some_iff, Option.map_eq_some_iff,
    Bool.and_eq_true, Bool.not_eq_true', List.isEmpty_eq_false_iff, decide_eq_true_eq]
  constructor
  · rintro ⟨⟨bytes, hbytes, hresp⟩, ⟨hvalue, hseq⟩, hverify⟩
    exact ⟨bytes, hbytes, hresp, hvalue, hseq, hverify⟩
  · rintro ⟨bytes, hbytes, hresp, hvalue, hseq, hverify⟩
    exact ⟨⟨bytes, hbytes, hresp⟩, ⟨hvalue, hseq⟩, hverify⟩

lemma onMutableReply_eq {σ : Type*} (onResult : σ → MutableGetResponse → σ) (kept : σ)
    (reply : QueryReply) :
    onMutableReply blake2b verify publicKey minSeq true onResult (kept, false) reply =
      (((letThrough blake2b verify publicKey minSeq reply).map (onResult kept)).getD kept, false) := by
  unfold onMutableReply letThrough
  cases hvalue : reply.value with
  | none => simp
  | some bytes =>
    by_cases hempty : bytes = []
    · subst hempty
      have hnil : (decodeMutableGetResp []).value = [] := rfl
      simp [Option.filter, hnil]
    · simp only [Bool.false_eq_true, if_false, List.isEmpty_eq_false_iff.2 hempty, Option.map_some,
        Option.filter_some]
      by_cases hv : (decodeMutableGetResp bytes).value.isEmpty
      · simp [hv]
      · by_cases hseq : (decodeMutableGetResp bytes).seq < minSeq
        · simp [hv, hseq, UInt64.not_le.2 hseq]
        · have hle := UInt64.not_lt.1 hseq
          cases hsig : verifyMutable blake2b verify (decodeMutableGetResp bytes).signature
            (decodeMutableGetResp bytes).seq (decodeMutableGetResp bytes).value publicKey
          · simp [hv, hseq]
          · simp [hv, hseq, hle]

variable (blake2b verify publicKey minSeq)

/-- The values of the replies that are let through, in the order of arrival. -/
def verifiedValues (replies : List QueryReply) : List MutableGetResponse :=
  replies.filterMap (letThrough blake2b verify publicKey minSeq)

variable {blake2b verify publicKey minSeq}

lemma foldl_onMutableReply {σ : Type*} (onResult : σ → MutableGetResponse → σ)
    (replies : List QueryReply) (kept : σ) :
    replies.foldl (onMutableReply blake2b verify publicKey minSeq true onResult) (kept, false) =
      ((verifiedValues blake2b verify publicKey minSeq replies).foldl onResult kept, false) := by
  induction replies generalizing kept with
  | nil => rfl
  | cons reply replies ih =>
    rw [List.foldl_cons, onMutableReply_eq, ih]
    unfold verifiedValues
    cases hlet : letThrough blake2b verify publicKey minSeq reply with
    | none => rw [List.filterMap_cons_none hlet]; rfl
    | some resp => rw [List.filterMap_cons_some hlet]; rfl

/-- **Only the verified replies count.** -/
lemma mutableGet_eq (latest : Bool) (replies : List QueryReply) :
    mutableGet blake2b verify publicKey minSeq latest replies =
      (verifiedValues blake2b verify publicKey minSeq replies).foldl (keepBest latest) {} := by
  rw [mutableGet, foldl_onMutableReply]

lemma mem_verifiedValues_iff {replies : List QueryReply} {resp : MutableGetResponse} :
    resp ∈ verifiedValues blake2b verify publicKey minSeq replies ↔
      ∃ reply ∈ replies, Verified blake2b verify publicKey minSeq reply resp := by
  simp only [verifiedValues, List.mem_filterMap, letThrough_eq_some_iff]

/-! ## The best of the values -/

lemma foldl_keepBest_first (resps : List MutableGetResponse) (resp : MutableGetResponse) :
    resps.foldl (keepBest false) (.ofResponse resp) = .ofResponse resp := by
  induction resps with
  | nil => rfl
  | cons r resps ih =>
    have hstep : keepBest false (.ofResponse resp) r = .ofResponse resp := rfl
    rw [List.foldl_cons, hstep, ih]

lemma keepBest_ofResponse (best r : MutableGetResponse) :
    ∃ resp, keepBest true (.ofResponse best) r = .ofResponse resp ∧ (resp = best ∨ resp = r) ∧
      best.seq ≤ resp.seq ∧ r.seq ≤ resp.seq := by
  by_cases h : best.seq < r.seq
  · refine ⟨r, ?_, .inr rfl, UInt64.le_of_lt h, UInt64.le_refl _⟩
    simp [keepBest, MutableGetResult.ofResponse, h]
  · refine ⟨best, ?_, .inl rfl, UInt64.le_refl _, UInt64.not_lt.1 h⟩
    simp [keepBest, MutableGetResult.ofResponse, h]

lemma foldl_keepBest_newest (resps : List MutableGetResponse) (best : MutableGetResponse) :
    ∃ resp, resps.foldl (keepBest true) (.ofResponse best) = .ofResponse resp ∧
      resp ∈ best :: resps ∧ ∀ r ∈ best :: resps, r.seq ≤ resp.seq := by
  induction resps generalizing best with
  | nil => exact ⟨best, rfl, by simp, by simp⟩
  | cons r resps ih =>
    obtain ⟨next, hnext, hmem, hbest, hr⟩ := keepBest_ofResponse best r
    obtain ⟨resp, hresp, hin, hmax⟩ := ih next
    refine ⟨resp, by rw [List.foldl_cons, hnext, hresp], ?_, ?_⟩
    · obtain rfl | hin := List.mem_cons.1 hin
      · obtain rfl | rfl := hmem <;> simp
      · simp [hin]
    · have hle := hmax next (by simp)
      intro r' hr'
      obtain rfl | hr' := List.mem_cons.1 hr'
      · exact UInt64.le_trans hbest hle
      · obtain rfl | hr' := List.mem_cons.1 hr'
        · exact UInt64.le_trans hr hle
        · exact hmax r' (List.mem_cons_of_mem _ hr')

variable (blake2b verify publicKey minSeq) in
/-- **The result is a value that was asked for**, and none of the others is newer. -/
def IsNewest (replies : List QueryReply) (result : MutableGetResult) : Prop :=
  ∃ reply ∈ replies, ∃ resp, Verified blake2b verify publicKey minSeq reply resp ∧
    result = .ofResponse resp ∧
    ∀ reply' ∈ replies, ∀ resp', Verified blake2b verify publicKey minSeq reply' resp' →
      resp'.seq ≤ resp.seq

variable (blake2b verify publicKey minSeq) in
lemma mutableGet_cases (latest : Bool) (replies : List QueryReply) :
    (verifiedValues blake2b verify publicKey minSeq replies = [] ∧
      mutableGet blake2b verify publicKey minSeq latest replies = {}) ∨
    ∃ first resps, verifiedValues blake2b verify publicKey minSeq replies = first :: resps ∧
      mutableGet blake2b verify publicKey minSeq latest replies =
        resps.foldl (keepBest latest) (.ofResponse first) := by
  rw [mutableGet_eq]
  cases verifiedValues blake2b verify publicKey minSeq replies with
  | nil => exact .inl ⟨rfl, rfl⟩
  | cons first resps => exact .inr ⟨first, resps, rfl, rfl⟩

lemma verifiedValues_ne_nil_iff {replies : List QueryReply} :
    verifiedValues blake2b verify publicKey minSeq replies ≠ [] ↔
      ∃ reply ∈ replies, ∃ resp, Verified blake2b verify publicKey minSeq reply resp := by
  constructor
  · intro hne
    obtain ⟨resp, hresp⟩ := List.exists_mem_of_ne_nil _ hne
    obtain ⟨reply, hreply, hverified⟩ := mem_verifiedValues_iff.1 hresp
    exact ⟨reply, hreply, resp, hverified⟩
  · rintro ⟨reply, hreply, resp, hverified⟩
    exact List.ne_nil_of_mem (mem_verifiedValues_iff.2 ⟨reply, hreply, hverified⟩)

lemma found_foldl_keepBest (latest : Bool) (resps : List MutableGetResponse)
    (best : MutableGetResponse) :
    (resps.foldl (keepBest latest) (.ofResponse best)).found = true := by
  cases latest with
  | false => rw [foldl_keepBest_first]; rfl
  | true =>
    obtain ⟨resp, hresp, -, -⟩ := foldl_keepBest_newest resps best
    rw [hresp]; rfl

lemma found_mutableGet_iff (latest : Bool) (replies : List QueryReply) :
    (mutableGet blake2b verify publicKey minSeq latest replies).found = true ↔
      ∃ reply ∈ replies, ∃ resp, Verified blake2b verify publicKey minSeq reply resp := by
  rw [← verifiedValues_ne_nil_iff]
  obtain ⟨hvalues, hresult⟩ | ⟨first, resps, hvalues, hresult⟩ := mutableGet_cases
    blake2b verify publicKey minSeq latest replies
  · simp [hvalues, hresult]
  · simp [hvalues, hresult, found_foldl_keepBest]

lemma isNewest_mutableGet {replies : List QueryReply}
    (h : (mutableGet blake2b verify publicKey minSeq true replies).found = true) :
    IsNewest blake2b verify publicKey minSeq replies
      (mutableGet blake2b verify publicKey minSeq true replies) := by
  obtain ⟨-, hresult⟩ | ⟨first, resps, hvalues, hresult⟩ := mutableGet_cases
    blake2b verify publicKey minSeq true replies
  · simp [hresult] at h
  · obtain ⟨resp, hresp, hmem, hmax⟩ := foldl_keepBest_newest resps first
    rw [← hvalues] at hmem hmax
    obtain ⟨reply, hreply, hverified⟩ := mem_verifiedValues_iff.1 hmem
    refine ⟨reply, hreply, resp, hverified, hresult.trans hresp, fun reply' hreply' resp' h' => ?_⟩
    exact hmax resp' (mem_verifiedValues_iff.2 ⟨reply', hreply', h'⟩)

lemma IsNewest.seq_eq {replies replies' : List QueryReply} {result result' : MutableGetResult}
    (h : IsNewest blake2b verify publicKey minSeq replies result)
    (h' : IsNewest blake2b verify publicKey minSeq replies' result')
    (hperm : replies'.Perm replies) : result'.seq = result.seq := by
  obtain ⟨reply, hreply, resp, hverified, rfl, hmax⟩ := h
  obtain ⟨reply', hreply', resp', hverified', rfl, hmax'⟩ := h'
  exact UInt64.le_antisymm (hmax reply' (hperm.mem_iff.1 hreply') resp' hverified')
    (hmax' reply (hperm.mem_iff.2 hreply) resp hverified)

lemma mutableGet_perm {replies replies' : List QueryReply} (hperm : replies'.Perm replies) :
    (mutableGet blake2b verify publicKey minSeq true replies').found =
        (mutableGet blake2b verify publicKey minSeq true replies).found ∧
      (mutableGet blake2b verify publicKey minSeq true replies').seq =
        (mutableGet blake2b verify publicKey minSeq true replies).seq := by
  have hfound : (mutableGet blake2b verify publicKey minSeq true replies').found =
      (mutableGet blake2b verify publicKey minSeq true replies).found := by
    rw [Bool.eq_iff_iff, found_mutableGet_iff, found_mutableGet_iff]
    simp only [hperm.mem_iff]
  refine ⟨hfound, ?_⟩
  by_cases h : (mutableGet blake2b verify publicKey minSeq true replies).found = true
  · exact (isNewest_mutableGet h).seq_eq (isNewest_mutableGet (hfound.trans h)) hperm
  · -- nothing was found in either order
    have hnone {rs : List QueryReply}
        (hrs : ¬(mutableGet blake2b verify publicKey minSeq true rs).found = true) :
        mutableGet blake2b verify publicKey minSeq true rs = {} := by
      obtain ⟨-, hresult⟩ | ⟨first, resps, -, hresult⟩ := mutableGet_cases
        blake2b verify publicKey minSeq true rs
      · exact hresult
      · exact absurd (hresult ▸ found_foldl_keepBest true resps first) hrs
    rw [hnone h, hnone (hfound ▸ h)]

lemma first_mutableGet {replies : List QueryReply}
    (h : (mutableGet blake2b verify publicKey minSeq false replies).found = true) :
    (∃ reply ∈ replies, ∃ resp, Verified blake2b verify publicKey minSeq reply resp ∧
        mutableGet blake2b verify publicKey minSeq false replies = .ofResponse resp) ∧
      ∀ more, mutableGet blake2b verify publicKey minSeq false (replies ++ more) =
        mutableGet blake2b verify publicKey minSeq false replies := by
  obtain ⟨-, hresult⟩ | ⟨first, resps, hvalues, hresult⟩ := mutableGet_cases
    blake2b verify publicKey minSeq false replies
  · simp [hresult] at h
  · rw [foldl_keepBest_first] at hresult
    have hfirst : first ∈ verifiedValues blake2b verify publicKey minSeq replies := by simp [hvalues]
    obtain ⟨reply, hreply, hverified⟩ := mem_verifiedValues_iff.1 hfirst
    refine ⟨⟨reply, hreply, first, hverified, hresult⟩, fun more => ?_⟩
    have happend : mutableGet blake2b verify publicKey minSeq false (replies ++ more) =
        (verifiedValues blake2b verify publicKey minSeq more).foldl (keepBest false)
          (mutableGet blake2b verify publicKey minSeq false replies) := by
      simp only [mutableGet_eq, verifiedValues, List.filterMap_append, List.foldl_append]
    rw [happend, hresult, foldl_keepBest_first]

variable (blake2b verify publicKey minSeq)

/-- **The newest of the verified values is reported, or the first one**: a value is found exactly if some
reply has one, and it is the value of a reply. With `latest`, none of the others is newer, so that the order
of arrival does not matter for the sequence number. Without, no later reply changes the result.

**Proof sketch.** The result is a fold over the verified values. By induction on them, what is kept is
one of them and as new as all of them. -/
theorem newest_mutableGet (replies : List QueryReply) :
    let newest := mutableGet blake2b verify publicKey minSeq true replies
    let first := mutableGet blake2b verify publicKey minSeq false replies
    (newest.found = true ↔
      ∃ reply ∈ replies, ∃ resp, Verified blake2b verify publicKey minSeq reply resp) ∧
    (newest.found = true → IsNewest blake2b verify publicKey minSeq replies newest) ∧
    (∀ replies' : List QueryReply, replies'.Perm replies →
      (mutableGet blake2b verify publicKey minSeq true replies').found = newest.found ∧
        (mutableGet blake2b verify publicKey minSeq true replies').seq = newest.seq) ∧
    (first.found = true ↔
      ∃ reply ∈ replies, ∃ resp, Verified blake2b verify publicKey minSeq reply resp) ∧
    (first.found = true →
      (∃ reply ∈ replies, ∃ resp, Verified blake2b verify publicKey minSeq reply resp ∧
        first = .ofResponse resp) ∧
      ∀ more, mutableGet blake2b verify publicKey minSeq false (replies ++ more) = first) :=
  ⟨found_mutableGet_iff true replies, isNewest_mutableGet, fun _ hperm => mutableGet_perm hperm,
    found_mutableGet_iff false replies, first_mutableGet⟩

end HyperDHT.Ops
