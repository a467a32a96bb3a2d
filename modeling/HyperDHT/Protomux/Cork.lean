import HyperDHT.Protomux.Invariant

/-!
# Corking is transparent

Frames written between `cork` and the matching `uncork` leave as one batch frame. The peer that
receives the batch frame runs the handler calls it would have run for the single frames, as long
as the batch stays within the cap of `handle_batch`, which counts each frame and each change of
the channel, and no frame is itself a batch.

## Main definitions

* `Protomux.Frame` — a frame with a channel id of 32 bits and a payload that is not empty.
* `Protomux.corkedFrames`, `Protomux.uncorkedFrames` — what a mux writes for some frames.
* `Protomux.switches`, `batchCost` — the entries `handle_batch` counts for frames.

## Main results

* `Protomux.length_batchFrame` — the batch frame fills the buffer `uncork` allocates for it.
* `Protomux.onDataCalls_corkedFrames` — the two ways to write lead to the same handler calls.
* `Protomux.not_transparent_of_1025_frames` — beyond the cap they do not.
-/

set_option autoImplicit false

namespace HyperDHT.Protomux

open Mux

/-- A frame as it is given to `write_frame`: its length is a `size_t`, its channel id has 32
bits, and something follows the channel id. -/
structure Frame where
  bytes : Bytes
  id_le : (varintDecode bytes.1).1 ≤ uint32Max
  payload_ne : (varintDecode bytes.1).2 ≠ []

namespace Frame

/-- The channel id of a frame. -/
def localId (f : Frame) : UInt32 := (varintDecode f.bytes.1).1.toUInt32

/-- What follows the channel id. -/
def payload (f : Frame) : List UInt8 := (varintDecode f.bytes.1).2

/-- The frame is a control frame of type BATCH. -/
def IsBatch (f : Frame) : Prop := f.localId = 0 ∧ (varintDecode f.payload).1 = controlBatch

/-- The entry of the batch for a frame. -/
def entry (f : Frame) : BatchEntry := ⟨f.localId, f.payload⟩

end Frame

/-- How often the channel changes within a sequence of channel ids. -/
def switches : List UInt32 → ℕ
  | a :: b :: l => (if b ≠ a then 1 else 0) + switches (b :: l)
  | _ => 0

/-- The entries `handle_batch` counts for frames that follow a frame of channel `prev`: one for
each frame and one for each change of the channel. -/
def batchCost (prev : UInt32) : List Frame → ℕ
  | [] => 0
  | f :: fs => (if f.localId ≠ prev then 1 else 0) + 1 + batchCost f.localId fs

lemma batchCost_eq (prev : UInt32) (fs : List Frame) :
    batchCost prev fs = fs.length + switches (prev :: fs.map Frame.localId) := by
  induction fs generalizing prev with
  | nil => rfl
  | cons f fs ih =>
    rw [batchCost, ih, List.map_cons, switches, List.length_cons]
    omega

/-- The frames a mux writes when it is given `fs` one by one. -/
def uncorkedFrames (m : Mux) (fs : List Frame) : List (List UInt8) :=
  (fs.foldl (fun m f => m.writeFrame f.bytes.1) m).outbox.drop m.outbox.length

/-- The frames a mux writes when it is given `fs` between `cork` and `uncork`. -/
def corkedFrames (m : Mux) (fs : List Frame) : List (List UInt8) :=
  (fs.foldl (fun m f => m.writeFrame f.bytes.1) m.cork).uncork.outbox.drop m.outbox.length

/-! ## What a mux writes -/

/-- A mux that is not corked and not destroyed, with no batch begun. -/
structure Uncorked (m : Mux) : Prop where
  corkCount : m.corkCount = 0
  batch : m.batch = []
  live : m.destroyed = false

lemma uncorkedFrames_eq {m : Mux} (h : Uncorked m) (fs : List Frame) :
    uncorkedFrames m fs = fs.map (·.bytes.1) := by
  have hwrite : ∀ (fs : List Frame) (m : Mux), Uncorked m →
      (fs.foldl (fun m f => m.writeFrame f.bytes.1) m).outbox =
        m.outbox ++ fs.map (·.bytes.1) := by
    intro fs
    induction fs with
    | nil => simp
    | cons f fs ih =>
      intro m h
      have hstep : m.writeFrame f.bytes.1 = { m with outbox := m.outbox ++ [f.bytes.1] } := by
        simp [writeFrame, h.live, h.corkCount]
      have h' : Uncorked { m with outbox := m.outbox ++ [f.bytes.1] } :=
        ⟨h.corkCount, h.batch, h.live⟩
      simp only [List.foldl_cons, hstep, List.map_cons, ih _ h', List.append_assoc,
        List.singleton_append]
  simp [uncorkedFrames, hwrite fs m h]

lemma foldl_writeFrame_of_corked (fs : List Frame) {m : Mux} (hcork : m.corkCount > 0)
    (hlive : m.destroyed = false) :
    fs.foldl (fun m f => m.writeFrame f.bytes.1) m =
      { m with batch := m.batch ++ fs.map Frame.entry } := by
  induction fs generalizing m with
  | nil => simp
  | cons f fs ih =>
    have hne : f.bytes.1 ≠ [] := by
      intro hnil
      exact f.payload_ne (by simp [hnil, varintDecode])
    have hstep : m.writeFrame f.bytes.1 = { m with batch := m.batch ++ [f.entry] } := by
      simp [writeFrame, hlive, hcork, hne, Frame.entry, Frame.localId, Frame.payload]
    rw [List.foldl_cons, hstep, ih (by exact hcork) (by exact hlive)]
    simp

lemma corkedFrames_eq {m : Mux} (h : Uncorked m) {fs : List Frame} (hfs : fs ≠ []) :
    corkedFrames m fs = [batchFrame (fs.map Frame.entry)] := by
  have hcork : m.cork.corkCount > 0 := by simp [cork, h.corkCount]
  rw [corkedFrames, foldl_writeFrame_of_corked fs hcork h.live]
  simp [uncork, cork, h.corkCount, h.batch, hfs]

lemma length_encodeEntries (es : List BatchEntry) (prev : UInt32) :
    (encodeEntries prev es).length = entriesSize prev es := by
  induction es generalizing prev with
  | nil => rfl
  | cons e es ih =>
    simp only [encodeEntries, entriesSize, List.length_append, length_varintEncode, ih]
    split_ifs <;> simp [Nat.add_comm]

/-- The batch frame fills the buffer that `uncork` allocates for it exactly. -/
theorem length_batchFrame (e : BatchEntry) (es : List BatchEntry) :
    (batchFrame (e :: es)).length =
      2 + varintSize e.localId.toUInt64 + entriesSize e.localId (e :: es) := by
  simp only [batchFrame, List.length_append, length_varintEncode, length_encodeEntries]
  rfl

/-! ## What the peer runs -/

lemma onDataCalls_frame (f : Frame) (hbatch : ¬ f.IsBatch) :
    onDataCalls f.bytes.1 = entryCalls f.localId.toUInt64 f.payload := by
  have hid : f.localId.toUInt64 = (varintDecode f.bytes.1).1 := by
    have hle := f.id_le
    rw [UInt64.le_iff_toNat_le] at hle
    rw [Frame.localId, ← UInt64.toNat_inj, UInt32.toNat_toUInt64, UInt64.toNat_toUInt32]
    simp only [uint32Max, UInt64.reduceToNat] at hle
    omega
  have hnot : ¬ (varintDecode f.bytes.1).1 > uint32Max := by
    simpa using f.id_le
  have hpay : (varintDecode f.bytes.1).2 = f.payload := rfl
  have hne : f.payload ≠ [] := f.payload_ne
  simp only [onDataCalls, entryCalls, hid, if_neg hnot, hpay, if_neg hne]
  by_cases hzero : (varintDecode f.bytes.1).1 = 0
  · have hctrl : (varintDecode f.payload).1 ≠ controlBatch := by
      intro hb
      exact hbatch ⟨by simp [Frame.localId, hzero], hb⟩
    simp [hzero, hctrl]
  · simp [hzero]

lemma batchLoop_entry {channelId : UInt64} {n : ℕ} (f : Frame) (hn : n + 1 ≤ maxBatchEntries)
    (rest : List UInt8) :
    batchLoop (some channelId) n
        (varintEncode (UInt64.ofNat f.payload.length) ++ f.payload ++ rest) =
      entryCalls channelId f.payload ++ batchLoop (some channelId) (n + 1) rest := by
  have hlen : f.payload.length < 2 ^ 64 := by
    have hne : f.bytes.1 ≠ [] := by
      intro hnil
      exact f.payload_ne (by simp [hnil, varintDecode])
    exact Nat.lt_trans (length_varintDecode_lt hne) f.bytes.2
  have hnat : (UInt64.ofNat f.payload.length).toNat = f.payload.length := by
    rw [UInt64.toNat_ofNat']
    exact Nat.mod_eq_of_lt hlen
  have hzero : UInt64.ofNat f.payload.length ≠ 0 := by
    intro h
    have hnil := congrArg UInt64.toNat h
    rw [hnat] at hnil
    exact f.payload_ne (List.eq_nil_of_length_eq_zero hnil)
  rw [batchLoop]
  simp only [List.append_assoc, varintDecode_varintEncode, List.append_eq_nil_iff,
    varintEncode_ne_nil, false_and, dite_false, hnat, hzero, if_false, List.length_append,
    List.take_left, List.drop_left]
  rw [if_neg (Nat.not_lt.2 hn), if_neg (by omega)]

lemma batchLoop_switch {channelId : UInt64} {n : ℕ} (localId : UInt32)
    (hn : n + 1 ≤ maxBatchEntries) {rest : List UInt8} :
    batchLoop (some channelId) n (0 :: varintEncode localId.toUInt64 ++ rest) =
      batchLoop (some localId.toUInt64) (n + 1) rest := by
  have hle : ¬ localId.toUInt64 > uint32Max := by
    have hlt := localId.toNat_lt
    rw [gt_iff_lt, UInt64.lt_iff_toNat_lt, UInt32.toNat_toUInt64]
    simp only [uint32Max, UInt64.reduceToNat]
    omega
  have hzero : varintDecode (0 :: (varintEncode localId.toUInt64 ++ rest)) =
      (0, varintEncode localId.toUInt64 ++ rest) :=
    varintDecode_varintEncode 0 _
  rw [batchLoop]
  simp only [List.cons_append, hzero, reduceCtorEq, dite_false, if_neg (Nat.not_lt.2 hn), if_true]
  rw [batchLoop]
  simp [varintDecode_varintEncode, varintEncode_ne_nil, hle]

/-- The inner loop reads back the entries of the batch. -/
lemma batchLoop_encodeEntries (fs : List Frame) {prev : UInt32} {n : ℕ}
    (hcost : n + batchCost prev fs ≤ maxBatchEntries) :
    batchLoop (some prev.toUInt64) n (encodeEntries prev (fs.map Frame.entry)) =
      fs.flatMap fun f => entryCalls f.localId.toUInt64 f.payload := by
  induction fs generalizing prev n with
  | nil => simp [encodeEntries, batchLoop]
  | cons f fs ih =>
    simp only [List.map_cons, encodeEntries, List.flatMap_cons, Frame.entry]
    simp only [batchCost] at hcost
    by_cases hprev : f.localId = prev
    · simp only [hprev, ne_eq, not_true_eq_false, if_false, List.nil_append] at hcost ⊢
      rw [batchLoop_entry f (by omega), ih (by omega)]
    · simp only [ne_eq, hprev, not_false_eq_true, if_true] at hcost ⊢
      rw [List.append_assoc, batchLoop_switch f.localId (by omega),
        batchLoop_entry f (by omega), ih (by omega)]

lemma onDataCalls_batchFrame {f : Frame} {fs : List Frame}
    (hcost : batchCost f.localId (f :: fs) ≤ maxBatchEntries) :
    onDataCalls (batchFrame ((f :: fs).map Frame.entry)) =
      (f :: fs).flatMap fun f => entryCalls f.localId.toUInt64 f.payload := by
  have hle : ¬ f.localId.toUInt64 > uint32Max := by
    have hlt := f.localId.toNat_lt
    rw [gt_iff_lt, UInt64.lt_iff_toNat_lt, UInt32.toNat_toUInt64]
    simp only [uint32Max, UInt64.reduceToNat]
    omega
  have hzero : ∀ rest, varintDecode (0 :: rest) = (0, rest) := varintDecode_varintEncode 0
  have hentries := batchLoop_encodeEntries (f :: fs) (n := 0) (by rw [Nat.zero_add]; exact hcost)
  rw [← hentries]
  simp only [onDataCalls, batchFrame, List.map_cons, Frame.entry, List.cons_append,
    List.nil_append, hzero, reduceCtorEq, if_false, if_true, controlBatch, batchCalls]
  rw [batchLoop]
  simp [varintDecode_varintEncode, varintEncode_ne_nil, hle]

/-- **Corking is transparent** within the cap of a batch: in every reachable mux that is neither
corked nor destroyed, frames written between `cork` and `uncork` leave as one frame, and that
frame leads the peer to the handler calls, with their arguments and in their order, that the
frames written one by one lead to. -/
theorem onDataCalls_corkedFrames (ops : List Op) (hcork : (Runs.run step {} ops).corkCount = 0)
    (hlive : (Runs.run step {} ops).destroyed = false) (fs : List Frame) (hfs : fs ≠ [])
    (hcap : fs.length + switches (fs.map Frame.localId) ≤ maxBatchEntries)
    (hbatch : ∀ f ∈ fs, ¬ f.IsBatch) :
    ∃ frame, corkedFrames (Runs.run step {} ops) fs = [frame] ∧
      onDataCalls frame = (uncorkedFrames (Runs.run step {} ops) fs).flatMap onDataCalls := by
  have huncorked : Uncorked (Runs.run step {} ops) :=
    ⟨hcork, (wf_run ops).corked (Int.le_of_eq hcork), hlive⟩
  refine ⟨_, corkedFrames_eq huncorked hfs, ?_⟩
  obtain ⟨f, fs, rfl⟩ := List.exists_cons_of_ne_nil hfs
  have hcost : batchCost f.localId (f :: fs) ≤ maxBatchEntries := by
    rw [batchCost_eq]
    simpa [switches] using hcap
  rw [onDataCalls_batchFrame hcost, uncorkedFrames_eq huncorked, List.flatMap_map]
  exact List.flatMap_congr fun g hg => (onDataCalls_frame g (hbatch g hg)).symm

def emptyMessage : Frame where
  bytes := ⟨[1, 0], by decide⟩
  id_le := by decide
  payload_ne := by decide

/-- Two messages written to a fresh mux. -/
theorem onDataCalls_corkedFrames_two :
    ∃ frame, corkedFrames {} [emptyMessage, emptyMessage] = [frame] ∧
      onDataCalls frame = (uncorkedFrames {} [emptyMessage, emptyMessage]).flatMap onDataCalls :=
  onDataCalls_corkedFrames [] rfl rfl [emptyMessage, emptyMessage] (by simp) (by decide)
    (by rintro f hf ⟨hid, -⟩; simp at hf; subst hf; revert hid; decide)

lemma length_batchLoop_le (channel : Option UInt64) (n : ℕ) (bytes : List UInt8) :
    (batchLoop channel n bytes).length ≤ maxBatchEntries - n := by
  have hentry : ∀ channelId payload, (entryCalls channelId payload).length ≤ 1 := by
    intro channelId payload
    simp only [entryCalls, controlCalls]
    split_ifs <;> simp
  fun_induction batchLoop channel n bytes with
  | case1 => simp
  | case2 => simp
  | case3 => assumption
  | case4 => simp
  | case5 => omega
  | case6 => simp
  | case7 n bytes hbytes hlt channelId hcap msgLen rest hzero hfits hdrop ih =>
    have hone := hentry channelId (rest.take msgLen.toNat)
    rw [List.length_append]
    omega

lemma not_transparent_of_replicate {n : ℕ} (hn : maxBatchEntries < n) :
    ¬ ∃ frame, corkedFrames {} (List.replicate n emptyMessage) = [frame] ∧
      onDataCalls frame =
        (uncorkedFrames {} (List.replicate n emptyMessage)).flatMap onDataCalls := by
  have huncorked : Uncorked {} := ⟨rfl, rfl, rfl⟩
  have hzero : ∀ rest, varintDecode (0 :: rest) = (0, rest) := varintDecode_varintEncode 0
  obtain ⟨k, rfl⟩ : ∃ k, n = k + 1 := ⟨n - 1, by omega⟩
  rintro ⟨frame, hframe, hcalls⟩
  rw [corkedFrames_eq huncorked (by simp)] at hframe
  obtain rfl := List.singleton_inj.1 hframe
  have hcapped : (onDataCalls (batchFrame ((List.replicate (k + 1) emptyMessage).map
      Frame.entry))).length ≤ maxBatchEntries := by
    rw [List.replicate_succ]
    simp only [onDataCalls, batchFrame, List.map_cons, List.cons_append, List.nil_append, hzero,
      reduceCtorEq, if_false, if_true, controlBatch]
    exact length_batchLoop_le none 0 _
  have hall : ((uncorkedFrames {} (List.replicate (k + 1) emptyMessage)).flatMap
      onDataCalls).length = k + 1 := by
    have hone : onDataCalls emptyMessage.bytes.1 = [.data 1 [0]] := by decide
    simp [uncorkedFrames_eq huncorked, List.length_flatMap, hone]
  rw [hcalls, hall] at hcapped
  omega

/-- With one frame more than the cap, the last frame of the batch is lost. -/
theorem not_transparent_of_1025_frames :
    ¬ ∃ frame, corkedFrames {} (List.replicate 1025 emptyMessage) = [frame] ∧
      onDataCalls frame =
        (uncorkedFrames {} (List.replicate 1025 emptyMessage)).flatMap onDataCalls :=
  not_transparent_of_replicate (by decide)

end HyperDHT.Protomux
