import HyperDHT.BlindRelay.Pairings

/-!
# Messages that are cut off

The decoders of the relay leave the fields of a message that are not there at their defaults, and do not say so. A
Pair message that is cut off is a request for the token it holds, or for the token of zeros; an Unpair message that
is cut off takes back the request for the token of zeros. Such a message changes nothing only by chance.

## Main definitions

* `BlindRelay.WholePair`, `BlindRelay.WholeUnpair` — a message is there as a whole.
* `RelayServer.SameTables` — the pairings, the tokens and the streams are the same.
* `RelayServer.Inert` — a message that is cut off changes none of them.
* `RelayServer.Passes` — such a message is ignored, or there is nothing for it to change.

## Main results

* `RelayServer.sameTables_onPair_iff`, `RelayServer.sameTables_onUnpair_iff` — which messages change nothing.
* `RelayServer.inert_iff` — messages that are cut off change nothing in exactly the runs in which all of them
  pass.
* `RelayServer.not_inert_emptyPair` — an empty message makes a pairing.
-/

set_option autoImplicit false

namespace HyperDHT.BlindRelay

open Protomux Runs

/-! ## Messages -/

/-- The flags, the token and both varints of a Pair message are there. -/
def WholePair : List UInt8 → Prop
  | [] => False
  | _ :: bytes => 32 ≤ bytes.length ∧ WholeVarint (bytes.drop 32) ∧
      WholeVarint (varintDecode (bytes.drop 32)).2

/-- The flags and the token of an Unpair message are there. -/
def WholeUnpair (data : List UInt8) : Prop := 33 ≤ data.length

instance : DecidablePred WholePair
  | [] => .isFalse id
  | _ :: _ => inferInstanceAs (Decidable (_ ∧ _))

instance : DecidablePred WholeUnpair := fun data => inferInstanceAs (Decidable (33 ≤ data.length))

lemma wholePair_encodePair (m : PairMessage) : WholePair (encodePair m) := by
  have hrest : (m.token.toList ++ (varintEncode m.id.toUInt64 ++ varintEncode m.seq.toUInt64)).drop 32 =
      varintEncode m.id.toUInt64 ++ varintEncode m.seq.toUInt64 := List.drop_left' m.token.toList_length
  have hseq : WholeVarint (varintEncode m.seq.toUInt64) := by
    simpa using wholeVarint_varintEncode m.seq.toUInt64 []
  simp only [encodePair, List.cons_append, List.append_assoc, WholePair, hrest,
    varintDecode_varintEncode]
  exact ⟨by simp, wholeVarint_varintEncode _ _, hseq⟩

lemma decodeUnpair_of_not_whole {data : List UInt8} (h : ¬ WholeUnpair data) : decodeUnpair data = {} := by
  cases data with
  | nil => rfl
  | cons flags bytes =>
    have hshort : bytes.length < 32 := by
      rw [WholeUnpair, List.length_cons] at h
      omega
    have hnone : decodeToken bytes = none := by
      rw [decodeToken, dif_neg]
      rw [List.length_take]
      omega
    simp only [decodeUnpair, hnone]

namespace RelayServer

variable {s t : RelayServer} {σ : SessionId} {data : List UInt8} {draw : Draw}

/-- The pairings are the same, and so are the tokens and the streams of all sessions. -/
structure SameTables (s t : RelayServer) : Prop where
  pairings : t.pairings = s.pairings
  pairingTokens : ∀ σ, (t.sessions σ).pairingTokens = (s.sessions σ).pairingTokens
  streams : ∀ σ, (t.sessions σ).streams = (s.sessions σ).streams

/-- **A message that is cut off changes nothing.** -/
def Inert (s : RelayServer) : ServerInput → Prop
  | .pair σ data draw => ¬ WholePair data → SameTables s (s.onPair σ data draw)
  | .unpair σ data => ¬ WholeUnpair data → SameTables s (s.onUnpair σ data)
  | _ => True

/-- No pairing is stale. -/
def NoneStale (s : RelayServer) : Prop := ∀ e ∈ s.pairings.entries, e.2.stale s.now = false

/-- A message that is cut off is ignored. A Pair message comes to a closed session, or the relay is full, or its
place is taken; an Unpair message comes to a closed session, or there is nothing under the token of zeros. -/
def Passes (s : RelayServer) : ServerInput → Prop
  | .pair σ data _ => WholePair data ∨ (s.sessions σ).closed = true ∨
      s.full (decodePair data).token = true ∨
      (s.evict.getOrCreatePair (decodePair data).token).has (decodePair data).isInitiator = true ∧
        s.NoneStale
  | .unpair σ data => WholeUnpair data ∨ (s.sessions σ).closed = true ∨
      zeroToken ∉ (s.sessions σ).pairingTokens ∧ (s.sessions σ).streams.lookup zeroToken = none
  | _ => True

lemma SameTables.refl (s : RelayServer) : SameTables s s := ⟨rfl, fun _ => rfl, fun _ => rfl⟩

lemma sameTables_evict_iff : SameTables s s.evict ↔ s.NoneStale := by
  have hfilter : s.evict.pairings = s.pairings ↔ s.NoneStale := by
    rw [AList.ext_iff]
    exact List.filter_eq_self.trans (by simp [NoneStale])
  rw [← hfilter]
  exact ⟨fun h => h.pairings, fun h => ⟨h, fun _ => rfl, fun _ => rfl⟩⟩

lemma lookup_complete {pair : RelayPair} {responder initiator : Link}
    (hresponder : pair.links false = some responder) (hinitiator : pair.links true = some initiator) :
    (s.complete pair draw).pairings.lookup pair.token = none := by
  rcases s.complete_cases hresponder hinitiator draw with
    ⟨-, n, heq⟩ | ⟨_, _, a, b, -, -, ⟨-, heq⟩ | ⟨-, heq⟩⟩
  · rw [heq, pairings_makeStreams, pairings_removePair, AList.lookup_erase]
  · rw [heq, pairings_log, pairings_log, pairings_log, pairings_makeStreams, pairings_removePair,
      AList.lookup_erase]
  · rw [heq]
    simp [wire, confirm]

/-- **A Pair message changes nothing** exactly if it is ignored, or its place is taken and nothing is stale. -/
theorem sameTables_onPair_iff (h : Linked s) (σ : SessionId) (data : List UInt8) (draw : Draw) :
    SameTables s (s.onPair σ data draw) ↔ (s.sessions σ).closed = true ∨
      s.full (decodePair data).token = true ∨
      (s.evict.getOrCreatePair (decodePair data).token).has (decodePair data).isInitiator = true ∧
        s.NoneStale := by
  rcases h.onPair_cases σ data draw with ⟨hignored, heq⟩ | ⟨⟨hopen, hroom⟩, hcases⟩
  · rw [heq]
    refine iff_of_true (SameTables.refl s) ?_
    exact hignored.elim .inl fun hfull => .inr (.inl hfull)
  · rw [hopen, hroom]
    simp only [Bool.false_eq_true, false_or]
    rcases hcases with ⟨pair, other, hlookup, hwaits, hrole, heq⟩ | ⟨hnew, heq⟩ |
      ⟨pair, other, hlookup, hwaits, hrole, heq⟩
    · have hhas : (s.evict.getOrCreatePair (decodePair data).token).has (decodePair data).isInitiator =
          true := by
        rw [getOrCreatePair, hlookup, Option.getD_some, RelayPair.has, ← hrole, hwaits.links_self]
        rfl
      rw [heq, sameTables_evict_iff, hhas]
      simp
    · -- the new pairing is not one that was there, as that one would not be stale
      have hhas : (s.evict.getOrCreatePair (decodePair data).token).has (decodePair data).isInitiator =
          false := by
        rw [getOrCreatePair, hnew]
        rfl
      rw [heq, hhas]
      refine iff_of_false (fun hsame => ?_) (by simp)
      have hthere : s.pairings.lookup (decodePair data).token = some
          (RelayPair.fill { token := (decodePair data).token, createdAt := s.now }
            (s.newLink σ (decodePair data))) := by
        rw [← hsame.pairings]
        exact AList.lookup_insert _
      have hstays := (s.lookup_evict _).2 ⟨hthere, by simp [RelayPair.stale, RelayPair.fill]⟩
      rw [hnew] at hstays
      cases hstays
    · have hhas : (s.evict.getOrCreatePair (decodePair data).token).has (decodePair data).isInitiator =
          false := by
        rw [getOrCreatePair, hlookup, Option.getD_some, RelayPair.has, hrole, hwaits.links_not]
        rfl
      have htoken : pair.token = (decodePair data).token := h.evict.token _ _ hlookup
      have hthere := ((s.lookup_evict _).1 hlookup).1
      rw [heq, hhas]
      refine iff_of_false (fun hsame => ?_) (by simp)
      obtain ⟨responder, initiator, hresponder, hinitiator, -⟩ :=
        @RelayPair.Waits.ends pair (s.newLink σ (decodePair data)) other hwaits hrole
      have hgone := @lookup_complete
        (s.evict.enter pair (s.newLink σ (decodePair data))) draw
        (pair.fill (s.newLink σ (decodePair data))) responder initiator hresponder hinitiator
      rw [hsame.pairings, show (pair.fill _).token = (decodePair data).token from htoken, hthere] at hgone
      cases hgone

/-- **An Unpair message changes nothing** exactly if it is ignored, or its session has nothing under its token. -/
theorem sameTables_onUnpair_iff (s : RelayServer) (σ : SessionId) (data : List UInt8) :
    SameTables s (s.onUnpair σ data) ↔ (s.sessions σ).closed = true ∨
      (decodeUnpair data).token ∉ (s.sessions σ).pairingTokens ∧
        (s.sessions σ).streams.lookup (decodeUnpair data).token = none := by
  unfold onUnpair
  dsimp only
  generalize (decodeUnpair data).token = token
  have htokens (u : RelayServer) : ((u.dropStream σ token).sessions σ).pairingTokens =
      (u.sessions σ).pairingTokens := by
    unfold dropStream
    split <;> simp
  cases hclosed : (s.sessions σ).closed with
  | true => simp [SameTables.refl s]
  | false =>
    simp only [Bool.false_eq_true, if_false, false_or]
    by_cases hin : token ∈ (s.sessions σ).pairingTokens
    · refine iff_of_false (fun hsame => ?_) fun hnot => hnot.1 hin
      have hkept := hsame.pairingTokens σ
      rw [htokens, unpairPending, if_pos hin, pairingTokens_endMaybe] at hkept
      rw [← hkept] at hin
      simp [takeBack] at hin
    · rw [unpairPending, if_neg hin]
      cases hstream : (s.sessions σ).streams.lookup token with
      | none =>
        rw [dropStream, hstream]
        exact iff_of_true (SameTables.refl s) ⟨hin, rfl⟩
      | some stream =>
        refine iff_of_false (fun hsame => ?_) (by simp)
        have hkept := hsame.streams σ
        rw [dropStream, hstream] at hkept
        have hgone : (s.sessions σ).streams.lookup token = none := by
          rw [← hkept]
          simp
        rw [hstream] at hgone
        cases hgone

lemma inert_iff_passes (h : Linked s) (i : ServerInput) : Inert s i ↔ Passes s i := by
  cases i with
  | pair σ data draw =>
    by_cases hwhole : WholePair data
    · exact iff_of_true (fun hcut => absurd hwhole hcut) (.inl hwhole)
    · simp only [Inert, Passes, hwhole, sameTables_onPair_iff h σ data draw, not_false_eq_true,
        true_implies, false_or]
  | unpair σ data =>
    by_cases hwhole : WholeUnpair data
    · exact iff_of_true (fun hcut => absurd hwhole hcut) (.inl hwhole)
    · have hzero : (decodeUnpair data).token = zeroToken := by rw [decodeUnpair_of_not_whole hwhole]
      simp only [Inert, Passes, hwhole, sameTables_onUnpair_iff s σ data, not_false_eq_true, true_implies,
        false_or]
      rw [hzero]
  | _ => exact iff_of_true trivial trivial

/-- **Messages that are cut off change nothing**, and what is encoded is read back, in exactly the runs in which
every message that is cut off is ignored or finds nothing to change. -/
theorem inert_iff (is : List ServerInput) :
    EveryStep serverStep Inert {} is ∧
        (∀ m, WholePair (encodePair m) ∧ decodePair (encodePair m) = m) ↔
      EveryStep serverStep Passes {} is := by
  refine (and_iff_left fun m => ⟨wholePair_encodePair m, decodePair_encodePair m⟩).trans ?_
  exact everyStep_iff (I := Linked) (fun _ i h => inert_iff_passes h i)
    (fun s i h _ => linked_step s i h) linked_init

def emptyPair : List ServerInput := [.pair 0 [] ⟨none, none, false⟩]

/-- It is taken for a request for the token of zeros, which then waits. -/
theorem not_inert_emptyPair : ¬ EveryStep serverStep Inert {} emptyPair := by
  intro h
  have hsame := congrArg (fun pairings => pairings.entries.length) (h.1 (by decide)).pairings
  revert hsame
  decide

end RelayServer

end HyperDHT.BlindRelay
