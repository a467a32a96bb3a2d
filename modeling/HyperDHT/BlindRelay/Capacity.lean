import HyperDHT.BlindRelay.Pairings

/-!
# The capacity of the relay

A relay keeps no more than 1024 pairings that wait, and erases those that have waited for 30 seconds. But a request
for a new token is refused before the stale pairings are erased: where 1024 pairings were abandoned, the relay
refuses every new one, for as long as nobody asks for one of the abandoned tokens.

## Main definitions

* `RelayPair.fresh`, `RelayServer.freshPairings` — a pairing that is not older than 30 seconds, and how many are.
* `RelayServer.Admits` — a request is refused only if there are too many of them.
* `RelayServer.Locked` — a request for a new token comes to a full relay with a stale pairing.
* `RelayServer.Bounded` — there are at most 1024 pairings.

## Main results

* `RelayServer.bounded_step` — every step keeps the bound.
* `RelayServer.admits_iff` — stale pairings do not block the relay in exactly the runs without such a request.
* `RelayServer.not_admits_abandonedRun` — 1024 pairings are abandoned, and every new one is refused for ever.
-/

set_option autoImplicit false

namespace HyperDHT.BlindRelay

open Protomux Runs LittleEndian

/-- The pairing is not older than the time to live. -/
def RelayPair.fresh (pair : RelayPair) (now : ℕ) : Bool := decide (now - pair.createdAt ≤ pairingTtl)

namespace RelayServer

variable {s t : RelayServer} {σ : SessionId} {token : Token} {pair : RelayPair}

/-- How many pairings are not older than the time to live. -/
def freshPairings (s : RelayServer) : ℕ := s.pairings.entries.countP fun e => e.2.fresh s.now

/-- **Stale pairings do not block the relay**: a Pair message is refused because there are too many pairings only
if that many are fresh. -/
def Admits (s : RelayServer) : ServerInput → Prop
  | .pair σ data _ => (s.sessions σ).closed = false → s.full (decodePair data).token = true →
      maxPairings ≤ s.freshPairings
  | _ => True

/-- A request for a new token comes to a full relay, and one of the pairings is stale. -/
def Locked (s : RelayServer) : ServerInput → Prop
  | .pair σ data _ => (s.sessions σ).closed = false ∧ s.full (decodePair data).token = true ∧
      ∃ e ∈ s.pairings.entries, e.2.fresh s.now = false
  | _ => False

/-- There are no more pairings than there may be. -/
def Bounded (s : RelayServer) : Prop := s.pairings.entries.length ≤ maxPairings

/-! ## The number of pairings -/

/-- The second state has no more pairings. -/
def Sheds (s t : RelayServer) : Prop := t.pairings.entries.length ≤ s.pairings.entries.length

lemma Sheds.refl (s : RelayServer) : Sheds s s := Nat.le_refl _

lemma Sheds.trans {u : RelayServer} (h : Sheds s t) (h' : Sheds t u) : Sheds s u := Nat.le_trans h' h

lemma Sheds.bounded (h : Sheds s t) (hs : Bounded s) : Bounded t := Nat.le_trans h hs

lemma sheds_removePair (s : RelayServer) (token : Token) : Sheds s (s.removePair token) :=
  AssocMap.length_erase_le s.pairings token

lemma sheds_evict (s : RelayServer) : Sheds s s.evict := AssocMap.length_keep_le _ _

lemma sheds_onClose (s : RelayServer) (σ : SessionId) : Sheds s (s.onClose σ) :=
  AssocMap.length_keep_le _ _

lemma sheds_closeChannel (s : RelayServer) (σ : SessionId) : Sheds s (s.closeChannel σ) := by
  unfold closeChannel
  split
  · exact Sheds.refl s
  · exact sheds_onClose (s.log (.close σ)) σ

lemma sheds_endMaybe (s : RelayServer) (σ : SessionId) : Sheds s (s.endMaybe σ) := by
  unfold endMaybe
  split
  · exact sheds_closeChannel s σ
  · exact Sheds.refl s

lemma sheds_track (s : RelayServer) (token : Token) (e : RelayEnd) : Sheds s (s.track token e) :=
  sheds_endMaybe (s.modifySession e.link.session _) e.link.session

lemma sheds_wire (s : RelayServer) (token : Token) (a b : RelayEnd) : Sheds s (s.wire token a b) :=
  (sheds_track s token a).trans (sheds_track (s.track token a) token b)

lemma sheds_complete (s : RelayServer) (pair : RelayPair) (draw : Draw) : Sheds s (s.complete pair draw) := by
  have hremoved := sheds_removePair s pair.token
  cases hresponder : pair.links false with
  | none =>
    rw [complete, hresponder]
    exact Sheds.refl s
  | some responder =>
    cases hinitiator : pair.links true with
    | none =>
      rw [complete, hresponder, hinitiator]
      exact Sheds.refl s
    | some initiator =>
      rcases s.complete_cases hresponder hinitiator draw with
        ⟨-, n, heq⟩ | ⟨_, _, a, b, -, -, ⟨-, heq⟩ | ⟨-, heq⟩⟩
      · rw [heq]
        exact hremoved
      · rw [heq]
        exact hremoved
      · rw [heq]
        exact Nat.le_trans (sheds_wire _ pair.token a b) hremoved

lemma sheds_onUnpair (s : RelayServer) (σ : SessionId) (data : List UInt8) : Sheds s (s.onUnpair σ data) := by
  have hdropped (u : RelayServer) : Sheds u (u.dropStream σ (decodeUnpair data).token) := by
    unfold dropStream
    split <;> exact Sheds.refl u
  unfold onUnpair
  dsimp only
  split
  · exact Sheds.refl s
  · refine Sheds.trans ?_ (hdropped _)
    unfold unpairPending
    split
    · refine Sheds.trans ?_ (sheds_endMaybe _ σ)
      exact sheds_removePair (s.modifySession σ _) (decodeUnpair data).token
    · exact Sheds.refl s

/-- **A request adds a pairing at most**, and only where there is room for it: the pairing that it asks for is new,
or the stale one that was there is erased before. -/
lemma bounded_onPair (hlinked : Linked s) (h : Bounded s) (σ : SessionId) (data : List UInt8)
    (draw : Draw) : Bounded (s.onPair σ data draw) := by
  have hevict : Bounded s.evict := (sheds_evict s).bounded h
  rcases hlinked.onPair_cases σ data draw with ⟨-, heq⟩ | ⟨⟨-, hroom⟩, ⟨pair, other, -, -, -, heq⟩ |
    ⟨hnew, heq⟩ | ⟨pair, other, hlookup, -, -, heq⟩⟩
  · rwa [heq]
  · rwa [heq]
  · have hspace : s.evict.pairings.entries.length < maxPairings := by
      cases hknown : s.pairings.lookup (decodePair data).token with
      | none =>
        have hless : ¬ maxPairings ≤ s.pairings.entries.length := by
          simpa [full, hknown] using hroom
        exact Nat.lt_of_le_of_lt (sheds_evict s) (not_le.1 hless)
      | some pair =>
        have hgone : s.evict.pairings.entries.length < s.pairings.entries.length := by
          refine List.length_filter_lt_length_iff_exists.2
            ⟨⟨_, pair⟩, AList.mem_lookup_iff.1 hknown, fun hkept => ?_⟩
          have hstays := (s.lookup_evict (decodePair data).token).2 ⟨hknown, by simpa using hkept⟩
          rw [hnew] at hstays
          cases hstays
        exact Nat.lt_of_lt_of_le hgone h
    rw [heq]
    exact Nat.le_trans (AssocMap.length_insert_le _ _ _) hspace
  · have htoken : pair.token = (decodePair data).token := hlinked.evict.token _ _ hlookup
    rw [heq]
    refine (sheds_complete _ _ _).bounded ?_
    have hsame : (s.evict.enter pair (s.newLink σ (decodePair data))).pairings.entries.length =
        s.evict.pairings.entries.length := by
      rw [← htoken] at hlookup
      exact AssocMap.length_insert_of_lookup hlookup _
    exact hsame.le.trans hevict

/-- **There are never more pairings** than there may be. -/
theorem bounded_step (s : RelayServer) (i : ServerInput) (hlinked : Linked s) (h : Bounded s) :
    Bounded (serverStep s i) := by
  cases i with
  | pair σ data draw => exact bounded_onPair hlinked h σ data draw
  | unpair σ data => exact (sheds_onUnpair s σ data).bounded h
  | close σ =>
    unfold serverStep close
    dsimp only
    split
    · exact h
    split
    · exact (sheds_closeChannel s σ).bounded h
    · exact h
  | destroy σ =>
    unfold serverStep destroy
    dsimp only
    split
    · exact h
    · exact (sheds_closeChannel (s.modifySession σ _) σ).bounded h
  | remoteClose σ =>
    unfold serverStep remoteClose
    dsimp only
    split
    · exact h
    · exact (sheds_onClose (s.log (.remoteClose σ)) σ).bounded h
  | tick elapsed => exact h

/-! ## Requests that are refused -/

lemma admits_iff_not_locked (h : Bounded s) (i : ServerInput) : Admits s i ↔ ¬ Locked s i := by
  cases i with
  | pair σ data draw =>
    unfold Admits Locked
    constructor
    · rintro hadmits ⟨hopen, hfull, e, he, hstale⟩
      have hall : s.freshPairings = s.pairings.entries.length :=
        Nat.le_antisymm List.countP_le_length (Nat.le_trans h (hadmits hopen hfull))
      exact absurd (List.countP_eq_length.1 hall e he) (ne_true_of_eq_false hstale)
    · intro hfresh hopen hfull
      have hmax : maxPairings ≤ s.pairings.entries.length := by
        rw [full, Bool.and_eq_true, decide_eq_true_eq] at hfull
        exact hfull.1
      have hall : s.freshPairings = s.pairings.entries.length := by
        refine List.countP_eq_length.2 fun e he => ?_
        by_contra hstale
        exact hfresh ⟨hopen, hfull, e, he, Bool.eq_false_of_not_eq_true hstale⟩
      exact hmax.trans hall.ge
  | _ => exact iff_of_true trivial id

/-- **Stale pairings do not block the relay** in exactly the runs in which no request for a new token comes to a
full relay that holds a stale pairing. -/
theorem admits_iff (is : List ServerInput) :
    EveryStep serverStep Admits {} is ↔ EveryStep serverStep (fun s i => ¬ Locked s i) {} is :=
  everyStep_iff (I := fun s => Linked s ∧ Bounded s) (fun _ i h => admits_iff_not_locked h.2 i)
    (fun s i h _ => ⟨linked_step s i h.1, bounded_step s i h.1 h.2⟩) ⟨linked_init, Nat.zero_le _⟩

/-! ## Abandoned pairings -/

/-- The tokens of the run, by number. -/
def numbered (n : ℕ) : Token := ⟨toLe 32 n, length_toLe 32 n⟩

/-- A client asks for a token in the role of the initiator. -/
def request (n : ℕ) : ServerInput :=
  .pair 0 (encodePair { isInitiator := true, token := numbered n }) ⟨none, none, false⟩

/-- It asks for many tokens, one after the other. -/
def requests (n : ℕ) : List ServerInput := (List.range n).map request

/-- What the relay keeps of the requests: one fresh pairing each. -/
structure Requested (n : ℕ) (s : RelayServer) : Prop where
  length : s.pairings.entries.length = n
  entries : ∀ e ∈ s.pairings.entries, e.2.createdAt = 0 ∧ ∃ k < n, e.1 = numbered k
  now : s.now = 0
  closed : (s.sessions 0).closed = false

lemma numbered_ne {n k : ℕ} (hn : n ≤ maxPairings) (hk : k < n) : numbered n ≠ numbered k := by
  have hbig (m : ℕ) (hm : m ≤ maxPairings) : m < 256 ^ 32 := hm.trans_lt (by decide)
  intro heq
  have hbytes : toLe 32 n = toLe 32 k := congrArg Subtype.val heq
  have hsame := congrArg ofLe hbytes
  rw [ofLe_toLe (hbig n hn), ofLe_toLe (hbig k (hk.le.trans hn))] at hsame
  exact absurd hsame hk.ne'

lemma Requested.evict {n : ℕ} (h : Requested n s) : s.evict.pairings.entries = s.pairings.entries := by
  refine List.filter_eq_self.2 fun e he => ?_
  simp [RelayPair.stale, h.now]

lemma Requested.unknown {n : ℕ} (h : Requested n s) (hn : n ≤ maxPairings) :
    s.pairings.lookup (numbered n) = none := by
  rw [AList.lookup_eq_none]
  intro hmem
  obtain ⟨pair, hpair⟩ := Option.isSome_iff_exists.1 (AList.lookup_isSome.2 hmem)
  obtain ⟨-, k, hk, heq⟩ := h.entries _ (AList.mem_lookup_iff.1 hpair)
  exact numbered_ne hn hk heq

lemma Requested.step {n : ℕ} (hlinked : Linked s) (h : Requested n s) (hn : n < maxPairings) :
    Requested (n + 1) (serverStep s (request n)) := by
  have hmsg : decodePair (encodePair { isInitiator := true, token := numbered n }) =
      { isInitiator := true, token := numbered n } := decodePair_encodePair _
  have hkept : s.evict.pairings = s.pairings := AList.ext h.evict
  have hunknown : s.evict.pairings.lookup (numbered n) = none := by
    rw [hkept]
    exact h.unknown hn.le
  have hstep : serverStep s (request n) = s.evict.enter { token := numbered n, createdAt := s.now }
      (s.newLink 0 { isInitiator := true, token := numbered n }) := by
    rcases hlinked.onPair_cases 0 (encodePair { isInitiator := true, token := numbered n })
      ⟨none, none, false⟩ with ⟨hrefused, -⟩ | ⟨-, ⟨pair, -, hlookup, -⟩ | ⟨-, heq⟩ | ⟨pair, -, hlookup, -⟩⟩
    · rcases hrefused with hclosed | hfull
      · rw [h.closed] at hclosed
        cases hclosed
      · rw [full, h.length, Bool.and_eq_true, decide_eq_true_eq] at hfull
        exact absurd hn (not_lt.2 hfull.1)
    · rw [hmsg, hunknown] at hlookup
      cases hlookup
    · rw [hmsg] at heq
      exact heq
    · rw [hmsg, hunknown] at hlookup
      cases hlookup
  have hentries : (serverStep s (request n)).pairings.entries =
      ⟨numbered n, RelayPair.fill { token := numbered n, createdAt := s.now }
        (s.newLink 0 { isInitiator := true, token := numbered n })⟩ :: s.pairings.entries := by
    rw [hstep, ← hkept]
    exact AList.entries_insert_of_notMem (AList.lookup_eq_none.1 hunknown)
  refine ⟨by rw [hentries, List.length_cons, h.length], fun e he => ?_, ?_, ?_⟩
  · rw [hentries] at he
    rcases List.mem_cons.1 he with rfl | hold
    · exact ⟨h.now, n, n.lt_succ_self, rfl⟩
    · obtain ⟨hcreated, k, hk, heq⟩ := h.entries e hold
      exact ⟨hcreated, k, hk.trans n.lt_succ_self, heq⟩
  · rw [hstep]
    exact h.now
  · rw [hstep]
    simpa [enter, newLink] using h.closed

/-- **The requests fill the relay.** -/
lemma requested_run (n : ℕ) (hn : n ≤ maxPairings) : Requested n (run serverStep {} (requests n)) := by
  induction n with
  | zero => exact ⟨rfl, fun e he => absurd he List.not_mem_nil, rfl, rfl⟩
  | succ n ih =>
    have hlinked : Linked (run serverStep {} (requests n)) :=
      run_invariant (P := Linked) (fun s i h => linked_step s i h) linked_init _
    rw [requests, List.range_succ, List.map_append, run_append]
    exact (ih (Nat.le_of_succ_le hn)).step hlinked hn

lemma not_admits_of_requested (h : Requested maxPairings s) {elapsed : ℕ} (hlate : pairingTtl < elapsed) :
    ¬ Admits (serverStep s (.tick elapsed)) (request maxPairings) := by
  intro hadmits
  have hunknown := h.unknown le_rfl
  have hfull : (serverStep s (.tick elapsed)).full (numbered maxPairings) = true := by
    have hmax : maxPairings ≤ s.pairings.entries.length := h.length.ge
    simp [serverStep, full, hunknown, hmax]
  have hstale : (serverStep s (.tick elapsed)).freshPairings = 0 := by
    refine List.countP_eq_zero.2 fun e he => ?_
    simp [RelayPair.fresh, serverStep, (h.entries e he).1, h.now, hlate]
  have hmany := hadmits h.closed
  rw [decodePair_encodePair] at hmany
  have hmax : maxPairings ≤ 0 := (hmany hfull).trans hstale.le
  exact absurd hmax (by decide)

/-- A client asks for tokens and is not heard of again. After 31 seconds another request comes. -/
def abandoned (n : ℕ) : List ServerInput := requests n ++ [.tick 31000000000, request n]

lemma not_admits_abandoned {n : ℕ} (hn : n = maxPairings) : ¬ EveryStep serverStep Admits {} (abandoned n) := by
  intro hall
  rw [abandoned, everyStep_append] at hall
  have hrequested := requested_run n hn.le
  have hlast := hall.2.2.1
  rw [hn] at hrequested hlast
  exact not_admits_of_requested hrequested (by decide) hlast

def abandonedRun : List ServerInput := abandoned maxPairings

/-- **The abandoned pairings block the relay**: the last request is refused, although every pairing is stale. -/
theorem not_admits_abandonedRun : ¬ EveryStep serverStep Admits {} abandonedRun := not_admits_abandoned rfl

end RelayServer

end HyperDHT.BlindRelay
