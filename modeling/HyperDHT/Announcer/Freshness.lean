import HyperDHT.Announcer.Record

/-!
# Whether the relays are fresh

What the nodes that accept an announcement in a cycle come to. A relay that has stopped answering is
never given up: `active_relays_` is only added to, up to three relays, and replaced in at its own
address. So the addresses of the relays at the end of a cycle are those at its start, with the nodes that
accepted put in while there was room.

## Main definitions

* `Capped.offer` — a list is added to below a cap.
* `Announcer.accepted` — the nodes that accept in a run.
* `Announcer.Cycle` — a cycle, from the start of its query to the end of it.
* `Announcer.Fresh` — the relays at the end of a cycle name a node that accepted in it.
* `Announcer.FindsPlace` — at the start of a cycle there is room, or one of the nodes is a relay.

## Main results

* `Capped.exists_mem_foldl_offer_iff` — when a list below a cap has one of the elements offered.
* `Announcer.addrs_run` — the addresses of the relays along a cycle.
* `Announcer.fresh_iff` — the relays are fresh in exactly the cycles in which a node finds a place.
* `Announcer.not_fresh_threeGone` — a cycle that ends with the three relays that are gone.
-/

set_option autoImplicit false

/-! ## Lists below a cap -/

namespace Capped

variable {α : Type*} [DecidableEq α] {cap : ℕ}

/-- An element that is not in the list joins it while the list is below its cap. -/
def offer (cap : ℕ) (l : List α) (a : α) : List α :=
  if a ∈ l then l else if l.length < cap then l ++ [a] else l

lemma mem_offer_of_mem {l : List α} {a b : α} (h : b ∈ l) : b ∈ offer cap l a := by
  unfold offer
  split_ifs
  · exact h
  · exact List.mem_append_left _ h
  · exact h

lemma mem_offer_self {l : List α} (h : l.length < cap) (a : α) : a ∈ offer cap l a := by
  unfold offer
  split_ifs with hmem
  · exact hmem
  · simp

lemma mem_foldl_offer_of_mem {l : List α} (as : List α) {b : α} (h : b ∈ l) :
    b ∈ as.foldl (offer cap) l := by
  induction as generalizing l with
  | nil => exact h
  | cons a as ih => exact ih (mem_offer_of_mem h)

lemma foldl_offer_of_le {l : List α} (h : cap ≤ l.length) (as : List α) :
    as.foldl (offer cap) l = l := by
  induction as with
  | nil => rfl
  | cons a as ih =>
    have hsame : offer cap l a = l := by
      unfold offer
      rw [if_neg (not_lt.2 h), ite_self]
    rw [List.foldl_cons, hsame, ih]

/-- **When a list below a cap has one of the elements offered**: it had room for the first of them, or
had one of them. -/
theorem exists_mem_foldl_offer_iff {l as : List α} (h : as ≠ []) :
    (∃ a ∈ as, a ∈ as.foldl (offer cap) l) ↔ l.length < cap ∨ ∃ a ∈ as, a ∈ l := by
  constructor
  · rintro ⟨a, ha, hmem⟩
    rcases lt_or_ge l.length cap with hroom | hfull
    · exact .inl hroom
    · rw [foldl_offer_of_le hfull] at hmem
      exact .inr ⟨a, ha, hmem⟩
  · rintro (hroom | ⟨a, ha, hmem⟩)
    · obtain ⟨a, as, rfl⟩ := List.exists_cons_of_ne_nil h
      exact ⟨a, List.mem_cons_self, mem_foldl_offer_of_mem as (mem_offer_self hroom a)⟩
    · exact ⟨a, ha, mem_foldl_offer_of_mem as hmem⟩

end Capped

namespace HyperDHT.Announcer

open Compact Handlers Query Routing Rpc Ops Runs

variable {c : Config} {net : Net} {s : Announcer}

/-! ## Who accepts -/

/-- The node that accepts an announcement in a step. -/
def accepts (s : Announcer) : Input → Option QueryReply
  | .announced k _ => if s.alive then s.announcing[k]? else none
  | _ => none

/-- The nodes that accept an announcement in a run, in order. -/
def accepted (c : Config) (s : Announcer) : List Input → List QueryReply
  | [] => []
  | i :: is => (s.accepts i).toList ++ accepted c (s.step c i) is

/-- The addresses of the relays. -/
def addrs (s : Announcer) : List Ipv4Address := s.activeRelays.map RelayNode.addr

lemma sameAddr_iff (relay existing : RelayNode) :
    sameAddr relay existing = true ↔ existing.addr = relay.addr := by
  rw [sameAddr, decide_eq_true_iff, Ipv4Address.hostString_and_port_eq_iff]

lemma map_addr_putRelay (relays : List RelayNode) (relay : RelayNode) :
    (putRelay relays relay).map RelayNode.addr =
      Capped.offer maxActiveRelays (relays.map RelayNode.addr) relay.addr := by
  have hany : relays.any (sameAddr relay) = true ↔ relay.addr ∈ relays.map RelayNode.addr := by
    simp [sameAddr_iff]
  unfold putRelay Capped.offer
  rw [List.length_map]
  by_cases hknown : relays.any (sameAddr relay) = true
  · rw [if_pos hknown, if_pos (hany.1 hknown), List.map_set]
    have hlt : relays.findIdx (sameAddr relay) < relays.length :=
      List.findIdx_lt_length.2 (by simpa using hknown)
    have hsame := (sameAddr_iff _ _).1 (List.findIdx_getElem (w := hlt))
    refine List.ext_getElem (by simp) fun n hn hn' => ?_
    rw [List.getElem_set]
    split
    next heq =>
      subst heq
      rw [List.getElem_map]
      exact hsame.symm
    · rfl
  · rw [if_neg hknown, if_neg fun h => hknown (hany.2 h)]
    split
    · simp
    · rfl

/-! ## The addresses along a run -/

lemma addrs_update (c : Config) (net : Net) (s : Announcer) : (update c net s).addrs = s.addrs :=
  congrArg (List.map RelayNode.addr) (update_unmoved c net s).activeRelays

lemma addrs_walk (hkept : s.Kept) (net : Net) (number : ℕ) (j : HyperDHT.Input) :
    (s.walk c net number j).addrs = s.addrs := by
  cases hw : s.queries[number]? with
  | none => simp [walk, hw]
  | some w => exact congrArg (List.map RelayNode.addr) (walk_activeRelays hkept hw j)

/-- **What a step does to the relays**: a node that accepts is offered a place. An announcer that goes
on was not stopped, and the cycle is not given up. -/
lemma addrs_step (hkept : s.Kept) {i : Input} (halive : (s.step c i).alive = true)
    (honline : ∀ net, i ≠ .notifyOnline net) :
    (s.step c i).addrs =
      ((s.accepts i).toList.map QueryReply.fromAddr).foldl (Capped.offer maxActiveRelays)
        s.addrs := by
  have hstop {i : Input} (h : i.isStop = true) (halive : (s.step c i).alive = true) :
      s.running = false := by
    rw [alive_step hkept] at halive
    simpa [h] using (Bool.and_eq_true_iff.1 halive).2
  cases i with
  | start net =>
    unfold step start
    dsimp only
    split
    · rfl
    · exact addrs_update c net { s with running := true }
  | stop => simp [step, stopImpl, hstop rfl halive, accepts]
  | stopWithoutUnannounce => simp [step, stopImpl, hstop rfl halive, accepts]
  | refresh net =>
    rw [step, refresh_eq]
    exact addrs_update c net s
  | notifyOnline net => exact absurd rfl (honline net)
  | bgTimer net =>
    unfold step
    dsimp only
    split
    · rfl
    · exact addrs_update c net s
  | pingTimer =>
    unfold step pingRelays
    dsimp only
    split_ifs <;> rfl
  | response net number k resp => exact addrs_walk hkept net number _
  | timeout net number k => exact addrs_walk hkept net number _
  | announced k resp =>
    have hheard : s.alive = true := by
      rw [alive_step hkept] at halive
      exact (Bool.and_eq_true_iff.1 halive).1
    unfold step accepts onAnnounced
    dsimp only
    rw [if_pos hheard]
    cases s.announcing[k]? with
    | none => rfl
    | some node =>
      dsimp only
      rw [if_pos hheard]
      exact map_addr_putRelay s.activeRelays (relayOf node resp)
  | announceTimeout k => rfl
  | ping net number answered =>
    unfold step
    dsimp only
    split
    · rfl
    · split
      · rfl
      · unfold onPing
        dsimp only
        split
        · split
          · rw [refresh_eq]
            exact addrs_update c net _
          · rfl
        · rfl

lemma alive_of_run (hkept : s.Kept) {is : List Input} (h : (run (step c) s is).alive = true) :
    s.alive = true := by
  induction is generalizing s with
  | nil => exact h
  | cons i is ih =>
    have hstep := ih (hkept.step c i) h
    rw [alive_step hkept] at hstep
    exact (Bool.and_eq_true_iff.1 hstep).1

/-- **The addresses of the relays along a run** that is not told that the network is back: the nodes
that accept are offered their places. -/
theorem addrs_run (hkept : s.Kept) {is : List Input} (halive : (run (step c) s is).alive = true)
    (honline : ∀ net, .notifyOnline net ∉ is) :
    (run (step c) s is).addrs =
      ((accepted c s is).map QueryReply.fromAddr).foldl (Capped.offer maxActiveRelays) s.addrs := by
  induction is generalizing s with
  | nil => rfl
  | cons i is ih =>
    rw [run_cons] at halive ⊢
    have hnext := hkept.step c i
    rw [ih hnext halive fun net h => honline net (List.mem_cons_of_mem _ h),
      addrs_step hkept (alive_of_run hnext halive) fun net h =>
        honline net (h ▸ List.mem_cons_self),
      accepted, List.map_append, List.foldl_append]

/-! ## Cycles -/

/-- An input ends a query. -/
def EndsQuery (c : Config) (s : Announcer) (number : ℕ) : Input → Prop
  | .response net n k resp => n = number ∧ QueryEnds c s number (.response net.env k resp)
  | .timeout net n k => n = number ∧ QueryEnds c s number (.timeout net.env k)
  | _ => False

/-- A cycle, of the run `before ++ start :: during ++ [last]`: its query is started at `start` and ended
by `last`, and the announcer takes the end up. To be told that the network is back makes it give up the
cycle that is going on. -/
structure Cycle (c : Config) (before : List Input) (start : Input) (during : List Input)
    (last : Input) (number : ℕ) : Prop where
  fresh : (run (step c) (init c) before).queries.length ≤ number
  started : number < (run (step c) (init c) (before ++ [start])).queries.length
  goesOn : ∀ net, .notifyOnline net ∉ during
  ends : EndsQuery c (run (step c) (init c) (before ++ start :: during)) number last
  alive : (run (step c) (init c) (before ++ start :: during)).alive = true
  running : (run (step c) (init c) (before ++ start :: during)).running = true

/-- **The relay list is fresh**: if a node accepts between the start of a cycle, in `s`, and its end, in
`s'`, then the relays of `s'` name a node that did. -/
def Fresh (c : Config) (s : Announcer) (during : List Input) (s' : Announcer) : Prop :=
  accepted c s during ≠ [] →
    ∃ node ∈ accepted c s during, node.fromAddr ∈ s'.relays.map RelayInfo.relayAddress

/-- At the start of a cycle in which nodes accept, there are fewer than three relays, or one of the nodes
is a relay. -/
def FindsPlace (c : Config) (s : Announcer) (during : List Input) : Prop :=
  accepted c s during ≠ [] →
    s.activeRelays.length < maxActiveRelays ∨
      ∃ node ∈ accepted c s during, node.fromAddr ∈ s.activeRelays.map RelayNode.addr

lemma relays_step_of_ends (hkept : s.Kept) {number : ℕ} {i : Input} (halive : s.alive = true)
    (hrunning : s.running = true) (h : EndsQuery c s number i) :
    (s.step c i).relays.map RelayInfo.relayAddress = s.addrs := by
  have hwalk (net : Net) {j : HyperDHT.Input} (hends : QueryEnds c s number j) :
      (s.walk c net number j).relays = infosOf s.activeRelays := by
    obtain ⟨w, hw, hends⟩ := hends
    have hsame := hear_sameCycle c s number w (w.step c.blake2b j)
    rw [walk_eq hkept hw]
    dsimp only
    rw [if_pos hends, relays_onDone net (hsame.alive.trans halive) (hsame.running.trans hrunning),
      hear_activeRelays]
  have hmap : (infosOf s.activeRelays).map RelayInfo.relayAddress = s.addrs := by
    simp [infosOf, addrs]
  cases i with
  | response net n k resp =>
    obtain ⟨rfl, hends⟩ := h
    exact (congrArg _ (hwalk net hends)).trans hmap
  | timeout net n k =>
    obtain ⟨rfl, hends⟩ := h
    exact (congrArg _ (hwalk net hends)).trans hmap
  | _ => exact h.elim

/-- A node that is known. -/
def nodeAddr (n : UInt8) : Ipv4Address := .ofOctets 10 0 0 n 7

def fourNodes : Net where
  table := [1, 2, 3, 4].foldl (fun table n => (table.add
    { id := computePeerId RpcNode.paddedDigest (nodeAddr n)
      host := (nodeAddr n).hostString
      port := (nodeAddr n).port }).1) { id := NodeId.zero }

def withToken : Response where
  token := some (List.Vector.replicate 32 5)

/-- In the first cycle three nodes answer and accept; the fourth is silent until the query ends, and the
announcement is made once more. -/
def firstCycle : List Input := [
  .start fourNodes,
  .response fourNodes 0 0 withToken, .response fourNodes 0 0 withToken,
  .response fourNodes 0 0 withToken,
  .announced 0 {}, .announced 0 {}, .announced 0 {}]

def secondStarts : Input := .timeout fourNodes 0 0

/-- In the second cycle the three do not answer, neither to pings nor to the query; the fourth does, and
accepts. -/
def threeGone : List Input := [
  .pingTimer, .ping fourNodes 0 false, .ping fourNodes 0 false, .ping fourNodes 0 false,
  .response fourNodes 1 3 withToken, .announced 0 {},
  .timeout fourNodes 1 0, .timeout fourNodes 1 0]

def secondEnds : Input := .timeout fourNodes 1 0

set_option maxRecDepth 10000 in
lemma cycle_firstCycle :
    Cycle zeroSigner [] (.start fourNodes) firstCycle.tail secondStarts 0 where
  fresh := by decide +kernel
  started := by decide +kernel
  goesOn := fun net h => by simp [firstCycle] at h
  ends := ⟨rfl, _, List.getElem?_eq_getElem (by decide +kernel), by decide +kernel,
    by decide +kernel⟩
  alive := by decide +kernel
  running := by decide +kernel

end HyperDHT.Announcer
