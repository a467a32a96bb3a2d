import Mathlib.Data.Finset.Card
import HyperDHT.Compact.Ipv4
import HyperDHT.Lib.Runs

/-!
# The NAT sampler

The sampler of `nat_sampler.cpp`: it collects the address under which remote nodes see this
node, keeps two lists of samples with their hit counts (one by host, one by host and port), and
classifies the firewall from the hit counts.

## Main definitions

* `NatSampler.addSample` — insert a sample or count one more hit, with its bubble-up loop.
* `NatSampler.State` — the sampler, with `add`, `freeze`, `unfreeze` and `reset`.
* `NatSampler.step` — the sampler as a machine over its calls.

## Design

The bubble-up loop compares each predecessor with a *reference* to the slot in which the sample
was found (`auto& s = samples[i]`). The reference stays on the slot while the swaps move the
sample away from it, so `bubbleUp` carries the slot and reads the list at that position in every
iteration.
-/

set_option autoImplicit false

namespace HyperDHT.NatSampler

open Compact

/-- The firewall classes of `peer_connect.hpp`. -/
inductive Firewall where
  | unknown
  | open
  | consistent
  | random
  deriving DecidableEq

/-- An address sample with its hit count. -/
structure Sample where
  /-- The text of the host. -/
  host : List Char
  /-- The port, zero in the list by host. -/
  port : UInt16
  /-- How often the address was seen. -/
  hits : ℕ
  deriving DecidableEq

/-! ## The sorted-by-hits lists -/

/-- Swap the entries at positions `i` and `i + 1`. -/
def swapAt : List Sample → ℕ → List Sample
  | a :: b :: l, 0 => b :: a :: l
  | a :: l, i + 1 => a :: swapAt l i
  | l, _ => l

/-- The hit count at position `i`. -/
def hitsAt (samples : List Sample) (i : ℕ) : ℕ := (samples[i]?.map Sample.hits).getD 0

/-- The bubble-up loop at position `i`, where `slot` is the position the loop's reference `s`
was bound to. -/
def bubbleUp (slot : ℕ) : ℕ → List Sample → List Sample
  | 0, samples => samples
  | i + 1, samples =>
    if hitsAt samples i ≥ hitsAt samples slot then samples
    else bubbleUp slot i (swapAt samples i)

/-- The position of the sample for an address. -/
def findSample (samples : List Sample) (host : List Char) (port : UInt16) : Option ℕ :=
  samples.findIdx? fun s => s.host = host ∧ s.port = port

/-- Insert a sample, or count one more hit of a sample that is there and bubble it up. -/
def addSample (samples : List Sample) (host : List Char) (port : UInt16) : List Sample :=
  match findSample samples host port with
  | some i => bubbleUp i i (samples.modify i fun s => { s with hits := s.hits + 1 })
  | none => samples ++ [⟨host, port, 1⟩]

/-! ## The sampler -/

/-- The sampler. `changes` collects the calls of the `on_change_` callback. -/
structure State where
  firewall : Firewall := .unknown
  sampled : ℕ := 0
  frozen : Bool := false
  host : List Char := []
  port : UInt16 := 0
  samplesHost : List Sample := []
  samplesFull : List Sample := []
  visited : Finset (List Char) := ∅
  addresses : List Ipv4Address := []
  changes : List (Firewall × Firewall) := []

/-- The cap of the set of visited sources. -/
def maxVisited : ℕ := 1024

/-- The class the ladder of `update_firewall` gives: from the hits of the first two entries of
the list by host and port, the number of hosts, the number of samples, and the class so far,
which stays when no rule decides. -/
def classify (maxHits secondHits hosts sampled : ℕ) (old : Firewall) : Firewall :=
  if maxHits ≥ 3 then .consistent
  else if maxHits = 1 then .random
  else if hosts = 1 ∧ sampled > 3 then .random
  else if hosts > 1 ∧ secondHits > 1 then .consistent
  else if sampled > 4 then .random
  else old

namespace State

/-- Reclassify the firewall, from three samples on. A missing second entry has no hits, which
is the guard `samples_full_.size() > 1` of the source. -/
def updateFirewall (s : State) : State :=
  if s.sampled < 3 then s
  else if s.samplesFull.isEmpty then s
  else
    let firewall := classify (hitsAt s.samplesFull 0) (hitsAt s.samplesFull 1)
      s.samplesHost.length s.sampled s.firewall
    { s with
      firewall := firewall
      changes := if firewall ≠ s.firewall then s.changes ++ [(s.firewall, firewall)]
        else s.changes }

/-- The loop that collects addresses of a consistent firewall: at most four, and those with one
hit only while there are fewer than two. -/
def collectAddresses : List Sample → List Ipv4Address → List Ipv4Address
  | [], addresses => addresses
  | s :: samples, addresses =>
    if addresses.length ≥ 4 then addresses
    else if s.hits ≥ 2 ∨ addresses.length < 2 then
      collectAddresses samples (addresses ++ [Ipv4Address.fromString s.host s.port])
    else collectAddresses samples addresses

/-- Recompute the reported addresses. -/
def updateAddresses (s : State) : State :=
  { s with
    addresses :=
      match s.firewall, s.samplesHost with
      | .random, top :: _ => [Ipv4Address.fromString top.host 0]
      | .consistent, _ => collectAddresses s.samplesFull []
      | _, _ => [] }

/-- Whether a sample from this source is taken: the source is new and the set of sources is
not full. -/
def accepts (s : State) (source : Ipv4Address) : Prop :=
  source.hostPort ∉ s.visited ∧ s.visited.card < maxVisited

instance (s : State) (source : Ipv4Address) : Decidable (s.accepts source) :=
  inferInstanceAs (Decidable (_ ∧ _))

/-- The state after the sample is stored, before the classification. -/
def record (s : State) (addr source : Ipv4Address) : State :=
  { s with
    visited := insert source.hostPort s.visited
    samplesHost := addSample s.samplesHost addr.hostString 0
    samplesFull := addSample s.samplesFull addr.hostString addr.port
    sampled := s.sampled + 1 }

/-- The reported host and port become those of the first entry. -/
def updateHost (s : State) : State :=
  match s.samplesFull with
  | top :: _ => { s with host := top.host, port := top.port }
  | [] => s

/-- Reclassify after a sample, from three samples on and unless frozen. -/
def reclassify (s : State) : State :=
  if s.sampled ≥ 3 ∧ s.frozen = false then s.updateFirewall.updateAddresses else s

/-- Add a sample: `addr` is this node's address as the node at `source` sees it. -/
def add (s : State) (addr source : Ipv4Address) : State × Bool :=
  if s.accepts source then ((s.record addr source).reclassify.updateHost, true) else (s, false)

/-- Stop the classification. -/
def freeze (s : State) : State := { s with frozen := true }

/-- Resume the classification and bring it up to date. -/
def unfreeze (s : State) : State := { s with frozen := false }.updateFirewall.updateAddresses

/-- Forget everything but the callback. -/
def reset (s : State) : State := { changes := s.changes }

/-! ### What the updates leave alone -/

@[simp] lemma updateFirewall_samplesFull (s : State) :
    s.updateFirewall.samplesFull = s.samplesFull := by
  unfold updateFirewall; split_ifs <;> rfl

@[simp] lemma updateFirewall_samplesHost (s : State) :
    s.updateFirewall.samplesHost = s.samplesHost := by
  unfold updateFirewall; split_ifs <;> rfl

@[simp] lemma updateFirewall_sampled (s : State) : s.updateFirewall.sampled = s.sampled := by
  unfold updateFirewall; split_ifs <;> rfl

@[simp] lemma reclassify_samplesFull (s : State) :
    s.reclassify.samplesFull = s.samplesFull := by
  unfold reclassify; split_ifs <;> simp [updateAddresses]

@[simp] lemma reclassify_samplesHost (s : State) :
    s.reclassify.samplesHost = s.samplesHost := by
  unfold reclassify; split_ifs <;> simp [updateAddresses]

@[simp] lemma reclassify_sampled (s : State) : s.reclassify.sampled = s.sampled := by
  unfold reclassify; split_ifs <;> simp [updateAddresses]

@[simp] lemma updateHost_samplesFull (s : State) :
    s.updateHost.samplesFull = s.samplesFull := by
  unfold updateHost; split <;> rfl

@[simp] lemma updateHost_samplesHost (s : State) :
    s.updateHost.samplesHost = s.samplesHost := by
  unfold updateHost; split <;> rfl

@[simp] lemma updateHost_sampled (s : State) : s.updateHost.sampled = s.sampled := by
  unfold updateHost; split <;> rfl

@[simp] lemma updateHost_firewall (s : State) : s.updateHost.firewall = s.firewall := by
  unfold updateHost; split <;> rfl

lemma updateFirewall_firewall {s : State} (h3 : 3 ≤ s.sampled) (hne : s.samplesFull ≠ []) :
    s.updateFirewall.firewall = classify (hitsAt s.samplesFull 0) (hitsAt s.samplesFull 1)
      s.samplesHost.length s.sampled s.firewall := by
  have hempty : s.samplesFull.isEmpty = false := by simpa using hne
  rw [updateFirewall, if_neg (by omega), hempty]
  rfl

end State

/-- The calls of the sampler. -/
inductive Op where
  | add (addr source : Ipv4Address)
  | freeze
  | unfreeze
  | reset

/-- The sampler after a call. -/
def step (s : State) : Op → State
  | .add addr source => (s.add addr source).1
  | .freeze => s.freeze
  | .unfreeze => s.unfreeze
  | .reset => s.reset

end HyperDHT.NatSampler
