import HyperDHT.Connect.Basic
import HyperDHT.Lib.BestSoFar

/-!
# An address of the same network

`match_address` (`holepunch.cpp`) goes through all pairs of an address of ours and a remote one. It
compares two addresses octet by octet, keeps the remote address with the most octets in common so far,
and returns one with three at once. Whatever the order of the two lists, what it returns shares the
longest prefix that any pair shares.

## Main definitions

* `Lan.compareOctets` — the body of the two loops.
* `Lan.matchAddress` — the loops.
* `Lan.commonPrefix` — the longest common prefix of two addresses, of at most three octets.
* `Lan.Optimal` — the result is the best over all pairs.

## Main results

* `Lan.matchAddress_eq_scanTo` — the two loops are one scan over the pairs that keeps the best so far.
* `Lan.matchAddress_eq` — the shorter loop of the connect computes the same.
* `Lan.optimal_matchAddress` — the result is optimal.
-/

set_option autoImplicit false

namespace HyperDHT

namespace Lan

open Compact

/-! ## The loops -/

/-- What the loops keep: how many octets are in common so far, and the address that has them. -/
structure Best where
  segment : ℕ := 0
  addr : Option Ipv4Address := none
  deriving DecidableEq

/-- The body of the two loops. An error is the address that is returned from within them. -/
def compareOctets (ours : Ipv4Address) (best : Best) (remote : Ipv4Address) :
    Except Ipv4Address Best :=
  if octet ours 0 ≠ octet remote 0 then .ok best
  else
    let best := if best.segment < 1 then { segment := 1, addr := some remote } else best
    if octet ours 1 ≠ octet remote 1 then .ok best
    else
      let best := if best.segment < 2 then { segment := 2, addr := some remote } else best
      if octet ours 2 ≠ octet remote 2 then .ok best
      else .error remote

/-- What the loops return: an address at once, or the best one at their end. -/
def returned : Except Ipv4Address Best → Option Ipv4Address
  | .error remote => some remote
  | .ok best => best.addr

/-- The remote address that has the most octets in common with one of ours. -/
def matchAddress (myAddresses remoteAddresses : List Ipv4Address) : Option Ipv4Address :=
  if remoteAddresses.isEmpty then none
  else returned <|
    myAddresses.foldlM (fun best ours => remoteAddresses.foldlM (compareOctets ours) best) {}

/-! ## The specification -/

/-- How many octets two addresses have in common at their beginning, of the first three. -/
def commonPrefix (ours remote : Ipv4Address) : ℕ :=
  Nat.findGreatest (fun k => ours.host.toList.take k = remote.host.toList.take k) 3

/-- The result is the best over all pairs. -/
structure Optimal (myAddresses remoteAddresses : List Ipv4Address) (result : Option Ipv4Address) :
    Prop where
  mem : ∀ best ∈ result, best ∈ remoteAddresses
  /-- With one of our addresses it has as many octets in common as any pair. -/
  maximal : ∀ best ∈ result, ∃ ours ∈ myAddresses, ∀ ours' ∈ myAddresses, ∀ remote ∈ remoteAddresses,
    commonPrefix ours' remote ≤ commonPrefix ours best
  /-- There is none exactly when no pair has its first octet in common. -/
  none_iff : result = none ↔
    ∀ ours ∈ myAddresses, ∀ remote ∈ remoteAddresses, octet ours 0 ≠ octet remote 0

/-! ## Octets in common -/

lemma toList_host (a : Ipv4Address) : a.host.toList = [octet a 0, octet a 1, octet a 2, octet a 3] := by
  obtain ⟨⟨l, hl⟩, port⟩ := a
  match l, hl with
  | [b0, b1, b2, b3], _ => rfl

lemma commonOctets_le (ours remote : Ipv4Address) : commonOctets ours remote ≤ 3 := by
  unfold commonOctets
  split_ifs <;> omega

lemma commonPrefix_eq (ours remote : Ipv4Address) :
    commonPrefix ours remote = commonOctets ours remote := by
  rw [commonPrefix, commonOctets, toList_host, toList_host]
  by_cases h0 : octet ours 0 = octet remote 0
  case neg => simp [Nat.findGreatest, h0]
  case pos =>
    by_cases h1 : octet ours 1 = octet remote 1
    case neg => simp [Nat.findGreatest, h0, h1]
    case pos =>
      by_cases h2 : octet ours 2 = octet remote 2 <;> simp [Nat.findGreatest, h0, h1, h2]

lemma commonOctets_eq_zero_iff (ours remote : Ipv4Address) :
    commonOctets ours remote = 0 ↔ octet ours 0 ≠ octet remote 0 := by
  unfold commonOctets
  split_ifs <;> simp_all

/-- **One pass through the body**: three octets in common end the loops; fewer are compared with the
most so far, for the two thresholds together raise it to what the two addresses have in common. -/
lemma compareOctets_eq (ours remote : Ipv4Address) (best : Best) :
    compareOctets ours best remote =
      if 3 ≤ commonOctets ours remote then .error remote
      else .ok (if best.segment < commonOctets ours remote
        then { segment := commonOctets ours remote, addr := some remote } else best) := by
  simp only [compareOctets, commonOctets]
  by_cases h0 : octet ours 0 = octet remote 0
  case neg => simp [h0]
  case pos =>
    by_cases h1 : octet ours 1 = octet remote 1
    case neg => simp [h0, h1]
    case pos =>
      by_cases h2 : octet ours 2 = octet remote 2
      case pos => simp [h0, h1, h2]
      case neg =>
        by_cases hone : best.segment < 1
        case pos => simp [h0, h1, h2, hone, Nat.lt_succ_of_lt hone]
        case neg => simp [h0, h1, h2, hone]

/-! ## The loops are a scan of the pairs -/

/-- All pairs, in the order of the loops. -/
def pairs (myAddresses remoteAddresses : List Ipv4Address) : List (Ipv4Address × Ipv4Address) :=
  myAddresses.flatMap fun ours => remoteAddresses.map fun remote => (ours, remote)

lemma mem_pairs {myAddresses remoteAddresses : List Ipv4Address} {p : Ipv4Address × Ipv4Address} :
    p ∈ pairs myAddresses remoteAddresses ↔ p.1 ∈ myAddresses ∧ p.2 ∈ remoteAddresses := by
  obtain ⟨ours, remote⟩ := p
  simp [pairs]

/-- How good a pair is. -/
def score (p : Ipv4Address × Ipv4Address) : ℕ := commonOctets p.1 p.2

lemma score_le (p : Ipv4Address × Ipv4Address) : score p ≤ 3 := commonOctets_le p.1 p.2

/-- What the loops keep when a pair is the best so far. -/
def kept (best : Option (Ipv4Address × Ipv4Address)) : Best :=
  ⟨BestSoFar.bestScore score best, best.map Prod.snd⟩

lemma kept_better (best : Option (Ipv4Address × Ipv4Address)) (p : Ipv4Address × Ipv4Address) :
    kept (BestSoFar.better score best p) =
      if (kept best).segment < score p then { segment := score p, addr := some p.2 }
      else kept best := by
  rw [BestSoFar.better, apply_ite kept]
  rfl

lemma compareOctets_kept (p : Ipv4Address × Ipv4Address)
    (best : Option (Ipv4Address × Ipv4Address)) :
    compareOctets p.1 (kept best) p.2 =
      if 3 ≤ score p then .error p.2 else .ok (kept (BestSoFar.better score best p)) := by
  rw [compareOctets_eq, kept_better]
  rfl

lemma returned_foldlM (l : List (Ipv4Address × Ipv4Address))
    (best : Option (Ipv4Address × Ipv4Address)) :
    returned (l.foldlM (fun best p => compareOctets p.1 best p.2) (kept best)) =
      (BestSoFar.scanTo score 3 l best).map Prod.snd := by
  induction l generalizing best with
  | nil => rfl
  | cons p l ih =>
    rw [List.foldlM_cons, compareOctets_kept, BestSoFar.scanTo]
    by_cases hcap : 3 ≤ score p
    case pos =>
      rw [if_pos hcap, if_pos hcap]
      rfl
    case neg =>
      rw [if_neg hcap, if_neg hcap]
      exact ih _

lemma matchLoop_kept (l : List (Ipv4Address × Ipv4Address))
    (best : Option (Ipv4Address × Ipv4Address)) :
    matchLoop l (kept best).segment (kept best).addr =
      (BestSoFar.scanTo score 3 l best).map Prod.snd := by
  induction l generalizing best with
  | nil => rfl
  | cons p l ih =>
    rw [matchLoop, BestSoFar.scanTo]
    by_cases hcap : 3 ≤ score p
    case pos =>
      have hthree : commonOctets p.1 p.2 = 3 := le_antisymm (commonOctets_le p.1 p.2) hcap
      rw [if_pos hcap, if_pos hthree]
      rfl
    case neg =>
      have hthree : commonOctets p.1 p.2 ≠ 3 := fun h => hcap h.ge
      rw [if_neg hcap, if_neg hthree, ← ih, kept_better]
      by_cases hlt : (kept best).segment < score p
      case pos =>
        rw [if_pos hlt]
        exact if_pos hlt
      case neg =>
        rw [if_neg hlt]
        exact if_neg hlt

lemma foldlM_pairs (myAddresses remoteAddresses : List Ipv4Address) (best : Best) :
    (pairs myAddresses remoteAddresses).foldlM (fun best p => compareOctets p.1 best p.2) best =
      myAddresses.foldlM (fun best ours => remoteAddresses.foldlM (compareOctets ours) best) best := by
  induction myAddresses generalizing best with
  | nil => rfl
  | cons ours myAddresses ih =>
    rw [pairs, List.flatMap_cons, List.foldlM_append, List.foldlM_map, List.foldlM_cons]
    exact bind_congr fun best => ih best

/-- **The two loops are one scan over the pairs**, also where there is no remote address. -/
theorem matchAddress_eq_scanTo (myAddresses remoteAddresses : List Ipv4Address) :
    matchAddress myAddresses remoteAddresses =
      (BestSoFar.scanTo score 3 (pairs myAddresses remoteAddresses) none).map Prod.snd := by
  rw [matchAddress]
  split
  case isTrue hempty =>
    have hnil : pairs myAddresses remoteAddresses = [] := by
      simp [pairs, List.isEmpty_iff.1 hempty]
    rw [hnil]
    rfl
  case isFalse =>
    rw [← foldlM_pairs]
    exact returned_foldlM _ none

/-- **The loop of the connect computes the same.** -/
theorem matchAddress_eq (myAddresses remoteAddresses : List Ipv4Address) :
    matchAddress myAddresses remoteAddresses =
      HyperDHT.matchAddress myAddresses remoteAddresses := by
  rw [matchAddress_eq_scanTo]
  exact (matchLoop_kept (pairs myAddresses remoteAddresses) none).symm

/-- **The address that is found is the best over all pairs**, whatever the order of the lists. -/
theorem optimal_matchAddress (myAddresses remoteAddresses : List Ipv4Address) :
    Optimal myAddresses remoteAddresses (matchAddress myAddresses remoteAddresses) := by
  have hbest : BestSoFar.IsBest score (pairs myAddresses remoteAddresses)
      (BestSoFar.scanTo score 3 (pairs myAddresses remoteAddresses) none) :=
    BestSoFar.isBest_nil.scanTo score_le (by decide) _
  rw [matchAddress_eq_scanTo]
  generalize BestSoFar.scanTo score 3 (pairs myAddresses remoteAddresses) none = result at hbest
  refine ⟨?_, ?_, ?_⟩
  · intro best hresult
    obtain ⟨p, hp, rfl⟩ := Option.mem_map.1 hresult
    exact (mem_pairs.1 (hbest.mem p hp)).2
  · intro best hresult
    obtain ⟨p, hp, rfl⟩ := Option.mem_map.1 hresult
    refine ⟨p.1, (mem_pairs.1 (hbest.mem p hp)).1, fun ours hours remote hremote => ?_⟩
    have hle := hbest.le (ours, remote) (mem_pairs.2 ⟨hours, hremote⟩)
    rw [Option.mem_def.1 hp] at hle
    rwa [commonPrefix_eq, commonPrefix_eq]
  · rw [Option.map_eq_none_iff, hbest.eq_none_iff]
    constructor
    · intro hall ours hours remote hremote
      exact (commonOctets_eq_zero_iff ours remote).1
        (hall (ours, remote) (mem_pairs.2 ⟨hours, hremote⟩))
    · intro hall p hp
      obtain ⟨hours, hremote⟩ := mem_pairs.1 hp
      exact (commonOctets_eq_zero_iff p.1 p.2).2 (hall _ hours _ hremote)

end Lan

end HyperDHT
