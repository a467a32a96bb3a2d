import HyperDHT.Holepunch.Strategies
import Mathlib.Data.List.Chain

/-!
# The verified addresses of a puncher

A puncher marks the addresses under whose host the peer was seen. `update_remote` looks for the hosts that were
marked before in the list that it has just emptied, so that a call forgets every earlier mark: verified is what
the call itself says.

## Main definitions

* `Holepuncher.RemoteUpdate`, `toldRemote` — a call of `update_remote`.
* `Holepuncher.KeepsVerified` — a call leaves no host unmarked that was marked.
* `Holepuncher.Vouched` — every marked host was passed in a call.
* `Holepuncher.Follows` — a call repeats the host that the call before it has marked.

## Main results

* `Holepuncher.remoteAddresses_updateRemote` — the addresses after a call.
* `Holepuncher.vouched_run` — no host is marked that was not passed.
* `Holepuncher.monotone_iff` — marks are kept in exactly the sequences of calls in which each follows the one
  before it.
* `Holepuncher.not_monotone_forgetfulCalls` — a call that names no host.
-/

set_option autoImplicit false

namespace HyperDHT.Holepuncher

open Compact Runs

/-- What a call of `update_remote` is given. -/
structure RemoteUpdate where
  addrs : List Ipv4Address
  verifiedHost : List Char := []
  deriving DecidableEq

/-- The puncher is told of the addresses of its peer. -/
def toldRemote (p : Holepuncher) (c : RemoteUpdate) : Holepuncher := p.updateRemote c.addrs c.verifiedHost

/-- The host is among those of the call. -/
def RemoteUpdate.Lists (c : RemoteUpdate) (host : List Char) : Prop :=
  ∃ addr ∈ c.addrs, addr.hostString = host

/-- The call marks an address by itself. -/
def RemoteUpdate.marks (c : RemoteUpdate) (addr : Ipv4Address) : Bool :=
  !c.verifiedHost.isEmpty && addr.hostString == c.verifiedHost

/-- The entry of an address by the call alone. -/
def RemoteUpdate.entry (c : RemoteUpdate) (addr : Ipv4Address) : RemoteAddr :=
  { addr := addr, verified := c.marks addr }

/-- **A call keeps the marks**: where a host was verified before, all entries of it in the new list are. -/
def KeepsVerified (p : Holepuncher) (c : RemoteUpdate) : Prop :=
  ∀ host, isVerified p.remoteAddresses host = true →
    ∀ ra ∈ (p.toldRemote c).remoteAddresses, ra.addr.hostString = host → ra.verified = true

/-- Every verified host was passed in one of the calls. -/
def Vouched (p : Holepuncher) (calls : List RemoteUpdate) : Prop :=
  ∀ ra ∈ p.remoteAddresses, ra.verified = true → ∃ c ∈ calls, c.verifiedHost = ra.addr.hostString

/-- Verification is monotone: every call of a puncher keeps the marks, and no host is marked that was not
passed. -/
def Monotone (p : Holepuncher) (calls : List RemoteUpdate) : Prop :=
  EveryStep toldRemote KeepsVerified p calls ∧
    ∀ before, before <+: calls → Vouched (run toldRemote p before) before

/-- The second call passes the host again that the first one has marked, if it lists it. -/
def Follows (c d : RemoteUpdate) : Prop :=
  c.verifiedHost ≠ [] → c.Lists c.verifiedHost → d.Lists c.verifiedHost →
    d.verifiedHost = c.verifiedHost

variable {p : Holepuncher} {c d : RemoteUpdate} {calls : List RemoteUpdate}

lemma isVerified_map_marks (c : RemoteUpdate) (addrs : List Ipv4Address) (host : List Char) :
    isVerified (addrs.map c.entry) host = true ↔
      c.verifiedHost ≠ [] ∧ host = c.verifiedHost ∧ ∃ addr ∈ addrs, addr.hostString = host := by
  unfold isVerified RemoteUpdate.entry RemoteUpdate.marks
  simp only [List.any_map, List.any_eq_true, Function.comp_apply, Bool.and_eq_true, Bool.not_eq_true',
    List.isEmpty_eq_false_iff, beq_iff_eq]
  constructor
  · rintro ⟨addr, hmem, ⟨hhost, hmarked⟩, hsame⟩
    exact ⟨hhost, hsame.symm.trans hmarked, addr, hmem, hsame⟩
  · rintro ⟨hhost, hmarked, addr, hmem, hsame⟩
    exact ⟨addr, hmem, ⟨hhost, hsame.trans hmarked⟩, hsame⟩

/-- **What is verified after a call** is what the call itself marks: the marks of the list so far say nothing
new, and those of the list before are gone. -/
theorem remoteAddresses_updateRemote (p : Holepuncher) (c : RemoteUpdate) :
    (p.toldRemote c).remoteAddresses = c.addrs.map c.entry := by
  have hfold (entered addrs : List Ipv4Address) :
      addrs.foldl (fun known addr =>
        known ++ [{
          addr := addr
          verified := (!c.verifiedHost.isEmpty && addr.hostString == c.verifiedHost) ||
            isVerified known addr.hostString }])
        (entered.map c.entry) =
      (entered ++ addrs).map c.entry := by
    induction addrs generalizing entered with
    | nil => rw [List.append_nil, List.foldl_nil]
    | cons addr addrs ih =>
      have hmark : ((!c.verifiedHost.isEmpty && addr.hostString == c.verifiedHost) ||
          isVerified (entered.map c.entry) addr.hostString) = c.marks addr := by
        cases hverified : isVerified (entered.map c.entry) addr.hostString with
        | false => exact Bool.or_false _
        | true =>
          obtain ⟨hhost, hmarked, -⟩ := (isVerified_map_marks c entered addr.hostString).1 hverified
          simp [RemoteUpdate.marks, hhost, hmarked]
      rw [List.foldl_cons, hmark]
      have hnext := ih (entered ++ [addr])
      rw [List.map_append, List.append_assoc] at hnext
      exact hnext
  exact hfold [] c.addrs

lemma isVerified_toldRemote (p : Holepuncher) (c : RemoteUpdate) (host : List Char) :
    isVerified (p.toldRemote c).remoteAddresses host = true ↔
      c.verifiedHost ≠ [] ∧ host = c.verifiedHost ∧ c.Lists host := by
  rw [remoteAddresses_updateRemote]
  exact isVerified_map_marks c c.addrs host

/-- **A call after another** keeps the marks exactly if it follows it. -/
lemma keepsVerified_toldRemote_iff : KeepsVerified (p.toldRemote c) d ↔ Follows c d := by
  unfold KeepsVerified
  constructor
  · rintro hkeeps hhost hlists ⟨addr, hmem, haddr⟩
    have hentry : d.entry addr ∈ ((p.toldRemote c).toldRemote d).remoteAddresses := by
      rw [remoteAddresses_updateRemote]
      exact List.mem_map_of_mem hmem
    have hmarked := hkeeps c.verifiedHost ((isVerified_toldRemote p c _).2 ⟨hhost, rfl, hlists⟩) _ hentry haddr
    simp only [RemoteUpdate.entry, RemoteUpdate.marks, Bool.and_eq_true, beq_iff_eq] at hmarked
    exact hmarked.2.symm.trans haddr
  · intro hfollows host hverified ra hra hsame
    obtain ⟨hhost, rfl, hlists⟩ := (isVerified_toldRemote p c host).1 hverified
    rw [remoteAddresses_updateRemote] at hra
    obtain ⟨addr, hmem, rfl⟩ := List.mem_map.1 hra
    have hagain : d.verifiedHost = c.verifiedHost := hfollows hhost hlists ⟨addr, hmem, hsame⟩
    have haddr : addr.hostString = c.verifiedHost := hsame
    simp [RemoteUpdate.entry, RemoteUpdate.marks, hagain, haddr, hhost]

lemma everyStep_toldRemote_iff :
    EveryStep toldRemote KeepsVerified (p.toldRemote c) calls ↔ (c :: calls).IsChain Follows := by
  induction calls generalizing p c with
  | nil => exact iff_of_true trivial (.singleton c)
  | cons d calls ih => rw [EveryStep, ih, List.isChain_cons_cons, keepsVerified_toldRemote_iff]

/-- **No host is marked that was not passed**, in any sequence of calls. -/
theorem vouched_run (isInitiator hasPool : Bool) (stats : Option PunchStats) (calls : List RemoteUpdate) :
    Vouched (run toldRemote (create isInitiator hasPool stats) calls) calls := by
  rcases List.eq_nil_or_concat calls with rfl | ⟨before, c, rfl⟩
  · exact fun ra hra => absurd hra List.not_mem_nil
  · intro ra hra hverified
    rw [List.concat_eq_append, run_append, run_cons, run_nil, remoteAddresses_updateRemote] at hra
    obtain ⟨addr, -, rfl⟩ := List.mem_map.1 hra
    simp only [RemoteUpdate.entry, RemoteUpdate.marks, Bool.and_eq_true, beq_iff_eq] at hverified
    exact ⟨c, by simp, hverified.2.symm⟩

/-- **Verification is monotone** in exactly the sequences of calls in which each call passes the host again that
the one before it has marked, where it lists this host. -/
theorem monotone_iff (isInitiator hasPool : Bool) (stats : Option PunchStats) (calls : List RemoteUpdate) :
    Monotone (create isInitiator hasPool stats) calls ↔ calls.IsChain Follows := by
  have hvouched : ∀ before, before <+: calls →
      Vouched (run toldRemote (create isInitiator hasPool stats) before) before :=
    fun before _ => vouched_run isInitiator hasPool stats before
  refine (and_iff_left hvouched).trans ?_
  cases calls with
  | nil => exact iff_of_true trivial .nil
  | cons c calls =>
    rw [EveryStep, everyStep_toldRemote_iff]
    refine and_iff_right fun host hnone => ?_
    exact absurd hnone Bool.false_ne_true

def firstAddr : Ipv4Address := .ofOctets 10 0 0 1 5000

def otherAddr : Ipv4Address := .ofOctets 10 0 0 2 5000

/-- The peer was seen under the first of its addresses; then another one is told, and no host is named. -/
def forgetfulCalls : List RemoteUpdate :=
  [{ addrs := [firstAddr], verifiedHost := firstAddr.hostString }, { addrs := [firstAddr, otherAddr] }]

/-- The second call forgets that the host was verified. -/
theorem not_monotone_forgetfulCalls : ¬ Monotone (create true false none) forgetfulCalls := by
  intro h
  have hlost := h.1.2.1 firstAddr.hostString (by decide) { addr := firstAddr } (by decide) rfl
  exact Bool.noConfusion hlost

end HyperDHT.Holepuncher
