import HyperDHT.NatSampler.Ordering

/-!
# The accounts of the NAT sampler

The two lists of the sampler count the same samples, one by host and port and one by host. The order of the lists may
be wrong; the counts are right.

## Main definitions

* `NatSampler.hitsOf` — the hits of the entries whose key meets a condition.
* `NatSampler.taken` — the samples that a run of calls has taken since the last reset, with their sources.
* `NatSampler.Accounts` — the lists count the samples that were taken.

## Main results

* `NatSampler.hitsOf_addSample` — an insertion counts one more hit, of its own key.
* `NatSampler.accounts_run` — the accounts are right after every run, and a frozen sampler does not reclassify.
-/

set_option autoImplicit false

namespace HyperDHT.NatSampler

open Compact Runs

/-! ## Counting -/

/-- The key of an entry. -/
def Sample.key (s : Sample) : List Char × UInt16 := (s.host, s.port)

/-- The hits of the entries whose key meets a condition. -/
def hitsOf (p : List Char × UInt16 → Bool) (samples : List Sample) : ℕ :=
  ((samples.filter fun s => p s.key).map Sample.hits).sum

lemma hitsOf_append (p : List Char × UInt16 → Bool) (l r : List Sample) :
    hitsOf p (l ++ r) = hitsOf p l + hitsOf p r := by
  simp [hitsOf]

lemma hitsOf_cons (p : List Char × UInt16 → Bool) (s : Sample) (r : List Sample) :
    hitsOf p (s :: r) = (if p s.key then s.hits else 0) + hitsOf p r := by
  rw [hitsOf, List.filter_cons]
  split
  · rw [List.map_cons, List.sum_cons, hitsOf]
  · rw [Nat.zero_add, hitsOf]

lemma hitsOf_perm (p : List Char × UInt16 → Bool) {l r : List Sample} (h : l.Perm r) :
    hitsOf p l = hitsOf p r :=
  ((h.filter _).map _).sum_eq

/-- **What an insertion does**, up to the order: one more hit of the entry of the key, or a new entry. -/
lemma addSample_perm (samples : List Sample) (host : List Char) (port : UInt16) :
    (∃ l s r, samples = l ++ s :: r ∧ s.key = (host, port) ∧
        (addSample samples host port).Perm (l ++ { s with hits := s.hits + 1 } :: r)) ∨
      (∀ s ∈ samples, s.key ≠ (host, port)) ∧ addSample samples host port = samples ++ [⟨host, port, 1⟩] := by
  cases h : findSample samples host port with
  | some i =>
    obtain ⟨l, s, r, rfl, rfl, hhost, hport⟩ := exists_split_of_findSample h
    refine Or.inl ⟨l, s, r, rfl, Prod.ext hhost hport, ?_⟩
    have hperm := bubbleUp_perm l.length l.length ((l ++ s :: r).modify l.length
      fun s => { s with hits := s.hits + 1 })
    rw [addSample, h]
    rw [modify_append_length] at hperm
    simpa only [modify_append_length] using hperm
  | none =>
    refine Or.inr ⟨fun s hs hkey => ?_, by rw [addSample, h]⟩
    have hnone := List.findIdx?_eq_none_iff.1 h s hs
    simp [Sample.key] at hkey
    simp [hkey] at hnone

/-- **An insertion counts one more hit**, of its own key. -/
lemma hitsOf_addSample (p : List Char × UInt16 → Bool) (samples : List Sample) (host : List Char) (port : UInt16) :
    hitsOf p (addSample samples host port) = hitsOf p samples + if p (host, port) then 1 else 0 := by
  rcases addSample_perm samples host port with ⟨l, s, r, rfl, hkey, hperm⟩ | ⟨-, heq⟩
  · have hkey' : Sample.key { s with hits := s.hits + 1 } = (host, port) := hkey
    rw [hitsOf_perm p hperm, hitsOf_append, hitsOf_append, hitsOf_cons, hitsOf_cons, hkey', hkey]
    split
    · dsimp only
      omega
    · omega
  · rw [heq, hitsOf_append, hitsOf_cons]
    rfl

lemma nodup_addSample {samples : List Sample} (h : (samples.map Sample.key).Nodup) (host : List Char)
    (port : UInt16) : ((addSample samples host port).map Sample.key).Nodup := by
  rcases addSample_perm samples host port with ⟨l, s, r, rfl, hkey, hperm⟩ | ⟨hnew, heq⟩
  · rw [(hperm.map _).nodup_iff]
    simpa [Sample.key] using h
  · rw [heq, List.map_append, List.map_singleton, List.nodup_append]
    refine ⟨h, List.nodup_singleton _, fun key hmem key' hmem' heq => ?_⟩
    obtain ⟨s, hs, rfl⟩ := List.mem_map.1 hmem
    exact hnew s hs (heq.trans (List.mem_singleton.1 hmem'))

lemma key_of_mem_addSample {samples : List Sample} {host : List Char} {port : UInt16} {e : Sample}
    (h : e ∈ addSample samples host port) : (∃ s ∈ samples, s.key = e.key) ∨ e.key = (host, port) := by
  rcases addSample_perm samples host port with ⟨l, s, r, rfl, hkey, hperm⟩ | ⟨-, heq⟩
  · rw [hperm.mem_iff, List.mem_append, List.mem_cons] at h
    rcases h with hl | rfl | hr
    · exact Or.inl ⟨e, by simp [hl], rfl⟩
    · exact Or.inr hkey
    · exact Or.inl ⟨e, by simp [hr], rfl⟩
  · rw [heq, List.mem_append, List.mem_singleton] at h
    rcases h with hs | rfl
    · exact Or.inl ⟨e, hs, rfl⟩
    · exact Or.inr rfl

lemma hitsOf_key {samples : List Sample} (h : (samples.map Sample.key).Nodup) {e : Sample} (he : e ∈ samples) :
    hitsOf (fun key => key = e.key) samples = e.hits := by
  induction samples with
  | nil => exact absurd he List.not_mem_nil
  | cons s samples ih =>
    rw [List.map_cons, List.nodup_cons] at h
    rw [hitsOf_cons]
    rcases List.mem_cons.1 he with rfl | hmem
    · have hnone : hitsOf (fun key => key = e.key) samples = 0 := by
        rw [hitsOf, List.filter_eq_nil_iff.2, List.map_nil, List.sum_nil]
        intro s hs hkey
        exact h.1 (of_decide_eq_true hkey ▸ List.mem_map_of_mem hs)
      simp [hnone]
    · have hne : s.key ≠ e.key := fun heq => h.1 (heq ▸ List.mem_map_of_mem hmem)
      simp [hne, ih h.2 hmem]

/-! ## The samples that were taken -/

/-- The samples taken by a call: the address that was seen, and the source that saw it. -/
def takenStep (s : State) (samples : List (Ipv4Address × Ipv4Address)) : Op → List (Ipv4Address × Ipv4Address)
  | .add addr source => if s.accepts source then samples ++ [(addr, source)] else samples
  | .reset => []
  | .freeze => samples
  | .unfreeze => samples

/-- The samples taken by a run of calls since the last reset, after those of `samples`. -/
def taken : State → List (Ipv4Address × Ipv4Address) → List Op → List (Ipv4Address × Ipv4Address)
  | _, samples, [] => samples
  | s, samples, op :: ops => taken (step s op) (takenStep s samples op) ops

/-- **The accounts of the sampler**: its lists count the samples that were taken, one for each source. -/
structure Accounts (s : State) (samples : List (Ipv4Address × Ipv4Address)) : Prop where
  sampled : s.sampled = samples.length
  visited : s.visited = (samples.map fun t => t.2.hostPort).toFinset
  card : s.visited.card = samples.length
  sources : (samples.map Prod.snd).Nodup
  le : s.sampled ≤ 1024
  full : ∀ p, hitsOf p s.samplesFull = samples.countP fun t => p (t.1.hostString, t.1.port)
  host : ∀ p, hitsOf p s.samplesHost = samples.countP fun t => p (t.1.hostString, 0)
  fullKeys : (s.samplesFull.map Sample.key).Nodup
  hostKeys : (s.samplesHost.map Sample.key).Nodup
  hostPorts : ∀ e ∈ s.samplesHost, e.port = 0

/-! ### What the calls leave alone -/

namespace State

@[simp] lemma updateFirewall_visited (s : State) : s.updateFirewall.visited = s.visited := by
  unfold updateFirewall
  split_ifs <;> rfl

@[simp] lemma reclassify_visited (s : State) : s.reclassify.visited = s.visited := by
  unfold reclassify
  split_ifs <;> simp [updateAddresses]

@[simp] lemma updateHost_visited (s : State) : s.updateHost.visited = s.visited := by
  unfold updateHost
  split <;> rfl

lemma add_of_frozen {s : State} (h : s.frozen = true) (addr source : Ipv4Address) :
    (s.add addr source).1.firewall = s.firewall ∧ (s.add addr source).1.addresses = s.addresses := by
  have hsame : (s.record addr source).reclassify = s.record addr source := by
    rw [reclassify, if_neg]
    simp [record, h]
  rw [add]
  split
  · rw [hsame, updateHost]
    split <;> exact ⟨rfl, rfl⟩
  · exact ⟨rfl, rfl⟩

end State

lemma Accounts.congr {s s' : State} {samples : List (Ipv4Address × Ipv4Address)} (h : Accounts s samples)
    (hsampled : s'.sampled = s.sampled) (hvisited : s'.visited = s.visited)
    (hfull : s'.samplesFull = s.samplesFull) (hhost : s'.samplesHost = s.samplesHost) : Accounts s' samples := by
  refine ⟨hsampled.trans h.sampled, hvisited.trans h.visited, hvisited ▸ h.card, h.sources, hsampled ▸ h.le, ?_, ?_,
    hfull ▸ h.fullKeys, hhost ▸ h.hostKeys, hhost ▸ h.hostPorts⟩
  · rw [hfull]
    exact h.full
  · rw [hhost]
    exact h.host

lemma Accounts.record {s : State} {samples : List (Ipv4Address × Ipv4Address)} (h : Accounts s samples)
    {addr source : Ipv4Address} (haccepts : s.accepts source) :
    Accounts (s.record addr source) (samples ++ [(addr, source)]) := by
  obtain ⟨hnew, hroom⟩ := haccepts
  have hlength : (samples ++ [(addr, source)]).length = samples.length + 1 := by simp
  have hsource : source ∉ samples.map Prod.snd := by
    intro hmem
    obtain ⟨t, ht, heq⟩ := List.mem_map.1 hmem
    refine hnew ?_
    rw [h.visited, List.mem_toFinset, ← heq]
    exact List.mem_map_of_mem ht
  have hcount (p : Ipv4Address × Ipv4Address → Bool) : (samples ++ [(addr, source)]).countP p =
      samples.countP p + if p (addr, source) then 1 else 0 := by
    rw [List.countP_append, List.countP_singleton]
  refine ⟨?_, ?_, ?_, ?_, ?_, fun p => ?_, fun p => ?_, nodup_addSample h.fullKeys _ _,
    nodup_addSample h.hostKeys _ _, fun e he => ?_⟩
  · rw [hlength, State.record, h.sampled]
  · rw [State.record, h.visited]
    ext text
    simp
  · rw [hlength, State.record, Finset.card_insert_of_notMem hnew, h.card]
  · rw [List.map_append, List.map_singleton]
    exact List.concat_eq_append ▸ h.sources.concat hsource
  · have hcard := h.card
    have hsampled := h.sampled
    rw [maxVisited] at hroom
    show s.sampled + 1 ≤ 1024
    omega
  · rw [hcount, ← h.full]
    exact hitsOf_addSample p s.samplesFull _ _
  · rw [hcount, ← h.host]
    exact hitsOf_addSample p s.samplesHost _ _
  · rcases key_of_mem_addSample he with ⟨e', he', hkey⟩ | hkey
    · exact (congrArg Prod.snd hkey).symm.trans (h.hostPorts e' he')
    · exact congrArg Prod.snd hkey

/-- **Every call keeps the accounts.** -/
lemma accounts_step {s : State} {samples : List (Ipv4Address × Ipv4Address)} (h : Accounts s samples) (op : Op) :
    Accounts (step s op) (takenStep s samples op) := by
  cases op with
  | add addr source =>
    rw [step, takenStep, State.add]
    split
    next haccepts => exact (h.record haccepts).congr (by simp) (by simp) (by simp) (by simp)
    · exact h
  | freeze => exact h.congr rfl rfl rfl rfl
  | unfreeze =>
    have hclear : Accounts { s with frozen := false } samples := h.congr rfl rfl rfl rfl
    exact hclear.congr (State.updateFirewall_sampled _) (State.updateFirewall_visited _)
      (State.updateFirewall_samplesFull _) (State.updateFirewall_samplesHost _)
  | reset =>
    exact ⟨rfl, rfl, rfl, List.nodup_nil, Nat.zero_le _, fun _ => rfl, fun _ => rfl, List.nodup_nil,
      List.nodup_nil, fun e he => absurd he List.not_mem_nil⟩

/-- **The accounts of a run.** -/
lemma accounts_taken {s : State} {samples : List (Ipv4Address × Ipv4Address)} (h : Accounts s samples)
    (ops : List Op) : Accounts (run step s ops) (taken s samples ops) := by
  induction ops generalizing s samples with
  | nil => exact h
  | cons op ops ih => exact ih (accounts_step h op)

/-- What a state of the sampler says about the samples that were taken: each list has as many hits as samples were
taken, one for each visited source; its entries are different, and those of one host have the hits of the host. No
source was taken twice, and while the sampler is frozen an addition changes neither the class nor the addresses. -/
structure Accounted (s : State) (samples : List (Ipv4Address × Ipv4Address)) : Prop where
  fullSum : (s.samplesFull.map Sample.hits).sum = s.sampled
  hostSum : (s.samplesHost.map Sample.hits).sum = s.sampled
  visited : s.sampled = s.visited.card
  le : s.sampled ≤ 1024
  fullKeys : (s.samplesFull.map fun e => (e.host, e.port)).Nodup
  hostKeys : (s.samplesHost.map Sample.host).Nodup
  hosts : ∀ e ∈ s.samplesHost, e.hits = ((s.samplesFull.filter fun f => f.host = e.host).map Sample.hits).sum
  taken : s.sampled = samples.length
  once : (samples.map Prod.snd).Nodup
  fullCounts : ∀ e ∈ s.samplesFull,
    e.hits = samples.countP fun t => t.1.hostString = e.host ∧ t.1.port = e.port
  frozen : s.frozen = true → ∀ addr source,
    (s.add addr source).1.firewall = s.firewall ∧ (s.add addr source).1.addresses = s.addresses

lemma hitsOf_true (samples : List Sample) : hitsOf (fun _ => true) samples = (samples.map Sample.hits).sum := by
  rw [hitsOf, List.filter_true]

lemma Accounts.accounted {s : State} {samples : List (Ipv4Address × Ipv4Address)} (h : Accounts s samples) :
    Accounted s samples := by
  have hall : samples.countP (fun _ => true) = s.sampled := by rw [List.countP_true, h.sampled]
  have hkeys : s.samplesHost.map Sample.key = (s.samplesHost.map Sample.host).map fun host => (host, 0) := by
    rw [List.map_map]
    exact List.map_congr_left fun e he => Prod.ext rfl (h.hostPorts e he)
  refine ⟨?_, ?_, h.sampled.trans h.card.symm, h.le, h.fullKeys, ?_, fun e he => ?_, h.sampled, h.sources,
    fun e he => ?_, fun hfrozen => State.add_of_frozen hfrozen⟩
  · rw [← hitsOf_true, h.full, hall]
  · rw [← hitsOf_true, h.host, hall]
  · have hnodup := h.hostKeys
    rw [hkeys] at hnodup
    exact hnodup.of_map _
  · have hfull : ((s.samplesFull.filter fun f => f.host = e.host).map Sample.hits).sum =
        hitsOf (fun key => key.1 = e.host) s.samplesFull := rfl
    rw [← hitsOf_key h.hostKeys he, h.host, hfull, h.full]
    refine List.countP_congr fun t _ => ?_
    simp [Sample.key, h.hostPorts e he]
  · rw [← hitsOf_key h.fullKeys he, h.full]
    refine List.countP_congr fun t _ => ?_
    simp [Sample.key]

/-- **The accounts of the sampler** are right after every run of its calls. -/
theorem accounts_run (ops : List Op) : Accounted (run step {} ops) (taken {} [] ops) := by
  have hinit : Accounts {} [] := ⟨rfl, rfl, rfl, List.nodup_nil, Nat.zero_le _, fun _ => rfl, fun _ => rfl,
    List.nodup_nil, List.nodup_nil, fun e he => absurd he List.not_mem_nil⟩
  exact (accounts_taken hinit ops).accounted

end HyperDHT.NatSampler
