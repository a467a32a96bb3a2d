import HyperDHT.NatSampler.Basic

/-!
# The order of the sampler's lists

The lists of the sampler are meant to be sorted by hits, the largest first: the classification
reads its first two entries, and the reported host and port are those of the first. The
bubble-up loop moves a sample by at most one position, because after its first swap the loop's
reference reads the entry that was just overtaken. The order therefore survives a call exactly
when the sample has to climb at most one position.

## Main definitions

* `NatSampler.Descending` — a list is sorted by hits, the largest first.
* `NatSampler.maxHits`, `NatSampler.secondHits` — the largest hit count of a list, and the
  largest of the others.
* `NatSampler.OrderingLaw` — what the order gives after a call: sorted lists, a reported
  address of maximal hits, and the class of the true maxima.
* `NatSampler.ClimbsAtMostOne` — the condition under which one insertion keeps the order.

## Main results

* `NatSampler.descending_addSample_iff` — an insertion keeps the order exactly under that
  condition.
* `NatSampler.orderingLaw_iff_climbsAtMostOne` — the law holds after every call of a run
  exactly when every accepted sample climbs at most one position in both lists.
-/

set_option autoImplicit false

namespace HyperDHT.NatSampler

open Compact Runs

/-! ## Sorted lists of samples -/

/-- The list is sorted by hits, the largest first. -/
def Descending (samples : List Sample) : Prop :=
  samples.Pairwise fun a b => b.hits ≤ a.hits

instance (samples : List Sample) : Decidable (Descending samples) :=
  inferInstanceAs (Decidable (List.Pairwise _ _))

/-- The largest hit count of the list. -/
def maxHits (samples : List Sample) : ℕ := (samples.map Sample.hits).foldr max 0

/-- The largest hit count of the list once one entry of the largest is taken away. -/
def secondHits (samples : List Sample) : ℕ :=
  ((samples.map Sample.hits).erase (maxHits samples)).foldr max 0

/-- The sample for the address is new, or it is among the first two entries, or the entry two
places before it has more hits. -/
def ClimbsAtMostOne (samples : List Sample) (host : List Char) (port : UInt16) : Prop :=
  match findSample samples host port with
  | some (i + 2) => hitsAt samples (i + 2) < hitsAt samples i
  | _ => True

instance (samples : List Sample) (host : List Char) (port : UInt16) :
    Decidable (ClimbsAtMostOne samples host port) := by
  unfold ClimbsAtMostOne
  split <;> infer_instance

@[simp] lemma hitsAt_append_length (l r : List Sample) (s : Sample) :
    hitsAt (l ++ s :: r) l.length = s.hits := by
  simp [hitsAt]

lemma hitsAt_append_add (l r : List Sample) (i : ℕ) :
    hitsAt (l ++ r) (l.length + i) = hitsAt r i := by
  simp [hitsAt, List.getElem?_append_right]

@[simp] lemma swapAt_append_length (l r : List Sample) (a b : Sample) :
    swapAt (l ++ a :: b :: r) l.length = l ++ b :: a :: r := by
  induction l with
  | nil => rfl
  | cons c l ih => simp [swapAt, ih]

@[simp] lemma modify_append_length (l r : List Sample) (s : Sample) (f : Sample → Sample) :
    (l ++ s :: r).modify l.length f = l ++ f s :: r := by
  induction l with
  | nil => rfl
  | cons c l ih => simp [ih]

lemma exists_split_of_findSample {samples : List Sample} {host : List Char} {port : UInt16}
    {i : ℕ} (h : findSample samples host port = some i) :
    ∃ l s r, samples = l ++ s :: r ∧ l.length = i ∧ s.host = host ∧ s.port = port := by
  obtain ⟨hi, hs, -⟩ := List.findIdx?_eq_some_iff_getElem.1 h
  refine ⟨samples.take i, samples[i], samples.drop (i + 1), ?_, ?_, ?_⟩
  · simp
  · simp; omega
  · simpa using hs

/-- The bubble-up loop on a list whose part before the sample is sorted: the sample passes its
predecessor if that one has fewer hits, and the loop stops there.

**Proof sketch.** After the swap the slot holds the old predecessor `p`, and the entry before
the new position has at least as many hits. -/
lemma bubbleUp_append (l r : List Sample) (p s : Sample) (hl : Descending (l ++ [p])) :
    bubbleUp (l.length + 1) (l.length + 1) (l ++ p :: s :: r) =
      if p.hits ≥ s.hits then l ++ p :: s :: r else l ++ s :: p :: r := by
  have hslot : hitsAt (l ++ p :: s :: r) (l.length + 1) = s.hits := by
    rw [hitsAt_append_add]; rfl
  rw [bubbleUp, hslot, hitsAt_append_length, swapAt_append_length]
  split
  · rfl
  · -- the second iteration compares with the slot, which now holds `p`
    rcases List.eq_nil_or_concat' l with rfl | ⟨l, q, rfl⟩
    · rfl
    · have hq : p.hits ≤ q.hits := by
        have h := (List.pairwise_append.1 hl).2.2 q (by simp) p (by simp)
        exact h
      have h1 : hitsAt (l ++ [q] ++ s :: p :: r) ((l ++ [q]).length + 1) = p.hits := by
        rw [hitsAt_append_add]; rfl
      have h2 : hitsAt (l ++ [q] ++ s :: p :: r) l.length = q.hits := by
        rw [List.append_assoc, List.cons_append, hitsAt_append_length]
      rw [show (l ++ [q]).length = l.length + 1 by simp] at h1 ⊢
      rw [bubbleUp, h2, h1, if_pos hq]

lemma descending_append_cons_iff (l r : List Sample) (s : Sample) :
    Descending (l ++ s :: r) ↔
      Descending (l ++ r) ∧ (∀ a ∈ l, s.hits ≤ a.hits) ∧ ∀ b ∈ r, b.hits ≤ s.hits := by
  simp only [Descending, List.pairwise_append, List.pairwise_cons, List.mem_cons,
    forall_eq_or_imp]
  constructor
  · rintro ⟨hl, ⟨hs, hr⟩, hlr⟩
    exact ⟨⟨hl, hr, fun a ha => (hlr a ha).2⟩, fun a ha => (hlr a ha).1, hs⟩
  · rintro ⟨⟨hl, hr, hlr⟩, hla, hs⟩
    exact ⟨hl, ⟨hs, hr⟩, fun a ha => ⟨hla a ha, hlr a ha⟩⟩

lemma forall_lt_hits_iff_getLast (l : List Sample) (hl : Descending l) (n : ℕ) :
    (∀ a ∈ l, n < a.hits) ↔ ∀ q ∈ l.getLast?, n < q.hits := by
  rcases List.eq_nil_or_concat' l with rfl | ⟨l, q, rfl⟩
  · simp
  · have hq : ∀ a ∈ l, q.hits ≤ a.hits := fun a ha =>
      (List.pairwise_append.1 hl).2.2 a ha q (by simp)
    simp only [List.mem_append, List.mem_singleton, List.getLast?_append, List.getLast?_singleton,
      Option.some_or, Option.mem_def, Option.some.injEq]
    constructor
    · rintro h _ rfl
      exact h _ (Or.inr rfl)
    · intro h a ha
      have hn := h q rfl
      rcases ha with ha | rfl
      · exact hn.trans_le (hq a ha)
      · exact hn

lemma climbsAtMostOne_iff_getLast {l r : List Sample} {p s : Sample} {host : List Char}
    {port : UInt16} (h : findSample (l ++ p :: s :: r) host port = some (l.length + 1)) :
    ClimbsAtMostOne (l ++ p :: s :: r) host port ↔ ∀ q ∈ l.getLast?, s.hits < q.hits := by
  have hslot : hitsAt (l ++ p :: s :: r) (l.length + 1) = s.hits := by
    rw [hitsAt_append_add]; rfl
  unfold ClimbsAtMostOne
  rw [h]
  rcases List.eq_nil_or_concat' l with rfl | ⟨l, q, rfl⟩
  · simp
  · have h2 : hitsAt (l ++ [q] ++ p :: s :: r) l.length = q.hits := by
      rw [List.append_assoc, List.cons_append, hitsAt_append_length]
    rw [show (l ++ [q]).length = l.length + 1 by simp] at hslot ⊢
    simp only [hslot, h2, List.getLast?_append, List.getLast?_singleton, Option.some_or,
      Option.mem_def, Option.some.injEq, forall_eq']

/-- **An insertion keeps the order exactly when the sample climbs at most one position.**

**Proof sketch.** A new sample goes to the end with one hit. A found sample splits the list as
`l ++ p :: s :: r`. If `p` has more hits than `s` had, nothing moves. Otherwise `s` passes `p`, and
the order holds iff the last entry of `l` has more hits than `s` had. -/
theorem descending_addSample_iff {samples : List Sample} (hs : Descending samples)
    (hpos : ∀ t ∈ samples, 1 ≤ t.hits) (host : List Char) (port : UInt16) :
    Descending (addSample samples host port) ↔ ClimbsAtMostOne samples host port := by
  unfold addSample
  cases h : findSample samples host port with
  | none =>
    have hc : ClimbsAtMostOne samples host port := by simp [ClimbsAtMostOne, h]
    refine iff_of_true ?_ hc
    rw [descending_append_cons_iff]
    simpa using ⟨hs, hpos⟩
  | some i =>
    obtain ⟨l, s, r, rfl, rfl, -⟩ := exists_split_of_findSample h
    dsimp only
    rcases List.eq_nil_or_concat' l with rfl | ⟨l, p, rfl⟩
    · -- the first entry only gains a hit
      have hc : ClimbsAtMostOne (s :: r) host port := by
        simp only [List.nil_append, List.length_nil] at h
        simp [ClimbsAtMostOne, h]
      refine iff_of_true ?_ hc
      rw [descending_append_cons_iff] at hs
      rw [modify_append_length, List.length_nil, bubbleUp, descending_append_cons_iff]
      exact ⟨hs.1, by simp, fun b hb => (hs.2.2 b hb).trans (Nat.le_succ _)⟩
    · rw [modify_append_length]
      simp only [List.append_assoc, List.singleton_append, List.length_append,
        List.length_singleton] at hs h ⊢
      have hlp : Descending (l ++ [p]) :=
        hs.sublist (List.Sublist.append_left (by simp) l)
      rw [climbsAtMostOne_iff_getLast h, bubbleUp_append l r p _ hlp]
      rw [descending_append_cons_iff, descending_append_cons_iff] at hs
      obtain ⟨⟨hlr, hls, hsr⟩, hlp', hpsr⟩ := hs
      have hps : s.hits ≤ p.hits := hpsr s (by simp)
      have hl : Descending l := hlr.sublist (by simp)
      rw [← forall_lt_hits_iff_getLast l hl]
      split
      · -- `p` stays in front: both sides hold
        rename_i hp
        simp only at hp
        refine iff_of_true ?_ fun a ha => (Nat.lt_of_succ_le hp).trans_le (hlp' a ha)
        rw [descending_append_cons_iff, descending_append_cons_iff]
        refine ⟨⟨hlr, fun a ha => hp.trans (hlp' a ha), fun b hb => (hsr b hb).trans (Nat.le_succ _)⟩,
          hlp', ?_⟩
        simp only [List.mem_cons, forall_eq_or_imp]
        exact ⟨hp, fun b hb => hpsr b (by simp [hb])⟩
      · -- `s` passes `p`
        rename_i hp
        simp only at hp
        rw [descending_append_cons_iff, descending_append_cons_iff]
        simp only [List.mem_cons, forall_eq_or_imp]
        constructor
        · rintro ⟨-, h, -⟩ a ha
          exact h a ha
        · intro h
          exact ⟨⟨hlr, hlp', fun b hb => hpsr b (by simp [hb])⟩, h, by omega,
            fun b hb => (hsr b hb).trans (Nat.le_succ _)⟩

lemma swapAt_perm (l : List Sample) (i : ℕ) : (swapAt l i).Perm l := by
  induction l, i using swapAt.induct with
  | case1 a b l => exact List.Perm.swap a b l
  | case2 a l i ih => rw [swapAt]; exact ih.cons a
  | case3 l i h1 h2 => rw [swapAt]; exacts [h1, h2]

lemma bubbleUp_perm (slot i : ℕ) (l : List Sample) : (bubbleUp slot i l).Perm l := by
  induction i generalizing l with
  | zero => exact List.Perm.refl l
  | succ i ih =>
    rw [bubbleUp]
    split
    · exact List.Perm.refl l
    · exact (ih _).trans (swapAt_perm l i)

lemma mem_addSample {samples : List Sample} {host : List Char} {port : UInt16} {t : Sample}
    (ht : t ∈ addSample samples host port) : t ∈ samples ∨ 1 ≤ t.hits := by
  unfold addSample at ht
  cases h : findSample samples host port with
  | none =>
    simp only [h, List.mem_append, List.mem_singleton] at ht
    rcases ht with ht | rfl
    · exact Or.inl ht
    · exact Or.inr le_rfl
  | some i =>
    obtain ⟨l, s, r, rfl, rfl, -⟩ := exists_split_of_findSample h
    rw [h] at ht
    dsimp only at ht
    rw [(bubbleUp_perm _ _ _).mem_iff, modify_append_length] at ht
    simp only [List.mem_append, List.mem_cons] at ht ⊢
    rcases ht with ht | rfl | ht
    · exact Or.inl (Or.inl ht)
    · exact Or.inr (Nat.le_add_left 1 _)
    · exact Or.inl (Or.inr (Or.inr ht))

lemma addSample_ne_nil (samples : List Sample) (host : List Char) (port : UInt16) :
    addSample samples host port ≠ [] := by
  unfold addSample
  cases h : findSample samples host port with
  | none => simp
  | some i =>
    obtain ⟨l, s, r, rfl, rfl, -⟩ := exists_split_of_findSample h
    intro hnil
    have hlen := (bubbleUp_perm l.length l.length ((l ++ s :: r).modify l.length
      fun s => { s with hits := s.hits + 1 })).length_eq
    simp only [hnil, List.length_nil, List.length_modify, List.length_append,
      List.length_cons] at hlen
    omega

lemma maxHits_cons {t : Sample} {l : List Sample} (h : Descending (t :: l)) :
    maxHits (t :: l) = t.hits := by
  have hle : ∀ l : List Sample, (∀ b ∈ l, b.hits ≤ t.hits) → maxHits l ≤ t.hits := by
    intro l
    induction l with
    | nil => exact fun _ => Nat.zero_le _
    | cons b l ih =>
      intro h
      simp only [List.mem_cons, forall_eq_or_imp] at h
      exact max_le h.1 (ih h.2)
  exact max_eq_left (hle l (List.pairwise_cons.1 h).1)

lemma maxHits_eq_hitsAt {l : List Sample} (h : Descending l) : maxHits l = hitsAt l 0 := by
  cases l with
  | nil => rfl
  | cons t l => exact maxHits_cons h

lemma secondHits_eq_hitsAt {l : List Sample} (h : Descending l) :
    secondHits l = hitsAt l 1 := by
  cases l with
  | nil => rfl
  | cons t l =>
    have htail : Descending l := (List.pairwise_cons.1 h).2
    rw [secondHits, maxHits_cons h, List.map_cons, List.erase_cons_head]
    exact maxHits_eq_hitsAt htail

/-! ## The law of the order -/

/-- Whether a call runs the ladder: an accepted sample from the third on, unless frozen, and the
end of a freeze. -/
def Reclassifies (s : State) : Op → Prop
  | .add _ source => s.accepts source ∧ 3 ≤ s.sampled + 1 ∧ s.frozen = false
  | .unfreeze => 3 ≤ s.sampled
  | _ => False

/-- What the order of the lists gives for the state after a call. -/
structure OrderingLaw (s : State) (op : Op) : Prop where
  /-- The list by host and port is sorted. -/
  full : Descending (step s op).samplesFull
  /-- The list by host is sorted. -/
  byHost : Descending (step s op).samplesHost
  /-- The first entry has the largest hit count. -/
  top : ∀ t ∈ (step s op).samplesFull.head?, t.hits = maxHits (step s op).samplesFull
  /-- After an accepted sample, the reported address has the largest hit count. -/
  address : ∀ addr source, op = .add addr source → s.accepts source →
    ∃ t ∈ (step s op).samplesFull, t.host = (step s op).host ∧ t.port = (step s op).port ∧
      t.hits = maxHits (step s op).samplesFull
  /-- The class is the ladder's on the two largest hit counts. -/
  firewall : Reclassifies s op → (step s op).firewall =
    classify (maxHits (step s op).samplesFull) (secondHits (step s op).samplesFull)
      (step s op).samplesHost.length (step s op).sampled s.firewall

/-- Every accepted sample climbs at most one position, in both lists. -/
def ClimbsInBoth (s : State) : Op → Prop
  | .add addr source => s.accepts source →
      ClimbsAtMostOne s.samplesHost addr.hostString 0 ∧
        ClimbsAtMostOne s.samplesFull addr.hostString addr.port
  | _ => True

instance (s : State) (op : Op) : Decidable (ClimbsInBoth s op) := by
  cases op <;> (unfold ClimbsInBoth; infer_instance)

/-- The lists are sorted and have positive hit counts, and there is an entry once a sample was
taken. -/
structure Ordered (s : State) : Prop where
  full : Descending s.samplesFull
  byHost : Descending s.samplesHost
  fullPos : ∀ t ∈ s.samplesFull, 1 ≤ t.hits
  byHostPos : ∀ t ∈ s.samplesHost, 1 ≤ t.hits
  nonempty : 0 < s.sampled → s.samplesFull ≠ []

lemma ordered_init : Ordered {} := by
  constructor <;> simp [Descending]

lemma step_add_of_accepts {s : State} {addr source : Ipv4Address} (h : s.accepts source) :
    step s (.add addr source) = (s.record addr source).reclassify.updateHost := by
  simp only [step, State.add, if_pos h]

lemma step_add_of_not_accepts {s : State} {addr source : Ipv4Address} (h : ¬ s.accepts source) :
    step s (.add addr source) = s := by
  simp only [step, State.add, if_neg h]

lemma step_lists {s : State} {op : Op} (h : ∀ addr source, op = .add addr source →
    ¬ s.accepts source) :
    ((step s op).samplesFull = s.samplesFull ∧ (step s op).samplesHost = s.samplesHost ∧
      (step s op).sampled = s.sampled) ∨
    ((step s op).samplesFull = [] ∧ (step s op).samplesHost = [] ∧ (step s op).sampled = 0) := by
  cases op with
  | add addr source => rw [step_add_of_not_accepts (h addr source rfl)]; exact Or.inl ⟨rfl, rfl, rfl⟩
  | freeze => exact Or.inl ⟨rfl, rfl, rfl⟩
  | unfreeze => exact Or.inl (by simp [step, State.unfreeze, State.updateAddresses])
  | reset => exact Or.inr ⟨rfl, rfl, rfl⟩

lemma descending_step_iff {s : State} (hs : Ordered s) (op : Op) :
    Descending (step s op).samplesFull ∧ Descending (step s op).samplesHost ↔
      ClimbsInBoth s op := by
  by_cases h : ∃ addr source, op = .add addr source ∧ s.accepts source
  · obtain ⟨addr, source, rfl, hacc⟩ := h
    rw [step_add_of_accepts hacc]
    simp only [State.updateHost_samplesFull, State.reclassify_samplesFull,
      State.updateHost_samplesHost, State.reclassify_samplesHost, State.record, ClimbsInBoth, hacc,
      forall_const, descending_addSample_iff hs.full hs.fullPos,
      descending_addSample_iff hs.byHost hs.byHostPos]
    exact and_comm
  · simp only [not_exists, not_and] at h
    have hcond : ClimbsInBoth s op := by
      cases op with
      | add addr source => exact fun hacc => absurd hacc (h addr source rfl)
      | _ => trivial
    refine iff_of_true ?_ hcond
    rcases step_lists h with ⟨h1, h2, -⟩ | ⟨h1, h2, -⟩
    · rw [h1, h2]; exact ⟨hs.full, hs.byHost⟩
    · rw [h1, h2]; exact ⟨List.Pairwise.nil, List.Pairwise.nil⟩

/-- **One call keeps the sampler ordered when its sample climbs at most one position.** -/
lemma ordered_step {s : State} (hs : Ordered s) (op : Op) (hc : ClimbsInBoth s op) :
    Ordered (step s op) := by
  obtain ⟨hfull, hhost⟩ := (descending_step_iff hs op).2 hc
  by_cases h : ∃ addr source, op = .add addr source ∧ s.accepts source
  · obtain ⟨addr, source, rfl, hacc⟩ := h
    rw [step_add_of_accepts hacc] at hfull hhost ⊢
    refine ⟨hfull, hhost, ?_, ?_, ?_⟩
    · intro t ht
      simp only [State.updateHost_samplesFull, State.reclassify_samplesFull, State.record] at ht
      exact (mem_addSample ht).elim (hs.fullPos t) id
    · intro t ht
      simp only [State.updateHost_samplesHost, State.reclassify_samplesHost, State.record] at ht
      exact (mem_addSample ht).elim (hs.byHostPos t) id
    · intro _
      simpa only [State.updateHost_samplesFull, State.reclassify_samplesFull, State.record]
        using addSample_ne_nil _ _ _
  · simp only [not_exists, not_and] at h
    rcases step_lists h with ⟨h1, h2, h3⟩ | ⟨h1, h2, h3⟩
    · exact ⟨hfull, hhost, h1 ▸ hs.fullPos, h2 ▸ hs.byHostPos, h1 ▸ h3 ▸ hs.nonempty⟩
    · exact ⟨hfull, hhost, by simp [h1], by simp [h2], by simp [h3]⟩

lemma updateHost_address {s : State} (hne : s.samplesFull ≠ []) :
    ∃ t ∈ s.samplesFull, s.samplesFull.head? = some t ∧ t.host = s.updateHost.host ∧
      t.port = s.updateHost.port := by
  cases h : s.samplesFull with
  | nil => exact absurd h hne
  | cons t l => exact ⟨t, by simp, rfl, by simp [State.updateHost, h], by simp [State.updateHost, h]⟩

lemma firewall_step {s : State} (hs : Ordered s) {op : Op} (h : Reclassifies s op) :
    (step s op).firewall = classify (hitsAt (step s op).samplesFull 0)
      (hitsAt (step s op).samplesFull 1) (step s op).samplesHost.length (step s op).sampled
      s.firewall := by
  cases op with
  | add addr source =>
    obtain ⟨hacc, h3, hfr⟩ := h
    have hrec : (s.record addr source).reclassify =
        (s.record addr source).updateFirewall.updateAddresses := if_pos ⟨h3, hfr⟩
    have hne : (s.record addr source).samplesFull ≠ [] := addSample_ne_nil _ _ _
    rw [step_add_of_accepts hacc]
    simp only [State.updateHost_firewall, State.updateHost_samplesFull,
      State.updateHost_samplesHost, State.updateHost_sampled, State.reclassify_samplesFull,
      State.reclassify_samplesHost, State.reclassify_sampled]
    rw [hrec]
    exact State.updateFirewall_firewall h3 hne
  | unfreeze =>
    have h3 : 3 ≤ s.sampled := h
    have hne := hs.nonempty (by omega)
    simp only [step, State.unfreeze, State.updateAddresses, State.updateFirewall_samplesFull,
      State.updateFirewall_samplesHost, State.updateFirewall_sampled]
    exact State.updateFirewall_firewall h3 hne
  | freeze => exact h.elim
  | reset => exact h.elim

lemma orderingLaw_iff {s : State} (hs : Ordered s) (op : Op) :
    OrderingLaw s op ↔ ClimbsInBoth s op := by
  constructor
  · exact fun h => (descending_step_iff hs op).1 ⟨h.full, h.byHost⟩
  · intro hc
    obtain ⟨hfull, hhost⟩ := (descending_step_iff hs op).2 hc
    have htop : ∀ t ∈ (step s op).samplesFull.head?, t.hits = maxHits (step s op).samplesFull := by
      intro t ht
      rw [maxHits_eq_hitsAt hfull, hitsAt, ← List.head?_eq_getElem?, ht]
      rfl
    refine ⟨hfull, hhost, htop, ?_, ?_⟩
    · rintro addr source rfl hacc
      rw [step_add_of_accepts hacc] at htop ⊢
      obtain ⟨t, hmem, hhead, hh, hp⟩ := updateHost_address
        (s := (s.record addr source).reclassify)
        (by simpa [State.record] using addSample_ne_nil _ _ _)
      rw [State.updateHost_samplesFull] at htop ⊢
      exact ⟨t, hmem, hh, hp, htop t hhead⟩
    · intro hr
      rw [firewall_step hs hr, maxHits_eq_hitsAt hfull, secondHits_eq_hitsAt hfull]

/-- **The lists of the sampler stay sorted, the reported address is one of maximal hits and the
class is the ladder's on the true maxima, after every call of a run, exactly when every accepted
sample of the run climbs at most one position in both lists.** -/
theorem orderingLaw_iff_climbsAtMostOne (ops : List Op) :
    EveryStep step OrderingLaw {} ops ↔ EveryStep step ClimbsInBoth {} ops :=
  everyStep_iff (I := Ordered) (fun _ op hs => orderingLaw_iff hs op) (fun _ op hs hc => ordered_step hs op hc)
    ordered_init

/-- A sample of the address `host.0.0.1:port`, reported by the node at `9.0.0.1:source`. -/
def sampleFrom (host : UInt8) (port source : UInt16) : Op :=
  .add (.ofOctets host 0 0 1 port) (.ofOctets 9 0 0 1 source)

/-- Three samples of different addresses and a second one of the third: the third address ends
up with two hits behind an address with one, and the class is that of a single hit. -/
theorem not_orderingLaw_of_second_hit :
    ¬ EveryStep step OrderingLaw {}
      [sampleFrom 1 1 1, sampleFrom 2 2 2, sampleFrom 3 3 3, sampleFrom 3 3 4] := by
  rintro ⟨-, -, -, h, -⟩
  exact absurd h.full (by decide +kernel)

end HyperDHT.NatSampler
