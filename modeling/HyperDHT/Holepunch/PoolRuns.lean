import HyperDHT.Holepunch.PoolSocket

/-!
# Runs of a pool socket

What the calls of a pool socket, its datagrams and its timers do to its requests and discoveries, and what holds of them
after every run.

## Main definitions

* `Holepunch.requestEvents` — what is recorded of a new request.
* `Holepunch.Waiting` — a request that is resolved when its timer has expired some more times.

## Main results

* `Holepunch.PoolInv.request` — a finish that is owed becomes a ping in flight.
* `Holepunch.PoolInv.resend`, `resolve`, `discoverPoolAddresses` — the other parts of the steps.
* `Holepunch.resolvesOnce_run` — the requests and the discoveries after every run.
-/

set_option autoImplicit false

namespace HyperDHT.Holepunch

open Compact Routing Rpc Runs Trace

variable {s : PoolSocket} {owner : Option ℕ} {k n : ℕ} {trace : List PoolEvent} {e : PoolEvent}

/-! ## A request is issued -/

/-- The events of a new request. -/
def requestEvents (s : PoolSocket) (owner : Option ℕ) : List PoolEvent :=
  .request s.next owner :: if s.closing then [] else [.transmit s.next]

/-- **What `request` does**: the new request is in flight, and is transmitted unless the socket closed. -/
lemma request_spec (h : Requests s) (req : Request) (owner : Option ℕ) :
    ∃ inf, inf.number = s.next ∧ inf.owner = owner ∧
      (s.closing = false → inf.timer = true ∧ inf.attemptsLeft = 2) ∧
      s.request req owner = { s with
        nextTid := s.nextTid + 1, next := s.next + 1, inflight := s.inflight ++ [inf],
        trace := s.trace ++ requestEvents s owner } := by
  let inf : Inflight := {
    tid := s.nextTid
    number := s.next
    owner := owner
    buffer := encodeRequest { req with tid := s.nextTid }
    dest := req.toAddr
    attemptsLeft := maxRequestAttempts }
  let pushed : PoolSocket := { s.note (.request s.next owner) with
    nextTid := s.nextTid + 1, next := s.next + 1, inflight := s.inflight ++ [inf] }
  have hpushed : s.request req owner = pushed.sendInflight s.next := rfl
  rw [hpushed, requestEvents]
  cases hclosing : s.closing with
  | true =>
    have hsend : pushed.sendInflight s.next = pushed := if_pos hclosing
    refine ⟨inf, rfl, rfl, (fun hopen => absurd hopen (by decide)), ?_⟩
    rw [hsend]
    simp [pushed, PoolSocket.note, hclosing]
  | false =>
    have hnot : ¬ s.closing = true := by rw [hclosing]; decide
    have hmap : (s.inflight ++ [inf]).map (fun other => if other.number = s.next then other.sent else other) =
        s.inflight ++ [inf.sent] := by
      rw [List.map_append, List.map_congr_left fun other hother => if_neg (h.fresh.1 other hother), List.map_id']
      simp [inf]
    have hsend : pushed.sendInflight s.next = { pushed.note (.transmit s.next) with
        inflight := (s.inflight ++ [inf]).map fun other => if other.number = s.next then other.sent else other } :=
      if_neg hnot
    refine ⟨inf.sent, rfl, rfl, fun _ => ⟨rfl, rfl⟩, ?_⟩
    rw [hsend, hmap]
    simp [pushed, PoolSocket.note, hclosing]

lemma mem_requestEvents (h : e ∈ requestEvents s owner) :
    e = .request s.next owner ∨ e = .transmit s.next ∧ s.closing = false := by
  rw [requestEvents, List.mem_cons] at h
  refine h.imp_right fun hsent => ?_
  cases hclosing : s.closing with
  | true => simp [hclosing] at hsent
  | false => exact ⟨by simpa [hclosing] using hsent, rfl⟩

lemma mem_append_requestEvents (hrequest : e ≠ .request s.next owner) (htransmit : e ≠ .transmit s.next) :
    e ∈ trace ++ requestEvents s owner ↔ e ∈ trace := by
  rw [List.mem_append]
  refine or_iff_left fun h => ?_
  rcases mem_requestEvents h with heq | ⟨heq, -⟩
  · exact hrequest heq
  · exact htransmit heq

lemma request_mem_append_requestEvents {o : Option ℕ} :
    .request n o ∈ trace ++ requestEvents s owner ↔ .request n o ∈ trace ∨ n = s.next ∧ o = owner := by
  rw [List.mem_append]
  refine or_congr_right ⟨fun h => ?_, ?_⟩
  · rcases mem_requestEvents h with heq | ⟨heq, -⟩
    · exact PoolEvent.request.inj heq
    · cases heq
  · rintro ⟨rfl, rfl⟩
    exact List.mem_cons_self

lemma resolved_append_requestEvents : Resolved n (trace ++ requestEvents s owner) ↔ Resolved n trace :=
  or_congr (mem_append_requestEvents (by simp) (by simp)) (mem_append_requestEvents (by simp) (by simp))

lemma count_requestEvents (n : ℕ) : (requestEvents s owner).count (.transmit n) =
    if s.closing = false ∧ n = s.next then 1 else 0 := by
  rw [requestEvents]
  cases hclosing : s.closing with
  | true => simp
  | false =>
    rw [if_neg (by decide), List.count_cons_of_ne (by simp)]
    by_cases hlast : n = s.next
    · simp [hlast]
    · simp [hlast, Ne.symm hlast]

/-- **A new request is in flight**, and its timer runs unless the socket closed. -/
lemma Requests.request (h : Requests s) (req : Request) (owner : Option ℕ) : Requests (s.request req owner) := by
  obtain ⟨inf, hnumber, howner, hsent, heq⟩ := request_spec h req owner
  obtain ⟨hnew, hunresolved, hnone⟩ := h.fresh
  rw [heq]
  refine ⟨?_, fun other hother => ?_, fun n o hmem => ?_, fun n o o' ho ho' => ?_, fun n hn => ?_,
    fun other hother => ?_, fun hopen n o hmem => ?_, fun hopen other hother => ?_, fun n => ?_, ?_, ?_⟩
  · show ((s.inflight ++ [inf]).map Inflight.number).Nodup
    rw [List.map_append, List.nodup_append]
    refine ⟨h.numbers, List.nodup_singleton _, fun n hn m hm => ?_⟩
    obtain ⟨other, hother, rfl⟩ := List.mem_map.1 hn
    rw [List.map_singleton, List.mem_singleton] at hm
    rw [hm, hnumber]
    exact hnew other hother
  · refine request_mem_append_requestEvents.2 ?_
    rcases List.mem_append.1 hother with hold | hlast
    · exact .inl (h.issued other hold)
    · rw [List.mem_singleton.1 hlast]
      exact .inr ⟨hnumber, howner⟩
  · rcases request_mem_append_requestEvents.1 hmem with hold | ⟨rfl, -⟩
    · exact (h.numbered n o hold).trans (Nat.lt_succ_self _)
    · exact Nat.lt_succ_self _
  · rcases request_mem_append_requestEvents.1 ho with hold | ⟨rfl, rfl⟩
    · rcases request_mem_append_requestEvents.1 ho' with hold' | ⟨rfl, -⟩
      · exact h.owner n o o' hold hold'
      · exact absurd (h.numbered _ _ hold) (Nat.lt_irrefl _)
    · rcases request_mem_append_requestEvents.1 ho' with hold' | ⟨-, rfl⟩
      · exact absurd (h.numbered _ _ hold') (Nat.lt_irrefl _)
      · rfl
  · show n < s.next + 1
    rcases hn with hresolved | htransmit
    · exact (h.known n (.inl (resolved_append_requestEvents.1 hresolved))).trans (Nat.lt_succ_self _)
    · by_cases hlast : n = s.next
      · exact hlast ▸ Nat.lt_succ_self _
      · rw [mem_append_requestEvents (by simp) (by simpa using hlast)] at htransmit
        exact (h.known n (.inr htransmit)).trans (Nat.lt_succ_self _)
  · refine fun hr => ?_
    rcases List.mem_append.1 hother with hold | hlast
    · exact h.unresolved other hold (resolved_append_requestEvents.1 hr)
    · rw [List.mem_singleton.1 hlast, hnumber] at hr
      exact hunresolved (resolved_append_requestEvents.1 hr)
  · rcases request_mem_append_requestEvents.1 hmem with hold | ⟨rfl, -⟩
    · rcases h.kept hopen n o hold with hresolved | ⟨other, hother, rfl⟩
      · exact .inl (resolved_append_requestEvents.2 hresolved)
      · exact .inr ⟨other, List.mem_append_left _ hother, rfl⟩
    · exact .inr ⟨inf, List.mem_append_right _ (List.mem_singleton_self _), hnumber⟩
  · show _ ∧ _ ∧ _ ∧ ((s.trace ++ requestEvents s owner).count (.transmit other.number) : ℤ) + _ = 3
    rw [List.count_append, count_requestEvents]
    rcases List.mem_append.1 hother with hold | hlast
    · rw [if_neg fun hand => hnew other hold hand.2]
      exact h.armed hopen other hold
    · obtain ⟨htimer, hattempts⟩ := hsent hopen
      rw [List.mem_singleton.1 hlast, hnumber, hnone, if_pos ⟨hopen, rfl⟩, htimer, hattempts]
      decide
  · show (s.trace ++ requestEvents s owner).count (.transmit n) ≤ 3
    rw [List.count_append, count_requestEvents]
    by_cases hlast : s.closing = false ∧ n = s.next
    · rw [if_pos hlast, hlast.2, hnone]
      decide
    · rw [if_neg hlast]
      exact h.transmitted n
  · exact h.closed.trans (mem_append_requestEvents (by simp) (by simp)).symm
  · show Always PoolAllowed (s.trace ++ requestEvents s owner)
    rw [requestEvents]
    cases hclosing : s.closing with
    | true => exact always_concat.2 ⟨h.lawful, trivial⟩
    | false =>
      have hclose := h.not_close hclosing
      rw [if_neg (by decide), List.append_cons]
      refine always_concat.2 ⟨always_concat.2 ⟨h.lawful, trivial⟩, ?_, ?_⟩
      · rwa [resolved_concat_of_none rfl]
      · simpa using hclose

lemma Counts.user {k' : ℕ} (h : Counts none k s) : Counts none k' s := by
  refine ⟨h.discovered, h.owners, h.done, h.doneKnown, h.doneAll, fun c ctx hctx hdone => ?_,
    fun hopen c ctx hctx hdone => ?_, fun c ctx hctx hdone _ => h.waits c ctx hctx hdone (owes_none k c),
    fun c howner => by cases howner⟩
  · rw [owes_none, ← owes_none k c]
    exact h.pendingGe c ctx hctx hdone
  · rw [owes_none, ← owes_none k c]
    exact h.pendingLe hopen c ctx hctx hdone

lemma pings_request (h : Requests s) (req : Request) (owner : Option ℕ) (c : ℕ) :
    (s.request req owner).pings c = s.pings c + owes owner 1 c := by
  obtain ⟨inf, -, howner, -, heq⟩ := request_spec h req owner
  rw [heq]
  show ((s.inflight ++ [inf]).countP fun inf => inf.owner = some c) = s.pings c + owes owner 1 c
  rw [List.countP_append, List.countP_singleton, howner, PoolSocket.pings, owes]
  simp only [decide_eq_true_eq]

/-- **A ping in place of a finish that is owed.** -/
lemma Counts.request (h : Counts owner (k + 1) s) (hs : Requests s) (req : Request) :
    Counts owner k (s.request req owner) := by
  obtain ⟨inf, hnumber, howner, -, heq⟩ := request_spec hs req owner
  have hunresolved := hs.fresh.2.1
  have hpings (c : ℕ) : ((s.request req owner).pings c : ℤ) + owes owner k c = s.pings c + owes owner (k + 1) c := by
    rw [pings_request hs, owes, owes, owes]
    split
    · omega
    · omega
  refine ⟨fun c => ?_, fun n c hmem => ?_, fun c ctx hctx => ?_, fun c ok hmem => ?_,
    fun c ctx hctx hdone n hmem => ?_, fun c ctx hctx hdone => ?_, fun hopen c ctx hctx hdone => ?_,
    fun c ctx hctx hdone howes => ?_, fun c hmine _ => ?_⟩
  · rw [heq, mem_append_requestEvents (by simp) (by simp)]
    exact h.discovered c
  · rw [heq, request_mem_append_requestEvents] at hmem
    rw [heq]
    rcases hmem with hold | ⟨-, hmine⟩
    · exact h.owners n c hold
    · obtain ⟨ctx, hctx, -⟩ := h.owing c hmine.symm (Nat.succ_pos k)
      exact (List.getElem?_eq_some_iff.1 hctx).1
  · rw [heq] at hctx ⊢
    rw [h.done c ctx hctx]
    exact exists_congr fun ok => (mem_append_requestEvents (by simp) (by simp)).symm
  · rw [heq, mem_append_requestEvents (by simp) (by simp)] at hmem
    rw [heq]
    exact h.doneKnown c ok hmem
  · rw [heq] at hctx hmem ⊢
    refine resolved_append_requestEvents.2 ?_
    rcases request_mem_append_requestEvents.1 hmem with hold | ⟨-, hmine⟩
    · exact h.doneAll c ctx hctx hdone n hold
    · obtain ⟨ctx', hctx', hnot⟩ := h.owing c hmine.symm (Nat.succ_pos k)
      obtain rfl : ctx = ctx' := Option.some.inj (hctx.symm.trans hctx')
      rw [hnot] at hdone
      cases hdone
  · rw [hpings]
    rw [heq] at hctx
    exact h.pendingGe c ctx hctx hdone
  · rw [hpings]
    rw [heq] at hctx hopen
    exact h.pendingLe hopen c ctx hctx hdone
  · rw [heq] at hctx ⊢
    by_cases hmine : owner = some c
    · exact ⟨s.next, request_mem_append_requestEvents.2 (.inr ⟨rfl, hmine.symm⟩),
        fun hr => hunresolved (resolved_append_requestEvents.1 hr)⟩
    · obtain ⟨n, hn, hwaits⟩ := h.waits c ctx hctx hdone (owes_ne hmine)
      exact ⟨n, request_mem_append_requestEvents.2 (.inl hn), fun hr => hwaits (resolved_append_requestEvents.1 hr)⟩
  · rw [heq]
    exact h.owing c hmine (Nat.succ_pos k)

/-- **A request is issued**: a finish that its owner is owed becomes a ping in flight. -/
lemma PoolInv.request (h : PoolInv owner (k + 1) s) (req : Request) : PoolInv owner k (s.request req owner) :=
  ⟨h.requests.request req owner, h.counts.request h.requests req⟩

/-! ## A request is sent again -/

/-- What sending a request again does to those in flight. -/
def resent (n : ℕ) (inf : Inflight) : Inflight := if inf.number = n then inf.sent else inf

lemma resent_number (inf : Inflight) : (resent n inf).number = inf.number := by
  rw [resent]
  split
  · rfl
  · rfl

lemma resent_owner (inf : Inflight) : (resent n inf).owner = inf.owner := by
  rw [resent]
  split
  · rfl
  · rfl

lemma sendInflight_eq (hopen : s.closing = false) (n : ℕ) :
    s.sendInflight n = { s.note (.transmit n) with inflight := s.inflight.map (resent n) } :=
  if_neg (by rw [hopen]; decide)

/-- **A request that has attempts left is sent again.** -/
lemma PoolInv.resend {inf : Inflight} (h : PoolInv none 0 s) (hopen : s.closing = false) (hinf : inf ∈ s.inflight)
    (hattempts : 0 < inf.attemptsLeft) : PoolInv none 0 (s.sendInflight inf.number) := by
  obtain ⟨hs, hc⟩ := h
  have hnumbers : (s.inflight.map (resent inf.number)).map Inflight.number = s.inflight.map Inflight.number := by
    rw [List.map_map]
    exact List.map_congr_left fun other _ => resent_number other
  have hpings (c : ℕ) : (s.inflight.map (resent inf.number)).countP (fun inf => inf.owner = some c) = s.pings c := by
    rw [List.countP_map, PoolSocket.pings]
    exact List.countP_congr fun other _ => by simp only [Function.comp_apply, resent_owner]
  have hresolved (n : ℕ) : Resolved n (s.trace ++ [.transmit inf.number]) ↔ Resolved n s.trace :=
    resolved_concat_of_none rfl
  have hclose := hs.not_close hopen
  obtain ⟨-, -, -, hcount⟩ := hs.armed hopen inf hinf
  rw [sendInflight_eq hopen]
  refine ⟨⟨hnumbers ▸ hs.numbers, fun other hother => ?_, fun n o hmem => ?_, fun n o o' ho ho' => ?_, fun n hn => ?_,
    fun other hother => ?_, fun _ n o hmem => ?_, fun _ other hother => ?_, fun n => ?_,
    hs.closed.trans (mem_concat_of_ne (by simp)).symm,
    always_concat.2 ⟨hs.lawful, hs.unresolved inf hinf, hclose⟩⟩,
    hc.frame rfl (fun _ => ⟨hopen, hpings⟩) (fun c => (hpings c).le) fun e _ he => mem_concat_of_ne (he _)⟩
  · obtain ⟨old, hold, rfl⟩ := List.mem_map.1 hother
    rw [resent_number, resent_owner]
    exact (mem_concat_of_ne (by simp)).2 (hs.issued old hold)
  · exact hs.numbered n o ((mem_concat_of_ne (by simp)).1 hmem)
  · exact hs.owner n o o' ((mem_concat_of_ne (by simp)).1 ho) ((mem_concat_of_ne (by simp)).1 ho')
  · rcases hn with hr | htransmit
    · exact hs.known n (.inl ((hresolved n).1 hr))
    · rcases List.mem_append.1 htransmit with hold | hlast
      · exact hs.known n (.inr hold)
      · obtain rfl : n = inf.number := by simpa using hlast
        exact hs.numbered _ _ (hs.issued inf hinf)
  · obtain ⟨old, hold, rfl⟩ := List.mem_map.1 hother
    rw [resent_number]
    exact fun hr => hs.unresolved old hold ((hresolved _).1 hr)
  · rcases hs.kept hopen n o ((mem_concat_of_ne (by simp)).1 hmem) with hr | ⟨old, hold, rfl⟩
    · exact .inl ((hresolved n).2 hr)
    · exact .inr ⟨resent inf.number old, List.mem_map_of_mem hold, resent_number old⟩
  · obtain ⟨old, hold, rfl⟩ := List.mem_map.1 hother
    obtain ⟨htimer, hge, hlt, hsum⟩ := hs.armed hopen old hold
    show _ ∧ _ ∧ _ ∧ ((s.trace ++ [PoolEvent.transmit inf.number]).count (.transmit _) : ℤ) + _ = 3
    rw [resent_number]
    by_cases hmine : old.number = inf.number
    · -- the request itself
      obtain rfl : old = inf := List.inj_on_of_nodup_map hs.numbers hold hinf hmine
      rw [resent, if_pos rfl, List.count_append, List.count_singleton_self]
      simp only [Inflight.sent]
      refine ⟨trivial, ?_, ?_, ?_⟩
      · omega
      · omega
      · omega
    · rw [resent, if_neg hmine, count_concat_of_ne (by simpa using hmine)]
      exact ⟨htimer, hge, hlt, hsum⟩
  · show (s.trace ++ [PoolEvent.transmit inf.number]).count (.transmit n) ≤ 3
    by_cases hmine : n = inf.number
    · rw [hmine, List.count_append, List.count_singleton_self]
      omega
    · rw [count_concat_of_ne (by simpa using hmine)]
      exact hs.transmitted n

/-! ## The socket closes -/

/-- **`close` forgets the requests in flight.** -/
lemma PoolInv.close (h : PoolInv none 0 s) : PoolInv none 0 s.close := by
  obtain ⟨hs, hc⟩ := h
  rw [PoolSocket.close]
  split
  · exact ⟨hs, hc⟩
  · have hresolved (n : ℕ) : Resolved n (s.trace ++ [.close]) ↔ Resolved n s.trace := resolved_concat_of_none rfl
    refine ⟨⟨List.nodup_nil, fun inf hinf => (List.not_mem_nil hinf).elim,
      fun n o hn => hs.numbered n o ((mem_concat_of_ne (by simp)).1 hn),
      fun n o o' ho ho' => hs.owner n o o' ((mem_concat_of_ne (by simp)).1 ho) ((mem_concat_of_ne (by simp)).1 ho'),
      fun n hn => hs.known n (hn.imp (hresolved n).1 (mem_concat_of_ne (by simp)).1),
      fun inf hinf => (List.not_mem_nil hinf).elim, (fun hopen => by cases hopen), (fun hopen => by cases hopen),
      fun n => ?_, iff_of_true rfl (List.mem_append_right _ (by simp)),
      always_concat.2 ⟨hs.lawful, trivial⟩⟩,
      hc.frame rfl (fun hopen => by cases hopen) (fun c => Nat.zero_le _) fun e he _ => mem_concat_of_ne he⟩
    show (s.trace ++ [PoolEvent.close]).count (.transmit n) ≤ 3
    rw [count_concat_of_ne (by simp)]
    exact hs.transmitted n

/-! ## A discovery begins -/

lemma PoolInv.discover (h : PoolInv none 0 s) (hk : 0 < k) : PoolInv (some s.discoveries.length) k
    { s.note (.discover s.discoveries.length) with discoveries := s.discoveries ++ [{ pending := k }] } := by
  obtain ⟨hs, hc⟩ := h
  have hmem {e : PoolEvent} (he : ∀ c, e ≠ .discover c) :
      e ∈ s.trace ++ [.discover s.discoveries.length] ↔ e ∈ s.trace := mem_concat_of_ne (he _)
  have hresolved (n : ℕ) :
      Resolved n (s.trace ++ [.discover s.discoveries.length]) ↔ Resolved n s.trace := resolved_concat_of_none rfl
  have hget {c : ℕ} {ctx : DiscoverCtx} (hctx : (s.discoveries ++ [{ pending := (k : ℤ) }])[c]? = some ctx) :
      c < s.discoveries.length ∧ s.discoveries[c]? = some ctx ∨
        c = s.discoveries.length ∧ ctx = { pending := (k : ℤ) } := by
    rcases lt_trichotomy c s.discoveries.length with hlt | rfl | hgt
    · rw [List.getElem?_append_left hlt] at hctx
      exact .inl ⟨hlt, hctx⟩
    · rw [List.getElem?_concat_length] at hctx
      exact .inr ⟨rfl, (Option.some.inj hctx).symm⟩
    · rw [List.getElem?_eq_none (by rw [List.length_append]; exact hgt)] at hctx
      cases hctx
  have hnone : s.pings s.discoveries.length = 0 := by
    rw [PoolSocket.pings, List.countP_eq_zero]
    intro inf hinf howner
    exact absurd (hc.owners _ _ (of_decide_eq_true howner ▸ hs.issued inf hinf)) (Nat.lt_irrefl _)
  have howes {c : ℕ} (hlt : c < s.discoveries.length) : owes (some s.discoveries.length) k c = 0 :=
    owes_ne fun heq => hlt.ne' (Option.some.inj heq)
  have hlast {c : ℕ} (hlt : c < s.discoveries.length) :
      c < (s.discoveries ++ [({ pending := (k : ℤ) } : DiscoverCtx)]).length := by
    rw [List.length_append]
    exact hlt.trans (Nat.lt_succ_self _)
  refine ⟨hs.note rfl trivial, fun c => ?_, fun n c hn => ?_, fun c ctx hctx => ?_, fun c ok hn => ?_,
    fun c ctx hctx hdone n hn => ?_, fun c ctx hctx hdone => ?_, fun hopen c ctx hctx hdone => ?_,
    fun c ctx hctx hdone hnot => ?_, fun c howner _ => ?_⟩
  · show .discover c ∈ s.trace ++ [.discover s.discoveries.length] ↔
      c < (s.discoveries ++ [({ pending := (k : ℤ) } : DiscoverCtx)]).length
    rw [List.mem_append, hc.discovered, List.length_append, List.length_singleton, Nat.lt_succ_iff_lt_or_eq]
    simp
  · exact hlast (hc.owners n c ((hmem (by simp)).1 hn))
  · show ctx.done = true ↔ ∃ ok, .done c ok ∈ s.trace ++ [.discover s.discoveries.length]
    rw [exists_congr fun ok => hmem (e := .done c ok) (by simp)]
    rcases hget hctx with ⟨-, hold⟩ | ⟨rfl, rfl⟩
    · exact hc.done c ctx hold
    · refine iff_of_false Bool.false_ne_true ?_
      rintro ⟨ok, hn⟩
      exact absurd (hc.doneKnown _ ok hn) (Nat.lt_irrefl _)
  · exact hlast (hc.doneKnown c ok ((hmem (by simp)).1 hn))
  · refine (hresolved n).2 ?_
    rcases hget hctx with ⟨-, hold⟩ | ⟨rfl, rfl⟩
    · exact hc.doneAll c ctx hold hdone n ((hmem (by simp)).1 hn)
    · cases hdone
  · show (s.pings c : ℤ) + owes _ k c ≤ ctx.pending
    rcases hget hctx with ⟨hlt, hold⟩ | ⟨rfl, rfl⟩
    · rw [howes hlt, ← owes_none 0 c]
      exact hc.pendingGe c ctx hold hdone
    · rw [hnone, owes_self]
      exact (Int.zero_add _).le
  · show ctx.pending ≤ (s.pings c : ℤ) + owes _ k c
    rcases hget hctx with ⟨hlt, hold⟩ | ⟨rfl, rfl⟩
    · rw [howes hlt, ← owes_none 0 c]
      exact hc.pendingLe hopen c ctx hold hdone
    · rw [hnone, owes_self]
      exact (Int.zero_add _).ge
  · rcases hget hctx with ⟨hlt, hold⟩ | ⟨rfl, rfl⟩
    · obtain ⟨n, hn, hwaits⟩ := hc.waits c ctx hold hdone (owes_none 0 c)
      exact ⟨n, (hmem (by simp)).2 hn, fun hr => hwaits ((hresolved n).1 hr)⟩
    · rw [owes_self] at hnot
      omega
  · obtain rfl : s.discoveries.length = c := Option.some.inj howner
    exact ⟨_, List.getElem?_concat_length, rfl⟩

lemma PoolInv.sendPings {c : ℕ} {targets : List Ipv4Address} (h : PoolInv (some c) (targets.length + k) s) :
    PoolInv (some c) k (s.sendPings c targets) ∧
      (s.sendPings c targets).pings c = s.pings c + targets.length := by
  induction targets generalizing s with
  | nil => exact ⟨by rwa [List.length_nil, Nat.zero_add] at h, rfl⟩
  | cons target targets ih =>
    rw [List.length_cons, Nat.add_right_comm] at h
    obtain ⟨hinv, hpings⟩ := ih (h.request (PoolSocket.ping target))
    refine ⟨hinv, hpings.trans ?_⟩
    rw [pings_request h.requests, owes_self, List.length_cons]
    omega

lemma targets_length_pos (table : Table) (relayAddr : Ipv4Address) :
    0 < (PoolSocket.targets table relayAddr).length := by
  rw [PoolSocket.targets, List.cons_append]
  exact Nat.succ_pos _

/-- **A discovery begins**, with one finish more than it has pings. -/
lemma PoolInv.discoverPoolAddresses (h : PoolInv none 0 s) (table : Table) (relayAddr : Ipv4Address) :
    PoolInv none 0 (s.discoverPoolAddresses table relayAddr) := by
  have hstart := h.discover (Nat.succ_pos (PoolSocket.targets table relayAddr).length)
  obtain ⟨hinv, hpings⟩ := hstart.sendPings (k := 1)
  refine hinv.finish (.inr ?_)
  rw [hpings]
  exact Nat.add_pos_right _ (targets_length_pos table relayAddr)

/-! ## A response arrives, a timer expires -/

lemma perm_eraseP {α : Type*} {p : α → Bool} {l : List α} {a : α} (h : l.find? p = some a) :
    l.Perm (a :: l.eraseP p) := by
  obtain ⟨ha, as, bs, rfl, has⟩ := List.find?_eq_some_iff_append.1 h
  have hnot : ∀ b ∈ as, ¬ p b = true := fun b hb => by simpa using has b hb
  rw [List.eraseP_append_right _ hnot, List.eraseP_cons_of_pos ha]
  exact List.perm_middle

lemma perm_filter_ne {α κ : Type*} [DecidableEq κ] {key : α → κ} {l : List α} {a : α} (hl : (l.map key).Nodup)
    (h : a ∈ l) : l.Perm (a :: l.filter fun b => key b ≠ key a) := by
  obtain ⟨as, bs, rfl⟩ := List.append_of_mem h
  rw [List.map_append, List.map_cons, List.nodup_middle, List.nodup_cons, ← List.map_append] at hl
  have hkeep : ∀ b ∈ as ++ bs, decide (key b ≠ key a) = true := by
    intro b hb
    refine decide_eq_true fun heq => hl.1 ?_
    rw [← heq]
    exact List.mem_map_of_mem hb
  rw [List.filter_append, List.filter_cons_of_neg (by simp), ← List.filter_append, List.filter_eq_self.2 hkeep]
  exact List.perm_middle

lemma PoolInv.callback (h : PoolInv owner 1 s) (hopen : s.closing = false) : PoolInv none 0 (s.callback owner) := by
  cases owner with
  | none => exact ⟨h.requests, h.counts.user⟩
  | some c => exact h.finish (.inl hopen)

/-- **A request is resolved**: it is no longer in flight, and its callback finishes its discovery. -/
lemma PoolInv.resolve {s' : PoolSocket} {inf : Inflight} (h : PoolInv none 0 s) (hr : Resolves s s' inf e)
    (hopen : s.closing = false) : PoolInv none 0 (s'.callback inf.owner) := by
  have hinv : PoolInv inf.owner 1 s' := ⟨h.requests.resolve hr hopen, h.counts.resolve h.requests hr⟩
  exact hinv.callback (hr.closing.trans hopen)

lemma PoolInv.sampled (h : PoolInv none 0 s) (natSampler : NatSampler.State) :
    PoolInv none 0 { s with natSampler := natSampler } := by
  obtain ⟨hs, hc⟩ := h
  exact ⟨⟨hs.numbers, hs.issued, hs.numbered, hs.owner, hs.known, hs.unresolved, hs.kept, hs.armed, hs.transmitted,
    hs.closed, hs.lawful⟩, hc.frame rfl (fun hopen => ⟨hopen, fun _ => rfl⟩) (fun _ => le_rfl) fun _ _ _ => Iff.rfl⟩

lemma PoolInv.handleMessage (h : PoolInv none 0 s) (data : List UInt8) (remote : Ipv4Address) :
    PoolInv none 0 (s.handleMessage data remote) := by
  rw [PoolSocket.handleMessage]
  split
  · exact h
  · rename_i hopen
    replace hopen : s.closing = false := by simpa using fun hc => hopen (.inl hc)
    split
    · rename_i resp _
      have hsampled := h.sampled (s.natSampler.add resp.fromAddr remote).1
      dsimp only
      split
      · exact hsampled
      · rename_i inf hfind
        exact hsampled.resolve (e := .response inf.number)
          ⟨.inl rfl, perm_eraseP hfind, rfl, rfl, rfl, rfl⟩ hopen
    · exact h

/-- **What the timer of a request does** in an open socket: it sends the request again, or gives it up. -/
lemma onTimer_cases (h : Requests s) (hopen : s.closing = false) (n : ℕ) :
    ((∀ inf ∈ s.inflight, inf.number ≠ n) ∧ s.onTimer n = s) ∨
      ∃ inf ∈ s.inflight, inf.number = n ∧
        (0 < inf.attemptsLeft ∧ s.onTimer n = s.sendInflight n ∨
          inf.attemptsLeft ≤ 0 ∧ ∃ s', Resolves s s' inf (.timeout n) ∧ s.onTimer n = s'.callback inf.owner) := by
  cases hfind : s.inflight.find? fun inf => inf.number = n with
  | none =>
    refine .inl ⟨fun inf hinf => ?_, by rw [PoolSocket.onTimer, hfind]⟩
    simpa using List.find?_eq_none.1 hfind inf hinf
  | some inf =>
    have hinf := List.mem_of_find?_eq_some hfind
    obtain rfl : inf.number = n := by simpa using List.find?_some hfind
    have hguard : ¬ (inf.timer = false ∨ s.closing = true) := by
      rw [(h.armed hopen inf hinf).1, hopen]
      decide
    refine .inr ⟨inf, hinf, rfl, ?_⟩
    rw [PoolSocket.onTimer, hfind]
    dsimp only
    rw [if_neg hguard]
    by_cases hattempts : 0 < inf.attemptsLeft
    · exact .inl ⟨hattempts, if_pos hattempts⟩
    · exact .inr ⟨not_lt.1 hattempts,
        { s.note (.timeout inf.number) with inflight := s.inflight.filter fun other => other.number ≠ inf.number },
        ⟨.inr rfl, perm_filter_ne h.numbers hinf, rfl, rfl, rfl, rfl⟩, if_neg hattempts⟩

lemma onTimer_of_closing (hclosing : s.closing = true) (n : ℕ) : s.onTimer n = s := by
  rw [PoolSocket.onTimer]
  split
  · rfl
  · exact if_pos (.inr hclosing)

lemma PoolInv.onTimer (h : PoolInv none 0 s) (n : ℕ) : PoolInv none 0 (s.onTimer n) := by
  cases hclosing : s.closing with
  | true => rwa [onTimer_of_closing hclosing]
  | false =>
    rcases onTimer_cases h.requests hclosing n with
      ⟨-, heq⟩ | ⟨inf, hinf, rfl, ⟨hattempts, heq⟩ | ⟨-, s', hr, heq⟩⟩
    · rwa [heq]
    · rw [heq]
      exact h.resend hclosing hinf hattempts
    · rw [heq]
      exact h.resolve hr hclosing

/-! ## Runs -/

/-- **Every step keeps the invariant.** -/
lemma PoolInv.step (h : PoolInv none 0 s) (i : PoolInput) : PoolInv none 0 (poolStep s i) := by
  cases i with
  | request req =>
    have huser : PoolInv none 1 s := ⟨h.requests, h.counts.user⟩
    exact huser.request req
  | message data remote => exact h.handleMessage data remote
  | timer n => exact h.onTimer n
  | close => exact h.close
  | discover table relayAddr => exact h.discoverPoolAddresses table relayAddr

lemma poolInv_init (nextTid : UInt16) : PoolInv none 0 { nextTid := nextTid } := by
  refine ⟨⟨List.nodup_nil, ?_, ?_, ?_, ?_, ?_, ?_, ?_, ?_, ?_, always_nil _⟩, ⟨?_, ?_, ?_, ?_, ?_, ?_, ?_, ?_, ?_⟩⟩ <;>
    simp [Resolved]

lemma poolInv_run (nextTid : UInt16) (is : List PoolInput) :
    PoolInv none 0 (run poolStep { nextTid := nextTid } is) :=
  run_invariant (fun _ i h => h.step i) (poolInv_init nextTid) is

/-! ### An open socket resolves its requests -/

lemma finish_closing (s : PoolSocket) (c : ℕ) : (s.finish c).closing = s.closing := by
  rw [PoolSocket.finish]
  split
  · rfl
  · split
    · rfl
    · split
      · rfl
      · rfl

lemma subset_finish (s : PoolSocket) (c : ℕ) : s.trace ⊆ (s.finish c).trace := by
  rw [PoolSocket.finish]
  split
  · exact List.Subset.refl _
  · split
    · exact List.Subset.refl _
    · split
      · exact List.subset_append_left _ _
      · exact List.Subset.refl _

lemma callback_closing (s : PoolSocket) (owner : Option ℕ) : (s.callback owner).closing = s.closing := by
  cases owner with
  | none => rfl
  | some c => exact finish_closing s c

lemma subset_callback (s : PoolSocket) (owner : Option ℕ) : s.trace ⊆ (s.callback owner).trace := by
  cases owner with
  | none => exact List.Subset.refl _
  | some c => exact subset_finish s c

lemma Resolved.mono {trace' : List PoolEvent} (h : Resolved n trace) (hsub : trace ⊆ trace') : Resolved n trace' :=
  h.imp (fun hin => hsub hin) fun hin => hsub hin

/-- The request `n` was resolved, or is in flight with less than `k` attempts left. -/
def Waiting (n k : ℕ) (s : PoolSocket) : Prop :=
  Resolved n s.trace ∨ ∃ inf ∈ s.inflight, inf.number = n ∧ inf.attemptsLeft < k

/-- **An expiry of its timer** takes one attempt of a request. -/
lemma Waiting.onTimer (hn : Waiting n (k + 1) s) (h : PoolInv none 0 s) (hopen : s.closing = false) :
    Waiting n k (s.onTimer n) ∧ (s.onTimer n).closing = false := by
  rcases onTimer_cases h.requests hopen n with
    ⟨hnone, heq⟩ | ⟨inf, hinf, rfl, ⟨hattempts, heq⟩ | ⟨-, s', hr, heq⟩⟩
  · rw [heq]
    rcases hn with hresolved | ⟨inf, hinf, hnumber, -⟩
    · exact ⟨.inl hresolved, hopen⟩
    · exact absurd hnumber (hnone inf hinf)
  · rw [heq, sendInflight_eq hopen]
    refine ⟨?_, hopen⟩
    rcases hn with hresolved | ⟨other, hother, hnumber, hleft⟩
    · exact .inl (hresolved.mono (List.subset_append_left _ _))
    · obtain rfl : other = inf := List.inj_on_of_nodup_map h.requests.numbers hother hinf hnumber
      refine .inr ⟨resent other.number other, List.mem_map_of_mem hother, resent_number other, ?_⟩
      rw [resent, if_pos rfl]
      show other.attemptsLeft - 1 < k
      omega
  · rw [heq, callback_closing, hr.closing]
    exact ⟨.inl ((hr.resolved.2 (.inr rfl)).mono (subset_callback _ _)), hopen⟩

lemma Waiting.run (hn : Waiting n k s) (h : PoolInv none 0 s) (hopen : s.closing = false) :
    Resolved n (run poolStep s (List.replicate k (.timer n))).trace := by
  induction k generalizing s with
  | zero =>
    rcases hn with hresolved | ⟨inf, hinf, -, hleft⟩
    · exact hresolved
    · exact absurd (h.requests.armed hopen inf hinf).2.1 (not_le.2 hleft)
  | succ k ih =>
    obtain ⟨hnext, hstill⟩ := hn.onTimer h hopen
    exact ih hnext (h.onTimer n) hstill

/-- **The requests and the discoveries of a pool socket**, after every run. -/
theorem resolvesOnce_run (nextTid : UInt16) (is : List PoolInput) :
    ResolvesOnce (run poolStep { nextTid := nextTid } is) := by
  have h := poolInv_run nextTid is
  obtain ⟨hs, hc⟩ := h
  refine ⟨hs.transmitted, hs.lawful, fun hopen n owner hn => ?_, fun c hdiscovered => ?_⟩
  · have hwaiting : Waiting n 3 (run poolStep { nextTid := nextTid } is) := by
      refine (hs.kept hopen n owner hn).imp_right ?_
      rintro ⟨inf, hinf, hnumber⟩
      exact ⟨inf, hinf, hnumber, (hs.armed hopen inf hinf).2.2.1⟩
    exact hwaiting.run (poolInv_run nextTid is) hopen
  · obtain ⟨ctx, hctx⟩ : ∃ ctx, (run poolStep { nextTid := nextTid } is).discoveries[c]? = some ctx :=
      ⟨_, List.getElem?_eq_getElem ((hc.discovered c).1 hdiscovered)⟩
    rw [← hc.done c ctx hctx]
    refine ⟨hc.doneAll c ctx hctx, fun hall => ?_⟩
    by_contra hnot
    obtain ⟨n, hn, hwaits⟩ := hc.waits c ctx hctx (by simpa using hnot) (owes_none 0 c)
    exact hwaits (hall n hn)

end HyperDHT.Holepunch
