import HyperDHT.Rpc.Completion

/-!
# Sessions

A session (`Session`, `rpc.cpp`) keeps the transaction ids of the requests issued through it, and
cancels them all when it is destroyed. Cancellation looks for the request in flight with an id, so
it reaches neither a request that still waits in the queue nor one that another request shadows.

## Main definitions

* `Rpc.Session` — a session on a socket, with `request` and `destroy`.
* `Rpc.Session.step` — the session and its socket as a machine.
* `Rpc.Session.Cancelled` — after `destroy` no callback of an earlier request of the session runs
  and no such request is sent for the first time.
* `Rpc.Session.ReachesAll` — the condition on a step.

## Main results

* `Rpc.Session.cancelled_of_reachesAll` — destroying the session cancels its requests in every
  run whose steps meet the condition.
-/

set_option autoImplicit false

namespace HyperDHT.Rpc

open scoped List

/-- A callback as the socket sees it: the lambda that a session wraps around the callback of its
caller (which may be missing), or the callback of another owner. -/
inductive Callback (κ : Type) where
  | session (inner : Option κ)
  | other (callback : κ)

/-- A session and the socket it is on. The list `issued` records the numbers of the request objects
made for the session; the code has no such list. -/
structure Session (κ : Type) where
  socket : RpcSocket (Callback κ)
  tids : List UInt16 := []
  issued : List ℕ := []

namespace Session

variable {κ : Type}

/-! ## The code -/

/-- A request is issued through the session, which keeps its transaction id. A socket that closes
makes no request object. -/
def request (s : Session κ) (req : Request) (onResponse onTimeout : Option κ) : Session κ :=
  let (socket, tid) :=
    s.socket.request req (some (.session onResponse)) (some (.session onTimeout))
  { s with
    socket
    tids := if tid ≠ 0 then s.tids ++ [tid] else s.tids
    issued := if s.socket.closing then s.issued else s.issued ++ [s.socket.nextPtr] }

/-- What the callback of a completed request does to the session before it runs the callback of
the caller: the lambda of a session forgets the transaction id. -/
def detach (s : Session κ) (callback : Option (Callback κ)) (tid : UInt16) : Session κ :=
  match callback with
  | some (.session _) => { s with tids := s.tids.filter (· ≠ tid) }
  | _ => s

/-- A response arrives at the socket. -/
def onResponse (s : Session κ) (tid : UInt16) : Session κ :=
  let (socket, completed) := s.socket.onResponse tid
  { s with socket }.detach (completed.bind (·.onResponse)) tid

/-- The timer of a request object expires. -/
def onRequestTimeout (s : Session κ) (ptr : ℕ) : Session κ :=
  let (socket, completed) := s.socket.onRequestTimeout ptr
  match completed with
  | none => { s with socket }
  | some req => { s with socket }.detach req.onTimeout req.tid

/-- Every request with one of the ids is cancelled, in turn. -/
def cancelAll (socket : RpcSocket (Callback κ)) (tids : List UInt16) : RpcSocket (Callback κ) :=
  tids.foldl (fun socket tid => (socket.cancelRequest tid).1) socket

/-- The session forgets its ids and cancels each of them. -/
def destroy (s : Session κ) : Session κ :=
  { s with tids := [], socket := cancelAll s.socket s.tids }

/-! ## The session as a machine -/

/-- What may happen: the session is used or destroyed, other owners use the socket, the network
delivers a response, a timer expires. -/
inductive Input (κ : Type) where
  | request (req : Request) (onResponse onTimeout : Option κ)
  | destroy
  | otherRequest (req : Request) (timeoutOverrideMs : UInt64) (retries : ℕ)
      (onResponse onTimeout : Option κ)
  | response (tid : UInt16)
  | timeout (ptr : ℕ)
  | drainTick
  | cancel (tid : UInt16)
  | close

/-- The session after an input. -/
def step (s : Session κ) : Input κ → Session κ
  | .request req onResponse onTimeout => s.request req onResponse onTimeout
  | .destroy => s.destroy
  | .otherRequest req timeoutOverrideMs retries onResponse onTimeout =>
    { s with
      socket := (s.socket.requestWith req timeoutOverrideMs retries (onResponse.map .other)
        (onTimeout.map .other)).1 }
  | .response tid => s.onResponse tid
  | .timeout ptr => s.onRequestTimeout ptr
  | .drainTick => { s with socket := s.socket.onDrainTick }
  | .cancel tid => { s with socket := (s.socket.cancelRequest tid).1 }
  | .close => { s with socket := s.socket.close }

/-- A session on a fresh socket. -/
def init (κ : Type) (firstTid : UInt16) : Session κ where
  socket := RpcSocket.init (Callback κ) firstTid

/-! ## The law and the condition -/

/-- What happened to the socket between two states silences the requests that the session had
issued in the first: none of their callbacks ran, and none was sent for the first time. -/
def Silenced (d f : Session κ) : Prop :=
  ∃ later, f.socket.log = d.socket.log ++ later ∧ ∀ ptr ∈ d.issued,
    .response ptr ∉ later ∧ .timeout ptr ∉ later ∧ (.sent ptr ∈ later → .sent ptr ∈ d.socket.log)

/-- **Cancellation**: whenever the session is destroyed in a run, the rest of the run silences the
requests issued before. -/
def Cancelled (firstTid : UInt16) (is : List (Input κ)) : Prop :=
  ∀ before after, is = before ++ .destroy :: after →
    Silenced (Runs.run step (init κ firstTid) (before ++ [.destroy]))
      (Runs.run step (init κ firstTid) is)

/-- The session is destroyed only while none of its requests waits in the queue, and no request is
accepted with a transaction id that is zero or taken, if the request or the one that has the id
belongs to the session. -/
def ReachesAll (s : Session κ) : Input κ → Prop
  | .request .. => s.socket.Refuses ∨
      (s.socket.nextTid ≠ 0 ∧ ∀ r ∈ s.socket.outstanding, r.tid ≠ s.socket.nextTid)
  | .otherRequest .. => s.socket.Refuses ∨
      ∀ r ∈ s.socket.outstanding, r.ptr ∈ s.issued → r.tid ≠ s.socket.nextTid
  | .destroy => ∀ r ∈ s.socket.pending, r.ptr ∉ s.issued
  | _ => True

/-! ## Every step moves the socket -/

variable {s : Session κ}

lemma detach_socket (s : Session κ) (callback : Option (Callback κ)) (tid : UInt16) :
    (s.detach callback tid).socket = s.socket := by
  unfold detach
  split <;> rfl

lemma detach_issued (s : Session κ) (callback : Option (Callback κ)) (tid : UInt16) :
    (s.detach callback tid).issued = s.issued := by
  unfold detach
  split <;> rfl

lemma onResponse_socket (s : Session κ) (tid : UInt16) :
    (s.onResponse tid).socket = (s.socket.onResponse tid).1 :=
  detach_socket _ _ _

lemma onRequestTimeout_socket (s : Session κ) (ptr : ℕ) :
    (s.onRequestTimeout ptr).socket = (s.socket.onRequestTimeout ptr).1 := by
  unfold onRequestTimeout
  rcases s.socket.onRequestTimeout ptr with ⟨socket, completed⟩
  cases completed with
  | none => rfl
  | some req => exact detach_socket _ _ _

lemma cancelAll_quiets {socket : RpcSocket (Callback κ)} (h : WellFormed socket)
    (tids : List UInt16) : Quiets socket (cancelAll socket tids) := by
  induction tids generalizing socket with
  | nil => exact .refl socket
  | cons tid tids ih =>
    have hone := cancelRequest_quiets h tid
    exact hone.trans (ih (hone.wellFormed h))

lemma step_moves (h : WellFormed s.socket) (i : Input κ) : Moves s.socket (s.step i).socket := by
  cases i with
  | request req onResponse onTimeout =>
    exact (requestWith_requested s.socket req 0 defaultRetries (some (.session onResponse))
      (some (.session onTimeout))).moves h
  | destroy => exact (cancelAll_quiets h s.tids).moves
  | otherRequest req timeoutOverrideMs retries onResponse onTimeout =>
    exact (requestWith_requested s.socket req timeoutOverrideMs retries (onResponse.map .other)
      (onTimeout.map .other)).moves h
  | response tid =>
    rw [step, onResponse_socket]
    exact (onResponse_quiets h tid).moves
  | timeout ptr =>
    rw [step, onRequestTimeout_socket]
    exact (onRequestTimeout_quiets h ptr).moves
  | drainTick => exact (onDrainTick_quiets h).moves
  | cancel tid => exact (cancelRequest_quiets h tid).moves
  | close => exact (close_quiets h).moves

/-! ## The invariant -/

/-- **What the session knows**: its outstanding requests are tracked under ids that no other
outstanding request has, and only they have its callbacks. -/
structure Tracks (s : Session κ) : Prop where
  wellFormed : WellFormed s.socket
  issued_lt : ∀ ptr ∈ s.issued, ptr < s.socket.nextPtr
  callback : ∀ r ∈ s.socket.outstanding, ∀ inner,
    r.onResponse = some (.session inner) ∨ r.onTimeout = some (.session inner) → r.ptr ∈ s.issued
  tracked : ∀ r ∈ s.socket.outstanding, r.ptr ∈ s.issued → r.tid ∈ s.tids
  unique : ∀ r ∈ s.socket.outstanding, r.ptr ∈ s.issued →
    ∀ b ∈ s.socket.outstanding, b.tid = r.tid → b.ptr = r.ptr

lemma tracks_init (firstTid : UInt16) : Tracks (init κ firstTid) := by
  refine ⟨wellFormed_init firstTid, ?_, ?_, ?_, ?_⟩ <;>
    simp [init, RpcSocket.init, RpcSocket.outstanding]

lemma Tracks.quiets (h : Tracks s) {t : Session κ} (hquiets : Quiets s.socket t.socket)
    (hissued : t.issued = s.issued)
    (htids : ∀ r ∈ t.socket.outstanding, r.ptr ∈ s.issued → r.tid ∈ s.tids → r.tid ∈ t.tids) :
    Tracks t := by
  refine ⟨hquiets.wellFormed h.wellFormed, fun ptr hp => ?_, fun r hr inner hcb => ?_,
    fun r hr hp => ?_, fun r hr hp b hb htid => ?_⟩
  · rw [hquiets.nextPtr_eq]
    exact h.issued_lt ptr (hissued ▸ hp)
  · obtain ⟨c, hc, n, rfl⟩ := hquiets.exists_outstanding h.wellFormed hr
    exact hissued ▸ h.callback c hc inner hcb
  · obtain ⟨c, hc, n, rfl⟩ := hquiets.exists_outstanding h.wellFormed hr
    exact htids _ hr (hissued ▸ hp) (h.tracked c hc (hissued ▸ hp))
  · obtain ⟨c, hc, n, rfl⟩ := hquiets.exists_outstanding h.wellFormed hr
    obtain ⟨d, hd, m, rfl⟩ := hquiets.exists_outstanding h.wellFormed hb
    exact h.unique c hc (hissued ▸ hp) d hd htid

lemma Tracks.complete (h : Tracks s) {t : Session κ} {r : InflightRequest (Callback κ)} {e : Event}
    (hr : r ∈ s.socket.inflight) (he : Resolves r e)
    (hsocket : t.socket = { s.socket.destroyRequest r with log := s.socket.log ++ [e] })
    (hissued : t.issued = s.issued)
    (htids : t.tids = s.tids ∨ r.ptr ∈ s.issued ∧ t.tids = s.tids.filter (· ≠ r.tid)) :
    Tracks t := by
  have hquiet := destroyRequest_quiet h.wellFormed hr he
  rw [← hsocket] at hquiet
  refine h.quiets hquiet.quiets hissued fun b hb hp htid => ?_
  rcases htids with htids | ⟨hmine, htids⟩
  · rwa [htids]
  · rw [htids, List.mem_filter]
    refine ⟨htid, decide_eq_true fun hsame => ?_⟩
    -- the completed request is gone, and no other one has its id
    obtain ⟨c, hc, n, rfl⟩ := hquiet.exists_outstanding h.wellFormed hb
    have hptr := h.unique r (mem_outstanding.2 (.inl hr)) hmine c hc hsame
    have hlive := h.wellFormed.live r (mem_outstanding.2 (.inl hr))
    have hperm : r :: t.socket.outstanding ~ s.socket.outstanding := by
      rw [hsocket, RpcSocket.destroyRequest, if_neg (by simp [hlive])]
      exact resolve_outstanding h.wellFormed hr
    have hnodup := (hperm.map (·.ptr)).nodup_iff.2 h.wellFormed.nodup
    rw [List.map_cons, List.nodup_cons] at hnodup
    exact hnodup.1 (List.mem_map.2 ⟨_, hb, hptr⟩)

lemma detach_tids (s : Session κ) (callback : Option (Callback κ)) (tid : UInt16) :
    (s.detach callback tid).tids = s.tids ∨
      (∃ inner, callback = some (.session inner)) ∧
        (s.detach callback tid).tids = s.tids.filter (· ≠ tid) := by
  unfold detach
  split
  · next inner => exact .inr ⟨⟨inner, rfl⟩, rfl⟩
  · exact .inl rfl

lemma Tracks.onResponse (h : Tracks s) (tid : UInt16) : Tracks (s.onResponse tid) := by
  rcases onResponse_cases h.wellFormed tid with ⟨-, hnone⟩ | ⟨r, hr, hfind, hsome⟩
  · have hsame : s.onResponse tid = s := by
      simp [Session.onResponse, hnone, detach]
    rwa [hsame]
  · obtain rfl := (mem_of_findInflight hfind).2
    refine h.complete hr .response (by rw [onResponse_socket, hsome]) (detach_issued _ _ _) ?_
    unfold Session.onResponse
    rw [hsome]
    refine (detach_tids _ _ _).imp_right fun hdetach => ⟨?_, hdetach.2⟩
    obtain ⟨inner, hinner⟩ := hdetach.1
    exact h.callback r (mem_outstanding.2 (.inl hr)) inner (.inl hinner)

lemma Tracks.onRequestTimeout (h : Tracks s) (ptr : ℕ) : Tracks (s.onRequestTimeout ptr) := by
  rcases onRequestTimeout_cases h.wellFormed ptr with ⟨-, hnone⟩ | ⟨r, hr, -, hcase⟩
  · have hsame : s.onRequestTimeout ptr = s := by simp [Session.onRequestTimeout, hnone]
    rwa [hsame]
  · rcases hcase with ⟨hsent, hretry⟩ | ⟨hsent, hgive⟩
    · have hsame : s.onRequestTimeout ptr = { s with socket := s.socket.sendNow r } := by
        simp [Session.onRequestTimeout, hretry]
      rw [hsame]
      exact h.quiets (sendNow_quiet h.wellFormed hr hsent).quiets rfl fun _ _ _ htid => htid
    · have hgiven : s.onRequestTimeout ptr = Session.detach { s with
          socket := { s.socket.destroyRequest r with log := s.socket.log ++ [.timeout r.ptr] } }
          r.onTimeout r.tid := by
        simp [Session.onRequestTimeout, hgive]
      rw [hgiven]
      refine h.complete hr (.timeout hsent) (detach_socket _ _ _) (detach_issued _ _ _) ?_
      refine (detach_tids _ _ _).imp_right fun hdetach => ⟨?_, hdetach.2⟩
      obtain ⟨inner, hinner⟩ := hdetach.1
      exact h.callback r (mem_outstanding.2 (.inl hr)) inner (.inr hinner)

/-- What a request through the socket, of the session or of another owner, does to what the
session knows. -/
lemma Tracks.requested (h : Tracks s) {t : Session κ} {onResponse onTimeout : Option (Callback κ)}
    {tid : UInt16} (hresult : Requested s.socket onResponse onTimeout (t.socket, tid))
    (hfree : s.socket.Refuses ∨ ∀ r ∈ s.socket.outstanding,
      s.socket.nextPtr ∈ t.issued ∨ r.ptr ∈ s.issued → r.tid ≠ s.socket.nextTid)
    (hissued : ∀ ptr, ptr ∈ t.issued ↔
      ptr ∈ s.issued ∨ (s.socket.closing = false ∧ s.socket.nextPtr ∈ t.issued ∧
        ptr = s.socket.nextPtr))
    (hcallback : ∀ inner, onResponse = some (.session inner) ∨ onTimeout = some (.session inner) →
      s.socket.closing = false → s.socket.nextPtr ∈ t.issued)
    (htids : s.tids ⊆ t.tids) (htid : ¬ s.socket.Refuses → s.socket.nextPtr ∈ t.issued →
      s.socket.nextTid ∈ t.tids) : Tracks t := by
  have hwf : WellFormed t.socket := (hresult.moves h.wellFormed).wellFormed h.wellFormed
  have hold : ∀ r ∈ s.socket.outstanding, r.ptr ∈ t.issued → r.ptr ∈ s.issued := by
    intro r hr hp
    rcases (hissued r.ptr).1 hp with hp | ⟨-, -, hp⟩
    · exact hp
    · exact absurd hp (h.wellFormed.ptr_lt r hr).ne
  rcases hresult.outstanding_cases h.wellFormed with
    ⟨hrefuses, -, hout, hptr⟩ | ⟨haccepts, hopen, r, hr, hresp, htime, -, hptr, hout⟩
  · refine ⟨hwf, fun ptr hp => ?_, fun b hb inner hcb => ?_, fun b hb hp => ?_,
      fun b hb hp c hc htid => ?_⟩
    · rw [hptr]
      rcases (hissued ptr).1 hp with hp | ⟨hopen, -, rfl⟩
      · have := h.issued_lt ptr hp
        split <;> omega
      · simp [hopen]
    · exact (hissued _).2 (.inl (h.callback b (hout ▸ hb) inner hcb))
    · exact htids (h.tracked b (hout ▸ hb) (hold b (hout ▸ hb) hp))
    · exact h.unique b (hout ▸ hb) (hold b (hout ▸ hb) hp) c (hout ▸ hc) htid
  · have hfree := hfree.resolve_left haccepts
    refine ⟨hwf, fun ptr hp => ?_, fun b hb inner hcb => ?_, fun b hb hp => ?_,
      fun b hb hp c hc htid' => ?_⟩
    · rw [hptr]
      rcases (hissued ptr).1 hp with hp | ⟨-, -, rfl⟩
      · have := h.issued_lt ptr hp
        omega
      · omega
    · obtain ⟨d, hd, n, rfl⟩ := hout b hb
      rcases List.mem_cons.1 hd with rfl | hd
      · rw [show d.ptr = s.socket.nextPtr from hr.ptr]
        exact hcallback inner (hresp ▸ htime ▸ hcb) hopen
      · exact (hissued _).2 (.inl (h.callback d hd inner hcb))
    · obtain ⟨d, hd, n, rfl⟩ := hout b hb
      rcases List.mem_cons.1 hd with rfl | hd
      · rw [show d.tid = s.socket.nextTid from hr.tid]
        exact htid haccepts (hr.ptr ▸ hp)
      · exact htids (h.tracked d hd (hold d hd hp))
    · -- two old requests, or the new one and an old one, whose ids differ
      obtain ⟨d, hd, n, rfl⟩ := hout b hb
      obtain ⟨e, he, m, rfl⟩ := hout c hc
      rcases List.mem_cons.1 hd with rfl | hd'
      · rcases List.mem_cons.1 he with rfl | he'
        · rfl
        · exact absurd (htid'.trans hr.tid) (hfree e he' (.inl (hr.ptr ▸ hp)))
      · rcases List.mem_cons.1 he with rfl | he'
        · exact absurd (htid'.symm.trans hr.tid) (hfree d hd' (.inr (hold d hd' hp)))
        · exact h.unique d hd' (hold d hd' hp) e he' htid'

lemma Tracks.request (h : Tracks s) {req : Request} {onResponse onTimeout : Option κ}
    (hfree : ReachesAll s (.request req onResponse onTimeout)) :
    Tracks (s.request req onResponse onTimeout) := by
  set result := s.socket.request req (some (.session onResponse)) (some (.session onTimeout))
    with hres
  have hresult := requestWith_requested s.socket req 0 defaultRetries (some (.session onResponse))
    (some (.session onTimeout))
  have hsession : s.request req onResponse onTimeout = { s with
      socket := result.1
      tids := if result.2 ≠ 0 then s.tids ++ [result.2] else s.tids
      issued := if s.socket.closing then s.issued else s.issued ++ [s.socket.nextPtr] } := rfl
  have hmine : s.socket.closing = false →
      s.socket.nextPtr ∈ (s.request req onResponse onTimeout).issued := by
    intro hopen
    simp [hsession, hopen]
  refine @Tracks.requested _ _ h _ _ _ result.2 hresult ?_ (fun ptr => ?_) (fun _ _ => hmine) ?_ ?_
  · exact hfree.imp_right fun hfree r hr _ => hfree.2 r hr
  · rw [hsession]
    cases s.socket.closing <;> simp
  · rw [hsession]
    dsimp only
    split
    · exact List.subset_append_left _ _
    · exact List.Subset.refl _
  · intro haccepts _
    obtain ⟨hnext, -⟩ := hfree.resolve_left haccepts
    have htid : result.2 = s.socket.nextTid := by
      rcases hresult.outstanding_cases h.wellFormed with ⟨hrefuses, -⟩ | ⟨-, -, r, hr, -, -, htid, -⟩
      · exact absurd hrefuses haccepts
      · exact htid.trans hr.tid
    rw [hsession, htid]
    simp [hnext]

lemma Tracks.otherRequest (h : Tracks s) {req : Request} {timeoutOverrideMs : UInt64}
    {retries : ℕ} {onResponse onTimeout : Option κ}
    (hfree : ReachesAll s (.otherRequest req timeoutOverrideMs retries onResponse onTimeout)) :
    Tracks (s.step (.otherRequest req timeoutOverrideMs retries onResponse onTimeout)) := by
  have hnew : s.socket.nextPtr ∉ s.issued := fun hp => (h.issued_lt _ hp).false
  refine h.requested (requestWith_requested s.socket req timeoutOverrideMs retries
    (onResponse.map .other) (onTimeout.map .other)) ?_ (fun ptr => ?_) (fun inner hcb => ?_)
    (List.Subset.refl _) fun _ hp => absurd hp hnew
  · exact hfree.imp_right fun hfree r hr hp => hfree r hr (hp.resolve_left hnew)
  · simp [step, hnew]
  · rcases hcb with hcb | hcb
    · cases onResponse <;> simp at hcb
    · cases onTimeout <;> simp at hcb

/-! ## Destroying the session -/

/-- **Cancelling reaches every request in flight with an id of its own.** -/
lemma cancelAll_gone {socket : RpcSocket (Callback κ)} {tids : List UInt16} {ptr : ℕ}
    (hwf : WellFormed socket) (hreach : ∀ r ∈ socket.outstanding, r.ptr = ptr →
      r ∈ socket.inflight ∧ r.tid ∈ tids ∧ ∀ b ∈ socket.outstanding, b.tid = r.tid → b.ptr = ptr) :
    ∀ r ∈ (cancelAll socket tids).outstanding, r.ptr ≠ ptr := by
  induction tids generalizing socket with
  | nil =>
    intro r hr hptr
    simpa using (hreach r hr hptr).2.1
  | cons tid tids ih =>
    have hquiets := cancelRequest_quiets hwf tid
    refine @ih (socket.cancelRequest tid).1 (hquiets.wellFormed hwf) fun r hr hptr => ?_
    rcases cancelRequest_cases hwf tid with ⟨hnone, hsame⟩ | ⟨b, hb, hfind, -, -, -⟩
    · rw [hsame] at hr ⊢
      obtain ⟨hin, htid, hunique⟩ := hreach r hr hptr
      refine ⟨hin, (List.mem_cons.1 htid).resolve_left fun heq => ?_, hunique⟩
      have := List.find?_eq_none.1 hnone r hin
      simp [heq] at this
    · have hlive := hwf.live b (mem_outstanding.2 (.inl hb))
      have hcancel : (socket.cancelRequest tid).1 = { socket with
          inflight := SwapPop.remove (fun c => c.ptr = b.ptr) socket.inflight
          congestion := socket.congestion.recv
          log := socket.log ++ [.cancelled b.ptr] } := by
        simp [RpcSocket.cancelRequest, hfind, RpcSocket.destroyRequest, hlive]
      have hperm : b :: (socket.cancelRequest tid).1.outstanding ~ socket.outstanding := by
        rw [hcancel]
        exact resolve_outstanding hwf hb
      have hold : ∀ c ∈ (socket.cancelRequest tid).1.outstanding, c ∈ socket.outstanding :=
        fun c hc => hperm.mem_iff.1 (List.mem_cons_of_mem b hc)
      have hnodup := (hperm.map (·.ptr)).nodup_iff.2 hwf.nodup
      rw [List.map_cons, List.nodup_cons] at hnodup
      have hne : b.ptr ≠ ptr := fun hbptr =>
        hnodup.1 (List.mem_map.2 ⟨r, hr, hptr.trans hbptr.symm⟩)
      obtain ⟨hin, htid, hunique⟩ := hreach r (hold r hr) hptr
      refine ⟨?_, (List.mem_cons.1 htid).resolve_left fun heq => ?_,
        fun c hc => hunique c (hold c hc)⟩
      · have hmem := (remove_inflight_perm hwf hb).mem_iff.2 hin
        rw [hcancel]
        refine (List.mem_cons.1 hmem).resolve_left fun hrb => ?_
        exact hne (hrb ▸ hptr)
      · exact hne (hunique b (mem_outstanding.2 (.inl hb))
          ((mem_of_findInflight hfind).2.trans heq.symm))

lemma Tracks.destroy_gone (h : Tracks s) (hqueue : ReachesAll s .destroy) :
    Gone s.issued s.destroy.socket := by
  refine fun ptr hp => ⟨?_, cancelAll_gone h.wellFormed fun r hr hptr => ?_⟩
  · have hsame : s.destroy.socket.nextPtr = s.socket.nextPtr :=
      (cancelAll_quiets h.wellFormed s.tids).nextPtr_eq
    rw [hsame]
    exact h.issued_lt ptr hp
  · subst hptr
    refine ⟨(mem_outstanding.1 hr).resolve_right fun hpending => hqueue r hpending hp,
      h.tracked r hr hp, h.unique r hr hp⟩

/-- **Every step that meets the condition keeps what the session knows.** -/
theorem Tracks.step (h : Tracks s) {i : Input κ} (hi : ReachesAll s i) : Tracks (s.step i) := by
  cases i with
  | request req onResponse onTimeout => exact h.request hi
  | destroy =>
    refine h.quiets (cancelAll_quiets h.wellFormed s.tids) rfl fun r hr hp _ => ?_
    exact absurd rfl ((h.destroy_gone hi r.ptr hp).2 r hr)
  | otherRequest req timeoutOverrideMs retries onResponse onTimeout => exact h.otherRequest hi
  | response tid => exact h.onResponse tid
  | timeout ptr => exact h.onRequestTimeout ptr
  | drainTick => exact h.quiets (onDrainTick_quiets h.wellFormed) rfl fun _ _ _ htid => htid
  | cancel tid => exact h.quiets (cancelRequest_quiets h.wellFormed tid) rfl fun _ _ _ htid => htid
  | close => exact h.quiets (close_quiets h.wellFormed) rfl fun _ _ _ htid => htid

/-! ## The theorem -/

lemma gone_run {ptrs : List ℕ} (hwf : WellFormed s.socket) (h : Gone ptrs s.socket)
    (is : List (Input κ)) : SilentSince ptrs s.socket (Runs.run Session.step s is).socket := by
  have hrun := @Runs.run_invariant _ _ Session.step (fun t =>
    WellFormed t.socket ∧ Gone ptrs t.socket ∧ SilentSince ptrs s.socket t.socket)
    (fun t i ht => ?_) s ⟨hwf, h, .of_eq rfl⟩ is
  · exact hrun.2.2
  · have hmoves := step_moves ht.1 i
    obtain ⟨hgone, hsilent⟩ := hmoves.gone ht.1 ht.2.1
    exact ⟨hmoves.wellFormed ht.1, hgone, ht.2.2.trans hsilent⟩

/-- **Destroying a session cancels its requests** in every run whose steps meet the condition: at
each `destroy` none of the session's requests waits in the queue, and no request of the session
shares its transaction id with another outstanding one or has the id zero.

**Proof sketch.** The condition keeps the ids of the session's outstanding requests tracked and
their own, so `destroy` finds each of them; what is gone is never touched again. -/
theorem cancelled_of_reachesAll (firstTid : UInt16) (is : List (Input κ))
    (h : Runs.EveryStep step ReachesAll (init κ firstTid) is) : Cancelled firstTid is := by
  rintro before after rfl
  obtain ⟨hbefore, hdestroy, -⟩ := Runs.everyStep_append.1 h
  have htracks : Tracks (Runs.run step (init κ firstTid) before) :=
    Runs.run_invariant_of_everyStep (P := Tracks) (fun _ _ hs hi => hs.step hi)
      (tracks_init firstTid) hbefore
  set s := Runs.run step (init κ firstTid) before with hs
  have hd : Runs.run step (init κ firstTid) (before ++ [.destroy]) = s.destroy := by
    rw [Runs.run_append, ← hs]
    rfl
  have hf : Runs.run step (init κ firstTid) (before ++ .destroy :: after) =
      Runs.run step s.destroy after := by
    rw [Runs.run_append, ← hs]
    rfl
  rw [hd, hf]
  have hwf : WellFormed s.destroy.socket :=
    (cancelAll_quiets htracks.wellFormed s.tids).wellFormed htracks.wellFormed
  obtain ⟨later, hlog, hsilent⟩ := gone_run hwf (htracks.destroy_gone hdestroy) after
  refine ⟨later, hlog, fun ptr hp => ⟨fun he => ?_, fun he => ?_, fun he => ?_⟩⟩
  · exact hsilent _ he ptr hp rfl
  · exact hsilent _ he ptr hp rfl
  · exact absurd rfl (hsilent _ he ptr hp)

def someRequest : Request := { toAddr := Compact.Ipv4Address.zero }

/-- A run in which the session issues a request that goes out at once, is destroyed, and the
response arrives too late. -/
def lateResponseRun : List (Input Unit) :=
  [.request someRequest (some ()) none, .destroy, .response 1, .drainTick]

theorem cancelled_lateResponseRun :
    Runs.EveryStep step ReachesAll (init Unit 1) lateResponseRun ∧
      Cancelled 1 lateResponseRun := by
  have h : Runs.EveryStep step ReachesAll (init Unit 1) lateResponseRun := by
    refine ⟨.inr ⟨by decide, ?_⟩, ?_, trivial, trivial, trivial⟩
    · simp [init, RpcSocket.init, RpcSocket.outstanding]
    · have hnone : ((init Unit 1).step (.request someRequest (some ()) none)).socket.pending = [] :=
        rfl
      simp [ReachesAll, hnone]
  exact ⟨h, cancelled_of_reachesAll 1 lateResponseRun h⟩

/-- 80 requests of others fill the window, so that the request of the session waits in the queue. -/
def fillWindow : List (Input Unit) :=
  List.replicate 80 (.otherRequest someRequest 0 0 none none) ++
    [.request someRequest (some ()) none]

/-- **A queued request outlives its session**: when the drain timer expires it is sent for the
first time, after the session was destroyed. -/
theorem not_cancelled_of_queued : ¬ Cancelled 1 (fillWindow ++ .destroy :: [.drainTick]) := by
  intro h
  obtain ⟨later, hlog, hsilent⟩ := h fillWindow [.drainTick] rfl
  have hissued : 80 ∈ (Runs.run step (init Unit 1) (fillWindow ++ [.destroy])).issued := by
    decide +kernel
  have hbefore : .sent 80 ∉
      (Runs.run step (init Unit 1) (fillWindow ++ [.destroy])).socket.log := by
    decide +kernel
  have hafter : .sent 80 ∈
      (Runs.run step (init Unit 1) (fillWindow ++ .destroy :: [.drainTick])).socket.log := by
    decide +kernel
  rw [hlog] at hafter
  exact hbefore ((hsilent 80 hissued).2.2 ((List.mem_append.1 hafter).resolve_left hbefore))

end Session

end HyperDHT.Rpc
