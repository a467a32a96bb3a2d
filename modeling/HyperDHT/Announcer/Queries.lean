import HyperDHT.Announcer.Basic

/-!
# The queries of the announcer

What the announcer is called back for, and what the start of a cycle does. A query that has called
`on_done_` calls nothing any more; one that has not may still have replies committed to, whether or
not the announcer points to it.

## Main definitions

* `Announcer.Kept` — the queries are between two inputs.
* `Announcer.Live` — a query that has not called `on_done_`.
* `Announcer.Unmoved` — what a cycle leaves alone when it starts.

## Main results

* `Announcer.walk_eq` — what happens to a query: its replies are committed to, and its end is taken
  up if it has come.
* `Announcer.update_of_waits`, `Announcer.updateAt_updating` — a cycle is started, and its query waits,
  or is done at once.
* `Announcer.Kept.step`, `Announcer.alive_step` — every input.
-/

set_option autoImplicit false

namespace HyperDHT.Announcer

open Compact Handlers Query Routing Rpc Ops

variable {c : Config} {net : Net} {s : Announcer}

/-! ## Queries -/

/-- The queries are between two inputs. -/
def Kept (s : Announcer) : Prop := ∀ w ∈ s.queries, w.Reporting ∧ w.started = true

/-- A query that has not called `on_done_`. -/
def Live (s : Announcer) (number : ℕ) : Prop :=
  ∃ w, s.queries[number]? = some w ∧ w.query.pendingDoneFired = false

/-- A query that has called `on_done_`. -/
def Finished (s : Announcer) (number : ℕ) : Prop :=
  ∃ w, s.queries[number]? = some w ∧ w.query.pendingDoneFired = true

lemma Live.lt {number : ℕ} (h : s.Live number) : number < s.queries.length := by
  obtain ⟨w, hw, -⟩ := h
  exact (List.getElem?_eq_some_iff.1 hw).1

lemma finished_of_not_live {number : ℕ} (hlt : number < s.queries.length)
    (h : ¬ s.Live number) : s.Finished number := by
  refine ⟨s.queries[number], List.getElem?_eq_getElem hlt, ?_⟩
  by_contra hfired
  exact h ⟨_, List.getElem?_eq_getElem hlt, by simpa using hfired⟩

lemma Kept.get {w : Walk} {number : ℕ} (h : s.Kept) (hw : s.queries[number]? = some w) :
    w.Reporting ∧ w.started = true :=
  h w (List.mem_of_getElem? hw)

lemma findPeer_reporting (c : Config) (net : Net) :
    (findPeer c net).Reporting ∧ (findPeer c net).started = true := by
  have hfresh : (freshQuery c).Reporting := 
    Walk.reporting_init _ _ _ (show (1 : ℤ) ≤ 10 by decide) rfl rfl rfl
  have hrun : ∀ is, (Runs.run (Walk.step c.blake2b) (freshQuery c) is).Reporting :=
    fun is => Runs.run_invariant (fun _ i h => h.step c.blake2b i) hfresh is
  refine ⟨hrun _, ?_⟩
  rw [findPeer, setUp, Runs.run_append, Runs.run_cons, Runs.run_nil]
  exact Walk.started_start c.blake2b _ net.env

/-! ## Callbacks -/

/-- The replies among events. -/
def repliesOf (events : List QueryEvent) : List QueryReply :=
  events.filterMap fun e =>
    match e with
    | .replyEnter reply => some reply
    | _ => none

/-- The announcements to the nodes that replied with a token. -/
def requestsFor (c : Config) (relays : List RelayInfo) (replies : List QueryReply) : List Request :=
  replies.filterMap fun reply => reply.token.map (commitRequest c relays reply)

lemma foldl_onReply (replies : List QueryReply) (s : Announcer) :
    replies.foldl (onReply c) s =
      if s.alive then
        { s with
          announcing := s.announcing ++ replies.filter (·.token.isSome)
          sent := s.sent ++ requestsFor c s.relays replies }
      else s := by
  induction replies generalizing s with
  | nil => simp [requestsFor]
  | cons reply replies ih =>
    rw [List.foldl_cons, ih]
    cases halive : s.alive with
    | false => simp [onReply, halive]
    | true =>
      cases htoken : reply.token with
      | none => simp [onReply, commit, requestsFor, halive, htoken]
      | some token => simp [onReply, commit, requestsFor, halive, htoken]

lemma foldl_callback_of_silent {events : List QueryEvent}
    (h : ∀ e ∈ events, isCall e = false) (s : Announcer) :
    events.foldl (callback c net) s = s := by
  induction events with
  | nil => rfl
  | cons e events ih =>
    have he : callback c net s e = s := by
      have hcall := h e (by simp)
      cases e <;> first | contradiction | rfl
    rw [List.foldl_cons, he]
    exact ih fun e he => h e (by simp [he])

lemma foldl_callback_of_replies {events : List QueryEvent}
    (h : ∀ closest, .onDone closest ∉ events) (s : Announcer) :
    events.foldl (callback c net) s = (repliesOf events).foldl (onReply c) s := by
  induction events generalizing s with
  | nil => rfl
  | cons e events ih =>
    rw [List.foldl_cons, ih fun closest hmem => h closest (by simp [hmem])]
    cases e with
    | onDone closest => exact absurd (by simp) (h closest)
    | replyEnter reply => rfl
    | _ => rfl

lemma repliesOf_of_silent {events : List QueryEvent} (h : ∀ e ∈ events, isCall e = false) :
    repliesOf events = [] := by
  refine List.filterMap_eq_nil_iff.2 fun e he => ?_
  have hcall := h e he
  cases e <;> first | contradiction | rfl

/-- The announcer after the replies that a query got in a step. -/
def hear (c : Config) (s : Announcer) (number : ℕ) (w w' : Walk) : Announcer :=
  (repliesOf (w.newEvents w')).foldl (onReply c) { s with queries := s.queries.set number w' }

/-- **What happens to a query**: its replies are committed to, and its end is taken up if it has
come in this step. -/
theorem walk_eq {w : Walk} {number : ℕ} (hkept : s.Kept) (hw : s.queries[number]? = some w)
    (i : HyperDHT.Input) :
    s.walk c net number i =
      let w' := w.step c.blake2b i
      if w.query.pendingDoneFired = false ∧ w'.query.pendingDoneFired = true then
        (s.hear c number w w').onDone c (update c net)
      else s.hear c number w w' := by
  obtain ⟨hreporting, -⟩ := hkept.get hw
  rw [walk, hw]
  dsimp only
  cases hfired : w.query.pendingDoneFired with
  | true =>
    have hsilent := fun e he => hreporting.isCall_eq_false c.blake2b i hfired (e := e) he
    rw [foldl_callback_of_silent hsilent, hear, repliesOf_of_silent hsilent]
    simp
  | false =>
    cases hfired' : (w.step c.blake2b i).query.pendingDoneFired with
    | false =>
      rw [foldl_callback_of_replies (hreporting.onDone_notMem c.blake2b i hfired')]
      simp [hear]
    | true =>
      obtain ⟨before, closest, after, hevents, hbefore, hafter⟩ :=
        hreporting.newEvents_of_fired c.blake2b i hfired hfired'
      have hreplies : repliesOf (w.newEvents (w.step c.blake2b i)) = repliesOf before := by
        have hnone := repliesOf_of_silent hafter
        rw [hevents]
        simp only [repliesOf, List.filterMap_append, List.filterMap_cons] at hnone ⊢
        simp [hnone]
      rw [hear, hreplies, hevents, List.foldl_append, List.foldl_cons,
        foldl_callback_of_silent hafter, foldl_callback_of_replies hbefore]
      simp [callback]

lemma hear_of_fired {w : Walk} {number : ℕ} (hkept : s.Kept) (hw : s.queries[number]? = some w)
    (hfired : w.query.pendingDoneFired = true) (i : HyperDHT.Input) :
    s.walk c net number i = { s with queries := s.queries.set number (w.step c.blake2b i) } := by
  obtain ⟨hreporting, -⟩ := hkept.get hw
  have hsilent := fun e he => hreporting.isCall_eq_false c.blake2b i hfired (e := e) he
  rw [walk_eq hkept hw]
  simp [hfired, hear, repliesOf_of_silent hsilent]

/-! ## The start of a cycle -/

/-- What a cycle leaves alone when it starts: it adds queries, all of them alike. -/
structure Unmoved (c : Config) (net : Net) (s s' : Announcer) : Prop where
  running : s'.running = s.running
  alive : s'.alive = s.alive
  activeRelays : s'.activeRelays = s.activeRelays
  announcing : s'.announcing = s.announcing
  pings : s'.pings = s.pings
  sent : s'.sent = s.sent
  queries : ∃ n, s'.queries = s.queries ++ List.replicate n (findPeer c net)

variable {s₁ s₂ : Announcer}

lemma Unmoved.refl (s : Announcer) : Unmoved c net s s :=
  ⟨rfl, rfl, rfl, rfl, rfl, rfl, 0, by simp⟩

lemma Unmoved.trans (h₁ : Unmoved c net s s₁) (h₂ : Unmoved c net s₁ s₂) :
    Unmoved c net s s₂ := by
  obtain ⟨n₁, hn₁⟩ := h₁.queries
  obtain ⟨n₂, hn₂⟩ := h₂.queries
  refine ⟨h₂.running.trans h₁.running, h₂.alive.trans h₁.alive,
    h₂.activeRelays.trans h₁.activeRelays, h₂.announcing.trans h₁.announcing,
    h₂.pings.trans h₁.pings, h₂.sent.trans h₁.sent, n₁ + n₂, ?_⟩
  rw [hn₂, hn₁, List.append_assoc, List.replicate_append_replicate]

lemma buildRelays_unmoved {again : Announcer → Announcer}
    (hagain : ∀ s, Unmoved c net s (again s)) (s : Announcer) :
    Unmoved c net s (buildRelays c again s) := by
  unfold buildRelays
  dsimp only
  split
  · refine Unmoved.trans ?_ (hagain _)
    exact ⟨rfl, rfl, rfl, rfl, rfl, rfl, 0, by simp⟩
  · exact ⟨rfl, rfl, rfl, rfl, rfl, rfl, 0, by simp⟩

lemma onDone_unmoved {again : Announcer → Announcer}
    (hagain : ∀ s, Unmoved c net s (again s)) (s : Announcer) :
    Unmoved c net s (onDone c again s) := by
  unfold onDone
  dsimp only
  split
  · split
    · refine Unmoved.trans ?_ (buildRelays_unmoved hagain _)
      exact ⟨rfl, rfl, rfl, rfl, rfl, rfl, 0, by simp⟩
    · exact ⟨rfl, rfl, rfl, rfl, rfl, rfl, 0, by simp⟩
  · exact .refl s

lemma updateAt_unmoved (c : Config) (net : Net) (fuel : ℕ) (s : Announcer) :
    Unmoved c net s (updateAt c net fuel s) := by
  induction fuel generalizing s with
  | zero => exact .refl s
  | succ fuel ih =>
    have hstart : Unmoved c net s
        { s with updating := true, queries := s.queries ++ [findPeer c net] } :=
      ⟨rfl, rfl, rfl, rfl, rfl, rfl, 1, rfl⟩
    rw [updateAt]
    split
    · exact .refl s
    · dsimp only
      split
      · have hdone := hstart.trans (onDone_unmoved ih _)
        exact ⟨hdone.running, hdone.alive, hdone.activeRelays, hdone.announcing, hdone.pings,
          hdone.sent, hdone.queries⟩
      · exact ⟨rfl, rfl, rfl, rfl, rfl, rfl, 1, rfl⟩

lemma update_unmoved (c : Config) (net : Net) (s : Announcer) :
    Unmoved c net s (update c net s) :=
  updateAt_unmoved c net updateFuel s

lemma update_of_blocked (h : s.updating = true ∨ s.running = false) : update c net s = s := by
  rw [update, updateFuel, updateAt, if_pos (by rcases h with h | h <;> simp [h])]

/-- **A cycle starts**, and its query waits for answers, or the end of the query is not heard. -/
lemma update_of_waits (hfree : s.updating = false) (hrunning : s.running = true)
    (hwaits : (findPeer c net).query.pendingDoneFired = false ∨ s.alive = false) :
    update c net s = { s with
      updating := true
      queries := s.queries ++ [findPeer c net]
      currentQuery := some s.queries.length } := by
  rw [update, updateFuel, updateAt, if_neg (by simp [hfree, hrunning])]
  rcases hwaits with hwaits | halive
  · simp [hwaits]
  · simp [onDone, halive]

lemma updateAt_updating (hdone : (findPeer c net).query.pendingDoneFired = true) (fuel : ℕ)
    (halive : s.alive = true) (hfree : s.updating = false) :
    (updateAt c net fuel s).updating = false := by
  induction fuel generalizing s with
  | zero => exact hfree
  | succ fuel ih =>
    rw [updateAt]
    split
    · exact hfree
    · simp only [hdone, if_true, onDone, halive]
      split
      · unfold buildRelays
        dsimp only
        split
        · exact ih rfl rfl
        · rfl
      · rfl

lemma update_currentQuery (hfree : s.updating = false) (hrunning : s.running = true) (c : Config)
    (net : Net) : (update c net s).currentQuery = some s.queries.length := by
  rw [update, updateFuel, updateAt, if_neg (by simp [hfree, hrunning])]

lemma lt_length_update (hfree : s.updating = false) (hrunning : s.running = true) (c : Config)
    (net : Net) : s.queries.length < (update c net s).queries.length := by
  rw [update, updateFuel, updateAt, if_neg (by simp [hfree, hrunning])]
  dsimp only
  split
  · obtain ⟨n, hn⟩ := (onDone_unmoved (updateAt_unmoved c net 1)
      { s with updating := true, queries := s.queries ++ [findPeer c net] }).queries
    rw [hn]
    simp
  · simp

lemma onDone_congr {again again' : Announcer → Announcer}
    (h : ∀ s, s.hasReannounced = true → again s = again' s) (s : Announcer) :
    onDone c again s = onDone c again' s := by
  unfold onDone buildRelays
  dsimp only
  split_ifs
  · exact h _ rfl
  all_goals rfl

lemma onDone_of_reannounced (again again' : Announcer → Announcer)
    (h : s.hasReannounced = true) : onDone c again s = onDone c again' s := by
  simp [onDone, buildRelays, h]

lemma updateAt_of_reannounced (fuel : ℕ) (h : s.hasReannounced = true) :
    updateAt c net (fuel + 1) s = updateAt c net 1 s := by
  rw [updateAt, updateAt]
  dsimp only
  rw [onDone_of_reannounced (updateAt c net fuel) (updateAt c net 0)]
  exact h

/-- **The recursion of `update` is followed to its end**, however deep it may go. -/
theorem updateAt_eq (fuel : ℕ) (s : Announcer) :
    updateAt c net (fuel + updateFuel) s = update c net s := by
  rw [update, updateFuel, updateAt, updateAt]
  dsimp only
  rw [onDone_congr fun s h => updateAt_of_reannounced fuel h]

/-! ## The inputs -/

/-- The end of the announcer. -/
def Input.isStop : Input → Bool
  | .stop | .stopWithoutUnannounce => true
  | _ => false

/-- What `notify_online` forgets before it starts a cycle. -/
def forget (s : Announcer) : Announcer :=
  { s with
    hasReannounced := false
    activeRelays := []
    relays := []
    currentQuery := none
    updating := false }

/-- The queries and what the announcer knows of them are as they were. -/
structure SameCycle (s s' : Announcer) : Prop where
  running : s'.running = s.running
  alive : s'.alive = s.alive
  updating : s'.updating = s.updating
  currentQuery : s'.currentQuery = s.currentQuery
  queries : s'.queries = s.queries

/-- What an input may do to the cycles. -/
inductive Shape (c : Config) (s : Announcer) : Input → Announcer → Prop
  | beside {i : Input} {s' : Announcer} (hsame : SameCycle s s') : Shape c s i s'
  | update {i : Input} {s' : Announcer} (net : Net) (hsame : SameCycle s s') :
      Shape c s i (update c net s')
  | start (net : Net) (hrunning : s.running = false) :
      Shape c s (.start net) (Announcer.update c net { s with running := true })
  | stop {i : Input} (sendUnannounce : Bool) (hstop : i.isStop = true)
      (hrunning : s.running = true) : Shape c s i (s.stopImpl c sendUnannounce)
  | notifyOnline (net : Net) (hrunning : s.running = true) :
      Shape c s (.notifyOnline net) (Announcer.update c net s.forget)
  | walk {i : Input} (net : Net) (number : ℕ) (w : Walk) (j : HyperDHT.Input)
      (hw : s.queries[number]? = some w) : Shape c s i (s.walk c net number j)

lemma SameCycle.refl (s : Announcer) : SameCycle s s := ⟨rfl, rfl, rfl, rfl, rfl⟩

lemma refresh_eq (c : Config) (net : Net) (s : Announcer) : s.refresh c net = update c net s := by
  unfold refresh
  split
  · rename_i h
    exact (update_of_blocked (.inr (by simpa using h))).symm
  · rfl

lemma walk_shape (c : Config) (s : Announcer) (i : Input) (net : Net) (number : ℕ)
    (j : HyperDHT.Input) : Shape c s i (s.walk c net number j) := by
  cases hw : s.queries[number]? with
  | none =>
    rw [Announcer.walk, hw]
    exact .beside (.refl s)
  | some w => exact .walk net number w j hw

/-- **Every input** does one of these things. -/
theorem step_shape (c : Config) (s : Announcer) (i : Input) : Shape c s i (s.step c i) := by
  cases i with
  | start net =>
    rw [step, Announcer.start]
    split
    · exact .beside (.refl s)
    · exact .start net (by simpa using ‹¬ s.running = true›)
  | stop =>
    cases hrunning : s.running with
    | false => simpa [step, stopImpl, hrunning] using Shape.beside (.refl s)
    | true => exact .stop true rfl hrunning
  | stopWithoutUnannounce =>
    cases hrunning : s.running with
    | false => simpa [step, stopImpl, hrunning] using Shape.beside (.refl s)
    | true => exact .stop false rfl hrunning
  | refresh net =>
    rw [step, refresh_eq]
    exact .update net (.refl s)
  | notifyOnline net =>
    rw [step, Announcer.notifyOnline]
    split
    · exact .beside (.refl s)
    · exact .notifyOnline net (by simpa using ‹¬ (!s.running) = true›)
  | bgTimer net =>
    rw [step]
    split
    · exact .beside (.refl s)
    · exact .update net (.refl s)
  | pingTimer =>
    rw [step, pingRelays]
    split_ifs
    · exact .beside (.refl s)
    · exact .beside (.refl s)
    · exact .beside ⟨rfl, rfl, rfl, rfl, rfl⟩
  | response net number k resp => exact walk_shape c s _ net number _
  | timeout net number k => exact walk_shape c s _ net number _
  | announced k resp =>
    rw [step]
    split
    · exact .beside (.refl s)
    · unfold onAnnounced
      split
      · exact .beside ⟨rfl, rfl, rfl, rfl, rfl⟩
      · exact .beside ⟨rfl, rfl, rfl, rfl, rfl⟩
  | announceTimeout k => exact .beside ⟨rfl, rfl, rfl, rfl, rfl⟩
  | ping net number answered =>
    rw [step]
    split
    · exact .beside (.refl s)
    · split
      · exact .beside (.refl s)
      · unfold onPing
        dsimp only
        split
        · split
          · rw [refresh_eq]
            exact .update net ⟨rfl, rfl, rfl, rfl, rfl⟩
          · exact .beside ⟨rfl, rfl, rfl, rfl, rfl⟩
        · exact .beside ⟨rfl, rfl, rfl, rfl, rfl⟩

/-! ## What the inputs keep -/

lemma onDone_cases (halive : s.alive = true) (c : Config) (net : Net) :
    ∃ s', SameCycle { s with updating := false, currentQuery := none } s' ∧
      (s.onDone c (update c net) = s' ∨ s.onDone c (update c net) = update c net s') := by
  unfold onDone buildRelays
  dsimp only
  rw [if_pos halive]
  split_ifs
  · refine ⟨_, ?_, .inr rfl⟩
    exact ⟨rfl, rfl, rfl, rfl, rfl⟩
  · refine ⟨_, ?_, .inl rfl⟩
    exact ⟨rfl, rfl, rfl, rfl, rfl⟩
  · exact ⟨_, .refl _, .inl rfl⟩

lemma hear_sameCycle (c : Config) (s : Announcer) (number : ℕ) (w w' : Walk) :
    SameCycle { s with queries := s.queries.set number w' } (s.hear c number w w') := by
  rw [hear, foldl_onReply]
  split <;> exact ⟨rfl, rfl, rfl, rfl, rfl⟩

lemma hear_activeRelays (c : Config) (s : Announcer) (number : ℕ) (w w' : Walk) :
    (s.hear c number w w').activeRelays = s.activeRelays := by
  rw [hear, foldl_onReply]
  split <;> rfl

lemma hear_announces (halive : s.alive = true) (number : ℕ) (w w' : Walk) :
    (s.hear c number w w').announcing =
        s.announcing ++ (repliesOf (w.newEvents w')).filter (·.token.isSome) ∧
      (s.hear c number w w').sent =
        s.sent ++ requestsFor c s.relays (repliesOf (w.newEvents w')) := by
  rw [hear, foldl_onReply, if_pos halive]
  exact ⟨rfl, rfl⟩

lemma walk_announces {w : Walk} {number : ℕ} (hkept : s.Kept) (halive : s.alive = true)
    (hw : s.queries[number]? = some w) (net : Net) (i : HyperDHT.Input) :
    (s.walk c net number i).announcing = s.announcing ++
        (repliesOf (w.newEvents (w.step c.blake2b i))).filter (·.token.isSome) ∧
      (s.walk c net number i).sent = s.sent ++
        requestsFor c s.relays (repliesOf (w.newEvents (w.step c.blake2b i))) := by
  obtain ⟨hannouncing, hsent⟩ := hear_announces (c := c) halive number w (w.step c.blake2b i)
  rw [walk_eq hkept hw]
  dsimp only
  split
  · have hunmoved := onDone_unmoved (update_unmoved c net)
      (s.hear c number w (w.step c.blake2b i))
    exact ⟨hunmoved.announcing.trans hannouncing, hunmoved.sent.trans hsent⟩
  · exact ⟨hannouncing, hsent⟩

lemma walk_of_deaf (hkept : s.Kept) (halive : s.alive = false) {w : Walk} {number : ℕ}
    (hw : s.queries[number]? = some w) (i : HyperDHT.Input) :
    s.walk c net number i = { s with queries := s.queries.set number (w.step c.blake2b i) } := by
  have hheard : s.hear c number w (w.step c.blake2b i) =
      { s with queries := s.queries.set number (w.step c.blake2b i) } := by
    rw [hear, foldl_onReply, if_neg (by simp [halive])]
  rw [walk_eq hkept hw]
  dsimp only
  rw [hheard]
  simp [onDone, halive]

lemma foldl_unannounceNode (relays : List RelayNode) (s : Announcer) :
    relays.foldl (unannounceNode c) s =
      { s with sent := s.sent ++ relays.map (unannounceRequest c) } := by
  induction relays generalizing s with
  | nil => simp
  | cons relay relays ih => simp [ih, unannounceNode]

lemma stopImpl_eq (hrunning : s.running = true) (sendUnannounce : Bool) :
    s.stopImpl c sendUnannounce =
      { s with
        running := false
        alive := false
        currentQuery := none
        updating := false
        activeRelays := []
        relays := []
        sent := s.sent ++
          if sendUnannounce then s.activeRelays.map (unannounceRequest c) else [] } := by
  rw [stopImpl, if_neg (by simp [hrunning])]
  cases sendUnannounce with
  | false => simp
  | true => simp [foldl_unannounceNode]

lemma Unmoved.added {s' : Announcer} (h : Unmoved c net s s') :
    ∃ added, (∀ w ∈ added, w.Reporting ∧ w.started = true) ∧ s'.queries = s.queries ++ added := by
  obtain ⟨n, hn⟩ := h.queries
  refine ⟨_, fun w hw => ?_, hn⟩
  rw [List.eq_of_mem_replicate hw]
  exact findPeer_reporting c net

/-- **Queries go on**: an input adds queries, and one of the others may have taken a step. -/
theorem queries_step (hkept : s.Kept) (c : Config) (i : Input) :
    ∃ added, (∀ w ∈ added, w.Reporting ∧ w.started = true) ∧
      ((s.step c i).queries = s.queries ++ added ∨
        ∃ number w j, s.queries[number]? = some w ∧
          (s.step c i).queries = s.queries.set number (w.step c.blake2b j) ++ added) := by
  have hshape := step_shape c s i
  generalize s.step c i = s' at hshape ⊢
  cases hshape with
  | beside hsame => exact ⟨[], by simp, .inl (by simp [hsame.queries])⟩
  | @update _ s₀ net hsame =>
    obtain ⟨added, hadded, heq⟩ := (update_unmoved c net s₀).added
    exact ⟨added, hadded, .inl (by rw [heq, hsame.queries])⟩
  | start net hrunning =>
    obtain ⟨added, hadded, heq⟩ :=
      (update_unmoved c net { s with running := true }).added
    exact ⟨added, hadded, .inl heq⟩
  | stop sendUnannounce hstop hrunning =>
    exact ⟨[], by simp, .inl (by simp [stopImpl_eq hrunning])⟩
  | notifyOnline net hrunning =>
    obtain ⟨added, hadded, heq⟩ := (update_unmoved c net s.forget).added
    exact ⟨added, hadded, .inl heq⟩
  | walk net number w j hw =>
    have hsame := (hear_sameCycle c s number w (w.step c.blake2b j)).queries
    rw [walk_eq hkept hw]
    dsimp only
    split
    · obtain ⟨added, hadded, heq⟩ := (onDone_unmoved (update_unmoved c net)
        (s.hear c number w (w.step c.blake2b j))).added
      exact ⟨added, hadded, .inr ⟨number, w, j, hw, by rw [heq, hsame]⟩⟩
    · exact ⟨[], by simp, .inr ⟨number, w, j, hw, by rw [hsame]; simp⟩⟩

lemma Kept.step (hkept : s.Kept) (c : Config) (i : Input) : (s.step c i).Kept := by
  obtain ⟨added, hadded, heq | ⟨number, w', j, hw', heq⟩⟩ := queries_step hkept c i
  · intro w hw
    rw [heq] at hw
    exact (List.mem_append.1 hw).elim (hkept w) (hadded w)
  · intro w hw
    rw [heq] at hw
    rcases List.mem_append.1 hw with hw | hw
    · rcases List.mem_or_eq_of_mem_set hw with hw | rfl
      · exact hkept w hw
      · obtain ⟨hreporting, hstarted⟩ := hkept.get hw'
        exact ⟨hreporting.step c.blake2b j, Walk.started_step c.blake2b hstarted j⟩
    · exact hadded w hw

lemma Finished.step {number : ℕ} (h : s.Finished number) (hkept : s.Kept) (c : Config)
    (i : Input) :
    (s.step c i).Finished number := by
  obtain ⟨w, hw, hfired⟩ := h
  have hlt : number < s.queries.length := (List.getElem?_eq_some_iff.1 hw).1
  obtain ⟨added, -, heq | ⟨number', w', j, hw', heq⟩⟩ := queries_step hkept c i
  · exact ⟨w, by rw [heq, List.getElem?_append_left hlt, hw], hfired⟩
  · by_cases hsame : number' = number
    · subst hsame
      obtain rfl := Option.some_inj.1 (hw.symm.trans hw')
      refine ⟨w.step c.blake2b j, ?_, (hkept.get hw).1.fired_step c.blake2b j hfired⟩
      rw [heq, List.getElem?_append_left (by simpa using hlt), List.getElem?_set_self hlt]
    · refine ⟨w, ?_, hfired⟩
      rw [heq, List.getElem?_append_left (by simpa using hlt), List.getElem?_set_ne hsame, hw]

lemma walk_alive {w : Walk} {number : ℕ} (hkept : s.Kept) (hw : s.queries[number]? = some w)
    (i : HyperDHT.Input) : (s.walk c net number i).alive = s.alive := by
  have hsame := (hear_sameCycle c s number w (w.step c.blake2b i)).alive
  rw [walk_eq hkept hw]
  dsimp only
  split
  · exact (onDone_unmoved (update_unmoved c net) _).alive.trans hsame
  · exact hsame

lemma alive_step_of_not_stop (hkept : s.Kept) (c : Config) {i : Input}
    (h : i.isStop = true → s.running = false) : (s.step c i).alive = s.alive := by
  have hshape := step_shape c s i
  generalize s.step c i = s' at hshape ⊢
  cases hshape with
  | beside hsame => exact hsame.alive
  | update net hsame => exact (update_unmoved c net _).alive.trans hsame.alive
  | start net => exact (update_unmoved c net { s with running := true }).alive
  | stop _ hstop hrunning => simp [h hstop] at hrunning
  | notifyOnline net => exact (update_unmoved c net s.forget).alive
  | walk net number w j hw => exact walk_alive hkept hw j

/-- **The sentinel is cleared by the end of a running announcer**, and never set again. -/
theorem alive_step (hkept : s.Kept) (c : Config) (i : Input) :
    (s.step c i).alive = (s.alive && !(i.isStop && s.running)) := by
  by_cases hstop : i.isStop = true ∧ s.running = true
  · obtain ⟨hstop, hrunning⟩ := hstop
    cases i with
    | stop => simp [step, stopImpl_eq hrunning, Input.isStop, hrunning]
    | stopWithoutUnannounce => simp [step, stopImpl_eq hrunning, Input.isStop, hrunning]
    | _ => contradiction
  · rw [alive_step_of_not_stop hkept c fun h => by simpa [h] using hstop]
    cases h : i.isStop <;> simp_all

/-! ## The cycle that the announcer points to -/

/-- While a cycle is under way, the announcer points to its query, and the query goes on. -/
def Pointed (s : Announcer) : Prop :=
  s.updating = true → ∃ number, s.currentQuery = some number ∧ s.Live number

lemma SameCycle.live {s' : Announcer} (h : SameCycle s s') {number : ℕ} :
    s'.Live number ↔ s.Live number := by
  rw [Live, Live, h.queries]

lemma SameCycle.pointed {s' : Announcer} (h : SameCycle s s') (hpointed : s.Pointed) :
    s'.Pointed := by
  intro hupdating
  obtain ⟨number, hcurrent, hlive⟩ := hpointed (h.updating.symm.trans hupdating)
  exact ⟨number, h.currentQuery.trans hcurrent, h.live.2 hlive⟩

lemma Pointed.update (hpointed : s.Pointed) (halive : s.alive = true) (c : Config) (net : Net) :
    (Announcer.update c net s).Pointed := by
  by_cases hblocked : s.updating = true ∨ s.running = false
  · rw [update_of_blocked hblocked]
    exact hpointed
  · simp only [not_or, Bool.not_eq_true, Bool.not_eq_false] at hblocked
    obtain ⟨hfree, hrunning⟩ := hblocked
    cases hdone : (findPeer c net).query.pendingDoneFired with
    | false =>
      rw [update_of_waits hfree hrunning (.inl hdone)]
      exact fun _ => ⟨s.queries.length, rfl, findPeer c net, by simp, hdone⟩
    | true =>
      intro hupdating
      rw [Announcer.update, updateAt_updating hdone _ halive hfree] at hupdating
      contradiction

lemma live_set_iff {w w' : Walk} {number k : ℕ} (hw : s.queries[number]? = some w)
    (hsame : w'.query.pendingDoneFired = w.query.pendingDoneFired) :
    Live { s with queries := s.queries.set number w' } k ↔ s.Live k := by
  have hlt := (List.getElem?_eq_some_iff.1 hw).1
  by_cases hk : number = k
  · subst hk
    simp [Live, hw, List.getElem?_set_self hlt, hsame]
  · simp [Live, List.getElem?_set_ne hk]

/-- **An announcer that was not stopped points to the query of its cycle.** -/
theorem Pointed.step (hpointed : s.Pointed) (hkept : s.Kept) (halive : s.alive = true) (c : Config)
    (i : Input) : (s.step c i).Pointed := by
  have hshape := step_shape c s i
  generalize s.step c i = s' at hshape ⊢
  cases hshape with
  | beside hsame => exact hsame.pointed hpointed
  | update net hsame =>
    exact (hsame.pointed hpointed).update (hsame.alive.trans halive) c net
  | start net hrunning =>
    exact Pointed.update (s := { s with running := true }) hpointed halive c net
  | stop sendUnannounce hstop hrunning =>
    rw [stopImpl_eq hrunning]
    simp [Pointed]
  | notifyOnline net hrunning =>
    exact Pointed.update (s := s.forget) (by simp [Pointed, forget]) halive c net
  | walk net number w j hw =>
    obtain ⟨hreporting, -⟩ := hkept.get hw
    have hsame := hear_sameCycle c s number w (w.step c.blake2b j)
    rw [walk_eq hkept hw]
    dsimp only
    split
    · -- the query is done, so no cycle is under way
      obtain ⟨s₁, hsame₁, heq⟩ := onDone_cases (hsame.alive.trans halive) c net
      have hnone : s₁.Pointed := fun hupdating => by simp [hsame₁.updating] at hupdating
      rcases heq with heq | heq
      · rw [heq]
        exact hnone
      · rw [heq]
        exact hnone.update (hsame₁.alive.trans (hsame.alive.trans halive)) c net
    · rename_i hnot
      refine hsame.pointed fun hupdating => ?_
      obtain ⟨k, hcurrent, hlive⟩ := hpointed hupdating
      refine ⟨k, hcurrent, (live_set_iff hw ?_).2 hlive⟩
      cases hfired : w.query.pendingDoneFired with
      | false => simpa [hfired] using hnot
      | true => exact hreporting.fired_step c.blake2b j hfired

end HyperDHT.Announcer
