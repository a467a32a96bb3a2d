import HyperDHT.Announcer.Cycles
import HyperDHT.Announcer.Relays

/-!
# An announcer that is started again

While an announcer runs, it commits to the replies of its query, takes up its end, takes in the relays
that accept it, and starts a cycle when it is told to and none is under way. An announcer that was
stopped and started again does none of this: the sentinel that its callbacks read is never set again.

## Main definitions

* `Announcer.Replies`, `Ends`, `Accepted`, `Wakes` — what an announcer that runs has to heed.
* `Announcer.Heeds` — what it does then.
* `Announcer.Deaf` — an announcer whose sentinel was cleared.

## Main results

* `Announcer.heeds_of_alive`, `Announcer.Deaf.heeds_iff_of_running` — before a stop the announcer heeds everything,
  afterwards nothing.
* `Announcer.heeds_iff` — a running announcer heeds what happens in exactly the runs in which nothing
  happens after a stop that it would have to heed.
-/

set_option autoImplicit false

namespace HyperDHT.Announcer

open Compact Handlers Query Routing Rpc Ops

variable {c : Config} {net : Net} {s : Announcer}

/-! ## What has to be heeded -/

/-- What happens to a query in a step. -/
def Input.toQuery? : Input → Option (ℕ × HyperDHT.Input)
  | .response net number k resp => some (number, .response net.env k resp)
  | .timeout net number k => some (number, .timeout net.env k)
  | _ => none

/-- A visit of the query that the announcer points to is answered, and the query has not ended. -/
def Replies (s : Announcer) (i : Input) (reply : QueryReply) : Prop :=
  ∃ net number k resp w node, i = .response net number k resp ∧ s.currentQuery = some number ∧
    s.queries[number]? = some w ∧ w.query.pendingDoneFired = false ∧
    w.outstanding[k]? = some node ∧ reply = replyOf node resp

/-- The query that the announcer points to ends. -/
def Ends (c : Config) (s : Announcer) (i : Input) : Prop :=
  ∃ number j w, i.toQuery? = some (number, j) ∧ s.currentQuery = some number ∧
    s.queries[number]? = some w ∧ w.query.pendingDoneFired = false ∧
    (w.step c.blake2b j).query.pendingDoneFired = true

/-- An announcement is accepted, and there is room for the relay. -/
def Accepted (s : Announcer) (i : Input) (relay : RelayNode) : Prop :=
  ∃ k resp node, i = .announced k resp ∧ s.announcing[k]? = some node ∧
    relay = relayOf node resp ∧ HasRoom s.activeRelays relay

/-- A cycle is asked for, or its time has come, and the query that the announcer points to, if any, has
ended. -/
def Wakes (s : Announcer) (i : Input) : Prop :=
  (∃ net, i = .refresh net ∨ i = .bgTimer net) ∧
    ∀ number, s.currentQuery = some number → ¬ s.Live number

/-- **What an announcer that runs does**: a reply with a token is committed to; the end of the query
clears `updating_`, unless another cycle is started; a relay that accepted is taken in; a cycle that is
asked for is started. -/
structure Heeds (c : Config) (s : Announcer) (i : Input) : Prop where
  commits : ∀ reply token, s.Replies i reply → reply.token = some token →
    commitRequest c s.relays reply token ∈ (s.step c i).sent.drop s.sent.length
  ends : Ends c s i → (s.step c i).updating = true →
    (s.step c i).currentQuery ≠ s.currentQuery
  takesIn : ∀ relay, s.Accepted i relay → relay ∈ (s.step c i).activeRelays
  wakes : s.Wakes i → s.queries.length < (s.step c i).queries.length

/-- Something happens that has to be heeded. -/
inductive Calls (c : Config) (s : Announcer) (i : Input) : Prop
  | reply {reply : QueryReply} {token : List.Vector UInt8 32} (h : s.Replies i reply)
      (htoken : reply.token = some token) : Calls c s i
  | ends (h : Ends c s i) : Calls c s i
  | accepted {relay : RelayNode} (h : s.Accepted i relay) : Calls c s i
  | wakes (h : s.Wakes i) : Calls c s i

lemma heeds_of_not_calls {i : Input} (h : ¬ Calls c s i) : Heeds c s i where
  commits := fun _ _ hreply htoken => absurd (.reply hreply htoken) h
  ends := fun hends => absurd (.ends hends) h
  takesIn := fun _ haccepted => absurd (.accepted haccepted) h
  wakes := fun hwakes => absurd (.wakes hwakes) h

/-! ## Before a stop -/

lemma update_currentQuery_of_updating (hfree : s.updating = false)
    (hupdating : (update c net s).updating = true) :
    (update c net s).currentQuery = some s.queries.length := by
  cases hrunning : s.running with
  | false => simp [update_of_blocked (.inr hrunning), hfree] at hupdating
  | true => exact update_currentQuery hfree hrunning c net

lemma step_of_toQuery {i : Input} {number : ℕ} {j : HyperDHT.Input}
    (hi : i.toQuery? = some (number, j)) : ∃ net, s.step c i = s.walk c net number j := by
  cases i with
  | response net number' k resp =>
    obtain ⟨rfl, rfl⟩ := Prod.mk.inj (Option.some_inj.1 hi)
    exact ⟨net, rfl⟩
  | timeout net number' k =>
    obtain ⟨rfl, rfl⟩ := Prod.mk.inj (Option.some_inj.1 hi)
    exact ⟨net, rfl⟩
  | _ => contradiction

lemma currentQuery_ne_of_ends (hkept : s.Kept) (halive : s.alive = true) {i : Input}
    (hends : Ends c s i) (hupdating : (s.step c i).updating = true) :
    (s.step c i).currentQuery ≠ s.currentQuery := by
  obtain ⟨number, j, w, hi, hcurrent, hw, hwaits, hfired⟩ := hends
  obtain ⟨net, hstep⟩ := @step_of_toQuery c s i number j hi
  have hsame := hear_sameCycle c s number w (w.step c.blake2b j)
  obtain ⟨s₁, hsame₁, heq⟩ := onDone_cases (hsame.alive.trans halive) c net
  have hfree : s₁.updating = false := hsame₁.updating
  rw [hstep, walk_eq hkept hw, if_pos ⟨hwaits, hfired⟩] at hupdating ⊢
  rcases heq with heq | heq
  · rw [heq, hfree] at hupdating
    contradiction
  · rw [heq] at hupdating ⊢
    have hlength : s₁.queries.length = s.queries.length := by
      rw [hsame₁.queries]
      show (s.hear c number w (w.step c.blake2b j)).queries.length = s.queries.length
      rw [hsame.queries]
      simp
    rw [update_currentQuery_of_updating hfree hupdating, hcurrent, hlength]
    have hlt := (List.getElem?_eq_some_iff.1 hw).1
    intro hnumber
    have := Option.some_inj.1 hnumber
    omega

/-- **Before a stop the announcer heeds everything.** -/
theorem heeds_of_alive (hkept : s.Kept) (hpointed : s.Pointed) (halive : s.alive = true)
    (hrunning : s.running = true) (i : Input) : Heeds c s i where
  commits := by
    rintro reply token ⟨net, number, k, resp, w, node, rfl, -, hw, hwaits, hk, rfl⟩ htoken
    have hreply := reply_mem_repliesOf (hkept.get hw).1 hk hwaits c.blake2b net.env resp
    rw [step, (walk_announces hkept halive hw net _).2, List.drop_left]
    exact List.mem_filterMap.2 ⟨_, hreply, by rw [htoken]; rfl⟩
  ends := fun hends hupdating => currentQuery_ne_of_ends hkept halive hends hupdating
  takesIn := by
    rintro relay ⟨k, resp, node, rfl, hnode, rfl, hroom⟩
    have hstep : (s.step c (.announced k resp)).activeRelays =
        putRelay s.activeRelays (relayOf node resp) := by
      simp [step, hnode, onAnnounced, halive]
    rw [hstep]
    exact mem_putRelay_self hroom
  wakes := by
    rintro ⟨⟨net, hi⟩, hnone⟩
    have hfree : s.updating = false := by
      by_contra hupdating
      obtain ⟨number, hcurrent, hlive⟩ := hpointed (by simpa using hupdating)
      exact hnone number hcurrent hlive
    have hstep : s.step c i = update c net s := by
      rcases hi with rfl | rfl
      · rw [step, refresh_eq]
      · rw [step, if_neg (by simp [hrunning])]
    rw [hstep]
    exact lt_length_update hfree hrunning c net

/-! ## After a stop -/

/-- An announcer that was stopped has no relays, and once it runs again it is forever in a cycle. -/
structure Deaf (s : Announcer) : Prop where
  alive : s.alive = false
  activeRelays : s.activeRelays = []
  updating : s.running = true → s.updating = true

lemma updating_update_of_deaf (halive : s.alive = false) (hrunning : s.running = true) :
    (update c net s).updating = true := by
  cases hupdating : s.updating with
  | true => rw [update_of_blocked (.inl hupdating), hupdating]
  | false => rw [update_of_waits hupdating hrunning (.inr halive)]

/-- **An announcer that was stopped stays deaf.** -/
theorem Deaf.step (h : s.Deaf) (hkept : s.Kept) (c : Config) (i : Input) : (s.step c i).Deaf := by
  refine ⟨?_, ?_, ?_⟩
  · rw [alive_step hkept c i, h.alive]
    rfl
  · refine List.eq_nil_iff_forall_not_mem.2 fun relay hrelay => ?_
    rcases (step_accounts hkept c i).relays relay hrelay with hold | ⟨halive, -⟩
    · simp [h.activeRelays] at hold
    · simp [h.alive] at halive
  · have hshape := step_shape c s i
    generalize s.step c i = s' at hshape ⊢
    cases hshape with
    | beside hsame =>
      rw [hsame.running, hsame.updating]
      exact h.updating
    | @update _ s₀ net hsame =>
      rw [(update_unmoved c net s₀).running]
      exact updating_update_of_deaf (hsame.alive.trans h.alive)
    | start net => exact fun _ => updating_update_of_deaf (s := { s with running := true }) h.alive rfl
    | stop _ _ hrunning => simp [stopImpl_eq hrunning]
    | notifyOnline net hrunning =>
      exact fun _ => updating_update_of_deaf (s := s.forget) h.alive hrunning
    | walk net number w j hw =>
      rw [walk_of_deaf hkept h.alive hw]
      exact h.updating

lemma deaf_of_stop (hrunning : s.running = true) {i : Input} (hstop : i.isStop = true) :
    (s.step c i).Deaf := by
  cases i with
  | stop =>
    rw [step, stopImpl_eq hrunning]
    exact ⟨rfl, rfl, by simp⟩
  | stopWithoutUnannounce =>
    rw [step, stopImpl_eq hrunning]
    exact ⟨rfl, rfl, by simp⟩
  | _ => contradiction

/-- **After a stop the announcer heeds nothing.** -/
theorem Deaf.heeds_iff_of_running (h : s.Deaf) (hkept : s.Kept) (hrunning : s.running = true) (i : Input) :
    Heeds c s i ↔ ¬ Calls c s i := by
  refine ⟨fun hheeds hcalls => ?_, heeds_of_not_calls⟩
  have hupdating := h.updating hrunning
  cases hcalls with
  | @reply reply token hreply htoken =>
    have hcommit := hheeds.commits reply token hreply htoken
    obtain ⟨net, number, k, resp, w, node, rfl, -, hw, -, -, -⟩ := hreply
    simp [Announcer.step, walk_of_deaf hkept h.alive hw] at hcommit
  | ends hends =>
    have hne := hheeds.ends hends
    obtain ⟨number, j, w, hi, -, hw, -, -⟩ := hends
    obtain ⟨net, hstep⟩ := @step_of_toQuery c s i number j hi
    rw [hstep, walk_of_deaf hkept h.alive hw] at hne
    exact hne hupdating rfl
  | @accepted relay haccepted =>
    have hmem := hheeds.takesIn relay haccepted
    simp [(h.step hkept c i).activeRelays] at hmem
  | wakes hwakes =>
    have hlt := hheeds.wakes hwakes
    obtain ⟨⟨net, rfl | rfl⟩, -⟩ := hwakes
    · simp [Announcer.step, refresh_eq, update_of_blocked (.inl hupdating)] at hlt
    · simp [Announcer.step, update_of_blocked (.inl hupdating)] at hlt

/-! ## Runs -/

/-- What holds along every run: the announcer was not stopped, or it is deaf. -/
structure Settled (s : Announcer) : Prop where
  kept : s.Kept
  pointed : s.alive = true → s.Pointed
  deaf : s.alive = false → s.Deaf

lemma settled_init (c : Config) : (init c).Settled :=
  ⟨kept_init c, fun _ => (unstopped_init c).pointed, fun h => by simp [init] at h⟩

lemma Settled.step (h : s.Settled) (c : Config) (i : Input) : (s.step c i).Settled := by
  have halive := alive_step h.kept c i
  cases hwas : s.alive with
  | true =>
    refine ⟨h.kept.step c i, fun _ => (h.pointed hwas).step h.kept hwas c i, fun hcleared => ?_⟩
    rw [halive, hwas] at hcleared
    simp only [Bool.true_and, Bool.not_eq_false', Bool.and_eq_true] at hcleared
    exact deaf_of_stop hcleared.2 hcleared.1
  | false =>
    refine ⟨h.kept.step c i, fun hset => ?_, fun _ => (h.deaf hwas).step h.kept c i⟩
    simp [halive, hwas] at hset

lemma alive_run_iff (c : Config) (is : List Input) :
    (Runs.run (step c) (init c) is).alive = false ↔
      ∃ before i mid, is = before ++ i :: mid ∧ i.isStop = true ∧
        (Runs.run (step c) (init c) before).running = true := by
  have hstep : ∀ (s : Announcer) (i : Input) (_ : Unit), s.Settled →
      ((s.step c i).alive = false ↔
        (i.isStop = true ∧ s.running = true) ∨ s.alive = false ∧ ¬ False) := by
    intro s i _ h
    rw [alive_step h.kept c i]
    cases s.alive <;> simp
  have hcleared := fun js : List Input => @Runs.holds_run_iff _ _ (step c) Unit Settled
    (fun s _ => s.alive = false) _ _ (fun s i h => h.step c i) hstep (init c) (settled_init c) ()
    (by simp [init]) js
  rw [hcleared]
  constructor
  · rintro ⟨before, i, mid, his, ⟨hstop, hrunning⟩, -⟩
    exact ⟨before, i, mid, his, hstop, hrunning⟩
  · rintro ⟨before, i, mid, his, hstop, hrunning⟩
    exact ⟨before, i, mid, his, ⟨hstop, hrunning⟩,
      Runs.everyStep_iff_forall.2 fun _ _ _ _ => not_false⟩

/-- **An announcer that is started again is deaf.** At every step of a run, an announcer that runs
commits to the replies of its query, takes up its end, takes in the relays that accept it, and starts
the cycles that are asked for, if and only if nothing that it would have to heed happens while it runs
after a stop.

**Proof sketch.** A stop clears the sentinel that the callbacks read, and nothing sets it again: from
then on every callback does nothing. -/
theorem heeds_iff (c : Config) (is : List Input) :
    Runs.EveryStep (step c) (fun s i => s.running = true → Heeds c s i) (init c) is ↔
      Runs.EveryPair (step c)
        (fun s i s' j => i.isStop = true → s.running = true → s'.running = true → ¬ Calls c s' j)
        (init c) is := by
  have hsettled : ∀ js, (Runs.run (step c) (init c) js).Settled :=
    fun js => Runs.run_invariant (fun _ i h => h.step c i) (settled_init c) js
  rw [Runs.everyStep_iff_forall]
  constructor
  · intro hall before i mid j after his hstop hrunning hruns
    have hreached := hsettled (before ++ i :: mid)
    have hcleared := (alive_run_iff c (before ++ i :: mid)).2 ⟨before, i, mid, rfl, hstop, hrunning⟩
    have hheeds := hall (before ++ i :: mid) j after (by rw [his]; simp) hruns
    exact ((hreached.deaf hcleared).heeds_iff_of_running hreached.kept hruns j).1 hheeds
  · intro hpairs before j after his hruns
    have hreached := hsettled before
    cases halive : (Runs.run (step c) (init c) before).alive with
    | true => exact heeds_of_alive hreached.kept (hreached.pointed halive) halive hruns j
    | false =>
      obtain ⟨first, i, mid, rfl, hstop, hrunning⟩ := (alive_run_iff c before).1 halive
      refine heeds_of_not_calls (hpairs first i mid j after ?_ hstop hrunning hruns)
      rw [his]
      simp

/-! ## A node answers after the restart -/

def restarted : List Input := [.start oneNode, .stop, .start oneNode]

def answered : Input :=
  .response oneNode 1 0 { token := some (List.Vector.replicate 32 5) }

set_option maxRecDepth 10000 in
/-- **The announcer that was started again does not announce itself**, though the node replies with a
token. -/
theorem not_heeds_restarted :
    ¬ Runs.EveryStep (step zeroSigner) (fun s i => s.running = true → Heeds zeroSigner s i)
      (init zeroSigner) (restarted ++ [answered]) := by
  intro hall
  have hheeds := (Runs.everyStep_append.1 hall).2.1 (by decide +kernel)
  have hasked : ((Runs.run (step zeroSigner) (init zeroSigner) restarted).queries[1]?).map
      (fun w => (w.query.pendingDoneFired, w.outstanding)) =
        some (false, [⟨computePeerId RpcNode.paddedDigest knownAddr, knownAddr⟩]) := by
    decide +kernel
  obtain ⟨w, hw, hfields⟩ := Option.map_eq_some_iff.1 hasked
  obtain ⟨hwaits, hvisits⟩ := Prod.mk.inj hfields
  have hcommit := hheeds.commits _ (List.Vector.replicate 32 5)
    ⟨oneNode, 1, 0, _, w, _, rfl, by decide +kernel, hw, hwaits, by rw [hvisits]; rfl, rfl⟩ rfl
  have hnone : ((Runs.run (step zeroSigner) (init zeroSigner) restarted).step zeroSigner
      answered).sent.drop (Runs.run (step zeroSigner) (init zeroSigner) restarted).sent.length =
        [] := by
    decide +kernel
  rw [hnone] at hcommit
  cases hcommit

end HyperDHT.Announcer
