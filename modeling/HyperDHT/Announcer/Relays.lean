import HyperDHT.Announcer.Queries
import HyperDHT.Lib.Runs

/-!
# The relays of the announcer

Where the relays come from: a relay was made of the answer to an announcement, which was sent for a
reply with a token.

## Main results

* `Announcer.step_accounts` — what every input makes of the relays.
* `Announcer.relay_origin` — every relay accepted an announcement that was sent with its token.
* `Announcer.mem_putRelay_self` — a relay for which there is room joins the others.
* `Announcer.few_run` — an announcer never has more than three relays.
-/

set_option autoImplicit false

namespace HyperDHT.Announcer

open Compact Handlers Query Routing Rpc Ops

variable {c : Config} {net : Net} {s : Announcer}

/-! ## Room for a relay -/

/-- There is room for a relay: it takes the place of the one with its address, or there are fewer than
three. -/
def HasRoom (relays : List RelayNode) (relay : RelayNode) : Prop :=
  relays.any (sameAddr relay) = true ∨ relays.length < maxActiveRelays

lemma mem_putRelay_self {relays : List RelayNode} {relay : RelayNode} (h : HasRoom relays relay) :
    relay ∈ putRelay relays relay := by
  unfold putRelay
  split
  · rename_i hsame
    refine List.mem_set ?_ relay
    exact List.findIdx_lt_length.2 (by simpa using hsame)
  · rename_i hother
    rw [if_pos (h.resolve_left hother)]
    exact List.mem_append_right _ (by simp)

lemma mem_of_mem_putRelay {relays : List RelayNode} {relay r : RelayNode}
    (h : r ∈ putRelay relays relay) : r ∈ relays ∨ r = relay := by
  unfold putRelay at h
  split_ifs at h
  · exact List.mem_or_eq_of_mem_set h
  · simpa using h
  · exact .inl h

/-! ## Where they come from -/

/-- The announcement to a node that replied with a token was sent. -/
def Committed (c : Config) (s : Announcer) (node : QueryReply) : Prop :=
  ∃ relays token, node.token = some token ∧ commitRequest c relays node token ∈ s.sent

/-- What an input makes of the relays and of the announcements that wait for an answer. -/
structure Accounts (c : Config) (s : Announcer) (i : Input) (s' : Announcer) : Prop where
  /-- A new relay is made of the answer to an announcement. -/
  relays : ∀ relay ∈ s'.activeRelays, relay ∈ s.activeRelays ∨ s.alive = true ∧
    ∃ k resp node, i = .announced k resp ∧ s.announcing[k]? = some node ∧
      relay = relayOf node resp
  /-- An announcement that waits for an answer was sent. -/
  announcing : ∀ node ∈ s'.announcing, node ∈ s.announcing ∨ Committed c s' node
  sent : s.sent <+: s'.sent

lemma Accounts.of_subset {s' : Announcer} {i : Input} (hrelays : s'.activeRelays ⊆ s.activeRelays)
    (hannouncing : s'.announcing ⊆ s.announcing) (hsent : s.sent <+: s'.sent) :
    Accounts c s i s' :=
  ⟨fun _ h => .inl (hrelays h), fun _ h => .inl (hannouncing h), hsent⟩

lemma Unmoved.accounts {s₀ s' : Announcer} (h : Unmoved c net s₀ s') (i : Input)
    (hrelays : s₀.activeRelays ⊆ s.activeRelays) (hannouncing : s₀.announcing ⊆ s.announcing)
    (hsent : s.sent <+: s₀.sent) : Accounts c s i s' :=
  .of_subset (h.activeRelays ▸ hrelays) (h.announcing ▸ hannouncing) (h.sent ▸ hsent)

lemma walk_activeRelays {w : Walk} {number : ℕ} (hkept : s.Kept)
    (hw : s.queries[number]? = some w) (i : HyperDHT.Input) :
    (s.walk c net number i).activeRelays = s.activeRelays := by
  have hheard := hear_activeRelays c s number w (w.step c.blake2b i)
  rw [walk_eq hkept hw]
  dsimp only
  split
  · exact (onDone_unmoved (update_unmoved c net) _).activeRelays.trans hheard
  · exact hheard

lemma walk_accounts (hkept : s.Kept) (net : Net) (number : ℕ) (j : HyperDHT.Input) (i : Input) :
    Accounts c s i (s.walk c net number j) := by
  cases hw : s.queries[number]? with
  | none =>
    rw [walk, hw]
    exact .of_subset (List.Subset.refl _) (List.Subset.refl _) List.prefix_rfl
  | some w =>
    refine ⟨fun relay h => .inl (walk_activeRelays hkept hw j ▸ h), fun node hnode => ?_, ?_⟩
    · cases halive : s.alive with
      | false =>
        rw [walk_of_deaf hkept halive hw] at hnode
        exact .inl hnode
      | true =>
        obtain ⟨hannouncing, hsent⟩ := walk_announces (c := c) hkept halive hw net j
        rw [hannouncing, List.mem_append, List.mem_filter] at hnode
        refine hnode.imp_right fun hheard => ?_
        obtain ⟨hreply, htoken⟩ := hheard
        obtain ⟨token, htoken⟩ := Option.isSome_iff_exists.1 htoken
        refine ⟨s.relays, token, htoken, ?_⟩
        rw [hsent]
        exact List.mem_append_right _ (List.mem_filterMap.2 ⟨node, hreply, by rw [htoken]; rfl⟩)
    · cases halive : s.alive with
      | false =>
        exact ⟨[], by rw [walk_of_deaf hkept halive hw, List.append_nil]⟩
      | true =>
        rw [(walk_announces (c := c) hkept halive hw net j).2]
        exact List.prefix_append _ _

/-- **What every input makes of the relays.** -/
theorem step_accounts (hkept : s.Kept) (c : Config) (i : Input) : Accounts c s i (s.step c i) := by
  have hsame : Accounts c s i s :=
    .of_subset (List.Subset.refl _) (List.Subset.refl _) List.prefix_rfl
  have hupdate : ∀ net, Accounts c s i (update c net s) := fun net =>
    (update_unmoved c net s).accounts i (List.Subset.refl _) (List.Subset.refl _) List.prefix_rfl
  have hstop : ∀ sendUnannounce, Accounts c s i (s.stopImpl c sendUnannounce) := by
    intro sendUnannounce
    cases hrunning : s.running with
    | false => simpa [stopImpl, hrunning] using hsame
    | true =>
      rw [stopImpl_eq hrunning]
      exact .of_subset (List.nil_subset _) (List.Subset.refl _) (List.prefix_append _ _)
  cases i with
  | start net =>
    rw [step, Announcer.start]
    split
    · exact hsame
    · exact (update_unmoved c net { s with running := true }).accounts _ (List.Subset.refl _)
        (List.Subset.refl _) List.prefix_rfl
  | stop => exact hstop true
  | stopWithoutUnannounce => exact hstop false
  | refresh net =>
    rw [step, refresh_eq]
    exact hupdate net
  | notifyOnline net =>
    rw [step, Announcer.notifyOnline]
    split
    · exact hsame
    · exact (update_unmoved c net s.forget).accounts _ (List.nil_subset _) (List.Subset.refl _)
        List.prefix_rfl
  | bgTimer net =>
    rw [step]
    split
    · exact hsame
    · exact hupdate net
  | pingTimer =>
    rw [step, pingRelays]
    split_ifs
    · exact hsame
    · exact hsame
    · exact .of_subset (List.Subset.refl _) (List.Subset.refl _) (List.prefix_append _ _)
  | response net number k resp => exact walk_accounts hkept net number _ _
  | timeout net number k => exact walk_accounts hkept net number _ _
  | announced k resp =>
    rw [step]
    split
    · exact hsame
    · rename_i node hnode
      unfold onAnnounced
      split
      · rename_i halive
        refine ⟨fun relay h => ?_, fun _ h => .inl (List.eraseIdx_subset h), List.prefix_rfl⟩
        rcases mem_of_mem_putRelay h with h | h
        · exact .inl h
        · exact .inr ⟨halive, k, resp, node, rfl, hnode, h⟩
      · exact .of_subset (List.Subset.refl _) List.eraseIdx_subset List.prefix_rfl
  | announceTimeout k =>
    exact .of_subset (List.Subset.refl _) List.eraseIdx_subset List.prefix_rfl
  | ping net number answered =>
    rw [step]
    split
    · exact hsame
    · split
      · exact hsame
      · unfold onPing
        dsimp only
        split
        · split
          · rw [refresh_eq]
            exact (update_unmoved c net _).accounts _ (List.Subset.refl _) (List.Subset.refl _)
              List.prefix_rfl
          · exact .of_subset (List.Subset.refl _) (List.Subset.refl _) List.prefix_rfl
        · exact .of_subset (List.Subset.refl _) (List.Subset.refl _) List.prefix_rfl

/-! ## Runs -/

/-- What waits for an answer was sent. -/
structure Accounted (c : Config) (s : Announcer) : Prop where
  kept : s.Kept
  committed : ∀ node ∈ s.announcing, Committed c s node

lemma Accounted.step (h : Accounted c s) (i : Input) : Accounted c (s.step c i) := by
  have haccounts := step_accounts h.kept c i
  refine ⟨h.kept.step c i, fun node hnode => ?_⟩
  rcases haccounts.announcing node hnode with hold | hnew
  · obtain ⟨relays, token, htoken, hsent⟩ := h.committed node hold
    exact ⟨relays, token, htoken, haccounts.sent.subset hsent⟩
  · exact hnew

lemma accounted_init (c : Config) : Accounted c (init c) where
  kept := fun _ hw => by cases hw
  committed := fun _ hnode => by cases hnode

/-- A relay of an announcer, when it was made: the announcement to its node was answered, and had been
sent with the token of the relay. -/
def MadeBy (c : Config) (s : Announcer) (i : Input) (relay : RelayNode) : Prop :=
  ∃ k resp node, i = .announced k resp ∧ s.announcing[k]? = some node ∧
    relay = relayOf node resp ∧ ∃ relays, commitRequest c relays node relay.token ∈ s.sent

/-- **Every relay accepted an announcement** that was sent with the token of the relay. -/
theorem relay_origin (c : Config) (is : List Input) {relay : RelayNode}
    (h : relay ∈ (Runs.run (step c) (init c) is).activeRelays) :
    ∃ before i after, is = before ++ i :: after ∧
      MadeBy c (Runs.run (step c) (init c) before) i relay := by
  refine (Runs.origin_of (I := Accounted c) (P := fun s r => r ∈ s.activeRelays)
    (Q := MadeBy c) (fun s i h => h.step i) (fun s i r hs hr => ?_) (accounted_init c) h).resolve_left
    (by simp [init])
  refine ((step_accounts hs.kept c i).relays r hr).imp_right ?_
  rintro ⟨-, k, resp, node, rfl, hnode, rfl⟩
  obtain ⟨relays, token, htoken, hsent⟩ := hs.committed node (List.mem_of_getElem? hnode)
  have hrelay : (relayOf node resp).token = token := by simp [relayOf, htoken]
  exact ⟨k, resp, node, rfl, hnode, rfl, relays, hrelay ▸ hsent⟩

/-! ## At most three relays -/

/-- There are at most three relays, those that are announced among them. -/
structure Few (s : Announcer) : Prop where
  active : s.activeRelays.length ≤ maxActiveRelays
  relays : s.relays.length ≤ maxActiveRelays

lemma length_putRelay {relays : List RelayNode} (h : relays.length ≤ maxActiveRelays)
    (relay : RelayNode) : (putRelay relays relay).length ≤ maxActiveRelays := by
  unfold putRelay
  split_ifs with hsame hroom
  · rwa [List.length_set]
  · rwa [List.length_append, List.length_singleton, Nat.succ_le_iff]
  · exact h

lemma Few.onDone {again : Announcer → Announcer} (hagain : ∀ s, Few s → Few (again s)) (h : Few s) :
    Few (s.onDone c again) := by
  have hbuilt : (s.activeRelays.map fun relay => RelayInfo.mk relay.addr relay.peerAddr).length ≤
      maxActiveRelays := by
    rw [List.length_map]
    exact h.active
  unfold Announcer.onDone buildRelays
  dsimp only
  split_ifs
  · exact hagain _ ⟨h.active, hbuilt⟩
  · exact ⟨h.active, hbuilt⟩
  · exact ⟨h.active, h.relays⟩
  · exact h

lemma Few.updateAt (h : Few s) (c : Config) (net : Net) (fuel : ℕ) :
    Few (updateAt c net fuel s) := by
  induction fuel generalizing s with
  | zero => exact h
  | succ fuel ih =>
    unfold Announcer.updateAt
    dsimp only
    split_ifs
    · exact h
    · have hdone : Few (Announcer.onDone c (Announcer.updateAt c net fuel)
          { s with updating := true, queries := s.queries ++ [findPeer c net] }) :=
        Few.onDone (fun _ hs => ih hs) ⟨h.active, h.relays⟩
      exact ⟨hdone.active, hdone.relays⟩
    · exact ⟨h.active, h.relays⟩

lemma Few.update (h : Few s) (c : Config) (net : Net) : Few (update c net s) :=
  h.updateAt c net updateFuel

lemma Few.stopImpl (h : Few s) (c : Config) (sendUnannounce : Bool) :
    Few (s.stopImpl c sendUnannounce) := by
  cases hrunning : s.running with
  | false => simpa [Announcer.stopImpl, hrunning] using h
  | true =>
    rw [stopImpl_eq hrunning]
    exact ⟨Nat.zero_le _, Nat.zero_le _⟩

lemma Few.callback (h : Few s) (c : Config) (net : Net) (event : QueryEvent) :
    Few (callback c net s event) := by
  cases event with
  | replyEnter reply =>
    simp only [Announcer.callback, onReply, commit]
    split
    · split
      · exact h
      · exact ⟨h.active, h.relays⟩
    · exact h
  | onDone result => exact h.onDone fun _ hs => hs.update c net
  | _ => exact h

lemma Few.walk (h : Few s) (c : Config) (net : Net) (number : ℕ) (i : HyperDHT.Input) :
    Few (s.walk c net number i) := by
  have hfold (events : List QueryEvent) (s : Announcer) (hs : Few s) :
      Few (events.foldl (Announcer.callback c net) s) := by
    induction events generalizing s with
    | nil => exact hs
    | cons event events ih => exact ih _ (hs.callback c net event)
  unfold Announcer.walk
  split
  · exact h
  · exact hfold _ _ ⟨h.active, h.relays⟩

/-- **No input makes the relays more than three.** -/
theorem Few.step (h : Few s) (c : Config) (i : Input) : Few (s.step c i) := by
  cases i with
  | start net =>
    rw [Announcer.step, Announcer.start]
    split
    · exact h
    · exact Few.update (s := { s with running := true }) ⟨h.active, h.relays⟩ c net
  | stop => exact h.stopImpl c true
  | stopWithoutUnannounce => exact h.stopImpl c false
  | refresh net =>
    rw [Announcer.step, refresh_eq]
    exact h.update c net
  | notifyOnline net =>
    rw [Announcer.step, Announcer.notifyOnline]
    split
    · exact h
    · exact Few.update (s := s.forget) ⟨Nat.zero_le _, Nat.zero_le _⟩ c net
  | bgTimer net =>
    rw [Announcer.step]
    split
    · exact h
    · exact h.update c net
  | pingTimer =>
    rw [Announcer.step, pingRelays]
    split_ifs
    · exact h
    · exact h
    · exact ⟨h.active, h.relays⟩
  | response net number k resp => exact h.walk c net number _
  | timeout net number k => exact h.walk c net number _
  | announced k resp =>
    rw [Announcer.step]
    split
    · exact h
    · unfold onAnnounced
      split
      · exact ⟨length_putRelay h.active _, h.relays⟩
      · exact ⟨h.active, h.relays⟩
  | announceTimeout k => exact ⟨h.active, h.relays⟩
  | ping net number answered =>
    rw [Announcer.step]
    split
    · exact h
    · split_ifs
      · exact h
      · unfold onPing
        dsimp only
        split
        · split
          · rw [refresh_eq]
            exact Few.update (by exact ⟨h.active, h.relays⟩) c net
          · exact ⟨h.active, h.relays⟩
        · exact ⟨h.active, h.relays⟩

end HyperDHT.Announcer
