import HyperDHT.Protomux.Network

/-!
# Routing between paired channels

`Channel::send` writes the id the *receiver* gave its channel (`remote_id_`), while
`Mux::handle_data` looks a message up by the id the *sender* gave its own. The two are the same
only for channels that were created in the same order on both sides.

## Main definitions

* `Protomux.Paired` — each of two channels holds the other's local id.
* `Protomux.RoutingAgreement` — what is sent on a channel is dispatched once, in order, on the
  channel it is paired with and on no other.
* `Protomux.SendsOwnId` — the condition on the steps: a channel that sends has the same local and
  remote id, and no channel is created after the local ids have wrapped around.

## Main results

* `Protomux.routingAgreement_of_sendsOwnId` — runs of such steps have routing agreement in every
  state.
* `Protomux.not_routingAgreement_of_crossed` — two protocols, created in opposite orders.
-/

set_option autoImplicit false

namespace HyperDHT.Protomux

open Mux

/-- The messages sent on a channel among some origins, in order. -/
def messagesOn (p : Ptr) (origins : List Origin) : List (UInt32 × List UInt8) :=
  origins.filterMap fun
    | .message q type data => if q = p then some (type, data) else none
    | .open _ => none

/-- The channel `c` of a side and the channel `d` of the other side hold each other's local
id. -/
structure Paired (mux : Side → Mux) (s : Side) (c d : Channel) : Prop where
  left : c ∈ (mux s).channels
  right : d ∈ (mux s.other).channels
  leftId : c.remoteId = d.localId
  rightId : d.remoteId = c.localId

/-- If the delivery is that of a message sent on `p`, the message was dispatched on `q`, once, as
it was sent, and on no other channel. -/
def RoutedTo (p q : Ptr) (delivery : Delivery) : Prop :=
  match delivery.origin with
  | .message p' type data => p' = p → delivery.dispatches = [⟨q, type, data⟩]
  | .open _ => True

instance (p q : Ptr) : (delivery : Delivery) → Decidable (RoutedTo p q delivery)
  | ⟨.message p' type data, dispatches⟩ =>
    inferInstanceAs (Decidable (p' = p → dispatches = [⟨q, type, data⟩]))
  | ⟨.open _, _⟩ => .isTrue trivial

/-- **Routing agreement**: for every pair of channels, the messages that were accepted on the one
have been delivered or are in flight, in the order in which they were sent, and each that was
delivered was dispatched on the other. -/
def RoutingAgreement (n : Net) : Prop :=
  ∀ s c d, Paired n.mux s c d →
    messagesOn c.ptr (n.history s) =
      messagesOn c.ptr ((n.delivered s).map (·.origin)) ++
        messagesOn c.ptr ((n.link s).map (·.origin)) ∧
    ∀ delivery ∈ n.delivered s, RoutedTo c.ptr d.ptr delivery

/-- The step sends only on a channel whose local and remote id are the same, and creates a
channel only while the local ids have not wrapped around. -/
def SendsOwnId (n : Net) : Input → Prop
  | .send s p _ _ => ∀ c ∈ (n.mux s).channels, c.ptr = p → c.opened = true →
      c.localId = c.remoteId
  | .create s .. => (n.mux s).nextLocalId ≠ 0
  | _ => True

instance (n : Net) : (i : Input) → Decidable (SendsOwnId n i)
  | .send s p _ _ => inferInstanceAs (Decidable (∀ c ∈ (n.mux s).channels, c.ptr = p →
      c.opened = true → c.localId = c.remoteId))
  | .create s _ _ _ _ => inferInstanceAs (Decidable ((n.mux s).nextLocalId ≠ 0))
  | .open _ _ _ => .isTrue trivial
  | .deliver _ => .isTrue trivial

lemma SendsOwnId.noWrap {n : Net} {i : Input} (h : SendsOwnId n i) : NoWrap n i := by
  cases i with
  | create => exact h
  | «open» => trivial
  | send => trivial
  | deliver => trivial

/-! ## The invariant -/

/-- What holds of the messages: a channel sends while it is open and after its OPEN, and what was delivered
from a channel that holds its own id went to the channel it is paired with. -/
structure Tracked (n : Net) : Prop where
  wf : n.Wf
  opened : ∀ s p type data, .message p type data ∈ n.history s →
    ∃ c ∈ (n.mux s).channels, c.ptr = p ∧ c.opened = true
  after : ∀ s sent p type data rest, n.history s = sent ++ .message p type data :: rest →
    ∃ c ∈ (n.mux s).channels, c.ptr = p ∧ c.localId ∈ opensOf sent
  routed : ∀ s c d, Paired n.mux s c d → c.localId = c.remoteId →
    ∀ delivery ∈ n.delivered s, RoutedTo c.ptr d.ptr delivery

/-- What holds of the messages as long as every channel sends its own id: a channel sends after
its OPEN, and what was delivered went to the channel it is paired with. -/
structure Routed (n : Net) : Prop where
  wf : n.Wf
  ownId : ∀ s p type data, .message p type data ∈ n.history s →
    ∃ c ∈ (n.mux s).channels, c.ptr = p ∧ c.opened = true ∧ c.localId = c.remoteId
  after : ∀ s sent p type data rest, n.history s = sent ++ .message p type data :: rest →
    ∃ c ∈ (n.mux s).channels, c.ptr = p ∧ c.localId ∈ opensOf sent
  routed : ∀ s c d, Paired n.mux s c d → ∀ delivery ∈ n.delivered s, RoutedTo c.ptr d.ptr delivery

lemma Routed.tracked {n : Net} (h : Routed n) : Tracked n where
  wf := h.wf
  opened s p type data hin := by
    obtain ⟨c, hc, hptr, hopened, -⟩ := h.ownId s p type data hin
    exact ⟨c, hc, hptr, hopened⟩
  after := h.after
  routed s c d hp _ := h.routed s c d hp

lemma Paired.opened {mux : Side → Mux} (h : ∀ s, Ready (mux s)) {s : Side} {c d : Channel}
    (hp : Paired mux s c d) : c.opened = true ∧ d.opened = true := by
  constructor
  · rw [((h s).wf.channels c hp.left).remoteId, hp.leftId]
    exact (h s.other).localId_ne_zero hp.right
  · rw [((h s.other).wf.channels d hp.right).remoteId, hp.rightId]
    exact (h s).localId_ne_zero hp.left

lemma Net.Wf.mem_history {n : Net} (h : n.Wf) {s : Side} {delivery : Delivery}
    (hd : delivery ∈ n.delivered s) : delivery.origin ∈ n.history s := by
  rw [h.fifo s]
  exact List.mem_append_left _ (List.mem_map_of_mem hd)

lemma Tracked.routedTo_of_not_opened {n : Net} (h : Tracked n) {s : Side} {c : Channel}
    (hc : c ∈ (n.mux s).channels) (hopened : c.opened = false) (q : Ptr) {delivery : Delivery}
    (hd : delivery ∈ n.delivered s) : RoutedTo c.ptr q delivery := by
  have hin := h.wf.mem_history hd
  obtain ⟨origin, dispatches⟩ := delivery
  cases origin with
  | «open» => trivial
  | message p type data =>
    intro hp
    obtain ⟨d, hd, hptr, hdo⟩ := h.opened s p type data hin
    rw [(h.wf.ready s).wf.eq_of_ptr hd hc (hptr.trans hp), hopened] at hdo
    cases hdo

lemma Tracked.routedTo_of_not_arrived {n : Net} (h : Tracked n) {s : Side} {c : Channel}
    (hc : c ∈ (n.mux s).channels) (hopen : c.localId ∉ n.deliveredOpens s) (q : Ptr)
    {delivery : Delivery} (hd : delivery ∈ n.delivered s) : RoutedTo c.ptr q delivery := by
  obtain ⟨before, rest, hsplit⟩ := List.append_of_mem hd
  obtain ⟨origin, dispatches⟩ := delivery
  cases origin with
  | «open» => trivial
  | message p type data =>
    intro hp
    -- what was sent before the message has arrived before it
    have hhistory : n.history s = before.map (·.origin) ++ .message p type data ::
        (rest.map (·.origin) ++ (n.link s).map (·.origin)) := by
      simp [h.wf.fifo s, hsplit]
    obtain ⟨d, hd, hptr, hin⟩ := h.after s _ p type data _ hhistory
    rw [(h.wf.ready s).wf.eq_of_ptr hd hc (hptr.trans hp)] at hin
    refine absurd ?_ hopen
    rw [Net.deliveredOpens, hsplit, List.map_append, opensOf_append]
    exact List.mem_append_left _ hin

lemma append_singleton_eq_append_cons {α : Type*} {l l₁ l₂ : List α} {x y : α}
    (h : l ++ [x] = l₁ ++ y :: l₂) :
    (l = l₁ ∧ x = y) ∨ ∃ l₃, l = l₁ ++ y :: l₃ := by
  rcases List.eq_nil_or_concat' l₂ with rfl | ⟨l₃, z, rfl⟩
  · have hboth := List.append_inj' h rfl
    exact Or.inl ⟨hboth.1, by simpa using hboth.2⟩
  · refine Or.inr ⟨l₃, ?_⟩
    have hboth : l ++ [x] = (l₁ ++ y :: l₃) ++ [z] := by simpa using h
    exact (List.append_inj' hboth rfl).1

/-! ## One step -/

/-- What a step adds to the history of a side: nothing, an OPEN, or a message that was accepted
on an open channel. -/
lemma history_step {n : Net} (h : n.Wf) (i : Input) (t : Side) :
    (netStep n i).history t = n.history t ∨
    (∃ r, (netStep n i).history t = n.history t ++ [.open r]) ∨
    ∃ c ∈ (n.mux t).channels, c.opened = true ∧ ∃ (messageType : Int32) (data : List UInt8),
      i = .send t c.ptr messageType data ∧
      (netStep n i).history t = n.history t ++ [.message c.ptr messageType.toUInt32 data] := by
  cases i with
  | create => exact Or.inl rfl
  | «open» s p handshake =>
    rcases eq_or_ne t s with rfl | hne
    · rcases Net.open_cases (h.ready t) p handshake with
        heq | ⟨c, -, -, -, -, ⟨-, heq⟩ | ⟨k, -, remote, -, heq⟩⟩ <;> rw [heq]
      · exact Or.inl rfl
      · exact Or.inr (Or.inl ⟨c.localId, by simp [Net.post]⟩)
      · exact Or.inr (Or.inl ⟨c.localId, by simp [Net.post]⟩)
    · exact Or.inl (by simp [netStep, Net.flush, hne])
  | send s p messageType data =>
    rcases eq_or_ne t s with rfl | hne
    · rcases Net.send_cases (h.ready t) p messageType data with heq | ⟨c, hc, rfl, hopened, heq⟩
      · exact Or.inl (by rw [heq])
      · exact Or.inr (Or.inr ⟨c, hc, hopened, messageType, data, rfl, by rw [heq]; simp [Net.post]⟩)
    · exact Or.inl (by simp [netStep, Net.flush, hne])
  | deliver s =>
    refine Or.inl ?_
    simp only [netStep, Net.deliver]
    split <;> rfl

lemma Net.history_send_of_opened {n : Net} {s : Side} (h : Ready (n.mux s)) {c : Channel}
    (hc : c ∈ (n.mux s).channels) (hopened : c.opened = true) (messageType : Int32)
    (data : List UInt8) :
    (netStep n (.send s c.ptr messageType data)).history s =
      n.history s ++ [.message c.ptr messageType.toUInt32 data] := by
  have hwf := h.wf.channels c hc
  have hne : c.remoteId ≠ 0 := hwf.remoteId.1 hopened
  simp [netStep, channelSend, h.wf.channel? hc, hopened, hwf.closed, hne, Net.flush]

lemma Routed.ownId_step {n : Net} (h : Routed n) {i : Input} (hown : SendsOwnId n i) (s : Side)
    (p : Ptr) (type : UInt32) (data : List UInt8)
    (hin : .message p type data ∈ (netStep n i).history s) :
    ∃ c ∈ ((netStep n i).mux s).channels, c.ptr = p ∧ c.opened = true ∧
      c.localId = c.remoteId := by
  have hkept := kept_step h.wf i s
  obtain ⟨c, hc, hptr, hopened, hid⟩ : ∃ c ∈ (n.mux s).channels, c.ptr = p ∧ c.opened = true ∧
      c.localId = c.remoteId := by
    rcases history_step h.wf i s with heq | ⟨r, heq⟩ | ⟨c, hc, hopened, mt, bytes, rfl, heq⟩ <;>
      rw [heq] at hin
    · exact h.ownId s p type data hin
    · exact h.ownId s p type data (by simpa using hin)
    · rcases List.mem_append.1 hin with hin | hin
      · exact h.ownId s p type data hin
      · obtain ⟨rfl, -, -⟩ : p = c.ptr ∧ _ ∧ _ := by simpa using hin
        exact ⟨c, hc, rfl, hopened, hown c hc rfl hopened⟩
  obtain ⟨c', hc', hptr', hid', -, -, hstate⟩ := hkept c hc
  obtain ⟨hopened', hremote'⟩ := hstate hopened
  exact ⟨c', hc', hptr'.trans hptr, hopened', by rw [hid', hremote', hid]⟩

lemma Tracked.opened_step {n : Net} (h : Tracked n) (i : Input) (s : Side) (p : Ptr) (type : UInt32)
    (data : List UInt8) (hin : .message p type data ∈ (netStep n i).history s) :
    ∃ c ∈ ((netStep n i).mux s).channels, c.ptr = p ∧ c.opened = true := by
  have hkept := kept_step h.wf i s
  obtain ⟨c, hc, hptr, hopened⟩ : ∃ c ∈ (n.mux s).channels, c.ptr = p ∧ c.opened = true := by
    rcases history_step h.wf i s with heq | ⟨r, heq⟩ | ⟨c, hc, hopened, mt, bytes, rfl, heq⟩ <;>
      rw [heq] at hin
    · exact h.opened s p type data hin
    · exact h.opened s p type data (by simpa using hin)
    · rcases List.mem_append.1 hin with hin | hin
      · exact h.opened s p type data hin
      · obtain ⟨rfl, -, -⟩ : p = c.ptr ∧ _ ∧ _ := by simpa using hin
        exact ⟨c, hc, rfl, hopened⟩
  obtain ⟨c', hc', hptr', -, -, -, hstate⟩ := hkept c hc
  exact ⟨c', hc', hptr'.trans hptr, (hstate hopened).1⟩

lemma Tracked.after_step {n : Net} (h : Tracked n) (i : Input) (s : Side) (sent : List Origin)
    (p : Ptr) (type : UInt32) (data : List UInt8) (rest : List Origin)
    (hsplit : (netStep n i).history s = sent ++ .message p type data :: rest) :
    ∃ c ∈ ((netStep n i).mux s).channels, c.ptr = p ∧ c.localId ∈ opensOf sent := by
  have hkept := kept_step h.wf i s
  obtain ⟨c, hc, hptr, hin⟩ : ∃ c ∈ (n.mux s).channels, c.ptr = p ∧ c.localId ∈ opensOf sent := by
    rcases history_step h.wf i s with heq | ⟨r, heq⟩ | ⟨c, hc, hopened, mt, bytes, rfl, heq⟩ <;>
      rw [heq] at hsplit
    · exact h.after s sent p type data rest hsplit
    · rcases append_singleton_eq_append_cons hsplit with ⟨-, hx⟩ | ⟨rest', hold⟩
      · cases hx
      · exact h.after s sent p type data rest' hold
    · rcases append_singleton_eq_append_cons hsplit with ⟨rfl, hx⟩ | ⟨rest', hold⟩
      · obtain ⟨rfl, -, -⟩ := Origin.message.inj hx
        have hsent := ((h.wf.ready s).wf.channels c hc).openSent hopened
        exact ⟨c, hc, rfl, ((h.wf.sends s).opens c.localId).2 ⟨c, hc, rfl, hsent⟩⟩
      · exact h.after s sent p type data rest' hold
  obtain ⟨c', hc', hptr', hid', -⟩ := hkept c hc
  exact ⟨c', hc', hptr'.trans hptr, hid' ▸ hin⟩

/-- What was delivered stays routed when one end changes its channels: a channel that is open
afterwards had its ids before, or it was not open and what its new partner has delivered is
routed to it. -/
lemma Tracked.routed_update {n : Net} (h : Tracked n) {t : Side} {m : Mux}
    (hready : ∀ s, Ready (Function.update n.mux t m s))
    (hback : ∀ c' ∈ m.channels, c'.opened = true →
      c' ∈ (n.mux t).channels ∨
      ∃ c ∈ (n.mux t).channels, c.ptr = c'.ptr ∧ c.localId = c'.localId ∧
        (c.remoteId = c'.remoteId ∨ c.opened = false ∧
          ∀ e ∈ (n.mux t.other).channels, e.remoteId = c'.localId → c'.remoteId = e.localId →
            ∀ delivery ∈ n.delivered t.other, RoutedTo e.ptr c'.ptr delivery))
    (s : Side) (c d : Channel) (hp : Paired (Function.update n.mux t m) s c d)
    (hown : c.localId = c.remoteId) (delivery : Delivery) (hd : delivery ∈ n.delivered s) : RoutedTo c.ptr d.ptr delivery := by
  obtain ⟨hco, hdo⟩ := hp.opened hready
  obtain ⟨hleft, hright, hleftId, hrightId⟩ := hp
  rcases eq_or_ne s t with rfl | hne
  · simp only [Function.update_self, ne_eq, Side.other_ne, not_false_eq_true,
      Function.update_of_ne] at hleft hright
    rcases hback c hleft hco with hold | ⟨e, he, hptr, hid, hsame | ⟨hopened, -⟩⟩
    · exact h.routed s c d ⟨hold, hright, hleftId, hrightId⟩ hown delivery hd
    · rw [← hptr]
      exact h.routed s e d ⟨he, hright, hsame.trans hleftId, hrightId.trans hid.symm⟩
        (hid.trans (hown.trans hsame.symm)) delivery hd
    · rw [← hptr]
      exact h.routedTo_of_not_opened he hopened _ hd
  · obtain rfl := Side.eq_other_of_ne hne
    simp only [ne_eq, Side.other_ne, not_false_eq_true, Function.update_of_ne, Side.other_other,
      Function.update_self] at hleft hright
    rcases hback d hright hdo with hold | ⟨e, he, hptr, hid, hsame | ⟨-, hnew⟩⟩
    · exact h.routed _ c d ⟨hleft, by simpa using hold, hleftId, hrightId⟩ hown delivery hd
    · rw [← hptr]
      exact h.routed _ c e ⟨hleft, by simpa using he, hleftId.trans hid.symm,
        hsame.trans hrightId⟩ hown delivery hd
    · exact hnew c hleft hleftId hrightId delivery hd

lemma mem_of_mem_create {m : Mux} {protocol : Bytes} {aliases : List Bytes} {id : Bytes}
    {unique : Bool} {c : Channel} (hc : c ∈ (m.createChannel protocol aliases id unique).1.channels)
    (hopened : c.opened = true) : c ∈ m.channels := by
  simp only [createChannel] at hc
  split_ifs at hc
  · exact hc
  · exact hc
  · rcases List.mem_append.1 hc with hc | hc
    · exact hc
    · obtain rfl := List.mem_singleton.1 hc
      cases hopened

lemma Net.Wf.remoteId_ne {n : Net} (h : n.Wf) {s : Side} {c e : Channel}
    (hc : c ∈ (n.mux s).channels) (hsent : c.openSent = false)
    (he : e ∈ (n.mux s.other).channels) : e.remoteId ≠ c.localId := by
  intro heq
  have hopened : e.opened = true := by
    rw [((h.ready s.other).wf.channels e he).remoteId, heq]
    exact (h.ready s).localId_ne_zero hc
  have hin : c.localId ∈ opensOf (n.history s) := by
    rw [h.fifo s, opensOf_append]
    exact List.mem_append_left _ (heq ▸ (h.knows s).mapped e he hopened)
  obtain ⟨d, hd, hid, hdsent⟩ := ((h.sends s).opens _).1 hin
  rw [(h.ready s).eq_of_localId hd hc hid, hsent] at hdsent
  cases hdsent

lemma Tracked.routed_open {n : Net} (h : Tracked n) (t : Side) (p : Ptr) (handshake : Bytes)
    (s : Side) (c d : Channel) (hp : Paired (netStep n (.open t p handshake)).mux s c d)
    (hown : c.localId = c.remoteId) (delivery : Delivery) (hd : delivery ∈ (netStep n (.open t p handshake)).delivered s) :
    RoutedTo c.ptr d.ptr delivery := by
  have hready := (netWf_step h.wf (.open t p handshake) trivial).ready
  have hwf := (h.wf.ready t).wf
  rcases Net.open_cases (h.wf.ready t) p handshake with
    heq | ⟨x, hx, rfl, hsent, hopened, ⟨-, heq⟩ | ⟨k, -, remote, -, heq⟩⟩ <;>
    rw [heq] at hp hd hready
  · exact h.routed s c d hp hown delivery hd
  · refine h.routed_update hready (fun c' hc' _ => ?_) s c d hp hown delivery hd
    rcases (hwf.mem_modifyChannel hx _).1 hc' with rfl | ⟨hc', -⟩
    · exact Or.inr ⟨x, hx, rfl, rfl, Or.inl rfl⟩
    · exact Or.inl hc'
  · refine h.routed_update hready (fun c' hc' _ => ?_) s c d hp hown delivery hd
    have hmem : { x with openSent := true } ∈ (markSent (n.mux t) x).channels :=
      (hwf.mem_modifyChannel hx _).2 (Or.inl rfl)
    have hwf' := (((h.wf.ready t).markSent hx).takePending k).wf
    rcases (hwf'.mem_link hmem remote).1 hc' with rfl | ⟨hc', -⟩
    · -- the other end cannot know a channel before its OPEN was sent
      refine Or.inr ⟨x, hx, rfl, rfl, Or.inr ⟨hopened, fun e he hid => ?_⟩⟩
      have hne := h.wf.remoteId_ne hx hsent he
      exact absurd hid hne
    · rcases (hwf.mem_modifyChannel hx _).1 hc' with rfl | ⟨hc', -⟩
      · exact Or.inr ⟨x, hx, rfl, rfl, Or.inl rfl⟩
      · exact Or.inl hc'

lemma Tracked.routed_deliver {n : Net} (h : Tracked n) (t : Side) (s : Side) (c d : Channel)
    (hp : Paired (netStep n (.deliver t)).mux s c d) (hown : c.localId = c.remoteId) (delivery : Delivery)
    (hd : delivery ∈ (netStep n (.deliver t)).delivered s) : RoutedTo c.ptr d.ptr delivery := by
  have hready := (netWf_step h.wf (.deliver t) trivial).ready
  rcases Net.deliver_cases h.wf t with
    ⟨-, heq⟩ | ⟨packet, rest, m, dispatches, hlink, harrival, heq⟩ <;> rw [heq] at hp hd hready
  · exact h.routed s c d hp hown delivery hd
  · have hwf := (h.wf.ready t.other).wf
    have horigin : packet.origin ∈ n.history t := by
      rw [h.wf.fifo t, hlink]
      simp
    -- what was delivered before
    have hold : ∀ delivery ∈ n.delivered s, RoutedTo c.ptr d.ptr delivery := by
      refine h.routed_update hready (fun c' hc' _ => ?_) s c d hp hown
      obtain ⟨origin, frame⟩ := packet
      cases harrival with
      | dropped => exact Or.inl hc'
      | @paired e x remote he hx hid hkey hfind hsent hopened =>
        rcases (hwf.mem_link hx remote).1 hc' with rfl | ⟨hc', -⟩
        · refine Or.inr ⟨x, hx, rfl, rfl, Or.inr ⟨hopened, fun e' he' _ hid' δ hδ => ?_⟩⟩
          rw [Side.other_other] at he' hδ
          have hsame : e' = e := (h.wf.ready t).eq_of_localId he' he (hid'.symm.trans hid)
          exact h.routedTo_of_not_arrived he'
            (hsame ▸ h.wf.not_mem_deliveredOpens hlink rfl) _ hδ
        · exact Or.inl hc'
      | stored => exact Or.inl hc'
      | lost => exact Or.inl hc'
      | dispatched => exact Or.inl hc'
    rcases eq_or_ne s t with rfl | hne
    · have hcases : delivery ∈ n.delivered s ∨ delivery = ⟨packet.origin, dispatches⟩ := by
        simpa [Net.arrive] using hd
      rcases hcases with hin | rfl
      · exact hold delivery hin
      · -- the message that arrives
        have hleft : c ∈ (n.mux s).channels := by simpa [Net.arrive] using hp.left
        have hright : d ∈ m.channels := by simpa [Net.arrive] using hp.right
        obtain ⟨hco, hdo⟩ := hp.opened hready
        obtain ⟨origin, frame⟩ := packet
        -- a message of the left channel carries the id that the right one is mapped to
        have hmapped : d ∈ (n.mux s.other).channels → ∀ e ∈ (n.mux s).channels, ∀ type data,
            origin = .message e.ptr type data → e.ptr = c.ptr →
              (n.mux s.other).remoteToChannel e.remoteId = some d.ptr := by
          rintro hright e he type data rfl hptr
          obtain rfl := (h.wf.ready s).wf.eq_of_ptr he hleft hptr
          have hright' := (h.wf.ready s.other).mapped d hright hdo
          rwa [hp.rightId, hown] at hright'
        cases harrival with
        | dropped => trivial
        | paired => trivial
        | stored => trivial
        | @lost e type data he hopened hmap =>
          intro hptr
          rw [hmapped hright e he type data rfl hptr] at hmap
          cases hmap
        | @dispatched e type data q events he hopened hmap =>
          intro hptr
          rw [hmapped hright e he type data rfl hptr] at hmap
          rw [Option.some.inj hmap]
    · exact hold delivery (by simpa [Net.arrive, hne] using hd)

lemma tracked_step (n : Net) (i : Input) (h : Tracked n) (hwrap : NoWrap n i) :
    Tracked (netStep n i) := by
  have hwf := netWf_step h.wf i hwrap
  refine ⟨hwf, fun s => h.opened_step i s, fun s => h.after_step i s, fun s c d hp hown => ?_⟩
  cases i with
  | create t protocol aliases id unique =>
    exact h.routed_update hwf.ready (fun c' hc' ho => Or.inl (mem_of_mem_create hc' ho)) s c d hp
      hown
  | «open» t p handshake => exact h.routed_open t p handshake s c d hp hown
  | send t p messageType data =>
    rcases Net.send_cases (h.wf.ready t) p messageType data with heq | ⟨x, -, -, -, heq⟩ <;>
      rw [heq] at hp ⊢
    · exact h.routed s c d hp hown
    · exact h.routed s c d (by simpa [Net.post] using hp) hown
  | deliver t => exact h.routed_deliver t s c d hp hown

lemma tracked_init : Tracked {} where
  wf := netWf_init
  opened := by simp
  after := by simp
  routed := by simp

lemma routed_step (n : Net) (i : Input) (h : Routed n) (hown : SendsOwnId n i) :
    Routed (netStep n i) := by
  have htracked := tracked_step n i h.tracked hown.noWrap
  refine ⟨htracked.wf, fun s => h.ownId_step hown s, htracked.after, fun s c d hp delivery hd => ?_⟩
  have hin := htracked.wf.mem_history hd
  obtain ⟨origin, dispatches⟩ := delivery
  cases origin with
  | «open» => trivial
  | message p type data =>
    intro hptr
    obtain ⟨e, he, heptr, -, hid⟩ := h.ownId_step hown s p type data hin
    obtain rfl := (htracked.wf.ready s).wf.eq_of_ptr he hp.left (heptr.trans hptr)
    exact htracked.routed s e d hp hid _ hd hptr

lemma routed_init : Routed {} where
  wf := netWf_init
  ownId := by simp
  after := by simp
  routed := by simp

lemma Routed.agreement {n : Net} (h : Routed n) : RoutingAgreement n := by
  intro s c d hp
  refine ⟨?_, h.routed s c d hp⟩
  rw [h.wf.fifo s, messagesOn, List.filterMap_append]
  rfl

/-- **Routing agreement under the condition**: in every run of two connected muxes in which every
channel that sends has the same local and remote id, and no channel is created after the local
ids have wrapped around, every state has routing agreement. -/
theorem routingAgreement_of_sendsOwnId (is : List Input)
    (h : Runs.EveryStep netStep SendsOwnId {} is) :
    Runs.EveryState netStep RoutingAgreement {} is := by
  have hall := Runs.everyState_of_everyStep routed_step routed_init h
  exact hall.mono fun _ hn => hn.agreement

/-! ## Runs of two protocols -/

def noBytes : Bytes := .nil

/-- A side creates a channel for a protocol with a name of one byte. -/
def createOf (s : Side) (protocol : UInt8) : Input :=
  .create s (.single protocol) [] noBytes true

def straightRun : List Input :=
  [createOf .a 112, createOf .b 112, .open .a 0 noBytes, .open .b 0 noBytes, .deliver .a,
    .deliver .b, .send .a 0 0 [42], .deliver .a]

/-- The run of one protocol has routing agreement in every state. -/
theorem routingAgreement_straightRun : Runs.EveryState netStep RoutingAgreement {} straightRun :=
  routingAgreement_of_sendsOwnId straightRun (by decide +kernel)

/-- Two protocols, created in one order at the one end and in the other order at the other; all
channels are opened and paired, and one sends a message. -/
def crossedRun : List Input :=
  [createOf .a 112, createOf .a 113, createOf .b 113, createOf .b 112, .open .a 0 noBytes,
    .open .a 1 noBytes, .open .b 0 noBytes, .open .b 1 noBytes, .deliver .a, .deliver .a,
    .deliver .b, .deliver .b, .send .a 0 0 [42], .deliver .a]

/-- The message is dispatched on the channel of the other protocol. -/
theorem not_routingAgreement_of_crossed :
    ¬ Runs.EveryState netStep RoutingAgreement {} crossedRun := by
  intro hall
  have hmiss : ∃ c ∈ ((Runs.run netStep {} crossedRun).mux .a).channels,
      ∃ d ∈ ((Runs.run netStep {} crossedRun).mux .b).channels, c.remoteId = d.localId ∧
        d.remoteId = c.localId ∧ ∃ delivery ∈ (Runs.run netStep {} crossedRun).delivered .a,
          ¬ RoutedTo c.ptr d.ptr delivery := by
    decide +kernel
  obtain ⟨c, hc, d, hd, hcd, hdc, delivery, hin, hnot⟩ := hmiss
  exact hnot ((hall.run .a c d ⟨hc, hd, hcd, hdc⟩).2 delivery hin)

end HyperDHT.Protomux
