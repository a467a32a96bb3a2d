import HyperDHT.Announcer.Cycles
import HyperDHT.Announcer.Relays
import HyperDHT.Handlers.Expiry
import HyperDHT.Handlers.Tokens

/-!
# The withdrawal of an announcement

An announcer that is stopped withdraws its announcement from its relays, with the token that each of
them was announced to with. A relay forgets its tokens: one exchange of its secrets makes the current
one the previous one, the next one drops it. So the withdrawal comes too late after two exchanges, and
after one if the token was an old one when the announcement came.

## Main definitions

* `Announcer.TookIn` — a node takes in the announcement that made it a relay.
* `Announcer.Withdrawn` — a withdrawal is accepted, and the record is gone.
* `Announcer.InTime` — the token has outlasted what happened at the relay, and the withdrawal comes
  from the address that announced.

## Main results

* `Announcer.withdrawal_iff` — the withdrawals that are accepted are exactly those in time.
-/

set_option autoImplicit false

namespace HyperDHT.Announcer

open Compact Handlers Routing Rpc Ops

/-! ## The relay -/

/-- The node digests as the announcer does, and a signature of the announcer is valid. -/
structure Honest (env : HandlerEnv) (c : Config) : Prop where
  digest : env.blake2b = c.blake2b
  verifies : ∀ text, env.verify (c.sign text) text c.publicKey = true

/-- A request arrives with the fields with which it was sent. -/
structure Carries (req : Incoming) (sent : Request) : Prop where
  command : req.command = sent.command
  token : req.token = sent.token
  target : req.target = sent.target
  value : req.value = sent.value
  internal : req.internal = sent.internal

section

variable (env : HandlerEnv) (c : Config) (r : RpcHandlers) (id : Option NodeId) (req : Incoming)

/-- A node takes in the announcement that made it a relay, under the id that it had replied with. -/
structure TookIn (relay : RelayNode) : Prop where
  carries : ∃ relays node, Carries req (commitRequest c relays node relay.token)
  nodeId : (r.heard env id req).node.table.id = relay.nodeId
  takesIn : ∃ value, RpcHandlers.TakesIn env r c.target id req value

/-- The node has no record of the target from the address. -/
def HasNone (target : NodeId) (addr : Ipv4Address) : Prop :=
  ∀ p ∈ r.store.get target, p.fromAddr ≠ addr

/-- A withdrawal gets to its handler and is accepted there, and the node then has no record of the
target from the address. -/
structure Withdrawn (target : NodeId) (addr : Ipv4Address) : Prop where
  reaches : (r.heard env id req).Reaches req cmdUnannounce
  accepts : RpcHandlers.AcceptsUnannounce env (r.heard env id req) req target
  removes : HasNone ((r.heard env id req).handleUnannounce env req).1 target addr

/-- The node after it took in an announcement, and after what happened to it then. -/
def afterwards (now : UInt64) (is : List RpcHandlers.Input) : RpcHandlers :=
  Runs.run (RpcHandlers.step env) r (.request now id req :: is)

/-- A withdrawal is in time: it comes from the address that announced, and the token outlasts what
happened to the node since. From another address it may be accepted, but the record has to be gone by
itself. -/
def InTime (now : UInt64) (is : List RpcHandlers.Input) (relay : RelayNode) (req' : Incoming)
    (target : NodeId) : Prop :=
  req'.fromAddr = req.fromAddr ∧
      r.tokens.Outlasts env req.fromAddr.hostString relay.token (RpcHandlers.rotations is) ∨
    req'.fromAddr ≠ req.fromAddr ∧ HasNone (afterwards env r id req now is) target req.fromAddr ∧
      (afterwards env r id req now is).tokens.validate env req'.fromAddr.hostString relay.token = true

end

section

variable {env : HandlerEnv} {c : Config} {r : RpcHandlers} {id : Option NodeId} {req : Incoming}
  {relay : RelayNode}

/-- The message of a withdrawal. -/
def withdrawalMessage (c : Config) (relay : RelayNode) : AnnounceMessage where
  peer := some { publicKey := c.publicKey }
  signature := some (signAnnounce c (nsUnannounce c.blake2b) relay.nodeId relay.token
    (announcement c []))

lemma decodeAnnounceMsg_withdrawal (c : Config) (relay : RelayNode) :
    decodeAnnounceMsg (encodeAnnounceMsg (withdrawalMessage c relay)) = withdrawalMessage c relay := by
  refine decodeAnnounceMsg_encodeAnnounceMsg _ fun p hp => ?_
  rw [← Option.some.inj hp]
  exact Nat.zero_le _

/-- The signature and the peer of a withdrawal are as the announcer made them, so that only its token
decides. -/
theorem accepts_unannounceRequest_iff (hhonest : Honest env c)
    (hcarries : Carries req (unannounceRequest c relay)) (hid : r.node.table.id = relay.nodeId) :
    RpcHandlers.AcceptsUnannounce env r req c.target ↔
      r.tokens.validate env req.fromAddr.hostString relay.token = true := by
  constructor
  · rintro ⟨-, token, _, _, _, htoken, -, hvalid, -⟩
    rw [hcarries.token] at htoken
    rwa [← Option.some.inj htoken] at hvalid
  · intro hvalid
    have hread := decodeAnnounceMsg_withdrawal c relay
    refine ⟨hcarries.target, relay.token, encodeAnnounceMsg (withdrawalMessage c relay), _, _,
      hcarries.token, hcarries.value, hvalid, congrArg AnnounceMessage.peer hread,
      congrArg AnnounceMessage.signature hread, ?_⟩
    rw [hread, hid, hhonest.digest]
    exact hhonest.verifies _

lemma hasNone_handleUnannounce_iff {target : NodeId}
    (haccepts : RpcHandlers.AcceptsUnannounce env r req target) (addr : Ipv4Address) :
    HasNone (r.handleUnannounce env req).1 target addr ↔
      req.fromAddr = addr ∨ HasNone r target addr := by
  have hmem : ∀ p, p ∈ ((r.store.remove target req.fromAddr).1.get target) ↔
      p ∈ r.store.get target ∧ p.fromAddr ≠ req.fromAddr := by
    intro p
    rw [AnnounceStore.get_remove, if_pos rfl, List.mem_filter, Bool.not_eq_true',
      ← Bool.not_eq_true, AnnounceStore.sentFrom_iff]
  rw [RpcHandlers.handleUnannounce_of_accepts haccepts]
  unfold HasNone
  dsimp only
  constructor
  · intro hnone
    by_cases haddr : req.fromAddr = addr
    · exact .inl haddr
    · refine .inr fun p hp hfrom => hnone p ((hmem p).2 ⟨hp, ?_⟩) hfrom
      rw [hfrom]
      exact fun h => haddr h.symm
  · rintro (rfl | hnone) p hp
    · exact ((hmem p).1 hp).2
    · exact hnone p ((hmem p).1 hp).1

lemma TookIn.persistent (h : TookIn env c r id req relay) :
    (r.heard env id req).node.ephemeral = false := by
  obtain ⟨_, htakes⟩ := h.takesIn
  exact htakes.reaches.2.1

lemma TookIn.validate (h : TookIn env c r id req relay) :
    r.tokens.validate env req.fromAddr.hostString relay.token = true := by
  obtain ⟨_, _, hcarries⟩ := h.carries
  obtain ⟨_, htakes⟩ := h.takesIn
  obtain ⟨_, -, -, token, _, htoken, hvalid, -⟩ := htakes.accepts
  rw [hcarries.token] at htoken
  rwa [← Option.some.inj htoken] at hvalid

lemma TookIn.node_later (h : TookIn env c r id req relay) (now : UInt64)
    (is : List RpcHandlers.Input) :
    (afterwards env r id req now is).node.ephemeral = false ∧
      (afterwards env r id req now is).node.table.id = relay.nodeId := by
  obtain ⟨_, htakes⟩ := h.takesIn
  have hstep : RpcNode.Abides (r.heard env id req).node (r.step env (.request now id req)).node := by
    rw [RpcHandlers.step, RpcHandlers.onRequest, if_neg (by simp [htakes.isOpen])]
    exact (RpcHandlers.handle_keeps env _ now req).node
  have habides := hstep.trans (RpcHandlers.run_abides env _ is)
  exact ⟨habides.ephemeral h.persistent, (habides.id h.persistent).trans h.nodeId⟩

lemma tokens_afterwards (env : HandlerEnv) (r : RpcHandlers) (id : Option NodeId) (req : Incoming)
    (now : UInt64) (is : List RpcHandlers.Input) :
    (afterwards env r id req now is).tokens =
      (TokenStore.rotate env)^[RpcHandlers.rotations is] r.tokens := by
  rw [afterwards, Runs.run_cons, RpcHandlers.run_tokens, RpcHandlers.step_tokens]
  rfl

/-- **A relay accepts a withdrawal and removes the record** exactly when the withdrawal is in time. -/
theorem TookIn.withdrawn_iff (h : TookIn env c r id req relay) (hhonest : Honest env c) (now : UInt64)
    (is : List RpcHandlers.Input) (id' : Option NodeId) {req' : Incoming}
    (hcarries : Carries req' (unannounceRequest c relay)) :
    Withdrawn env (afterwards env r id req now is) id' req' c.target req.fromAddr ↔
      InTime env r id req now is relay req' c.target := by
  have hnode := h.node_later now is
  have htokens := tokens_afterwards env r id req now is
  generalize hlater : afterwards env r id req now is = later at hnode htokens ⊢
  obtain ⟨htoken, habides⟩ := RpcHandlers.heard_keeps env later id' req'
  have hreaches : (later.heard env id' req').Reaches req' cmdUnannounce :=
    ⟨hcarries.internal, habides.ephemeral hnode.1, hcarries.command⟩
  have haccepts := @accepts_unannounceRequest_iff env c (later.heard env id' req') req' relay hhonest
    hcarries ((habides.id hnode.1).trans hnode.2)
  rw [htoken] at haccepts
  -- from the address that announced, only the exchanges of the secrets matter
  have hsame : req'.fromAddr = req.fromAddr →
      (later.tokens.validate env req'.fromAddr.hostString relay.token = true ↔
        r.tokens.Outlasts env req.fromAddr.hostString relay.token (RpcHandlers.rotations is)) := by
    intro haddr
    rw [haddr, htokens]
    exact TokenStore.validate_iterate_rotate_iff h.validate _
  rw [InTime, hlater]
  constructor
  · rintro ⟨-, hin, hnone⟩
    have hvalid := haccepts.1 hin
    by_cases haddr : req'.fromAddr = req.fromAddr
    · exact .inl ⟨haddr, (hsame haddr).1 hvalid⟩
    · exact .inr ⟨haddr, ((hasNone_handleUnannounce_iff hin _).1 hnone).resolve_left haddr, hvalid⟩
  · rintro (⟨haddr, hlasts⟩ | ⟨-, hnone, hvalid⟩)
    · have hin := haccepts.2 ((hsame haddr).2 hlasts)
      exact ⟨hreaches, hin, (hasNone_handleUnannounce_iff hin _).2 (.inl haddr)⟩
    · have hin := haccepts.2 hvalid
      exact ⟨hreaches, hin, (hasNone_handleUnannounce_iff hin _).2 (.inr hnone)⟩

end

/-! ## The announcer -/

/-- **The withdrawals that are accepted are those in time.** An announcer that runs and is stopped sends
a withdrawal to each of its relays, every one of which it had announced itself to with the token of the
withdrawal. At an honest relay that took in this announcement the withdrawal is accepted, and the record
is gone, if and only if it comes from the address that announced and the token has outlasted the
exchanges of the secrets: there were none since the announcement, or there was one and the token was of
the secret that was current then.

**Proof sketch.** The signature covers the id of the relay, which a persistent node keeps, the token and
the peer, so it is valid; that leaves the token. -/
theorem withdrawal_iff {env : HandlerEnv} {c : Config} (hhonest : Honest env c) (calls : List Input)
    {relay : RelayNode} (hrunning : (Runs.run (step c) (init c) calls).running = true)
    (hrelay : relay ∈ (Runs.run (step c) (init c) calls).activeRelays) :
    ((∃ before i after, calls = before ++ i :: after ∧
        MadeBy c (Runs.run (step c) (init c) before) i relay) ∧
      unannounceRequest c relay ∈ ((Runs.run (step c) (init c) calls).step c .stop).sent.drop
        (Runs.run (step c) (init c) calls).sent.length) ∧
    ∀ (r : RpcHandlers) (now : UInt64) (id : Option NodeId) (req : Incoming),
      TookIn env c r id req relay →
      ∀ (is : List RpcHandlers.Input) (id' : Option NodeId) (req' : Incoming),
        Carries req' (unannounceRequest c relay) →
        (Withdrawn env (afterwards env r id req now is) id' req' c.target req.fromAddr ↔
          InTime env r id req now is relay req' c.target) := by
  refine ⟨⟨relay_origin c calls hrelay, ?_⟩, fun r now id req htook is id' req' hcarries =>
    htook.withdrawn_iff hhonest now is id' hcarries⟩
  rw [Announcer.step, stopImpl_eq hrunning]
  simpa using ⟨relay, hrelay, rfl⟩


/-! ## A relay that exchanges its secrets -/

/-- A digest that leaves short byte strings as they are, and moves secrets up by one byte. -/
def markedDigest (bytes : List UInt8) : NodeId :=
  RpcNode.paddedDigest (if bytes.length = 32 then 0 :: bytes else bytes)

def nineSigner : Config where
  blake2b := markedDigest
  sign := fun _ => List.Vector.replicate 64 9
  publicKey := List.Vector.replicate 32 9
  target := markedDigest (List.replicate 32 9)

def markedEnv : HandlerEnv := { namedSignerEnv with blake2b := markedDigest }

lemma honest_markedEnv : Honest markedEnv nineSigner :=
  ⟨rfl, fun _ => rfl⟩

def relayNode : RpcHandlers :=
  Runs.run (RpcHandlers.step markedEnv) freshHandlers becomePersistent
def relayAddr : Ipv4Address := .ofOctets 1 2 3 4 1000

def relayNet : Net where
  table := (Table.add { id := NodeId.zero }
    { id := computePeerId markedDigest relayAddr
      host := relayAddr.hostString
      port := relayAddr.port }).1

def namedRelay : RelayNode where
  addr := relayAddr
  peerAddr := someAddr
  nodeId := computePeerId markedDigest relayAddr
  token := someTokens.current

def announcedOnce : List Input :=
  [.start relayNet,
    .response relayNet 0 0
      { id := some (computePeerId markedDigest relayAddr), token := some someTokens.current },
    .announced 0 { fromAddr := someAddr }]

/-- A request of the announcer, as it comes from an address. -/
def arriving (sent : Request) (fromAddr : Ipv4Address)
    (h : ∀ v, sent.value = some v → v.length ≤ maxBufferDecode) : Incoming where
  fromAddr := fromAddr
  token := sent.token
  command := sent.command
  target := sent.target
  value := sent.value
  internal := sent.internal
  valueFits := h

def itsAnnouncement : Incoming :=
  arriving (commitRequest nineSigner []
      { fromId := namedRelay.nodeId, fromAddr := relayAddr } someTokens.current) someAddr fun v hv => by
    rw [← Option.some.inj hv]
    decide +kernel

def itsWithdrawal : Incoming :=
  arriving (unannounceRequest nineSigner namedRelay) someAddr fun v hv => by
    rw [← Option.some.inj hv]
    decide +kernel

lemma carries_itsWithdrawal : Carries itsWithdrawal (unannounceRequest nineSigner namedRelay) :=
  ⟨rfl, rfl, rfl, rfl, rfl⟩

set_option maxRecDepth 10000 in
lemma relayNode_persistent : relayNode.node.socket.closing = false ∧
    (relayNode.heard markedEnv none itsAnnouncement).node.ephemeral = false ∧
    (relayNode.heard markedEnv none itsAnnouncement).node.table.id = namedRelay.nodeId ∧
    relayNode.tokens = someTokens := by
  decide +kernel

lemma tookIn_relayNode : TookIn markedEnv nineSigner relayNode none itsAnnouncement namedRelay where
  carries := ⟨[], _, rfl, rfl, rfl, rfl, rfl⟩
  nodeId := relayNode_persistent.2.2.1
  takesIn := by
    obtain ⟨hopen, hpersistent, hid, htokens⟩ := relayNode_persistent
    refine ⟨_, hopen, ⟨rfl, hpersistent, rfl⟩, { publicKey := nineSigner.publicKey }, rfl, rfl,
      someTokens.current, nineSigner.sign [], rfl, ?_, ?_, ?_, ?_⟩
    · rw [(RpcHandlers.heard_keeps markedEnv relayNode none itsAnnouncement).tokens, htokens]
      exact TokenStore.validate_iff.2 (.inl rfl)
    · decide +kernel
    · decide +kernel
    · exact honest_markedEnv.verifies _

set_option maxRecDepth 10000 in
lemma announcedOnce_relays :
    (Runs.run (step nineSigner) (init nineSigner) announcedOnce).running = true ∧
      (Runs.run (step nineSigner) (init nineSigner) announcedOnce).activeRelays = [namedRelay] := by
  decide +kernel

/-- After one exchange of the secrets the withdrawal is accepted. -/
theorem withdrawn_rotated :
    Withdrawn markedEnv (afterwards markedEnv relayNode none itsAnnouncement 0 [.rotate]) none
      itsWithdrawal nineSigner.target someAddr := by
  obtain ⟨hrunning, hrelays⟩ := announcedOnce_relays
  have hrelay : namedRelay ∈
      (Runs.run (step nineSigner) (init nineSigner) announcedOnce).activeRelays := by
    rw [hrelays]
    exact List.mem_singleton_self _
  refine ((withdrawal_iff honest_markedEnv announcedOnce hrunning hrelay).2 relayNode 0 none _
    tookIn_relayNode [.rotate] none _ carries_itsWithdrawal).2 ?_
  exact .inl ⟨rfl, .inr (.inl ⟨rfl, rfl⟩)⟩

lemma not_outlasts_twice :
    ¬ someTokens.Outlasts markedEnv someAddr.hostString someTokens.current 2 := by
  rintro (hzero | ⟨hone, -⟩ | ⟨-, hcurrent⟩ | ⟨-, hprevious⟩)
  · cases hzero
  · cases hone
  · exact absurd (congrArg (fun v => v.toList.head?) hcurrent) (by decide +kernel)
  · exact absurd (congrArg (fun v => v.toList.head?) hprevious) (by decide +kernel)

/-- **After two exchanges the withdrawal is dropped.** -/
theorem not_withdrawn_rotated_twice :
    ¬ ((Runs.run (step nineSigner) (init nineSigner) announcedOnce).running = true →
      namedRelay ∈ (Runs.run (step nineSigner) (init nineSigner) announcedOnce).activeRelays →
      TookIn markedEnv nineSigner relayNode none itsAnnouncement namedRelay →
      Carries itsWithdrawal (unannounceRequest nineSigner namedRelay) →
      ∀ is, Withdrawn markedEnv (afterwards markedEnv relayNode none itsAnnouncement 0 is) none
        itsWithdrawal nineSigner.target someAddr) := by
  intro hall
  obtain ⟨hrunning, hrelays⟩ := announcedOnce_relays
  have hrelay : namedRelay ∈
      (Runs.run (step nineSigner) (init nineSigner) announcedOnce).activeRelays := by
    rw [hrelays]
    exact List.mem_singleton_self _
  have hwithdrawn := hall hrunning hrelay tookIn_relayNode carries_itsWithdrawal [.rotate, .rotate]
  rcases (tookIn_relayNode.withdrawn_iff honest_markedEnv 0 [.rotate, .rotate] none
    carries_itsWithdrawal).1 hwithdrawn with ⟨-, hlasts⟩ | ⟨hne, -⟩
  · rw [relayNode_persistent.2.2.2] at hlasts
    exact not_outlasts_twice hlasts
  · exact hne rfl

end HyperDHT.Announcer
