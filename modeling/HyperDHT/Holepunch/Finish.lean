import HyperDHT.Holepunch.Phases
import HyperDHT.Lib.Runs

/-!
# A holepunch should finish

A holepunch that is not over awaits the response to a round, the end of a pause or of its wait, or the timer
of its puncher. But a puncher whose own firewall is random has no sockets to punch from, and begins nothing:
when the second round is over, too, nothing is left to end the holepunch.

## Main definitions

* `Holepunch.Awaits` — a timer runs, or a request can still end the holepunch.
* `Holepunch.Lives` — the callback is called once at the end, and before it something is awaited.

## Main results

* `Holepunch.awaits_iff` — what is awaited in each state.
* `Holepunch.lives_iff` — a holepunch lives in every state exactly when no step strands it.
* `Holepunch.not_lives_strandedRun` — a holepunch behind a random firewall that does not finish.
-/

set_option autoImplicit false

namespace HyperDHT.Holepunch

open Compact Runs

variable {env : Env} {s : PunchState}

/-! ## What is awaited -/

/-- The input settles the `k`-th request: it answers it, or is its timeout. -/
def Settles (k : ℕ) : Input → Prop
  | .response j _ _ _ _ => j = k
  | .timeout j _ => j = k
  | _ => False

/-- A timer runs, or a request is not settled that may end the holepunch. -/
def Awaits (env : Env) (s : PunchState) : Prop :=
  s.sleeper ≠ none ∨ s.waitSampler ≠ none ∨ s.puncher.timer ≠ none ∨
    ∃ k i, k < s.requests.length ∧ Settles k i ∧ (step env s i).completed = true

/-- The callback was called at most once, and before it is called something is awaited. -/
def Lives (env : Env) (s : PunchState) : Prop := s.done.length ≤ 1 ∧ (s.done = [] → Awaits env s)

/-- The response by which a peer refuses. -/
def refusal (env : Env) : List UInt8 :=
  encodeHolepunchMsg {
    payload := env.secure.encrypt (encodeHolepunchPayload { error := errorTryLater }) }

lemma refused_refusal (env : Env) : refused env (some (refusal env)) = true := by
  have hlength := env.secure.length_encrypt (encodeHolepunchPayload { error := errorTryLater })
  have hshort : (encodeHolepunchPayload { error := errorTryLater }).length = 4 := by decide
  have hread : decodeHolepunchMsg (refusal env) = {
      payload := env.secure.encrypt (encodeHolepunchPayload { error := errorTryLater }) } := by
    refine decodeHolepunchMsg_encodeHolepunchMsg (show (0 : UInt32) ≤ 0xFF by decide) ?_
    rw [hlength, hshort]
    decide
  have hfull : (refusal env).isEmpty = false := isEmpty_encodeHolepunchMsg _
  have hpayload : (env.secure.encrypt
      (encodeHolepunchPayload { error := errorTryLater })).isEmpty = false := by
    rw [List.isEmpty_eq_false_iff, ← List.length_pos_iff, hlength]
    omega
  have herror : decodeHolepunchPayload (encodeHolepunchPayload { error := errorTryLater }) =
      { error := errorTryLater } :=
    decodeHolepunchPayload_encodeHolepunchPayload (by decide) (by decide)
  simp only [refused, Option.getD_some, hread, hfull, hpayload, env.secure.decrypt_encrypt,
    Option.any_some, herror]
  decide

lemma completed_of_settles_ping (h : Going s) {k : ℕ} {req : PoolRequest}
    (hk : s.requests[k]? = some req) (hcall : req.call = .ping) {i : Input} (hi : Settles k i) :
    (step env s i).completed = s.completed := by
  cases i with
  | response j toAddr source value now =>
    obtain rfl : j = k := hi
    obtain ⟨-, hsame⟩ := @alike_finishPing
      { s with sampler := (s.sampler.add toAddr source).1 } j req hk hcall
    simpa [step, PunchState.onResponse, h.pool, hk, hcall] using hsame
  | timeout j now =>
    obtain rfl : j = k := hi
    obtain ⟨-, hsame⟩ := alike_finishPing hk hcall
    by_cases hleft : req.attemptsLeft > 0
    · simp [step, PunchState.onTimeout, h.pool, hk, hleft]
    · simpa [step, PunchState.onTimeout, h.pool, hk, hleft, hcall] using hsame
  | probe source now => exact hi.elim
  | sleeper tick => exact hi.elim
  | waitSampler now => exact hi.elim
  | punchTimer tick => exact hi.elim

lemma exists_settles_of_round (h : Going s) (hcompleted : s.completed = false) {k : ℕ}
    {req : PoolRequest} (hk : s.requests[k]? = some req) (hcall : req.call ≠ .ping) :
    ∃ i, Settles k i ∧ (step env s i).completed = true := by
  obtain ⟨hround, -⟩ | ⟨hround, -⟩ := h.round_over hk hcall
  · refine ⟨.response k .zero .zero none 0, rfl, ?_⟩
    simp [step, PunchState.onResponse, h.pool, hk, hround, PunchState.onRound1, hcompleted,
      PunchState.fail, PunchState.complete]
  · refine ⟨.response k .zero .zero (some (refusal env)) 0, rfl, ?_⟩
    have hend := @onRound2_cases env { s with
      sampler := (s.sampler.add .zero .zero).1, requests := s.requests.eraseIdx k } 0 hcompleted
      (some (refusal env))
    obtain ⟨-, hfail⟩ | ⟨hnot, -⟩ := hend
    · have heq : step env s (.response k .zero .zero (some (refusal env)) 0) =
          PunchState.onRound2 env { s with
            sampler := (s.sampler.add .zero .zero).1, requests := s.requests.eraseIdx k }
              (some (refusal env)) 0 := by
        simp [step, PunchState.onResponse, h.pool, hk, hround]
      rw [heq, hfail]
      exact (@complete_of_going { s with
        sampler := (s.sampler.add .zero .zero).1, requests := s.requests.eraseIdx k } 0 hcompleted {}).1
    · simp [refused_refusal] at hnot

/-- **What is awaited**, before the holepunch is over. -/
theorem awaits_iff (h : Going s) (hcompleted : s.completed = false) : Awaits env s ↔ Awake s := by
  constructor
  · rintro (hsleeper | hwait | htimer | ⟨k, i, hlt, hi, hover⟩)
    · exact .inr (.inl hsleeper)
    · exact .inr (.inr (.inl hwait))
    · exact .inr (.inr (.inr htimer))
    · refine .inl fun hnil => ?_
      have hping : (s.requests.get ⟨k, hlt⟩).call = .ping := by
        by_contra hcall
        refine List.filter_eq_nil_iff.1 hnil _ ?_ (by simpa using hcall)
        exact List.mem_map_of_mem (List.get_mem _ _)
      have hsame := @completed_of_settles_ping env s h k _ (List.getElem?_eq_getElem hlt) hping i hi
      simp [hsame, hcompleted] at hover
  · rintro (hrounds | hsleeper | hwait | htimer)
    · obtain ⟨call, hmem⟩ := List.exists_mem_of_ne_nil _ hrounds
      obtain ⟨hmap, hcall⟩ := List.mem_filter.1 hmem
      obtain ⟨req, hreq, rfl⟩ := List.mem_map.1 hmap
      obtain ⟨k, hlt, hget⟩ := List.mem_iff_getElem.1 hreq
      obtain ⟨i, hi, hover⟩ := @exists_settles_of_round env s h hcompleted k req
        (List.getElem?_eq_some_iff.2 ⟨hlt, hget⟩) (by simpa using hcall)
      exact .inr (.inr (.inr ⟨k, i, hlt, hi, hover⟩))
    · exact .inl hsleeper
    · exact .inr (.inl hwait)
    · exact .inr (.inr (.inl htimer))

lemma lives_iff_awake (h : Inv s) :
    Lives env s ↔ (s.completed = false → Awake s) := by
  cases hcompleted : s.completed with
  | true =>
    have hone := h.finished hcompleted
    refine ⟨fun _ hnot => by simp at hnot, fun _ => ⟨hone.le, fun hnil => ?_⟩⟩
    simp [hnil] at hone
  | false =>
    have hgoing := h.going hcompleted
    constructor
    · exact fun hlives _ => (awaits_iff hgoing hcompleted).1 (hlives.2 hgoing.done)
    · intro hawake
      exact ⟨by simp [hgoing.done], fun _ => (awaits_iff hgoing hcompleted).2 (hawake rfl)⟩

lemma lives_step_iff (h : Inv s) (hlives : Lives env s) (i : Input) :
    Lives env (step env s i) ↔ ¬ Strands env s i := by
  have hawake := (lives_iff_awake h).1 hlives
  rw [lives_iff_awake (inv_step h i)]
  cases hcompleted : s.completed with
  | true =>
    have hover := (@step_of_completed env s hcompleted i).1
    refine ⟨fun _ hstrands => ?_, fun _ hnot => by simp [hover] at hnot⟩
    cases i with
    | response k toAddr source value now => exact Bool.noConfusion (hcompleted.symm.trans hstrands.1)
    | timeout k now => exact Bool.noConfusion (hcompleted.symm.trans hstrands.1)
    | probe source now => exact hstrands
    | sleeper tick => exact hstrands
    | waitSampler now => exact hstrands
    | punchTimer tick => exact hstrands
  | false =>
    have hleads := @leads_of_going env s (h.going hcompleted) hcompleted i
    constructor
    · intro hgood hstrands
      obtain ⟨hnot, hasleep⟩ := hleads.strands hstrands
      exact hasleep (hgood hnot)
    · exact fun hnot => hleads.awake (hawake hcompleted) hnot

/-- **A holepunch finishes exactly if it is not stranded**: the callback is called at most once, and in
every state before it something is awaited, exactly if no second round ends without an error while our
own firewall is random. -/
theorem lives_iff (env : Env) (is : List Input) :
    EveryState (step env) (Lives env) (start env) is ↔
      EveryStep (step env) (fun s i => ¬ Strands env s i) (start env) is :=
  everyState_iff_everyStep (I := Inv) (fun _ i h => inv_step h i)
    (fun _ i h hlives => lives_step_iff h hlives i) (alive_start env).inv
    ((lives_iff_awake (alive_start env).inv).2 (alive_start env).awake)

/-! ## A holepunch that does not finish -/

def plainSecure : SecurePayload where
  encrypt data := List.replicate 40 0 ++ data
  decrypt data := if data.length < 40 then none else some (data.drop 40)
  token host := List.Vector.ofFn fun i => UInt8.ofNat ((host.map Char.toNat).getD i 0)
  length_encrypt data := by rw [List.length_append, List.length_replicate, Nat.add_comm]
  decrypt_encrypt data := by
    have hlength : ¬ (List.replicate 40 (0 : UInt8) ++ data).length < 40 := by
      rw [List.length_append, List.length_replicate]
      exact not_lt.2 (Nat.le_add_right 40 data.length)
    rw [if_neg hlength, List.drop_left' List.length_replicate]

/-- The addresses of the run: hosts of a network by their last number. -/
def hostAt (n : UInt8) : Ipv4Address := .ofOctets 192 0 2 n 49737

def strandedEnv : Env where
  secure := plainSecure
  relayAddr := hostAt 1
  peerAddr := hostAt 9

def consistentReply : List UInt8 :=
  encodeHolepunchMsg {
    mode := modeReply
    payload := plainSecure.encrypt (encodeHolepunchPayload {
      firewall := firewallConsistent
      addresses := [hostAt 9]
      token := some (plainSecure.token "192.0.2.1".toList) }) }

/-- Every node that is pinged sees us under another host, the peer has a consistent firewall, and the
second round is never answered. -/
def strandedRun : List Input := [
  .response 0 (hostAt 21) (hostAt 1) none 10,
  .response 0 (hostAt 22) (hostAt 2) none 20,
  .response 0 (hostAt 23) (hostAt 3) none 30,
  .response 0 (hostAt 24) (hostAt 4) none 40,
  .response 0 (hostAt 24) (hostAt 1) (some consistentReply) 50,
  .sleeper { now := 550 },
  .timeout 0 1550, .timeout 0 2550, .timeout 0 3550]

def strandedState : PunchState := run (step strandedEnv) (start strandedEnv) strandedRun

lemma strandedState_eq : strandedState.completed = false ∧ rounds strandedState = [] ∧
    strandedState.sleeper = none ∧ strandedState.waitSampler = none ∧
    strandedState.puncher.timer = none := by
  decide +kernel

/-- **A holepunch that does not finish**: our own firewall is random, so that the puncher begins nothing,
and the second round is not answered. -/
theorem not_lives_strandedRun :
    ¬ EveryState (step strandedEnv) (Lives strandedEnv) (start strandedEnv) strandedRun := by
  intro hall
  have hlives : Lives strandedEnv strandedState := hall.run
  have hinv : Inv strandedState :=
    run_invariant (P := Inv) (fun _ i h => inv_step h i) (alive_start strandedEnv).inv strandedRun
  obtain ⟨hcompleted, hrounds, hsleeper, hwait, htimer⟩ := strandedState_eq
  rcases (lives_iff_awake hinv).1 hlives hcompleted with hne | hne | hne | hne
  · exact hne hrounds
  · exact hne hsleeper
  · exact hne hwait
  · exact hne htimer

end HyperDHT.Holepunch
