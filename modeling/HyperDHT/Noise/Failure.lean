import HyperDHT.Lib.Runs
import HyperDHT.Noise.Handshake

/-!
# A handshake that fails

What `send` and `recv` do in every order, with arbitrary bytes. A call that is not its turn is refused and
changes nothing, one that fails makes the handshake corrupt for good, and the keys are there when two
calls have succeeded.

## Main definitions

* `Noise.Setup` — the arguments of the constructor.
* `Noise.NoiseIK.Call`, `call`, `successes` — the calls of a handshake, and how many of them have
  succeeded.
* `Noise.NoiseIK.InTurn` — the turns: the initiator sends first, then the other end.
* `Noise.NoiseIK.FailureFinal` — the failure of a handshake is final.

## Main results

* `Noise.NoiseIK.call_cases` — a call is refused, fails or succeeds.
* `Noise.NoiseIK.progress_run` — what holds after all runs.
* `Noise.NoiseIK.failureFinal` — the failure of a handshake is final.
-/

set_option autoImplicit false

namespace HyperDHT.Noise

open Runs

/-- The arguments of `NoiseIK::NoiseIK`. -/
structure Setup where
  s : Keypair
  prologue : List UInt8
  /-- The static key of the responder, which an initiator knows. -/
  remoteStatic : Option PubKey

/-- The object that the constructor makes. -/
def Setup.create (L : Sodium) (setup : Setup) : NoiseIK :=
  match setup.remoteStatic with
  | some remoteStatic => .newInitiator L setup.s setup.prologue remoteStatic
  | none => .newResponder L setup.s setup.prologue

namespace NoiseIK

/-- A call of a method. The keypair `fresh` is what is drawn if there is no ephemeral keypair yet. -/
inductive Call where
  | send (payload : List UInt8) (fresh : Keypair)
  | recv (msg : List UInt8)

/-- The call is one of `send`. -/
def Call.isSend : Call → Bool
  | send .. => true
  | recv _ => false

variable (L : Sodium)

/-- A call: the object after it, and what it returns. The empty message of `send` is nothing. -/
def call (n : NoiseIK) : Call → NoiseIK × Option (List UInt8)
  | .send payload fresh => ((n.send L payload fresh).1,
      if (n.send L payload fresh).2 = [] then none else some (n.send L payload fresh).2)
  | .recv msg => n.recv L msg

/-- The object after a call. -/
def step (n : NoiseIK) (c : Call) : NoiseIK := (n.call L c).1

/-- How many calls have returned something. -/
def successes : NoiseIK → List Call → ℕ
  | _, [] => 0
  | n, c :: cs => (if (n.call L c).2.isSome then 1 else 0) + successes (n.step L c) cs

/-- It is the turn of this end, after so many calls have succeeded: the initiator sends and then receives, the
responder receives and then sends. -/
def InTurn (initiator : Bool) (done : ℕ) (c : Call) : Prop :=
  done = 0 ∧ c.isSend = initiator ∨ done = 1 ∧ c.isSend = !initiator

/-- The keys and the hash are those that the constructor has set. -/
def Keyless (n : NoiseIK) : Prop :=
  n.tx = List.Vector.replicate 32 0 ∧ n.rx = List.Vector.replicate 32 0 ∧ n.hash = List.Vector.replicate 64 0

/-- **The failure of a handshake is final**, after any calls of a new object. -/
structure FailureFinal (setup : Setup) (cs : List Call) : Prop where
  /-- A call out of turn or after completion returns nothing and changes nothing. -/
  refused : ∀ c, ¬ InTurn setup.remoteStatic.isSome (successes L (setup.create L) cs) c ∨
      (run (step L) (setup.create L) cs).complete = true →
    (run (step L) (setup.create L) cs).call L c = (run (step L) (setup.create L) cs, none)
  /-- A message that is received in turn and rejected makes the handshake corrupt. -/
  rejected : ∀ msg, InTurn setup.remoteStatic.isSome (successes L (setup.create L) cs) (.recv msg) →
    ((run (step L) (setup.create L) cs).recv L msg).2 = none →
      ((run (step L) (setup.create L) cs).recv L msg).1.corrupt = true
  /-- Whatever is called after that, nothing is returned, and there are no keys. -/
  corrupt : (run (step L) (setup.create L) cs).corrupt = true → ∀ later,
    (∀ c, ((run (step L) (setup.create L) (cs ++ later)).call L c).2 = none) ∧
      (run (step L) (setup.create L) (cs ++ later)).complete = false ∧
      (run (step L) (setup.create L) (cs ++ later)).Keyless
  /-- The handshake is complete when two calls have succeeded. -/
  complete : (run (step L) (setup.create L) cs).complete = true ↔ successes L (setup.create L) cs = 2

variable {L} {n n' : NoiseIK}

/-! ## One call -/

/-- What the parts of a call do not touch. -/
structure Kept (n n' : NoiseIK) : Prop where
  initiator : n'.initiator = n.initiator
  complete : n'.complete = n.complete
  messageIndex : n'.messageIndex = n.messageIndex
  tx : n'.tx = n.tx
  rx : n'.rx = n.rx
  hash : n'.hash = n.hash

/-- A part of a call: it fails and makes the handshake corrupt, or it goes on with what it has made. -/
inductive Goes (n : NoiseIK) : NoiseIK × Option (List UInt8) → Prop
  | fails (n' : NoiseIK) : Kept n n' → n'.corrupt = true → Goes n (n', none)
  | on (n' : NoiseIK) (out : List UInt8) : Kept n n' → n'.corrupt = n.corrupt → Goes n (n', some out)

lemma Kept.trans {n₁ n₂ n₃ : NoiseIK} (h : Kept n₁ n₂) (h' : Kept n₂ n₃) : Kept n₁ n₃ where
  initiator := h'.initiator.trans h.initiator
  complete := h'.complete.trans h.complete
  messageIndex := h'.messageIndex.trans h.messageIndex
  tx := h'.tx.trans h.tx
  rx := h'.rx.trans h.rx
  hash := h'.hash.trans h.hash

lemma Goes.of_kept {part : NoiseIK × Option (List UInt8)} (h : n'.Goes part) (hkept : Kept n n')
    (hcorrupt : n'.corrupt = n.corrupt) : n.Goes part := by
  cases h with
  | fails n'' hkept' hcorrupt' => exact .fails n'' (hkept.trans hkept') hcorrupt'
  | on n'' out hkept' hcorrupt' => exact .on n'' out (hkept.trans hkept') (hcorrupt'.trans hcorrupt)

lemma goes_sendKeys1 (n : NoiseIK) (e : Keypair) : n.Goes (sendKeys1 L n e) := by
  unfold sendKeys1
  dsimp only
  split_ifs
  · exact .fails _ ⟨rfl, rfl, rfl, rfl, rfl, rfl⟩ rfl
  · exact .fails _ ⟨rfl, rfl, rfl, rfl, rfl, rfl⟩ rfl
  · exact .on _ _ ⟨rfl, rfl, rfl, rfl, rfl, rfl⟩ rfl

lemma goes_sendKeys2 (n : NoiseIK) (e : Keypair) : n.Goes (sendKeys2 L n e) := by
  unfold sendKeys2
  dsimp only
  split_ifs
  · exact .fails _ ⟨rfl, rfl, rfl, rfl, rfl, rfl⟩ rfl
  · exact .fails _ ⟨rfl, rfl, rfl, rfl, rfl, rfl⟩ rfl
  · exact .on _ _ ⟨rfl, rfl, rfl, rfl, rfl, rfl⟩ rfl

lemma goes_recvKeys1 (n : NoiseIK) (msg : List UInt8) : n.Goes (recvKeys1 L n msg) := by
  unfold recvKeys1
  dsimp only
  split
  · exact .fails _ ⟨rfl, rfl, rfl, rfl, rfl, rfl⟩ rfl
  · split
    · exact .fails _ ⟨rfl, rfl, rfl, rfl, rfl, rfl⟩ rfl
    · split
      · exact .fails _ ⟨rfl, rfl, rfl, rfl, rfl, rfl⟩ rfl
      · split
        · exact .fails _ ⟨rfl, rfl, rfl, rfl, rfl, rfl⟩ rfl
        · split
          · exact .fails _ ⟨rfl, rfl, rfl, rfl, rfl, rfl⟩ rfl
          · exact .on _ _ ⟨rfl, rfl, rfl, rfl, rfl, rfl⟩ rfl

lemma goes_recvKeys2 (n : NoiseIK) (msg : List UInt8) : n.Goes (recvKeys2 L n msg) := by
  unfold recvKeys2
  dsimp only
  split_ifs
  · exact .fails _ ⟨rfl, rfl, rfl, rfl, rfl, rfl⟩ rfl
  · exact .fails _ ⟨rfl, rfl, rfl, rfl, rfl, rfl⟩ rfl
  · exact .fails _ ⟨rfl, rfl, rfl, rfl, rfl, rfl⟩ rfl
  · exact .on _ _ ⟨rfl, rfl, rfl, rfl, rfl, rfl⟩ rfl

lemma publicKey_append_ne_nil (e : Keypair) (rest : List UInt8) : e.publicKey.toList ++ rest ≠ [] := by
  intro hnil
  have hlength := congrArg List.length hnil
  rw [List.length_append, e.publicKey.toList_length, List.length_nil] at hlength
  omega

lemma sendKeys_ne_nil {e : Keypair} {keys : List UInt8}
    (h : (if n.initiator then sendKeys1 L n' e else sendKeys2 L n' e).2 = some keys) : keys ≠ [] := by
  split at h
  · unfold sendKeys1 at h
    dsimp only at h
    split_ifs at h
    rw [← Option.some.inj h]
    exact publicKey_append_ne_nil e _
  · unfold sendKeys2 at h
    dsimp only at h
    split_ifs at h
    rw [← Option.some.inj h, ← List.append_nil e.publicKey.toList]
    exact publicKey_append_ne_nil e []

/-- The guard of a call. -/
def may (n : NoiseIK) : Call → Bool
  | .send .. => n.maySend
  | .recv _ => n.mayRecv

lemma may_iff {c : Call} : n.may c = true ↔ n.complete = false ∧ n.corrupt = false ∧
    (n.messageIndex = 0 → c.isSend = n.initiator) ∧ (n.messageIndex = 1 → c.isSend = !n.initiator) := by
  cases c <;> cases hrole : n.initiator <;> simp [may, maySend, mayRecv, Call.isSend, and_assoc, hrole]

/-- **A call** is refused, fails, or succeeds: then there is one message more. -/
inductive Called (L : Sodium) (n : NoiseIK) (c : Call) : NoiseIK × Option (List UInt8) → Prop
  | refused : n.may c = false → Called L n c (n, none)
  | failed (n' : NoiseIK) : n.may c = true → Kept n n' → n'.corrupt = true → Called L n c (n', none)
  | succeeded (n' : NoiseIK) (out : List UInt8) : n.may c = true → Kept n n' → n'.corrupt = n.corrupt →
      Called L n c (finish L { n' with messageIndex := n'.messageIndex + 1 }, some out)

lemma called_send (n : NoiseIK) (payload : List UInt8) (fresh : Keypair) :
    Called L n (.send payload fresh) (n.call L (.send payload fresh)) := by
  unfold call send
  dsimp only
  by_cases hmay : n.maySend = true
  · rw [if_pos hmay]
    set e := n.e.getD fresh
    have hgoes : Goes n (if n.initiator then sendKeys1 L { n with e := some e } e
        else sendKeys2 L { n with e := some e } e) := by
      split
      · exact (goes_sendKeys1 { n with e := some e } e).of_kept ⟨rfl, rfl, rfl, rfl, rfl, rfl⟩ rfl
      · exact (goes_sendKeys2 { n with e := some e } e).of_kept ⟨rfl, rfl, rfl, rfl, rfl, rfl⟩ rfl
    have hkeys := @sendKeys_ne_nil L n { n with e := some e } e
    generalize (if n.initiator then sendKeys1 L { n with e := some e } e
      else sendKeys2 L { n with e := some e } e) = part at hgoes hkeys ⊢
    cases hgoes with
    | fails n' hkept hcorrupt => exact .failed n' hmay hkept hcorrupt
    | on n' keys hkept hcorrupt =>
      have hnil : keys ++ (n'.symmetric.encryptAndHash L payload).2 ≠ [] :=
        List.append_ne_nil_of_left_ne_nil (hkeys rfl) _
      simp only [sendPayload, hnil, if_false]
      exact .succeeded { n' with symmetric := (n'.symmetric.encryptAndHash L payload).1 } _ hmay
        ⟨hkept.1, hkept.2, hkept.3, hkept.4, hkept.5, hkept.6⟩ hcorrupt
  · rw [if_neg hmay, if_pos rfl]
    exact .refused (by simpa [may] using hmay)

lemma called_recv (n : NoiseIK) (msg : List UInt8) : Called L n (.recv msg) (n.call L (.recv msg)) := by
  unfold call recv
  dsimp only
  by_cases hmay : n.mayRecv = true
  · rw [if_pos hmay]
    have hgoes : Goes n (if n.initiator then recvKeys2 L n msg else recvKeys1 L n msg) := by
      split
      · exact goes_recvKeys2 n msg
      · exact goes_recvKeys1 n msg
    generalize (if n.initiator then recvKeys2 L n msg else recvKeys1 L n msg) = part at hgoes ⊢
    cases hgoes with
    | fails n' hkept hcorrupt => exact .failed n' hmay hkept hcorrupt
    | on n' rest hkept hcorrupt =>
      dsimp only
      unfold recvPayload
      split
      next symmetric _ => exact .failed _ hmay ⟨hkept.1, hkept.2, hkept.3, hkept.4, hkept.5, hkept.6⟩ rfl
      next symmetric payload _ =>
        exact .succeeded { n' with symmetric := symmetric } payload hmay
          ⟨hkept.1, hkept.2, hkept.3, hkept.4, hkept.5, hkept.6⟩ hcorrupt
  · rw [if_neg hmay]
    exact .refused (by simpa [may] using hmay)

theorem call_cases (n : NoiseIK) (c : Call) : Called L n c (n.call L c) := by
  cases c with
  | send payload fresh => exact called_send n payload fresh
  | recv msg => exact called_recv n msg

/-! ## All runs -/

/-- **What holds after all runs**, when so many calls have succeeded. -/
structure Progress (initiator : Bool) (done : ℕ) (n : NoiseIK) : Prop where
  initiator : n.initiator = initiator
  messageIndex : n.messageIndex = done
  complete : n.complete = true ↔ done = 2
  le : done ≤ 2
  keyless : n.complete = false → n.Keyless
  corrupt : n.corrupt = true → n.complete = false

variable {initiator : Bool} {done : ℕ}

lemma Progress.may_iff (h : Progress initiator done n) {c : Call} :
    n.may c = true ↔ InTurn initiator done c ∧ n.corrupt = false := by
  have hcomplete : n.complete = false ↔ done ≠ 2 := by
    rw [← Bool.not_eq_true, h.complete]
  rw [NoiseIK.may_iff, h.messageIndex, h.initiator, hcomplete]
  unfold InTurn
  obtain rfl | rfl | rfl : done = 0 ∨ done = 1 ∨ done = 2 := by
    have hle := h.le
    omega
  all_goals simp [and_comm]

lemma Progress.fail (h : Progress initiator done n) (hkept : Kept n n') (hopen : n.complete = false) :
    Progress initiator done n' where
  initiator := hkept.initiator.trans h.initiator
  messageIndex := hkept.messageIndex.trans h.messageIndex
  complete := by rw [hkept.complete, h.complete]
  le := h.le
  keyless := by
    intro _
    unfold Keyless
    rw [hkept.tx, hkept.rx, hkept.hash]
    exact h.keyless hopen
  corrupt := fun _ => hkept.complete.trans hopen

lemma Progress.succeed (h : Progress initiator done n) (hkept : Kept n n') (hopen : n.complete = false)
    (hcorrupt : n'.corrupt = false) :
    Progress initiator (done + 1) (finish L { n' with messageIndex := n'.messageIndex + 1 }) := by
  have hindex := hkept.messageIndex.trans h.messageIndex
  have hdone : done ≠ 2 := fun htwo => by
    rw [h.complete.2 htwo] at hopen
    cases hopen
  have hle := h.le
  unfold finish
  dsimp only
  split
  next hlast =>
    have hone : done = 1 := by omega
    refine ⟨hkept.initiator.trans h.initiator, by rw [hindex], by simp [hone], by omega, fun hnot => ?_,
      fun hfailed => ?_⟩
    · cases hnot
    · exact absurd hfailed (by simp [hcorrupt])
  next hfirst =>
    have hzero : done = 0 := by omega
    have hfresh := (h.fail hkept hopen).keyless (hkept.complete.trans hopen)
    exact ⟨hkept.initiator.trans h.initiator, by rw [hindex], by simp [hkept.complete, hopen, hzero],
      by omega, fun _ => hfresh, fun _ => hkept.complete.trans hopen⟩

/-- **One call**: it counts if it returns something. -/
lemma Progress.step (h : Progress initiator done n) (c : Call) :
    Progress initiator (done + if (n.call L c).2.isSome then 1 else 0) (n.step L c) := by
  unfold NoiseIK.step
  have hcases := call_cases (L := L) n c
  generalize n.call L c = called at hcases ⊢
  cases hcases with
  | refused hnot => exact h
  | failed n' hmay hkept hcorrupt => exact h.fail hkept (NoiseIK.may_iff.1 hmay).1
  | succeeded n' out hmay hkept hcorrupt =>
    obtain ⟨hopen, hsound, -⟩ := NoiseIK.may_iff.1 hmay
    exact h.succeed hkept hopen (hcorrupt.trans hsound)

/-- **All calls**: the invariant holds with the number of calls that have succeeded. -/
theorem progress_run (cs : List Call) : ∀ {done : ℕ} {n : NoiseIK}, Progress initiator done n →
    Progress initiator (done + n.successes L cs) (run (NoiseIK.step L) n cs) := by
  induction cs with
  | nil => exact fun h => h
  | cons c cs ih =>
    intro done n h
    rw [run_cons, successes, ← Nat.add_assoc]
    exact ih (h.step c)

lemma progress_create (L : Sodium) (setup : Setup) :
    Progress setup.remoteStatic.isSome 0 (setup.create L) := by
  unfold Setup.create
  cases setup.remoteStatic with
  | none =>
    exact ⟨rfl, rfl, by simp [newResponder], by omega, fun _ => ⟨rfl, rfl, rfl⟩, fun h => nomatch h⟩
  | some key =>
    exact ⟨rfl, rfl, by simp [newInitiator], by omega, fun _ => ⟨rfl, rfl, rfl⟩, fun h => nomatch h⟩

lemma call_of_not_may {c : Call} (h : n.may c = false) : n.call L c = (n, none) := by
  have hcases := call_cases (L := L) n c
  have hnot : ¬ n.may c = true := Bool.eq_false_iff.1 h
  generalize n.call L c = called at hcases ⊢
  cases hcases with
  | refused => rfl
  | failed n' hmay => exact absurd hmay hnot
  | succeeded n' out hmay => exact absurd hmay hnot

lemma corrupt_of_failed {c : Call} (hmay : n.may c = true) (h : (n.call L c).2 = none) :
    (n.call L c).1.corrupt = true := by
  have hcases := call_cases (L := L) n c
  generalize n.call L c = called at hcases h ⊢
  cases hcases with
  | refused hnot => exact absurd hmay (Bool.eq_false_iff.1 hnot)
  | failed n' _ _ hcorrupt => exact hcorrupt
  | succeeded => cases h

lemma call_of_corrupt (h : n.corrupt = true) (c : Call) : n.call L c = (n, none) := by
  refine call_of_not_may (Bool.eq_false_iff.2 fun hmay => ?_)
  rw [(NoiseIK.may_iff.1 hmay).2.1] at h
  cases h

lemma run_of_corrupt (h : n.corrupt = true) (later : List Call) : run (step L) n later = n := by
  induction later with
  | nil => rfl
  | cons c later ih =>
    have hstep : n.step L c = n := congrArg Prod.fst (call_of_corrupt h c)
    rw [run_cons, hstep, ih]

/-- **The failure of a handshake is final**, for every object and every sequence of calls.

**Proof sketch.** Every early return of a part of a call leaves the handshake corrupt, which lets no
call in, and the keys are set only where the second message is counted. -/
theorem failureFinal (L : Sodium) (setup : Setup) (cs : List Call) : FailureFinal L setup cs := by
  have hprogress := progress_run (L := L) cs (progress_create L setup)
  rw [Nat.zero_add] at hprogress
  refine ⟨fun c hrefused => ?_, fun msg hturn hnone => ?_, fun hcorrupt later => ?_, hprogress.complete⟩
  · generalize run (step L) (setup.create L) cs = n at *
    refine call_of_not_may (Bool.eq_false_iff.2 fun hmay => ?_)
    obtain hturn | hcomplete := hrefused
    · exact hturn (hprogress.may_iff.1 hmay).1
    · rw [(NoiseIK.may_iff.1 hmay).1] at hcomplete
      cases hcomplete
  · generalize run (step L) (setup.create L) cs = n at *
    by_cases hcorrupt : n.corrupt = true
    · have hrecv : n.recv L msg = (n, none) := call_of_corrupt hcorrupt (.recv msg)
      rw [hrecv]
      exact hcorrupt
    · exact corrupt_of_failed (hprogress.may_iff.2 ⟨hturn, Bool.eq_false_iff.2 hcorrupt⟩) hnone
  · rw [run_append, run_of_corrupt hcorrupt]
    exact ⟨fun c => congrArg Prod.snd (call_of_corrupt hcorrupt c), hprogress.corrupt hcorrupt,
      hprogress.keyless (hprogress.corrupt hcorrupt)⟩

end NoiseIK

end HyperDHT.Noise
