import Mathlib.Data.Set.Prod
import Mathlib.Tactic.IntervalCases
import HyperDHT.Handlers.Announcements
import HyperDHT.Handlers.Tokens

/-!
# How long a token is valid

The secrets of a node over its drain ticks. An exchange swaps the two secrets and hashes the one that is
now current, so that two chains of digests take turns: the secret of an epoch is the digest of that of the
epoch before the last. A token is made with the current secret, and checked against the current and the
previous one.

## Main definitions

* `Handlers.TokenClock` — the secrets with the counter of `on_drain_tick`.
* `Handlers.TokenStore.secretAt` — the secrets in the order in which they are current.
* `Handlers.TokenClock.epoch` — the number of exchanges in a run.
* `Handlers.TokenStore.Apart` — no two of the first secrets are the same, and they make different tokens.

## Main results

* `Handlers.TokenStore.iterate_rotate` — the secrets after some exchanges.
* `Handlers.TokenClock.run_tokens` — a run exchanges the secrets once every ten ticks.
* `Handlers.TokenClock.token_window` — a token is valid in its epoch and the next, for its host.
-/

set_option autoImplicit false

namespace HyperDHT.Handlers

open Compact Routing Rpc

def tokenRotateTicks : ℕ := 10

/-- The secrets of a node, with the ticks that are left until they are exchanged. -/
structure TokenClock where
  tokens : TokenStore
  rotateCounter : ℤ := tokenRotateTicks
  closing : Bool := false

namespace TokenStore

/-- The secrets in the order in which they are current; the first one is the previous one of a node that
starts. -/
def secretAt (env : HandlerEnv) (s : TokenStore) : ℕ → List.Vector UInt8 32
  | 0 => s.previous
  | 1 => s.current
  | n + 2 => (env.blake2b (secretAt env s n).toList).bytes

/-- **The secrets after some exchanges.** -/
theorem iterate_rotate (env : HandlerEnv) (s : TokenStore) (n : ℕ) :
    (rotate env)^[n] s = ⟨s.secretAt env (n + 1), s.secretAt env n⟩ := by
  induction n with
  | zero => rfl
  | succ n ih =>
    rw [Function.iterate_succ_apply', ih]
    rfl

/-- The first secrets are different, and for the hosts they make different tokens. -/
structure Apart (env : HandlerEnv) (s : TokenStore) (hosts : Set (List Char)) (n : ℕ) : Prop where
  secrets : Set.InjOn (s.secretAt env) { i | i ≤ n }
  tokens : Set.InjOn (fun p : List.Vector UInt8 32 × List Char => env.keyedHash p.1 p.2)
    ((s.secretAt env '' { i | i ≤ n }) ×ˢ hosts)

lemma Apart.generateToken_inj {env : HandlerEnv} {s : TokenStore} {hosts : Set (List Char)} {n i j : ℕ}
    {host host' : List Char} (h : s.Apart env hosts n) (hi : i ≤ n) (hj : j ≤ n)
    (hhost : host ∈ hosts) (hhost' : host' ∈ hosts) :
    generateToken env host (s.secretAt env i) = generateToken env host' (s.secretAt env j) ↔
      i = j ∧ host = host' := by
  constructor
  · intro heq
    have hpair : (s.secretAt env i, host) = (s.secretAt env j, host') :=
      h.tokens ⟨⟨i, hi, rfl⟩, hhost⟩ ⟨⟨j, hj, rfl⟩, hhost'⟩ heq
    obtain ⟨hsecret, hsame⟩ := Prod.mk.inj hpair
    exact ⟨h.secrets hi hj hsecret, hsame⟩
  · rintro ⟨rfl, rfl⟩
    rfl

lemma Apart.validate_create_iff {env : HandlerEnv} {s : TokenStore} {host host' : List Char} {e e' : ℕ}
    (h : s.Apart env {host, host'} (e' + 1)) (hle : e ≤ e') :
    ((rotate env)^[e'] s).validate env host' (((rotate env)^[e] s).create env host) = true ↔
      host' = host ∧ (e' = e ∨ e' = e + 1) := by
  rw [validate_iff, create, iterate_rotate, iterate_rotate,
    h.generateToken_inj (by omega) (by omega) (by simp) (by simp),
    h.generateToken_inj (by omega) (by omega) (by simp) (by simp)]
  constructor
  · rintro (⟨hcurrent, rfl⟩ | ⟨hprevious, rfl⟩)
    · exact ⟨rfl, .inl (by omega)⟩
    · exact ⟨rfl, .inr (by omega)⟩
  · rintro ⟨rfl, rfl | rfl⟩
    · exact .inl ⟨rfl, rfl⟩
    · exact .inr ⟨rfl, rfl⟩

end TokenStore

namespace TokenClock

/-- A node that starts. -/
def init (tokens : TokenStore) : TokenClock where
  tokens := tokens

/-- What happens to the secrets at a drain tick. -/
def onDrainTick (env : HandlerEnv) (s : TokenClock) : TokenClock :=
  if s.closing then s
  else
    let s := { s with rotateCounter := s.rotateCounter - 1 }
    if s.rotateCounter = 0 then
      { s with rotateCounter := tokenRotateTicks, tokens := s.tokens.rotate env }
    else s

/-- What may happen: a drain tick, or the node closes. -/
inductive Input where
  | drainTick
  | close

def step (env : HandlerEnv) (s : TokenClock) : Input → TokenClock
  | .drainTick => s.onDrainTick env
  | .close => { s with closing := true }

/-- The drain ticks of a run, until the node closes. -/
def ticks : List Input → ℕ
  | [] => 0
  | .drainTick :: is => ticks is + 1
  | .close :: _ => 0

/-- The epoch that a run leads to: one more every ten ticks. -/
def epoch (is : List Input) : ℕ := ticks is / tokenRotateTicks

lemma ticks_le_append (is js : List Input) : ticks is ≤ ticks (is ++ js) := by
  induction is with
  | nil => exact Nat.zero_le _
  | cons i is ih =>
    cases i with
    | drainTick => exact Nat.succ_le_succ ih
    | close => exact Nat.zero_le _

lemma run_closing {env : HandlerEnv} {s : TokenClock} (h : s.closing = true) (is : List Input) :
    (Runs.run (step env) s is).tokens = s.tokens := by
  induction is generalizing s with
  | nil => rfl
  | cons i is ih =>
    cases i with
    | drainTick =>
      have hsame : s.step env .drainTick = s := if_pos h
      rw [Runs.run_cons, hsame]
      exact ih h
    | close => exact ih (s := { s with closing := true }) rfl

lemma run_tokens_of_counter {env : HandlerEnv} {s : TokenClock} {n : ℕ} (hopen : s.closing = false)
    (hcounter : s.rotateCounter = tokenRotateTicks - n) (hn : n < tokenRotateTicks)
    (is : List Input) : (Runs.run (step env) s is).tokens =
      (TokenStore.rotate env)^[(n + ticks is) / tokenRotateTicks] s.tokens := by
  induction is generalizing s n with
  | nil =>
    rw [ticks, Nat.add_zero, Nat.div_eq_of_lt hn]
    rfl
  | cons i is ih =>
    rw [Runs.run_cons]
    cases i with
    | close =>
      rw [run_closing (s := s.step env .close) rfl, ticks, Nat.add_zero, Nat.div_eq_of_lt hn]
      rfl
    | drainTick =>
      have hticks : n + ticks (.drainTick :: is) = n + 1 + ticks is := by
        rw [ticks]
        omega
      rw [hticks, step, onDrainTick, if_neg (by simp [hopen])]
      dsimp only
      split
      next hzero =>
        have hlast : n + 1 = tokenRotateTicks := by omega
        have hrest := @ih { s with
          rotateCounter := tokenRotateTicks, tokens := s.tokens.rotate env } 0 hopen (by simp)
          (by decide)
        have hten : 0 < tokenRotateTicks := by decide
        rw [hlast, Nat.add_div_left _ hten, Function.iterate_succ_apply]
        rw [Nat.zero_add] at hrest
        exact hrest
      next hmore =>
        exact @ih { s with rotateCounter := s.rotateCounter - 1 } (n + 1) hopen
          (by push_cast; omega) (by omega)

/-- **The secrets are exchanged once every ten ticks.** -/
theorem run_tokens (env : HandlerEnv) (s : TokenStore) (is : List Input) :
    (Runs.run (step env) (init s) is).tokens = (TokenStore.rotate env)^[epoch is] s := by
  have hrun := @run_tokens_of_counter env (init s) 0 rfl (by simp [init]) (by decide) is
  rwa [Nat.zero_add] at hrun

/-- **The window of a token**: as far as the secrets of a run are different and make different tokens, a
token that was handed out is valid for its host in its epoch and in the next one, in no later epoch, and
for no other host; and an epoch has ten ticks. -/
theorem token_window (env : HandlerEnv) (s : TokenStore) (before after : List Input)
    (host host' : List Char) (h : s.Apart env {host, host'} (epoch (before ++ after) + 1)) :
    (Runs.run (step env) (init s) before).tokens =
        (TokenStore.rotate env)^[ticks before / tokenRotateTicks] s ∧
      ((Runs.run (step env) (init s) (before ++ after)).tokens.validate env host'
          ((Runs.run (step env) (init s) before).tokens.create env host) = true ↔
        host' = host ∧ (epoch (before ++ after) = epoch before ∨
          epoch (before ++ after) = epoch before + 1)) := by
  refine ⟨run_tokens env s before, ?_⟩
  rw [run_tokens, run_tokens]
  exact h.validate_create_iff (Nat.div_le_div_right (ticks_le_append before after))

/-! ## A token over an exchange -/

/-- The digest counts every byte up by two, and a token begins with the secret and ends with the host. -/
def countingEnv : HandlerEnv where
  toEnv := { RpcNode.crowdedEnv with
    blake2b := fun bytes => ⟨⟨(bytes.map (· + 2) ++ List.replicate 32 0).take 32, by simp⟩⟩ }
  keyedHash := fun secret host =>
    ⟨(secret.toList.take 16 ++ host.map (fun c : Char => UInt8.ofNat c.toNat) ++ List.replicate 16 0).take 32,
      by simp; omega⟩
  verify := fun _ _ _ => true

lemma apart_countingEnv : someTokens.Apart countingEnv {['a'], ['b']} 2 where
  secrets := by
    intro i hi j hj h
    change i ≤ 2 at hi
    change j ≤ 2 at hj
    interval_cases i <;> interval_cases j <;> first | rfl | exact absurd h (by decide)
  tokens := by
    rintro ⟨_, host⟩ ⟨⟨i, hi, rfl⟩, hhost⟩ ⟨_, host'⟩ ⟨⟨j, hj, rfl⟩, hhost'⟩ h
    change i ≤ 2 at hi
    change j ≤ 2 at hj
    simp only [Set.mem_insert_iff, Set.mem_singleton_iff] at hhost hhost'
    rcases hhost with rfl | rfl <;> rcases hhost' with rfl | rfl <;> interval_cases i <;>
      interval_cases j <;> first | rfl | exact absurd h (by decide)

/-- A token is handed out, the secrets are exchanged once, and it is still valid. -/
theorem token_window_once :
    (Runs.run (step countingEnv) (init someTokens)
      (List.replicate 3 .drainTick ++ List.replicate 10 .drainTick)).tokens.validate countingEnv ['a']
        ((Runs.run (step countingEnv) (init someTokens)
          (List.replicate 3 .drainTick)).tokens.create countingEnv ['a']) = true :=
  (token_window countingEnv someTokens (List.replicate 3 .drainTick) (List.replicate 10 .drainTick)
    ['a'] ['a'] (by
      have hepoch : epoch (List.replicate 3 .drainTick ++ List.replicate 10 .drainTick) + 1 = 2 := by
        decide
      rw [hepoch]
      exact ⟨apart_countingEnv.secrets, apart_countingEnv.tokens.mono
        (Set.prod_mono_right (by simp))⟩)).2.2 ⟨rfl, .inr (by decide)⟩

end TokenClock

end HyperDHT.Handlers
