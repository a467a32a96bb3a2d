import HyperDHT.Handlers.Basic
import HyperDHT.Rpc.Persistent

/-!
# The secrets over a run

The secrets of a node change only when they are exchanged, so after a run they are those of the start,
exchanged as often as the run did. A token is valid until its secret is gone: one exchange makes the
current secret the previous one, the next one drops it.

## Main definitions

* `Handlers.TokenStore.Outlasts` — the exchanges after which a token is still valid.
* `Handlers.RpcHandlers.rotations` — how often a run exchanges the secrets.
* `Handlers.RpcHandlers.Keeps` — the handling of a request keeps the secrets, and a persistent node
  persistent.

## Main results

* `Handlers.RpcHandlers.run_tokens` — the secrets after a run.
* `Handlers.TokenStore.validate_iterate_rotate_iff` — which exchanges a valid token outlasts.
-/

set_option autoImplicit false

namespace HyperDHT.Handlers

open Compact Routing Rpc

namespace TokenStore

variable {env : HandlerEnv} {s : TokenStore} {host : List Char} {token : List.Vector UInt8 32}

/-- A secret that is newer than the exchanges makes the token of the host once more. -/
def Recurs (env : HandlerEnv) (s : TokenStore) (host : List Char) (token : List.Vector UInt8 32)
    (n : ℕ) : Prop :=
  1 ≤ n ∧ token = generateToken env host ((rotate env)^[n] s).current ∨
    2 ≤ n ∧ token = generateToken env host ((rotate env)^[n] s).previous

/-- A token outlasts no exchange of the secrets, or the first one if the current secret has made it;
later ones only if the token recurs. -/
def Outlasts (env : HandlerEnv) (s : TokenStore) (host : List Char) (token : List.Vector UInt8 32)
    (n : ℕ) : Prop :=
  n = 0 ∨ n = 1 ∧ token = s.create env host ∨ s.Recurs env host token n

lemma validate_iff : s.validate env host token = true ↔
    token = generateToken env host s.current ∨ token = generateToken env host s.previous := by
  rw [validate, Bool.or_eq_true, decide_eq_true_iff, decide_eq_true_iff]

/-- **A valid token is valid after exchanges of the secrets** exactly when it outlasts them. -/
theorem validate_iterate_rotate_iff (h : s.validate env host token = true) (n : ℕ) :
    ((rotate env)^[n] s).validate env host token = true ↔ s.Outlasts env host token n := by
  match n with
  | 0 => simp [Outlasts, h]
  | 1 =>
    -- the previous secret is the one that was the current one
    simp [Outlasts, Recurs, validate_iff, create, rotate, or_comm]
  | n + 2 => simp [Outlasts, Recurs, validate_iff]

end TokenStore

namespace RpcHandlers

variable {env : HandlerEnv} {s : RpcHandlers}

/-! ## What the handling of a request keeps -/

/-- The secrets are as they were, and a persistent node still is, under the same id. -/
structure Keeps (s s' : RpcHandlers) : Prop where
  tokens : s'.tokens = s.tokens
  node : RpcNode.Abides s.node s'.node

lemma Keeps.of_eq {s' : RpcHandlers} (htokens : s'.tokens = s.tokens) (hnode : s'.node = s.node) :
    Keeps s s' :=
  ⟨htokens, hnode ▸ .of_eq rfl rfl⟩

lemma Keeps.refl (s : RpcHandlers) : Keeps s s := .of_eq rfl rfl

lemma handleDownHint_keeps (env : HandlerEnv) (s : RpcHandlers) (now : UInt64) (req : Incoming) :
    Keeps s (s.handleDownHint env now req).1 := by
  refine ⟨rfl, ?_⟩
  rcases s.toHintedNode.handleDownHint_cases env.toEnv now req.fromAddr req.value with
    hsame | ⟨bytes, n, -, -, hcheck⟩
  · exact .of_eq (congrArg RpcNode.ephemeral hsame) (congrArg RpcNode.table hsame)
  · have hevolves := HintedNode.checkNode_hinted_evolves s.node (env.blake2b (bytes.take 6))
      (HintedNode.hinted.apply n)
    rw [← hcheck] at hevolves
    exact hevolves.abides

lemma handleInternal_keeps (env : HandlerEnv) (s : RpcHandlers) (now : UInt64) (req : Incoming) :
    Keeps s (s.handleInternal env now req).1 := by
  unfold handleInternal
  split_ifs
  · exact .refl s
  · rw [handlePingNat_fst]
    exact .refl s
  · unfold handleFindNode
    split <;> exact .of_eq rfl rfl
  · exact handleDownHint_keeps env s now req
  · unfold handleDelayedPing
    split
    · dsimp only
      split_ifs <;> exact .of_eq rfl rfl
    · exact .refl s
  · exact .refl s

/-- **The handling of a request** keeps the secrets, and a persistent node persistent. -/
theorem handle_keeps (env : HandlerEnv) (s : RpcHandlers) (now : UInt64) (req : Incoming) :
    Keeps s (s.handle env now req).1 := by
  unfold handle
  split_ifs
  · exact handleInternal_keeps env s now req
  · exact .refl s
  · exact .refl s
  · have hstores := handleStorage_storesOnly env s now req
    exact .of_eq hstores.tokens hstores.node

lemma heard_keeps (env : HandlerEnv) (s : RpcHandlers) (id : Option NodeId) (req : Incoming) :
    Keeps s (s.heard env id req) :=
  ⟨rfl, RpcNode.onRecv_abides env.toEnv s.node req.fromServer req.fromAddr (.request id)⟩

/-! ## Runs -/

/-- The exchange of the secrets. -/
def Input.isRotate : Input → Bool
  | .rotate => true
  | _ => false

/-- How often a run exchanges the secrets. -/
def rotations (is : List Input) : ℕ := is.countP Input.isRotate

lemma step_tokens (env : HandlerEnv) (s : RpcHandlers) (i : Input) :
    (s.step env i).tokens = if i.isRotate then s.tokens.rotate env else s.tokens := by
  cases i with
  | request now id req =>
    rw [step, onRequest]
    split
    · rfl
    · exact (handle_keeps env _ now req).tokens
  | delayedPing k =>
    rw [step, onDelayedPingFire]
    split <;> rfl
  | _ => rfl

/-- **The secrets after a run** are those of the start, exchanged as often as the run did. -/
theorem run_tokens (env : HandlerEnv) (s : RpcHandlers) (is : List Input) :
    (Runs.run (step env) s is).tokens = (TokenStore.rotate env)^[rotations is] s.tokens := by
  induction is generalizing s with
  | nil => rfl
  | cons i is ih =>
    rw [Runs.run_cons, ih, step_tokens, rotations, rotations, List.countP_cons]
    cases i.isRotate with
    | true => rfl
    | false => rfl

lemma step_abides (env : HandlerEnv) (s : RpcHandlers) (i : Input) :
    RpcNode.Abides s.node (s.step env i).node := by
  cases i with
  | request now id req =>
    have hheard := (heard_keeps env s id req).node
    rw [step, onRequest]
    split
    · exact hheard
    · exact hheard.trans (handle_keeps env _ now req).node
  | delayedPing k =>
    rw [step, onDelayedPingFire]
    split <;> exact .of_eq rfl rfl
  | node i => exact RpcNode.step_abides env.toEnv s.node i
  | _ => exact .of_eq rfl rfl

lemma run_abides (env : HandlerEnv) (s : RpcHandlers) (is : List Input) :
    RpcNode.Abides s.node (Runs.run (step env) s is).node :=
  Runs.run_invariant (P := fun t : RpcHandlers => RpcNode.Abides s.node t.node)
    (fun t i h => h.trans (step_abides env t i)) (.of_eq rfl rfl) is

end RpcHandlers

end HyperDHT.Handlers
