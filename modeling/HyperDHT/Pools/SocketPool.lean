import HyperDHT.Compact.Ipv4
import HyperDHT.Lib.Runs
import HyperDHT.Pools.Keys

/-!
# The pool of sockets

`SocketPool` and `SocketRef`: sockets with a count of their users, which are closed when the count is zero and freed when
the close completes; and the routes, which keep pointers to sockets by the key of a peer.

## Main definitions

* `Pools.SocketRef`, `SocketRoute`, `SocketPool` — a reference, a route, and the pool.
* `SocketPool.active`, `inactive`, `release`, `onLingerTimeout`, `onSocketClose`, `acquire`, `destroy`, `addRoute`,
  `removeRoute` — the methods and the callbacks.
* `Pools.socketStep` — the pool as a machine.
* `Pools.SameSockets` — what the methods of a reference leave as it is.

## Main results

* `Pools.sound_socketStep` — every step keeps that a socket is closed once, when nobody uses it or when the pool is
  destroyed, and that what is in `sockets_` is not freed.

## Design

A pointer to a reference, or to its socket, is the number of references made before it: a pointer is not that of a later
reference, even if the allocator uses the address again. The methods of a reference that was freed are not called. A
socket's close completes at any later time, once. The binding of a socket, its messages and the memory of a timer
are left out.
-/

set_option autoImplicit false

namespace HyperDHT.Pools

open Compact

/-! ## The references -/

/-- A reference to a socket. -/
structure SocketRef where
  refs : ℤ := 1
  released : Bool := false
  closed : Bool := false
  wasBusy : Bool := false
  reusable : Bool := false
  /-- `linger_timer_` is set. -/
  lingerTimer : Bool := false
  /-- `socket_.data` is set. -/
  hasData : Bool := true
  /-- The reference was deleted. -/
  freed : Bool := false
  deriving DecidableEq

/-- A pointer to a socket: of a reference of the pool, or another one. -/
inductive SocketPtr where
  | pooled (n : ℕ)
  | other (n : ℕ)
  deriving DecidableEq

/-- The route of a peer. -/
structure SocketRoute where
  socket : SocketPtr
  address : Ipv4Address

/-- A call of `udx_socket_close`: of which socket, with which count of users, and whether `destroy` makes it. -/
structure Closing where
  socket : ℕ
  refs : ℤ
  byDestroy : Bool
  deriving DecidableEq

/-- The pool: the references made so far, in order; the members `sockets_`, `lingering_` and `routes_`; the sockets
whose close has not completed; and the calls of `udx_socket_close`. -/
structure SocketPool where
  made : List SocketRef := []
  sockets : List ℕ := []
  lingering : List ℕ := []
  routes : AList fun _ : List Char => SocketRoute := ∅
  closing : List ℕ := []
  closings : List Closing := []

/-- The limit of `acquire`. -/
def maxPoolSockets : ℕ := 512

namespace SocketPool

/-- A reference. -/
def ref (p : SocketPool) (n : ℕ) : SocketRef := p.made.getD n {}

/-- Change a reference. -/
def modifyRef (p : SocketPool) (n : ℕ) (f : SocketRef → SocketRef) : SocketPool :=
  { p with made := p.made.modify n f }

/-- `udx_socket_close`. -/
def udxSocketClose (p : SocketPool) (n : ℕ) (byDestroy : Bool) : SocketPool :=
  { p with
    closing := p.closing ++ [n]
    closings := p.closings ++ [⟨n, (p.ref n).refs, byDestroy⟩] }

/-- `SocketRef::unlinger`. -/
def unlinger (p : SocketPool) (n : ℕ) : SocketPool :=
  if (p.ref n).lingerTimer then
    { p.modifyRef n fun r => { r with lingerTimer := false } with
      lingering := p.lingering.filter fun m => m ≠ n }
  else p

/-- `SocketRef::do_close`. -/
def doClose (p : SocketPool) (n : ℕ) : SocketPool :=
  if (p.ref n).reusable && (p.ref n).wasBusy then
    { (p.unlinger n).modifyRef n fun r => { r with wasBusy := false, lingerTimer := true } with
      lingering := (p.unlinger n).lingering ++ [n] }
  else ((p.unlinger n).modifyRef n fun r => { r with closed := true }).udxSocketClose n false

/-- `SocketRef::close_maybe`. -/
def closeMaybe (p : SocketPool) (n : ℕ) : SocketPool :=
  if (p.ref n).refs = 0 ∧ (p.ref n).closed = false ∧ (p.ref n).lingerTimer = false then p.doClose n else p

/-- `SocketRef::active`. -/
def active (p : SocketPool) (n : ℕ) : SocketPool :=
  (p.modifyRef n fun r => { r with refs := r.refs + 1 }).unlinger n

/-- `SocketRef::inactive`. -/
def inactive (p : SocketPool) (n : ℕ) : SocketPool :=
  (p.modifyRef n fun r => { r with refs := r.refs - 1 }).closeMaybe n

/-- `SocketRef::release`. -/
def release (p : SocketPool) (n : ℕ) : SocketPool :=
  if (p.ref n).released then p
  else (p.modifyRef n fun r => { r with released := true, refs := r.refs - 1 }).closeMaybe n

/-- `on_linger_timeout`, if the timer runs. -/
def onLingerTimeout (p : SocketPool) (n : ℕ) : SocketPool :=
  if (p.ref n).lingerTimer then (p.unlinger n).closeMaybe n else p

/-! ## The pool -/

/-- `SocketPool::acquire`: the constructor of the reference adds it to the pool. -/
def acquire (p : SocketPool) : SocketPool :=
  if p.sockets.length ≥ maxPoolSockets then p
  else { p with made := p.made ++ [{}], sockets := p.sockets ++ [p.made.length] }

/-- `SocketPool::lookup`. -/
def lookup (p : SocketPool) : SocketPtr → Option ℕ
  | .pooled n => if n ∈ p.sockets then some n else none
  | .other _ => none

/-- `SocketPool::set_reusable`. -/
def setReusable (p : SocketPool) (socket : SocketPtr) (reusable : Bool) : SocketPool :=
  match p.lookup socket with
  | some n => p.modifyRef n fun r => { r with reusable := reusable }
  | none => p

/-- `SocketPool::remove`: the reference is deleted. -/
def remove (p : SocketPool) (n : ℕ) : SocketPool :=
  { p.modifyRef n fun r => { r with freed := true, lingerTimer := false } with
    sockets := p.sockets.filter fun m => m ≠ n
    lingering := p.lingering.filter fun m => m ≠ n }

/-- The close of a socket completes, and `on_socket_close` finds the reference. -/
def completes (p : SocketPool) (n : ℕ) : Bool := n ∈ p.closing && (p.ref n).hasData

/-- The close of a socket completes. -/
def onSocketClose (p : SocketPool) (n : ℕ) : SocketPool :=
  if p.completes n then { p with closing := p.closing.filter fun m => m ≠ n }.remove n
  else { p with closing := p.closing.filter fun m => m ≠ n }

/-- What `destroy` does to a reference. -/
def destroyRef (p : SocketPool) (n : ℕ) : SocketPool :=
  if (p.ref n).closed then p.unlinger n
  else
    ((p.unlinger n).modifyRef n fun r => { r with closed := true, hasData := false }).udxSocketClose n true

/-- `SocketPool::destroy`. -/
def destroy (p : SocketPool) : SocketPool :=
  { p.sockets.foldl destroyRef p with sockets := [], lingering := [] }

/-- `SocketPool::add_route`. -/
def addRoute (p : SocketPool) (publicKey : PublicKey) (socket : SocketPtr) (address : Ipv4Address) :
    SocketPool :=
  { p with routes := p.routes.insert (keyHex publicKey) ⟨socket, address⟩ }.setReusable socket true

/-- `SocketPool::get_route`. -/
def getRoute (p : SocketPool) (publicKey : PublicKey) : Option SocketRoute :=
  p.routes.lookup (keyHex publicKey)

/-- `SocketPool::remove_route`. -/
def removeRoute (p : SocketPool) (publicKey : PublicKey) : SocketPool :=
  { p with routes := p.routes.erase (keyHex publicKey) }

/-- The methods of a reference may be called: it was made, and is not freed. -/
def usable (p : SocketPool) (n : ℕ) : Bool := n < p.made.length && !(p.ref n).freed

end SocketPool

/-- The calls of the methods and the events of the loop. -/
inductive SocketInput where
  | acquire
  | active (n : ℕ)
  | inactive (n : ℕ)
  | release (n : ℕ)
  | lingerTimeout (n : ℕ)
  | socketClose (n : ℕ)
  | setReusable (socket : SocketPtr) (reusable : Bool)
  | addRoute (publicKey : PublicKey) (socket : SocketPtr) (address : Ipv4Address)
  | removeRoute (publicKey : PublicKey)
  | destroy

/-- The pool takes a step. -/
def socketStep (p : SocketPool) : SocketInput → SocketPool
  | .acquire => p.acquire
  | .active n => if p.usable n then p.active n else p
  | .inactive n => if p.usable n then p.inactive n else p
  | .release n => if p.usable n then p.release n else p
  | .lingerTimeout n => if p.usable n then p.onLingerTimeout n else p
  | .socketClose n => p.onSocketClose n
  | .setReusable socket reusable => p.setReusable socket reusable
  | .addRoute publicKey socket address => p.addRoute publicKey socket address
  | .removeRoute publicKey => p.removeRoute publicKey
  | .destroy => p.destroy

/-! ## What the methods of a reference leave as it is -/

/-- The sockets of the pool, the routes, and which references are freed are the same. -/
structure SameSockets (p p' : SocketPool) : Prop where
  sockets : p'.sockets = p.sockets
  routes : p'.routes = p.routes
  length : p'.made.length = p.made.length
  freed : ∀ n, (p'.ref n).freed = (p.ref n).freed

namespace SameSockets

variable {p p' p'' : SocketPool}

lemma refl (p : SocketPool) : SameSockets p p := ⟨rfl, rfl, rfl, fun _ => rfl⟩

lemma trans (h : SameSockets p p') (h' : SameSockets p' p'') : SameSockets p p'' where
  sockets := h'.sockets.trans h.sockets
  routes := h'.routes.trans h.routes
  length := h'.length.trans h.length
  freed n := (h'.freed n).trans (h.freed n)

end SameSockets

namespace SocketPool

variable {p : SocketPool} {n m : ℕ} {f : SocketRef → SocketRef}

lemma ref_modifyRef_ne (p : SocketPool) (h : m ≠ n) (f : SocketRef → SocketRef) :
    (p.modifyRef n f).ref m = p.ref m := by
  simp [ref, modifyRef, List.getD, Ne.symm h]

lemma ref_modifyRef_self (h : n < p.made.length) (f : SocketRef → SocketRef) :
    (p.modifyRef n f).ref n = f (p.ref n) := by
  simp [ref, modifyRef, List.getD, h]

lemma length_modifyRef (p : SocketPool) (n : ℕ) (f : SocketRef → SocketRef) :
    (p.modifyRef n f).made.length = p.made.length := List.length_modify ..

lemma field_modifyRef {γ : Type} (field : SocketRef → γ) (hf : ∀ r, field (f r) = field r)
    (p : SocketPool) (n m : ℕ) : field ((p.modifyRef n f).ref m) = field (p.ref m) := by
  by_cases h : m = n
  · subst h
    by_cases hm : m < p.made.length
    · rw [ref_modifyRef_self hm, hf]
    · simp [ref, modifyRef, List.getD, hm]
  · rw [ref_modifyRef_ne p h]

lemma same_modifyRef (p : SocketPool) (n : ℕ) (hf : ∀ r, (f r).freed = r.freed) :
    SameSockets p (p.modifyRef n f) :=
  ⟨rfl, rfl, length_modifyRef p n f, field_modifyRef _ hf p n⟩

lemma same_unlinger (p : SocketPool) (n : ℕ) : SameSockets p (p.unlinger n) := by
  rw [unlinger]
  split_ifs
  · have h := same_modifyRef (f := fun r => { r with lingerTimer := false }) p n fun _ => rfl
    exact ⟨h.sockets, h.routes, h.length, h.freed⟩
  · exact SameSockets.refl p

lemma same_doClose (p : SocketPool) (n : ℕ) : SameSockets p (p.doClose n) := by
  rw [doClose]
  split_ifs
  · have h := (same_unlinger p n).trans (same_modifyRef
      (f := fun r => { r with wasBusy := false, lingerTimer := true }) (p.unlinger n) n fun _ => rfl)
    exact ⟨h.sockets, h.routes, h.length, h.freed⟩
  · have h := (same_unlinger p n).trans (same_modifyRef
      (f := fun r => { r with closed := true }) (p.unlinger n) n fun _ => rfl)
    exact ⟨h.sockets, h.routes, h.length, h.freed⟩

lemma same_closeMaybe (p : SocketPool) (n : ℕ) : SameSockets p (p.closeMaybe n) := by
  rw [closeMaybe]
  split_ifs
  · exact same_doClose p n
  · exact SameSockets.refl p

lemma same_active (p : SocketPool) (n : ℕ) : SameSockets p (p.active n) := by
  refine SameSockets.trans (same_modifyRef p n ?_) (same_unlinger _ n)
  exact fun _ => rfl

lemma same_inactive (p : SocketPool) (n : ℕ) : SameSockets p (p.inactive n) := by
  refine SameSockets.trans (same_modifyRef p n ?_) (same_closeMaybe _ n)
  exact fun _ => rfl

lemma same_release (p : SocketPool) (n : ℕ) : SameSockets p (p.release n) := by
  rw [release]
  split_ifs
  · exact SameSockets.refl p
  · refine SameSockets.trans (same_modifyRef p n ?_) (same_closeMaybe _ n)
    exact fun _ => rfl

lemma same_onLingerTimeout (p : SocketPool) (n : ℕ) : SameSockets p (p.onLingerTimeout n) := by
  rw [onLingerTimeout]
  split_ifs
  · exact (same_unlinger p n).trans (same_closeMaybe _ n)
  · exact SameSockets.refl p

lemma same_setReusable (p : SocketPool) (socket : SocketPtr) (reusable : Bool) :
    SameSockets p (p.setReusable socket reusable) := by
  rw [setReusable]
  split
  · exact same_modifyRef p _ fun _ => rfl
  · exact SameSockets.refl p

lemma same_destroyRef (p : SocketPool) (n : ℕ) : SameSockets p (p.destroyRef n) := by
  rw [destroyRef]
  split_ifs
  · exact same_unlinger p n
  · have h := (same_unlinger p n).trans (same_modifyRef
      (f := fun r => { r with closed := true, hasData := false }) (p.unlinger n) n fun _ => rfl)
    exact ⟨h.sockets, h.routes, h.length, h.freed⟩

lemma same_foldl_destroyRef (ns : List ℕ) (p : SocketPool) :
    SameSockets p (ns.foldl destroyRef p) := by
  induction ns generalizing p with
  | nil => exact SameSockets.refl p
  | cons n ns ih => exact (same_destroyRef p n).trans (ih _)

end SocketPool

/-! ## Closing once -/

lemma SocketPool.closed_unlinger (p : SocketPool) (n m : ℕ) :
    ((p.unlinger n).ref m).closed = (p.ref m).closed := by
  rw [unlinger]
  split_ifs
  · exact field_modifyRef (f := fun r => { r with lingerTimer := false }) SocketRef.closed
      (fun _ => rfl) p n m
  · rfl

lemma SocketPool.refs_unlinger (p : SocketPool) (n m : ℕ) :
    ((p.unlinger n).ref m).refs = (p.ref m).refs := by
  rw [unlinger]
  split_ifs
  · exact field_modifyRef (f := fun r => { r with lingerTimer := false }) SocketRef.refs
      (fun _ => rfl) p n m
  · rfl

/-- A socket is closed once, when its count is zero or by `destroy`; its reference then says so; and a close that has
not completed is one of a reference. -/
structure ClosedOnce (p : SocketPool) : Prop where
  once : (p.closings.map Closing.socket).Nodup
  due : ∀ c ∈ p.closings, c.refs = 0 ∨ c.byDestroy = true
  closed : ∀ c ∈ p.closings, (p.ref c.socket).closed = true
  closing : ∀ n ∈ p.closing, n < p.made.length

namespace ClosedOnce

variable {p p' : SocketPool} {n : ℕ} {f : SocketRef → SocketRef}

lemma congr (h : ClosedOnce p) (hclosings : p'.closings = p.closings)
    (hclosing : ∀ n ∈ p'.closing, n ∈ p.closing) (hlength : p.made.length ≤ p'.made.length)
    (hclosed : ∀ n, (p.ref n).closed = true → (p'.ref n).closed = true) : ClosedOnce p' where
  once := hclosings ▸ h.once
  due := hclosings ▸ h.due
  closed c hc := hclosed _ (h.closed c (hclosings ▸ hc))
  closing n hn := (h.closing n (hclosing n hn)).trans_le hlength

lemma modifyRef (h : ClosedOnce p) (n : ℕ) (hf : ∀ r, (f r).closed = r.closed) :
    ClosedOnce (p.modifyRef n f) :=
  h.congr rfl (fun _ => id) (SocketPool.length_modifyRef p n f).ge
    fun m hm => (SocketPool.field_modifyRef SocketRef.closed hf p n m).trans hm

lemma unlinger (h : ClosedOnce p) (n : ℕ) : ClosedOnce (p.unlinger n) := by
  rw [SocketPool.unlinger]
  split_ifs
  · have hoff := h.modifyRef (f := fun r => { r with lingerTimer := false }) n fun _ => rfl
    exact hoff.congr rfl (fun _ => id) le_rfl fun _ => id
  · exact h

lemma close (h : ClosedOnce p) (hn : n < p.made.length) (hopen : (p.ref n).closed = false)
    {byDestroy : Bool} (hdue : (p.ref n).refs = 0 ∨ byDestroy = true)
    (hclosed : ∀ r, (f r).closed = true) (hrefs : ∀ r, (f r).refs = r.refs) :
    ClosedOnce ((p.modifyRef n f).udxSocketClose n byDestroy) := by
  have hnew : n ∉ p.closings.map Closing.socket := by
    intro hin
    obtain ⟨c, hc, rfl⟩ := List.mem_map.1 hin
    exact Bool.false_ne_true (hopen.symm.trans (h.closed c hc))
  refine ⟨?_, fun c hc => ?_, fun c hc => ?_, fun m hm => ?_⟩
  · have hsockets : ((p.modifyRef n f).udxSocketClose n byDestroy).closings.map Closing.socket =
        p.closings.map Closing.socket ++ [n] := List.map_append
    rw [hsockets]
    exact h.once.append (List.nodup_singleton n) (by simpa using hnew)
  · rcases List.mem_append.1 hc with hc | hc
    · exact h.due c hc
    · obtain rfl := List.mem_singleton.1 hc
      exact hdue.imp_left fun hzero =>
        (SocketPool.field_modifyRef SocketRef.refs hrefs p n n).trans hzero
  · have hsame : ((p.modifyRef n f).udxSocketClose n byDestroy).ref c.socket =
        (p.modifyRef n f).ref c.socket := rfl
    rw [hsame]
    by_cases hsocket : c.socket = n
    · rw [hsocket, SocketPool.ref_modifyRef_self hn, hclosed]
    · rw [SocketPool.ref_modifyRef_ne p hsocket]
      rcases List.mem_append.1 hc with hc | hc
      · exact h.closed c hc
      · obtain rfl := List.mem_singleton.1 hc
        exact absurd rfl hsocket
  · have hlength := SocketPool.length_modifyRef p n f
    rcases List.mem_append.1 hm with hm | hm
    · exact (h.closing m hm).trans_eq hlength.symm
    · obtain rfl := List.mem_singleton.1 hm
      exact hn.trans_eq hlength.symm

lemma doClose (h : ClosedOnce p) (hn : n < p.made.length) (hopen : (p.ref n).closed = false)
    (hzero : (p.ref n).refs = 0) : ClosedOnce (p.doClose n) := by
  have hlength := (SocketPool.same_unlinger p n).length
  rw [SocketPool.doClose]
  split_ifs
  · have hlinger := (h.unlinger n).modifyRef
      (f := fun r => { r with wasBusy := false, lingerTimer := true }) n fun _ => rfl
    exact hlinger.congr rfl (fun _ => id) le_rfl fun _ => id
  · refine (h.unlinger n).close (hn.trans_eq hlength.symm) ?_ (Or.inl ?_) (fun _ => rfl) fun _ => rfl
    · exact (SocketPool.closed_unlinger p n n).trans hopen
    · exact (SocketPool.refs_unlinger p n n).trans hzero

lemma closeMaybe (h : ClosedOnce p) (hn : n < p.made.length) : ClosedOnce (p.closeMaybe n) := by
  rw [SocketPool.closeMaybe]
  split_ifs with hidle
  · exact h.doClose hn hidle.2.1 hidle.1
  · exact h

lemma active (h : ClosedOnce p) (n : ℕ) : ClosedOnce (p.active n) :=
  (h.modifyRef n (f := fun r => { r with refs := r.refs + 1 }) fun _ => rfl).unlinger n

lemma inactive (h : ClosedOnce p) (hn : n < p.made.length) : ClosedOnce (p.inactive n) :=
  (h.modifyRef n (f := fun r => { r with refs := r.refs - 1 }) fun _ => rfl).closeMaybe
    (hn.trans_eq (SocketPool.length_modifyRef ..).symm)

lemma release (h : ClosedOnce p) (hn : n < p.made.length) : ClosedOnce (p.release n) := by
  rw [SocketPool.release]
  split_ifs
  · exact h
  · exact (h.modifyRef n (f := fun r => { r with released := true, refs := r.refs - 1 })
      fun _ => rfl).closeMaybe (hn.trans_eq (SocketPool.length_modifyRef ..).symm)

lemma onLingerTimeout (h : ClosedOnce p) (hn : n < p.made.length) : ClosedOnce (p.onLingerTimeout n) := by
  rw [SocketPool.onLingerTimeout]
  split_ifs
  · exact (h.unlinger n).closeMaybe (hn.trans_eq (SocketPool.same_unlinger p n).length.symm)
  · exact h

lemma destroyRef (h : ClosedOnce p) (hn : n < p.made.length) : ClosedOnce (p.destroyRef n) := by
  have hlength := (SocketPool.same_unlinger p n).length
  rw [SocketPool.destroyRef]
  split_ifs with hclosed
  · exact h.unlinger n
  · refine (h.unlinger n).close (hn.trans_eq hlength.symm) ?_ (Or.inr rfl) (fun _ => rfl) fun _ => rfl
    exact (SocketPool.closed_unlinger p n n).trans (Bool.eq_false_of_not_eq_true hclosed)

lemma foldl_destroyRef {ns : List ℕ} (h : ClosedOnce p) (hns : ∀ n ∈ ns, n < p.made.length) :
    ClosedOnce (ns.foldl SocketPool.destroyRef p) := by
  induction ns generalizing p with
  | nil => exact h
  | cons n ns ih =>
    refine ih (h.destroyRef (hns n (List.mem_cons_self ..))) fun m hm => ?_
    exact (hns m (List.mem_cons_of_mem _ hm)).trans_eq (SocketPool.same_destroyRef p n).length.symm

lemma setReusable (h : ClosedOnce p) (socket : SocketPtr) (reusable : Bool) :
    ClosedOnce (p.setReusable socket reusable) := by
  rw [SocketPool.setReusable]
  split
  · exact h.modifyRef _ fun _ => rfl
  · exact h

lemma onSocketClose (h : ClosedOnce p) (n : ℕ) : ClosedOnce (p.onSocketClose n) := by
  have hdone : ClosedOnce { p with closing := p.closing.filter fun m => m ≠ n } :=
    h.congr rfl (fun _ hm => (List.mem_filter.1 hm).1) le_rfl fun _ => id
  rw [SocketPool.onSocketClose]
  split_ifs
  · have hfree := hdone.modifyRef (f := fun r => { r with freed := true, lingerTimer := false }) n
      fun _ => rfl
    exact hfree.congr rfl (fun _ => id) le_rfl fun _ => id
  · exact hdone

end ClosedOnce

/-! ## Runs -/

/-- The invariant: besides, what is in `sockets_` was made, and is not freed. -/
structure SoundPool (p : SocketPool) : Prop where
  closedOnce : ClosedOnce p
  live : ∀ n ∈ p.sockets, n < p.made.length ∧ (p.ref n).freed = false

namespace SoundPool

variable {p p' : SocketPool} {n : ℕ}

lemma same (h : SoundPool p) (hclosed : ClosedOnce p') (hsame : SameSockets p p') : SoundPool p' where
  closedOnce := hclosed
  live n hn := by
    rw [hsame.length, hsame.freed]
    exact h.live n (hsame.sockets ▸ hn)

lemma acquire (h : SoundPool p) : SoundPool p.acquire := by
  rw [SocketPool.acquire]
  split_ifs
  · exact h
  · let p' : SocketPool :=
      { p with made := p.made ++ [({} : SocketRef)], sockets := p.sockets ++ [p.made.length] }
    have hold {m : ℕ} (hm : m < p.made.length) : p'.ref m = p.ref m := by
      simp [p', SocketPool.ref, List.getD, List.getElem?_append_left hm]
    have hlength : p'.made.length = p.made.length + 1 := List.length_append
    have hclosed : ClosedOnce p' := by
      refine h.closedOnce.congr rfl (fun _ => id) (by omega) fun m hm => ?_
      by_cases hlt : m < p.made.length
      · rwa [hold hlt]
      · simp [SocketPool.ref, List.getD, Nat.not_lt.1 hlt] at hm
    have hlive : ∀ m ∈ p'.sockets, m < p'.made.length ∧ (p'.ref m).freed = false := by
      intro m hm
      rcases List.mem_append.1 hm with hm | hm
      · have hlive := h.live m hm
        exact ⟨by omega, by rw [hold hlive.1, hlive.2]⟩
      · obtain rfl := List.mem_singleton.1 hm
        exact ⟨by omega, by simp [p', SocketPool.ref]⟩
    exact ⟨hclosed, hlive⟩

lemma onSocketClose (h : SoundPool p) (n : ℕ) : SoundPool (p.onSocketClose n) := by
  refine ⟨h.closedOnce.onSocketClose n, ?_⟩
  rw [SocketPool.onSocketClose]
  split_ifs
  · intro m hm
    obtain ⟨hm, hne⟩ := List.mem_filter.1 hm
    have hne : m ≠ n := of_decide_eq_true hne
    have hlive := h.live m hm
    refine ⟨hlive.1.trans_eq (SocketPool.length_modifyRef ..).symm, ?_⟩
    exact (congrArg SocketRef.freed (SocketPool.ref_modifyRef_ne _ hne _)).trans hlive.2
  · exact h.live

lemma destroy (h : SoundPool p) : SoundPool p.destroy where
  closedOnce := (h.closedOnce.foldl_destroyRef fun n hn => (h.live n hn).1).congr rfl (fun _ => id) le_rfl
    fun _ => id
  live n hn := by cases hn

end SoundPool

/-- **Every step** keeps the invariant. -/
theorem sound_socketStep (p : SocketPool) (i : SocketInput) (h : SoundPool p) :
    SoundPool (socketStep p i) := by
  have hlt {n : ℕ} (hn : p.usable n = true) : n < p.made.length := by
    rw [SocketPool.usable, Bool.and_eq_true, decide_eq_true_iff] at hn
    exact hn.1
  cases i with
  | acquire => exact h.acquire
  | active n =>
    rw [socketStep]
    split_ifs
    · exact h.same (h.closedOnce.active n) (SocketPool.same_active p n)
    · exact h
  | inactive n =>
    rw [socketStep]
    split_ifs with hn
    · exact h.same (h.closedOnce.inactive (hlt hn)) (SocketPool.same_inactive p n)
    · exact h
  | release n =>
    rw [socketStep]
    split_ifs with hn
    · exact h.same (h.closedOnce.release (hlt hn)) (SocketPool.same_release p n)
    · exact h
  | lingerTimeout n =>
    rw [socketStep]
    split_ifs with hn
    · exact h.same (h.closedOnce.onLingerTimeout (hlt hn)) (SocketPool.same_onLingerTimeout p n)
    · exact h
  | socketClose n => exact h.onSocketClose n
  | setReusable socket reusable =>
    exact h.same (h.closedOnce.setReusable socket reusable) (SocketPool.same_setReusable p socket reusable)
  | addRoute publicKey socket address =>
    let p' : SocketPool := { p with routes := p.routes.insert (keyHex publicKey) ⟨socket, address⟩ }
    have hroute : SoundPool p' := ⟨h.closedOnce.congr rfl (fun _ => id) le_rfl fun _ => id, h.live⟩
    exact hroute.same (hroute.closedOnce.setReusable socket true) (SocketPool.same_setReusable p' socket true)
  | removeRoute publicKey =>
    exact ⟨h.closedOnce.congr rfl (fun _ => id) le_rfl fun _ => id, h.live⟩
  | destroy => exact h.destroy

lemma sound_empty : SoundPool {} where
  closedOnce := ⟨List.nodup_nil, by simp, by simp, by simp⟩
  live := by simp

end HyperDHT.Pools
