import HyperDHT.Pools.SocketPool

/-!
# The routes of the socket pool

A route keeps the pointer to a socket that a connection was made with. The socket may be closed and freed while the route
stays.

## Main definitions

* `Pools.RoutesLive` — a route to a socket of the pool is one to a socket that is still there, and a socket is closed
  once, when it is due.
* `Pools.KeepsRoutes` — the condition on the steps.

## Main results

* `Pools.noStale_step_iff` — which steps leave a route to a socket that is gone.
* `Pools.routesLive_iff` — the routes are live in every state of exactly the runs whose steps meet the condition.
* `Pools.not_routesLive_releasedRun` — a socket that is released after its route was added.
-/

set_option autoImplicit false

namespace HyperDHT.Pools

/-! ## The claim -/

/-- **The routes are live**: the socket of a route, if the pool made it, is in `sockets_` and not freed; and each
socket is closed at most once, with a count of zero or by `destroy`. -/
structure RoutesLive (p : SocketPool) : Prop where
  live : ∀ hex route n, p.routes.lookup hex = some route → route.socket = .pooled n →
    n < p.made.length → n ∈ p.sockets ∧ (p.ref n).freed = false
  once : (p.closings.map Closing.socket).Nodup
  due : ∀ c ∈ p.closings, c.refs = 0 ∨ c.byDestroy = true

/-- There is a route to a socket. -/
def SocketPool.routesTo (p : SocketPool) (n : ℕ) : Bool :=
  p.routes.entries.any fun e => e.2.socket = .pooled n

/-- The pool made the socket of a pointer, and does not have it any more. -/
def SocketPool.stale (p : SocketPool) : SocketPtr → Bool
  | .pooled n => n < p.made.length && n ∉ p.sockets
  | .other _ => false

/-- No close completes while there is a route to the socket, the pool is not destroyed while there is a route to one
of its sockets, and no route is added to a socket that the pool does not have any more. -/
def KeepsRoutes (p : SocketPool) : SocketInput → Prop
  | .socketClose n => p.completes n = true → p.routesTo n = false
  | .destroy => ∀ n ∈ p.sockets, p.routesTo n = false
  | .addRoute _ socket _ => p.stale socket = false
  | _ => True

instance (p : SocketPool) : (i : SocketInput) → Decidable (KeepsRoutes p i)
  | .socketClose n => inferInstanceAs (Decidable (p.completes n = true → p.routesTo n = false))
  | .destroy => inferInstanceAs (Decidable (∀ n ∈ p.sockets, p.routesTo n = false))
  | .addRoute _ socket _ => inferInstanceAs (Decidable (p.stale socket = false))
  | .acquire => .isTrue trivial
  | .active _ => .isTrue trivial
  | .inactive _ => .isTrue trivial
  | .release _ => .isTrue trivial
  | .lingerTimeout _ => .isTrue trivial
  | .setReusable _ _ => .isTrue trivial
  | .removeRoute _ => .isTrue trivial

/-! ## Stale routes -/

/-- No route is to a socket that is gone. -/
def NoStale (p : SocketPool) : Prop :=
  ∀ hex route, p.routes.lookup hex = some route → p.stale route.socket = false

section Stale

variable {p p' : SocketPool} {n : ℕ}

lemma routesTo_eq_true_iff : p.routesTo n = true ↔
    ∃ hex route, p.routes.lookup hex = some route ∧ route.socket = .pooled n := by
  rw [SocketPool.routesTo, List.any_eq_true]
  constructor
  · rintro ⟨⟨hex, route⟩, he, hsocket⟩
    exact ⟨hex, route, AList.mem_lookup_iff.2 he, of_decide_eq_true hsocket⟩
  · rintro ⟨hex, route, hroute, hsocket⟩
    exact ⟨⟨hex, route⟩, AList.mem_lookup_iff.1 hroute, decide_eq_true hsocket⟩

lemma routesTo_eq_false_iff : p.routesTo n = false ↔
    ∀ hex route, p.routes.lookup hex = some route → route.socket ≠ .pooled n := by
  rw [← Bool.not_eq_true, routesTo_eq_true_iff]
  exact ⟨fun h hex route hroute hsocket => h ⟨hex, route, hroute, hsocket⟩,
    fun h ⟨hex, route, hroute, hsocket⟩ => h hex route hroute hsocket⟩

lemma stale_pooled : p.stale (.pooled n) = false ↔ (n < p.made.length → n ∈ p.sockets) := by
  rw [SocketPool.stale, ← Bool.not_eq_true, Bool.and_eq_true, decide_eq_true_iff, decide_eq_true_iff,
    not_and, not_not]

lemma SoundPool.routesLive_iff_noStale (h : SoundPool p) : RoutesLive p ↔ NoStale p := by
  constructor
  · intro hlive hex route hroute
    cases hsocket : route.socket with
    | pooled n => exact stale_pooled.2 fun hn => (hlive.live hex route n hroute hsocket hn).1
    | other n => rfl
  · intro hnone
    refine ⟨fun hex route n hroute hsocket hn => ?_, h.closedOnce.once, h.closedOnce.due⟩
    have hstale := hnone hex route hroute
    rw [hsocket] at hstale
    have hin := stale_pooled.1 hstale hn
    exact ⟨hin, (h.live n hin).2⟩

lemma SameSockets.stale_eq (h : SameSockets p p') (socket : SocketPtr) :
    p'.stale socket = p.stale socket := by
  cases socket with
  | pooled n => rw [SocketPool.stale, SocketPool.stale, h.length, h.sockets]
  | other n => rfl

lemma NoStale.same (h : NoStale p) (hsame : SameSockets p p') : NoStale p' := by
  intro hex route hroute
  rw [hsame.stale_eq]
  exact h hex route (hsame.routes ▸ hroute)

lemma NoStale.acquire (h : NoStale p) : NoStale p.acquire := by
  rw [SocketPool.acquire]
  split_ifs
  · exact h
  · intro hex route hroute
    have hold := h hex route hroute
    cases hsocket : route.socket with
    | other n => rfl
    | pooled n =>
      rw [hsocket, stale_pooled] at hold
      rw [stale_pooled]
      intro hn
      rw [List.length_append, List.length_singleton, Nat.lt_succ_iff_lt_or_eq] at hn
      exact List.mem_append.2 (hn.imp hold List.mem_singleton.2)

lemma NoStale.addRoute_iff (h : NoStale p) (publicKey : PublicKey) (socket : SocketPtr)
    (address : Compact.Ipv4Address) :
    NoStale (p.addRoute publicKey socket address) ↔ p.stale socket = false := by
  have hsame := SocketPool.same_setReusable
    { p with routes := p.routes.insert (keyHex publicKey) ⟨socket, address⟩ } socket true
  have hroutes : (p.addRoute publicKey socket address).routes =
      p.routes.insert (keyHex publicKey) ⟨socket, address⟩ := hsame.routes
  have hstale (s : SocketPtr) : (p.addRoute publicKey socket address).stale s = p.stale s :=
    hsame.stale_eq s
  constructor
  · intro hnone
    have hroute := hnone (keyHex publicKey) ⟨socket, address⟩ (by rw [hroutes, AList.lookup_insert])
    rwa [hstale] at hroute
  · intro hsocket hex route hroute
    rw [hstale]
    by_cases hhex : hex = keyHex publicKey
    · rw [hhex, hroutes, AList.lookup_insert, Option.some.injEq] at hroute
      rwa [← hroute]
    · rw [hroutes, AList.lookup_insert_ne hhex] at hroute
      exact h hex route hroute

lemma NoStale.removeRoute (h : NoStale p) (publicKey : PublicKey) : NoStale (p.removeRoute publicKey) := by
  intro hex route hroute
  by_cases hhex : hex = keyHex publicKey
  · rw [hhex, SocketPool.removeRoute, AList.lookup_erase] at hroute
    cases hroute
  · rw [SocketPool.removeRoute, AList.lookup_erase_ne hhex] at hroute
    exact h hex route hroute

lemma NoStale.leave_iff (h : NoStale p) (p' : SocketPool) (gone : List ℕ)
    (hroutes : p'.routes = p.routes) (hlength : p'.made.length = p.made.length)
    (hgone : ∀ m ∈ gone, m < p.made.length)
    (hsockets : ∀ m, m ∈ p'.sockets ↔ m ∈ p.sockets ∧ m ∉ gone) :
    NoStale p' ↔ ∀ m ∈ gone, p.routesTo m = false := by
  constructor
  · intro hnone m hm
    rw [routesTo_eq_false_iff]
    intro hex route hroute hsocket
    have hstale := hnone hex route (hroutes ▸ hroute)
    rw [hsocket, stale_pooled, hlength, hsockets] at hstale
    exact (hstale (hgone m hm)).2 hm
  · intro hnone hex route hroute
    rw [hroutes] at hroute
    have hold := h hex route hroute
    cases hsocket : route.socket with
    | other m => rfl
    | pooled m =>
      rw [hsocket, stale_pooled] at hold
      rw [stale_pooled, hlength, hsockets]
      refine fun hm => ⟨hold hm, fun hin => ?_⟩
      exact routesTo_eq_false_iff.1 (hnone m hin) hex route hroute hsocket

lemma NoStale.onSocketClose_iff (h : NoStale p) (hclosed : ClosedOnce p) (n : ℕ) :
    NoStale (p.onSocketClose n) ↔ (p.completes n = true → p.routesTo n = false) := by
  rw [SocketPool.onSocketClose]
  split_ifs with hcompletes
  · have hn : n < p.made.length := by
      rw [SocketPool.completes, Bool.and_eq_true, decide_eq_true_iff] at hcompletes
      exact hclosed.closing n hcompletes.1
    let p' := { p with closing := p.closing.filter fun m => m ≠ n }.remove n
    have hsockets (m : ℕ) : m ∈ p'.sockets ↔ m ∈ p.sockets ∧ m ∉ [n] :=
      List.mem_filter.trans (and_congr_right fun _ => by simp)
    have hleave := h.leave_iff p' [n] rfl (SocketPool.length_modifyRef ..) (by simpa using hn) hsockets
    exact hleave.trans (by simp [hcompletes])
  · have hsame : SameSockets p { p with closing := p.closing.filter fun m => m ≠ n } :=
      ⟨rfl, rfl, rfl, fun _ => rfl⟩
    exact iff_of_true (h.same hsame) fun hc => absurd hc hcompletes

lemma NoStale.destroy_iff (h : NoStale p) (hlive : ∀ n ∈ p.sockets, n < p.made.length) :
    NoStale p.destroy ↔ ∀ n ∈ p.sockets, p.routesTo n = false := by
  have hsame := SocketPool.same_foldl_destroyRef p.sockets p
  refine h.leave_iff p.destroy p.sockets hsame.routes hsame.length hlive fun m => ?_
  simp [SocketPool.destroy]

end Stale

/-- **A step** leaves no stale route exactly if it meets the condition. -/
theorem noStale_step_iff (p : SocketPool) (i : SocketInput) (h : SoundPool p) (hnone : NoStale p) :
    NoStale (socketStep p i) ↔ KeepsRoutes p i := by
  have husable {n : ℕ} {p' : SocketPool} (hsame : SameSockets p p') :
      NoStale (if p.usable n then p' else p) := by
    split_ifs
    · exact hnone.same hsame
    · exact hnone
  cases i with
  | acquire => exact iff_of_true hnone.acquire trivial
  | active n => exact iff_of_true (husable (SocketPool.same_active p n)) trivial
  | inactive n => exact iff_of_true (husable (SocketPool.same_inactive p n)) trivial
  | release n => exact iff_of_true (husable (SocketPool.same_release p n)) trivial
  | lingerTimeout n => exact iff_of_true (husable (SocketPool.same_onLingerTimeout p n)) trivial
  | socketClose n => exact hnone.onSocketClose_iff h.closedOnce n
  | setReusable socket reusable =>
    exact iff_of_true (hnone.same (SocketPool.same_setReusable p socket reusable)) trivial
  | addRoute publicKey socket address => exact hnone.addRoute_iff publicKey socket address
  | removeRoute publicKey => exact iff_of_true (hnone.removeRoute publicKey) trivial
  | destroy => exact hnone.destroy_iff fun n hn => (h.live n hn).1

/-! ## Runs -/

/-- **The routes are live** in every state of exactly the runs whose steps all meet the condition. -/
theorem routesLive_iff (is : List SocketInput) :
    Runs.EveryState socketStep RoutesLive {} is ↔ Runs.EveryStep socketStep KeepsRoutes {} is := by
  have hstep (p : SocketPool) (i : SocketInput) (h : SoundPool p) (hlive : RoutesLive p) :
      RoutesLive (socketStep p i) ↔ KeepsRoutes p i :=
    (sound_socketStep p i h).routesLive_iff_noStale.trans
      (noStale_step_iff p i h (h.routesLive_iff_noStale.1 hlive))
  exact Runs.everyState_iff_everyStep sound_socketStep hstep sound_empty
    (sound_empty.routesLive_iff_noStale.2 fun hex route hroute => by cases hroute)

def releasedRun : List SocketInput :=
  [.acquire, .addRoute (List.Vector.replicate 32 0xAA) (.pooled 0) (.ofOctets 1 2 3 4 5000),
    .release 0, .socketClose 0]

/-- The route points to the freed socket. -/
theorem not_routesLive_releasedRun : ¬ Runs.EveryState socketStep RoutesLive {} releasedRun := by
  intro h
  have hlast : RoutesLive (Runs.run socketStep {} releasedRun) := h.run
  have hroute : (Runs.run socketStep {} releasedRun).routes.lookup
      (keyHex (List.Vector.replicate 32 0xAA)) = some ⟨.pooled 0, .ofOctets 1 2 3 4 5000⟩ := rfl
  have hin := (hlast.live _ _ 0 hroute rfl (by decide)).1
  exact absurd hin (by decide)

end HyperDHT.Pools
