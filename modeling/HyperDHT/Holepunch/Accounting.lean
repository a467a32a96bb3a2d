import HyperDHT.Holepunch.Strategies

/-!
# The account of random punches

The punchers of a node share their counters. One that begins a random strategy adds itself to the random punches,
and one that connects or is destroyed takes itself off again. But one that is stopped, closed or destructed stays
on the account, and so does one that begins a random strategy when it is already destroyed.

## Main definitions

* `Holepuncher.balance` — the random punches without the puncher itself.
* `Holepuncher.startsRandom` — a punch begins a random strategy.
* `SharedPuncher`, `PunchSystem` — punchers that share their counters.
* `PunchSystem.step` — what may happen to one of them.
* `PunchSystem.Accounted` — the random punches that are counted are the punchers at work.
* `PunchSystem.Leaves` — a puncher leaves without taking itself off the account.

## Main results

* `Holepuncher.settles_act` — a call keeps the balance, and an end of the puncher takes it off.
* `PunchSystem.sound_step` — the counter counts the punchers that are on the account.
* `PunchSystem.accounted_step_iff` — exactly the steps with which no puncher leaves keep the account.
* `PunchSystem.accounted_throughout_iff` — the account is right throughout exactly the runs without such a step.
* `PunchSystem.not_accounted_leakRun` — a puncher that is destructed while it punches.

## Design

What the counters are at the time of a call is written into the field `stats` of the puncher that is called, and
read from it afterwards. A puncher that is destructed keeps its place in the list, so that the others keep theirs.
A closed puncher has no timer any more; the code then starts a timer that is not there, which the model leaves out.
-/

set_option autoImplicit false

namespace HyperDHT

open Compact Runs

/-! ## The account of a puncher -/

namespace Holepuncher

variable {p q r : Holepuncher} {tick : Tick} {now : ℕ}

/-- One if the puncher is on the account. -/
def share (p : Holepuncher) : ℤ := if p.randomized then 1 else 0

/-- The random punches of the counters, without the puncher itself. -/
def balance (p : Holepuncher) : Option ℤ := p.stats.map fun stats => stats.randomPunches - p.share

/-- A punch begins a random strategy: one of the firewalls is random, and nothing forbids it. -/
def startsRandom (p : Holepuncher) (now : ℕ) : Bool :=
  !p.connected && !p.throttled now &&
    (p.localFirewall != firewallRandom && p.remoteFirewall == firewallRandom ||
      p.localFirewall == firewallRandom && p.remoteFirewall != firewallRandom &&
        p.verifiedRemote.isSome && p.hasPool)

/-- The second puncher is on the account and done as the first one is. -/
structure Keeps (p q : Holepuncher) : Prop where
  stats : q.balance = p.balance
  randomized : q.randomized = p.randomized
  isDone : q.isDone = p.isDone

/-- The second puncher is what the first one was, or it is done and off the account. -/
structure Settles (p q : Holepuncher) : Prop where
  balance : q.balance = p.balance
  kept : q.randomized = p.randomized ∧ q.isDone = p.isDone ∨ q.randomized = false ∧ q.isDone = true

lemma Keeps.settles (h : Keeps p q) : Settles p q := ⟨h.stats, .inl ⟨h.randomized, h.isDone⟩⟩

lemma Keeps.refl (p : Holepuncher) : Keeps p p := ⟨rfl, rfl, rfl⟩

lemma Settles.trans (h : Settles p q) (h' : Settles q r) : Settles p r := by
  refine ⟨h'.balance.trans h.balance, ?_⟩
  rcases h'.kept with ⟨hrandomized, hdone⟩ | hended
  · rw [hrandomized, hdone]
    exact h.kept
  · exact .inr hended

lemma keeps_of_eq (hstats : q.stats = p.stats) (hrandomized : q.randomized = p.randomized)
    (hdone : q.isDone = p.isDone) : Keeps p q := by
  refine ⟨?_, hrandomized, hdone⟩
  unfold Holepuncher.balance share
  rw [hstats, hrandomized]

lemma settles_of_eq (hstats : q.stats = p.stats) (hrandomized : q.randomized = p.randomized)
    (hdone : q.isDone = p.isDone) : Settles p q :=
  (keeps_of_eq hstats hrandomized hdone).settles

lemma Works.keeps (h : Works p q) : Keeps p q := keeps_of_eq h.stats h.randomized h.isDone

lemma balance_decrementRandomized (p : Holepuncher) : (p.decrementRandomized now).balance = p.balance := by
  unfold decrementRandomized
  split
  next h => cases hstats : p.stats <;> simp [Holepuncher.balance, share, h, hstats]
  · rfl

lemma randomized_decrementRandomized (p : Holepuncher) :
    (p.decrementRandomized now).randomized = false := by
  unfold decrementRandomized
  split
  · rfl
  next h => exact Bool.eq_false_of_not_eq_true h

lemma isDone_decrementRandomized (p : Holepuncher) : (p.decrementRandomized now).isDone = p.isDone := by
  unfold decrementRandomized
  split <;> rfl

/-- The second puncher is the first one, put on the account. -/
structure Starts (p q : Holepuncher) : Prop where
  balance : q.balance = p.balance
  randomized : q.randomized = true
  isDone : q.isDone = p.isDone

lemma Starts.keeps (h : Starts p q) (h' : Keeps q r) : Starts p r :=
  ⟨h'.stats.trans h.balance, h'.randomized.trans h.randomized, h'.isDone.trans h.isDone⟩

lemma starts_countRandom (p : Holepuncher) : Starts p p.countRandom.incrementRandomized := by
  unfold incrementRandomized countRandom
  split
  next h =>
    refine ⟨?_, h, rfl⟩
    cases hstats : p.stats <;> simp [Holepuncher.balance, share, hstats]
  next h =>
    have hoff : p.randomized = false := Bool.eq_false_of_not_eq_true h
    refine ⟨?_, rfl, rfl⟩
    cases hstats : p.stats <;> simp [Holepuncher.balance, share, hoff, hstats]

/-- **Destroying a puncher** takes it off the account, unless it is connected. -/
lemma settles_destroy (p : Holepuncher) : Settles p (p.destroy now).1 := by
  unfold destroy
  split
  · exact (Keeps.refl p).settles
  · dsimp only
    split
    next hconnected =>
      have hdone : p.isDone = true := by rw [Holepuncher.isDone, hconnected, Bool.or_true]
      exact settles_of_eq rfl rfl hdone.symm
    · refine ⟨?_, .inr ⟨randomized_decrementRandomized _, ?_⟩⟩
      · exact balance_decrementRandomized { p with
          destroyed := true, punching := false, holders := [], timer := none }
      · exact isDone_decrementRandomized { p with
          destroyed := true, punching := false, holders := [], timer := none }

/-- **A strategy** leaves the account alone, unless it gives the puncher up. -/
lemma WorksOut.settles (h : WorksOut p now q) : Settles p q := by
  obtain ⟨r, hr, rfl | rfl⟩ := h
  · exact hr.keeps.settles
  · exact hr.keeps.settles.trans (settles_destroy r)

/-- **A connection** takes the puncher off the account. -/
lemma settles_onMessage (p : Holepuncher) (source : Ipv4Address) (socket : Option ℕ)
    (ref : Option SocketRef) : Settles p (p.onMessage now source socket ref).1 := by
  unfold onMessage
  split
  · exact (Keeps.refl p).settles
  split
  · exact (works_sendProbe p source).keeps.settles
  · have hfound (holders : List SocketRef) : Settles p ({ p with
        connected := true, punching := false, timer := none, holders := holders }.decrementRandomized
          now) := by
      refine ⟨?_, .inr ⟨randomized_decrementRandomized _, ?_⟩⟩
      · rw [balance_decrementRandomized]
        rfl
      · rw [isDone_decrementRandomized]
        exact Bool.or_true _
    exact Settles.trans (hfound _) (settles_of_eq rfl rfl rfl)

lemma settles_punch (h : p.startsRandom tick.now = false) : Settles p (p.punch tick).1 := by
  revert h
  unfold punch startsRandom
  split_ifs with hconnected hconsistent hrandom hthrottled hbirthday hpool hthrottled
  · exact fun _ => (Keeps.refl p).settles
  · intro _
    have hbegun : Keeps p { p.countConsistent with punching := true, punchRound := 0 } := by
      refine ⟨?_, rfl, rfl⟩
      cases hstats : p.stats <;> simp [Holepuncher.balance, share, countConsistent, hstats]
    exact hbegun.settles.trans (worksOut_consistentProbe _).settles
  · exact fun _ => (Keeps.refl p).settles
  · simp [hconnected, hrandom, hthrottled]
  · exact fun _ => (Keeps.refl p).settles
  · exact fun _ => (Keeps.refl p).settles
  · have hready : p.verifiedRemote.isSome = true ∧ p.hasPool = true := by
      simpa [Option.isSome_iff_ne_none] using hpool
    simp [hconnected, hbirthday, hthrottled, hready]
  · exact fun _ => (Keeps.refl p).settles

/-- **A punch that begins a random strategy** puts the puncher on the account, even if it is destroyed. -/
lemma starts_punch (h : p.startsRandom tick.now = true) : Starts p (p.punch tick).1 := by
  revert h
  unfold punch startsRandom
  split_ifs with hconnected hconsistent hrandom hthrottled hbirthday hpool hthrottled
  · simp [hconnected]
  · simp [hconsistent]
  · simp [hthrottled]
  · intro _
    have hbegun : Starts p { p.countRandom.incrementRandomized with
        punching := true, randomProbesLeft := randomProbesCount } :=
      (starts_countRandom p).keeps (keeps_of_eq rfl rfl rfl)
    exact hbegun.keeps (works_randomProbes (show randomProbesCount ≠ 0 by decide)).keeps
  · simp only [Bool.or_eq_true, Option.isNone_iff_eq_none, Bool.not_eq_true'] at hpool
    rcases hpool with hnone | hnot
    · simp [hbirthday, hnone]
    · simp [hbirthday, hnot]
  · simp [hthrottled]
  · intro _
    have hbegun : Starts p { p.countRandom.incrementRandomized with punching := true } :=
      (starts_countRandom p).keeps (keeps_of_eq rfl rfl rfl)
    exact hbegun.keeps (works_openBirthdaySockets _).keeps
  · simp only [Bool.and_eq_true, Bool.or_eq_true, bne_iff_ne, beq_iff_eq]
    tauto

/-- A call begins a random strategy. -/
def Call.starts (c : Call) (p : Holepuncher) : Bool :=
  match c with
  | .punch tick => p.startsRandom tick.now
  | _ => false

/-- **A call that begins no random strategy** keeps the balance, and an end of the puncher takes it off the
account. -/
theorem settles_act {c : Call} (h : c.starts p = false) (hcount : ∀ stats, c ≠ .count stats) :
    Settles p (p.act c) := by
  cases c with
  | update u => cases u <;> exact settles_of_eq rfl rfl rfl
  | punch tick => exact settles_punch h
  | sendProbe addr => exact (works_sendProbe p addr).keeps.settles
  | openSession addr => exact (works_sendTtl p addr _).keeps.settles
  | onMessage now source socket ref => exact settles_onMessage p source socket ref
  | destroy now => exact settles_destroy p
  | analyze allowReopen =>
    simp only [act, analyze]
    split_ifs <;> exact settles_of_eq rfl rfl rfl
  | onPunchTimer tick =>
    simp only [act]
    split
    · exact (Keeps.refl p).settles
    · exact (worksOut_onPunchTimer p).settles
  | setSendFn there => exact settles_of_eq rfl rfl rfl
  | setSendTtlFn there => exact settles_of_eq rfl rfl rfl
  | onConnect there => exact settles_of_eq rfl rfl rfl
  | onAbort there => exact settles_of_eq rfl rfl rfl
  | stop => exact settles_of_eq rfl rfl rfl
  | count stats => exact absurd rfl (hcount stats)

/-- **What a call does to the account**: it puts the puncher on it if it begins a random strategy, and takes it
off it at most, if not. -/
theorem act_cases (p : Holepuncher) {c : Call} (hcount : ∀ stats, c ≠ .count stats) :
    c.starts p = true ∧ Starts p (p.act c) ∨ c.starts p = false ∧ Settles p (p.act c) := by
  cases hstarts : c.starts p with
  | false => exact .inr ⟨rfl, settles_act hstarts hcount⟩
  | true =>
    cases c with
    | punch tick => exact .inl ⟨rfl, starts_punch hstarts⟩
    | _ => exact Bool.noConfusion hstarts

end Holepuncher

/-! ## Counting -/

section Counting

variable {α : Type*} {f g : α → Bool} {l : List α}

lemma countP_set_add {j : ℕ} {a : α} (b : α) (h : l[j]? = some a) :
    (l.set j b).countP f + (f a).toNat = l.countP f + (f b).toNat := by
  induction l generalizing j with
  | nil => simp at h
  | cons c l ih =>
    cases j with
    | zero =>
      obtain rfl := Option.some.inj h
      cases hc : f c <;> cases hb : f b <;> simp [hc, hb]
    | succ j =>
      have htail := @ih j h
      rw [List.set_cons_succ, List.countP_cons, List.countP_cons]
      omega

lemma countP_eq_countP_iff (h : ∀ a ∈ l, g a = true → f a = true) :
    l.countP f = l.countP g ↔ ∀ a ∈ l, f a = true → g a = true := by
  induction l with
  | nil => simp
  | cons b l ih =>
    have hrest : ∀ a ∈ l, g a = true → f a = true := fun a ha => h a (by simp [ha])
    have hle : l.countP g ≤ l.countP f := List.countP_mono_left hrest
    rw [List.forall_mem_cons, ← ih hrest, List.countP_cons, List.countP_cons]
    cases hg : g b with
    | true => simp [h b (by simp) hg]
    | false =>
      cases hf : f b with
      | true =>
        simp
        omega
      | false => simp

end Counting

/-! ## Punchers that share their counters -/

/-- A puncher among those that share their counters. `atWork` is what its owner knows of it: it has begun a
random strategy and was not stopped since. -/
structure SharedPuncher where
  puncher : Holepuncher
  atWork : Bool := false
  closed : Bool := false
  gone : Bool := false
  deriving DecidableEq

namespace SharedPuncher

/-- The puncher is at work: it exists, has begun a random strategy, and has neither connected nor ended. -/
def active (e : SharedPuncher) : Bool := e.atWork && !e.closed && !e.gone && !e.puncher.isDone

/-- The puncher is on the account. -/
def onAccount (e : SharedPuncher) : Bool := e.puncher.randomized

/-- The call `c` has made `q` of the puncher. A closed one has no timer, and a stopped one is not at work. -/
def called (e : SharedPuncher) (c : Holepuncher.Call) (starts : Bool) (q : Holepuncher) :
    SharedPuncher :=
  { e with
    puncher := if e.closed then { q with timer := none } else q
    atWork := match c with
      | .stop => false
      | _ => e.atWork || starts }

/-- The puncher is stopped, and its timer is closed. -/
def close (e : SharedPuncher) : SharedPuncher :=
  { e with puncher := e.puncher.stop, atWork := false, closed := true }

/-- The destructor stops the puncher and closes its timer. -/
def destruct (e : SharedPuncher) : SharedPuncher := { e with puncher := e.puncher.stop, gone := true }

variable {e : SharedPuncher} {c : Holepuncher.Call} {starts : Bool} {q : Holepuncher}

@[simp] lemma onAccount_called : (e.called c starts q).onAccount = q.randomized := by
  unfold called onAccount
  split <;> rfl

@[simp] lemma share_called : (e.called c starts q).puncher.share = q.share := by
  unfold called
  dsimp only
  split <;> rfl

lemma active_called : (e.called c starts q).active =
    ((e.called c starts q).atWork && !e.closed && !e.gone && !q.isDone) := by
  unfold active
  congr 2
  unfold called
  dsimp only
  split <;> rfl

lemma active_of_called (h : (e.called c false q).active = true) :
    e.atWork = true ∧ e.closed = false ∧ e.gone = false ∧ q.isDone = false := by
  rw [active_called] at h
  simp only [Bool.and_eq_true, Bool.not_eq_true'] at h
  obtain ⟨⟨⟨hwork, hclosed⟩, hgone⟩, hdone⟩ := h
  refine ⟨?_, hclosed, hgone, hdone⟩
  cases c with
  | stop => exact Bool.noConfusion hwork
  | _ => exact (Bool.or_false _).symm.trans hwork

lemma active_called_of_active (h : e.active = true) (hstop : c ≠ .stop) (hdone : q.isDone = false) :
    (e.called c starts q).active = true := by
  unfold active at h
  simp only [Bool.and_eq_true, Bool.not_eq_true'] at h
  obtain ⟨⟨⟨hwork, hclosed⟩, hgone⟩, -⟩ := h
  have hkept : (e.called c starts q).atWork = true := by
    cases c with
    | stop => exact absurd rfl hstop
    | _ => simp [called, hwork]
  rw [active_called, hkept, hclosed, hgone, hdone]
  rfl

end SharedPuncher

/-- The counters, and all punchers that were made with them. -/
structure PunchSystem where
  stats : PunchStats
  punchers : List SharedPuncher := []
  deriving DecidableEq

namespace PunchSystem

/-- What may happen: a puncher is made, called, closed or destructed, or the owner of the counters sets other
limits. The timer of a puncher fires in a call. -/
inductive Input where
  | construct (isInitiator hasPool : Bool)
  | call (j : ℕ) (c : Holepuncher.Call)
  | close (j : ℕ)
  | destruct (j : ℕ)
  | setLimits (limit : ℤ) (interval : ℕ)

/-- No puncher was made yet. -/
def start (limit : ℤ) (interval : ℕ) : PunchSystem :=
  { stats := { randomPunchLimit := limit, randomPunchInterval := interval } }

/-- The puncher, with what its pointer to the counters leads to. -/
def view (s : PunchSystem) (e : SharedPuncher) : Holepuncher := { e.puncher with stats := some s.stats }

/-- A puncher is called. -/
def serve (s : PunchSystem) (j : ℕ) (e : SharedPuncher) (c : Holepuncher.Call) : PunchSystem :=
  let q := (s.view e).act c
  { stats := q.stats.getD s.stats
    punchers := s.punchers.set j (e.called c (c.starts (s.view e)) q) }

/-- A puncher that is still there ends otherwise than by `destroy()`. -/
def retire (s : PunchSystem) (j : ℕ) (f : SharedPuncher → SharedPuncher) : PunchSystem :=
  match s.punchers[j]? with
  | none => s
  | some e => if e.gone then s else { s with punchers := s.punchers.set j (f e) }

/-- What an input does to the punchers. One that is gone takes no more calls; the counters change through the
punchers only. -/
def step (s : PunchSystem) : Input → PunchSystem
  | .construct isInitiator hasPool =>
    { s with punchers := s.punchers ++ [{ puncher := .create isInitiator hasPool (some s.stats) }] }
  | .call j c =>
    match s.punchers[j]?, c with
    | none, _ => s
    | some _, .count _ => s
    | some e, c => if e.gone then s else s.serve j e c
  | .close j => s.retire j .close
  | .destruct j => s.retire j .destruct
  | .setLimits limit interval =>
    { s with stats := { s.stats with randomPunchLimit := limit, randomPunchInterval := interval } }

/-- **The account is right**: the random punches that are counted are the punchers at work. -/
def Accounted (s : PunchSystem) : Prop :=
  s.stats.randomPunches = s.punchers.countP SharedPuncher.active

/-- A puncher leaves without taking itself off the account: it is stopped, closed or destructed at work, or it
begins to work when it is destroyed or closed. -/
def Leaves (s : PunchSystem) : Input → Prop
  | .call j .stop => ∃ e, s.punchers[j]? = some e ∧ e.active = true
  | .call j (.punch tick) => ∃ e, s.punchers[j]? = some e ∧ e.gone = false ∧
      (s.view e).startsRandom tick.now = true ∧ (e.puncher.destroyed = true ∨ e.closed = true)
  | .close j => ∃ e, s.punchers[j]? = some e ∧ e.active = true
  | .destruct j => ∃ e, s.punchers[j]? = some e ∧ e.active = true
  | _ => False

/-! ## The counter counts the account -/

/-- The counter counts the punchers on the account, and those at work are among them. -/
structure Sound (s : PunchSystem) : Prop where
  counted : s.stats.randomPunches = s.punchers.countP SharedPuncher.onAccount
  active : ∀ e ∈ s.punchers, e.active = true → e.onAccount = true

variable {s t : PunchSystem} {e e' : SharedPuncher} {j : ℕ} {c : Holepuncher.Call}

lemma sound_start (limit : ℤ) (interval : ℕ) : Sound (start limit interval) :=
  ⟨rfl, fun _ h => absurd h List.not_mem_nil⟩

lemma sound_replace (h : Sound s) (he : s.punchers[j]? = some e)
    (hpunchers : t.punchers = s.punchers.set j e')
    (hstats : t.stats.randomPunches - e'.puncher.share = s.stats.randomPunches - e.puncher.share)
    (hactive : e'.active = true → e'.onAccount = true) : Sound t := by
  refine ⟨?_, ?_⟩
  · have hshare (x : SharedPuncher) : x.puncher.share = (x.onAccount.toNat : ℤ) := by
      unfold Holepuncher.share SharedPuncher.onAccount
      cases x.puncher.randomized <;> rfl
    have hcount := @countP_set_add _ SharedPuncher.onAccount _ j e e' he
    rw [hshare, hshare, h.counted] at hstats
    rw [hpunchers]
    omega
  · intro x hx
    rw [hpunchers] at hx
    rcases List.mem_or_eq_of_mem_set hx with hold | rfl
    · exact h.active x hold
    · exact hactive

lemma Sound.right_iff (h : Sound s) :
    Accounted s ↔ ∀ e ∈ s.punchers, e.onAccount = true → e.active = true := by
  unfold Accounted
  rw [h.counted, Nat.cast_inj]
  exact countP_eq_countP_iff h.active

lemma accounted_replace_iff (hs : Sound s) (ht : Sound t) (h : Accounted s)
    (he : s.punchers[j]? = some e) (hpunchers : t.punchers = s.punchers.set j e') :
    Accounted t ↔ (e'.onAccount = true → e'.active = true) := by
  rw [ht.right_iff, hpunchers]
  constructor
  · exact fun hall => hall e' (List.mem_set (List.getElem?_eq_some_iff.1 he).1 e')
  · intro hnew x hx
    rcases List.mem_or_eq_of_mem_set hx with hold | rfl
    · exact hs.right_iff.1 h x hold
    · exact hnew

/-! ## The steps -/

lemma stats_serve (h : ((s.view e).act c).balance = (s.view e).balance) :
    (s.serve j e c).stats.randomPunches - ((s.view e).act c).share =
      s.stats.randomPunches - e.puncher.share := by
  have hview : (s.view e).balance = some (s.stats.randomPunches - e.puncher.share) := rfl
  rw [hview] at h
  obtain ⟨stats, hstats, heq⟩ := Option.map_eq_some_iff.1 h
  rw [← heq]
  simp only [serve, hstats, Option.getD_some]

/-- **A call keeps the counter sound.** -/
lemma sound_serve (h : Sound s) (he : s.punchers[j]? = some e) (hcount : ∀ stats, c ≠ .count stats) :
    Sound (s.serve j e c) := by
  rcases (s.view e).act_cases hcount with ⟨-, hq⟩ | ⟨hstarts, hq⟩
  · refine sound_replace h he rfl ?_ fun _ => ?_
    · rw [SharedPuncher.share_called]
      exact stats_serve hq.balance
    · rw [SharedPuncher.onAccount_called]
      exact hq.randomized
  · refine sound_replace h he rfl ?_ fun hactive => ?_
    · rw [SharedPuncher.share_called]
      exact stats_serve hq.balance
    · rw [hstarts] at hactive
      obtain ⟨hwork, hclosed, hgone, hdone⟩ := SharedPuncher.active_of_called hactive
      rw [SharedPuncher.onAccount_called]
      rcases hq.kept with ⟨hrandomized, hsame⟩ | ⟨-, hover⟩
      · -- it was at work before the call, so it was on the account
        have hlived : e.puncher.isDone = false := hsame.symm.trans hdone
        rw [hrandomized]
        refine h.active e (List.mem_of_getElem? he) ?_
        rw [SharedPuncher.active, hwork, hclosed, hgone, hlived]
        rfl
      · exact absurd hover (ne_true_of_eq_false hdone)

lemma leaves_iff_active (h : Sound s) (hright : Accounted s) (he : e ∈ s.punchers) :
    (e.onAccount = true → false = true) ↔ ¬ e.active = true := by
  constructor
  · exact fun hoff hactive => Bool.noConfusion (hoff (h.active e he hactive))
  · exact fun hidle hon => absurd (h.right_iff.1 hright e he hon) hidle

/-- **What a call leaves on the account**: where the account was right, the puncher is on it at work only,
unless it has just left. -/
lemma accounted_serve (h : Sound s) (hright : Accounted s) (he : s.punchers[j]? = some e)
    (hgone : e.gone = false) (hcount : ∀ stats, c ≠ .count stats) :
    Accounted (s.serve j e c) ↔ ¬ Leaves s (.call j c) := by
  have hmem : e ∈ s.punchers := List.mem_of_getElem? he
  rw [accounted_replace_iff h (sound_serve h he hcount) hright he rfl, SharedPuncher.onAccount_called]
  rcases (s.view e).act_cases hcount with ⟨hstarts, hq⟩ | ⟨hstarts, hq⟩
  · cases c with
    | punch tick =>
      have hconnected : e.puncher.connected = false := by
        have hfree := hstarts
        unfold Holepuncher.Call.starts Holepuncher.startsRandom at hfree
        simp only [Bool.and_eq_true, Bool.not_eq_true'] at hfree
        exact hfree.1.1
      have hdone : ((s.view e).act (.punch tick)).isDone = e.puncher.destroyed := by
        rw [hq.isDone]
        simp [view, Holepuncher.isDone, hconnected]
      have hwork : (e.called (.punch tick) true ((s.view e).act (.punch tick))).atWork = true :=
        Bool.or_true _
      have hleaves : Leaves s (.call j (.punch tick)) ↔ e.puncher.destroyed = true ∨ e.closed = true := by
        simp only [Leaves, he, Option.some.injEq, exists_eq_left', hgone, true_and]
        exact and_iff_right hstarts
      rw [hstarts, SharedPuncher.active_called, hwork, hgone, hdone, hleaves, hq.randomized]
      cases e.puncher.destroyed <;> cases e.closed <;> simp
    | _ => exact Bool.noConfusion hstarts
  · by_cases hstop : c = .stop
    · subst hstop
      have hidle : (e.called .stop false ((s.view e).act .stop)).active = false := by
        rw [SharedPuncher.active_called]
        rfl
      have hleaves : Leaves s (.call j .stop) ↔ e.active = true := by simp [Leaves, he]
      have hsame : ((s.view e).act .stop).randomized = e.onAccount := rfl
      rw [hleaves, hsame, hstarts, hidle]
      exact leaves_iff_active h hright hmem
    · have hleaves : ¬ Leaves s (.call j c) := by
        cases c with
        | stop => exact absurd rfl hstop
        | punch tick =>
          rintro ⟨x, hx, -, hbegins, -⟩
          obtain rfl := Option.some.inj (he.symm.trans hx)
          exact absurd hbegins (ne_true_of_eq_false hstarts)
        | _ => exact id
      refine iff_of_true (fun hon => ?_) hleaves
      rcases hq.kept with ⟨hrandomized, hsame⟩ | ⟨hoff, -⟩
      · have hactive : e.active = true := h.right_iff.1 hright e hmem (hrandomized.symm.trans hon)
        refine SharedPuncher.active_called_of_active hactive hstop ?_
        rw [hsame]
        unfold SharedPuncher.active at hactive
        simp only [Bool.and_eq_true, Bool.not_eq_true'] at hactive
        exact hactive.2
      · exact absurd hon (ne_true_of_eq_false hoff)

lemma not_active_of_gone (h : e.gone = true) : ¬ e.active = true := by
  simp [SharedPuncher.active, h]

lemma not_leaves_of_gone (he : s.punchers[j]? = some e) (h : e.gone = true) : ¬ Leaves s (.call j c) := by
  cases c with
  | stop =>
    rintro ⟨x, hx, hactive⟩
    obtain rfl := Option.some.inj (he.symm.trans hx)
    exact not_active_of_gone h hactive
  | punch tick =>
    rintro ⟨x, hx, hthere, -⟩
    obtain rfl := Option.some.inj (he.symm.trans hx)
    exact absurd h (ne_true_of_eq_false hthere)
  | _ => exact id

lemma not_leaves_of_none (he : s.punchers[j]? = none) : ¬ Leaves s (.call j c) := by
  cases c with
  | stop => simp [Leaves, he]
  | punch tick => simp [Leaves, he]
  | _ => exact id

lemma step_call_cases (s : PunchSystem) (j : ℕ) (c : Holepuncher.Call) :
    s.step (.call j c) = s ∧ ¬ Leaves s (.call j c) ∨
      ∃ e, s.punchers[j]? = some e ∧ e.gone = false ∧ (∀ stats, c ≠ .count stats) ∧
        s.step (.call j c) = s.serve j e c := by
  cases he : s.punchers[j]? with
  | none => exact .inl ⟨by simp [step, he], not_leaves_of_none he⟩
  | some e =>
    cases hgone : e.gone with
    | true =>
      refine .inl ⟨?_, not_leaves_of_gone he hgone⟩
      cases c <;> simp [step, he, hgone]
    | false =>
      cases c with
      | count stats => exact .inl ⟨by simp [step, he], id⟩
      | _ => exact .inr ⟨e, rfl, hgone, fun _ => nofun, by simp [step, he, hgone]⟩

lemma retire_cases (s : PunchSystem) (j : ℕ) (f : SharedPuncher → SharedPuncher) :
    s.retire j f = s ∧ (¬ ∃ e, s.punchers[j]? = some e ∧ e.active = true) ∨
      ∃ e, s.punchers[j]? = some e ∧ s.retire j f = { s with punchers := s.punchers.set j (f e) } := by
  unfold retire
  cases he : s.punchers[j]? with
  | none => exact .inl ⟨rfl, by simp⟩
  | some e =>
    cases hgone : e.gone with
    | true => exact .inl ⟨by simp [hgone], by simp [not_active_of_gone hgone]⟩
    | false => exact .inr ⟨e, rfl, by simp [hgone]⟩

/-- **Another end of a puncher** keeps the counter, and leaves the account right exactly if the puncher was not
at work. -/
lemma retire_end (h : Sound s) {f : SharedPuncher → SharedPuncher}
    (hsame : ∀ e, (f e).puncher = e.puncher.stop) (hover : ∀ e, (f e).active = false) :
    Sound (s.retire j f) ∧ (Accounted s → (Accounted (s.retire j f) ↔
      ¬ ∃ e, s.punchers[j]? = some e ∧ e.active = true)) := by
  rcases retire_cases s j f with ⟨heq, hnot⟩ | ⟨e, he, heq⟩
  · rw [heq]
    exact ⟨h, fun hright => iff_of_true hright hnot⟩
  · have hon : (f e).onAccount = e.onAccount := by
      unfold SharedPuncher.onAccount
      rw [hsame]
      rfl
    have hsound : Sound (s.retire j f) := by
      refine sound_replace h he (by rw [heq]) ?_ fun hactive =>
        absurd hactive (ne_true_of_eq_false (hover e))
      rw [heq, hsame]
      rfl
    refine ⟨hsound, fun hright => ?_⟩
    rw [accounted_replace_iff h hsound hright he (by rw [heq]), hon, hover, he]
    simpa using leaves_iff_active h hright (List.mem_of_getElem? he)

lemma active_close (e : SharedPuncher) : e.close.active = false := by
  simp [SharedPuncher.active, SharedPuncher.close]

lemma active_destruct (e : SharedPuncher) : e.destruct.active = false := by
  simp [SharedPuncher.active, SharedPuncher.destruct]

lemma onAccount_create (isInitiator hasPool : Bool) (stats : Option PunchStats) :
    SharedPuncher.onAccount { puncher := .create isInitiator hasPool stats } = false := rfl

/-- **The counter counts the punchers on the account**, whatever happens. -/
theorem sound_step (h : Sound s) (i : Input) : Sound (s.step i) := by
  cases i with
  | construct isInitiator hasPool =>
    refine ⟨?_, fun x hx hactive => ?_⟩
    · simp [step, h.counted, onAccount_create]
    · rcases List.mem_append.1 hx with hold | hnew
      · exact h.active x hold hactive
      · obtain rfl := List.mem_singleton.1 hnew
        exact Bool.noConfusion hactive
  | call j c =>
    rcases step_call_cases s j c with ⟨heq, -⟩ | ⟨e, he, -, hcount, heq⟩
    · rwa [heq]
    · rw [heq]
      exact sound_serve h he hcount
  | close j => exact (retire_end h (fun _ => rfl) active_close).1
  | destruct j => exact (retire_end h (fun _ => rfl) active_destruct).1
  | setLimits limit interval => exact ⟨h.counted, h.active⟩

/-- **Exactly the steps with which no puncher leaves** keep the account right. -/
theorem accounted_step_iff (h : Sound s) (hright : Accounted s) (i : Input) :
    Accounted (s.step i) ↔ ¬ Leaves s i := by
  cases i with
  | construct isInitiator hasPool =>
    refine iff_of_true ?_ id
    have hidle : SharedPuncher.active { puncher := .create isInitiator hasPool (some s.stats) } = false := rfl
    unfold Accounted at hright ⊢
    simp [step, hright, hidle]
  | call j c =>
    rcases step_call_cases s j c with ⟨heq, hnot⟩ | ⟨e, he, hgone, hcount, heq⟩
    · rw [heq]
      exact iff_of_true hright hnot
    · rw [heq]
      exact accounted_serve h hright he hgone hcount
  | close j => exact (retire_end h (fun _ => rfl) active_close).2 hright
  | destruct j => exact (retire_end h (fun _ => rfl) active_destruct).2 hright
  | setLimits limit interval => exact iff_of_true hright id

/-- **The account of random punches is right throughout** exactly those runs in which no puncher is stopped,
closed or destructed at work, and none begins a random strategy that is already destroyed or closed. -/
theorem accounted_throughout_iff (limit : ℤ) (interval : ℕ) (inputs : List Input) :
    EveryState step Accounted (start limit interval) inputs ↔
      EveryStep step (fun s i => ¬ Leaves s i) (start limit interval) inputs :=
  everyState_iff_everyStep (I := Sound) (fun _ i h => sound_step h i)
    (fun _ i h hright => accounted_step_iff h hright i) (sound_start limit interval) rfl

def leakRun : List Input :=
  [.construct true false, .call 0 (.update (.setRemoteFirewall firewallRandom)), .call 0 (.punch {}),
    .destruct 0]

/-- It counts as a random punch for ever, although no puncher is left. -/
theorem not_accounted_leakRun :
    ¬ EveryState step Accounted (start 1 20000) leakRun ∧
      (run step (start 1 20000) leakRun).stats.randomPunches = 1 ∧
      ∀ e ∈ (run step (start 1 20000) leakRun).punchers, e.gone = true := by
  refine ⟨fun h => ?_, by decide, by decide⟩
  have hlast : Accounted (run step (start 1 20000) leakRun) := h.run
  revert hlast
  unfold Accounted
  decide

end PunchSystem

end HyperDHT
