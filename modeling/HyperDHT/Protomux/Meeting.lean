import Mathlib.Data.Set.Insert
import HyperDHT.Protomux.Network

/-!
# How two ends meet

Two ends that open, close and reopen channels under one key, over FIFO links. Each end has at most one channel
at a time, and one slot for an OPEN that finds no channel that waits. If a channel is closed only after it was
paired, or before it was opened while the slot is empty, the `k`-th channel that is opened at one end is paired
with the `k`-th one that is opened at the other.

## Main definitions

* `Protomux.Meeting`, `Turn`, `Meeting.step` — the two ends as a machine.
* `Protomux.Meeting.Allowed` — the turns after which they still meet.
* `Protomux.Meeting.Sound` — the invariant of one end.

## Main results

* `Protomux.Meeting.sound_step` — an allowed turn keeps the invariant.
* `Protomux.Meeting.meets` — once all letters are delivered, two channels that were opened are paired.
* `Protomux.Meeting.lives_of_remote` — then no channel is paired with one that is gone.

## Design

`opened` and `received` are not read by the ends: they list the ids that an end has opened, and those that it has
received in the OPENs of the other end, in order.
-/

set_option autoImplicit false

namespace HyperDHT.Protomux

/-- The channel of an end: its id, whether its OPEN was sent, and the remote id it is paired with. -/
structure Local (ι : Type*) where
  id : ι
  sent : Bool := false
  remote : Option ι := none
  deriving DecidableEq

/-- What an end writes. -/
inductive Letter (ι : Type*) where
  | open (id : ι)
  | close (id : ι)
  deriving DecidableEq

/-- The two ends, and the letters on their way from each. -/
structure Meeting (ι : Type*) where
  channel : Side → Option (Local ι) := fun _ => none
  /-- The OPEN that waits for a channel. -/
  pending : Side → Option ι := fun _ => none
  link : Side → List (Letter ι) := fun _ => []
  /-- The ids of the channels that were created. -/
  used : Side → Set ι := fun _ => ∅
  opened : Side → List ι := fun _ => []
  received : Side → List ι := fun _ => []

/-- The turns: a channel is created, opened or closed at one end, or the first letter from it is delivered. -/
inductive Turn (ι : Type*) where
  | create (s : Side) (id : ι)
  | open (s : Side)
  | close (s : Side)
  | deliver (s : Side)

namespace Meeting

open Function (update)

variable {ι : Type*}

/-- The ids of the OPENs among some letters, in order. -/
def opensIn (letters : List (Letter ι)) : List ι :=
  letters.filterMap fun
    | .open id => some id
    | .close _ => none

@[simp] lemma opensIn_nil : opensIn ([] : List (Letter ι)) = [] := rfl

@[simp] lemma opensIn_append (l l' : List (Letter ι)) : opensIn (l ++ l') = opensIn l ++ opensIn l' :=
  List.filterMap_append

@[simp] lemma opensIn_open (id : ι) (l : List (Letter ι)) : opensIn (.open id :: l) = id :: opensIn l := rfl

@[simp] lemma opensIn_close (id : ι) (l : List (Letter ι)) : opensIn (.close id :: l) = opensIn l := rfl

/-- A channel that waits for an OPEN. -/
def waiting (c : Local ι) : Bool := c.sent && c.remote.isNone

/-- An OPEN arrives: it is paired with the channel that waits, or stored. -/
def receiveOpen (w : Meeting ι) (t : Side) (r : ι) : Meeting ι :=
  match (w.channel t).filter waiting with
  | some c => { w with channel := update w.channel t (some { c with remote := some r }) }
  | none => { w with pending := update w.pending t (some r) }

lemma receiveOpen_frame (w : Meeting ι) (t : Side) (r : ι) :
    (w.receiveOpen t r).link = w.link ∧ (w.receiveOpen t r).used = w.used ∧
      (w.receiveOpen t r).channel t.other = w.channel t.other ∧
      (w.receiveOpen t r).pending t.other = w.pending t.other := by
  unfold receiveOpen
  split <;> simp

/-- A channel is removed, and with it the OPEN that waits. -/
def remove (w : Meeting ι) (s : Side) : Meeting ι :=
  { w with channel := update w.channel s none, pending := update w.pending s none }

/-- A letter is written. -/
def write (w : Meeting ι) (s : Side) (letter : Letter ι) : Meeting ι :=
  { w with link := update w.link s (w.link s ++ [letter]) }

variable [DecidableEq ι]

/-- A CLOSE arrives: the channel that is paired with the id is removed. -/
def receiveClose (w : Meeting ι) (t : Side) (r : ι) : Meeting ι :=
  if (w.channel t).bind (·.remote) = some r then w.remove t else w

/-- A turn. -/
def step (w : Meeting ι) : Turn ι → Meeting ι
  | .create s id =>
    { w with
      channel := update w.channel s (some { id := id })
      used := update w.used s (insert id (w.used s)) }
  | .open s =>
    match w.channel s with
    | none => w
    | some c =>
      if c.sent then w
      else
        { w with
          channel := update w.channel s (some { c with sent := true, remote := w.pending s })
          pending := update w.pending s none
          opened := update w.opened s (w.opened s ++ [c.id]) }.write s (.open c.id)
  | .close s =>
    match w.channel s with
    | none => w
    | some c => (w.remove s).write s (.close c.id)
  | .deliver s =>
    match w.link s with
    | [] => w
    | .open r :: rest =>
      { w with
        link := update w.link s rest
        received := update w.received s.other (w.received s.other ++ [r]) }.receiveOpen s.other r
    | .close r :: rest => { w with link := update w.link s rest }.receiveClose s.other r

omit [DecidableEq ι] in
/-- A new channel has a new id and is the only one of its end; a channel is closed after it was paired, or before
it was opened while no OPEN waits. -/
def Allowed (w : Meeting ι) : Turn ι → Prop
  | .create s id => w.channel s = none ∧ id ∉ w.used s
  | .open _ => True
  | .close s => ∀ c ∈ w.channel s, c.remote ≠ none ∨ c.sent = false ∧ w.pending s = none
  | .deliver _ => True

/-! ## The invariant -/

omit [DecidableEq ι]

/-- The channel with this id is there. -/
def Lives (w : Meeting ι) (s : Side) (r : ι) : Prop := ∃ c ∈ w.channel s, c.id = r

/-- How far an end is: as many channels were opened as OPENs were received, or the last channel that was opened
waits, or the last OPEN that was received. -/
inductive Stage (w : Meeting ι) (s : Side) : Prop
  | even (hlength : (w.opened s).length = (w.received s).length) (hpending : w.pending s = none)
      (hchannel : ∀ c ∈ w.channel s, c.sent = false ∧ c.remote = none ∨
        c.sent = true ∧ (w.opened s).getLast? = some c.id ∧ c.remote ≠ none ∧
          (w.received s).getLast? = c.remote)
  | waits (c : Local ι) (hlength : (w.opened s).length = (w.received s).length + 1)
      (hpending : w.pending s = none) (hchannel : w.channel s = some c) (hsent : c.sent = true)
      (hremote : c.remote = none) (hlast : (w.opened s).getLast? = some c.id)
  | holds (r : ι) (hlength : (w.received s).length = (w.opened s).length + 1)
      (hpending : w.pending s = some r) (hlast : (w.received s).getLast? = some r)
      (hchannel : ∀ c ∈ w.channel s, c.sent = false ∧ c.remote = none)

/-- The letters end the channel with this id before another one is opened. -/
def Ends (letters : List (Letter ι)) (r : ι) : Prop :=
  ∃ l l', letters = l ++ .close r :: l' ∧ opensIn l = []

/-- The invariant of an end. -/
structure Sound (w : Meeting ι) (s : Side) : Prop where
  fifo : w.opened s = w.received s.other ++ opensIn (w.link s)
  stage : Stage w s
  /-- The partner of a channel is there, or its CLOSE is on its way. -/
  partner : ∀ c ∈ w.channel s, ∀ r ∈ c.remote, Lives w s.other r ∨ Ends (w.link s.other) r
  /-- So is a channel whose OPEN is on its way. -/
  inFlight : ∀ l r l', w.link s = l ++ .open r :: l' → Lives w s r ∨ Ends l' r
  /-- A channel that was opened and closed had been paired. -/
  paired : ∀ k r, (w.opened s)[k]? = some r → .close r ∈ w.link s → k < (w.received s).length
  nodup : (w.opened s).Nodup
  unsent : ∀ c ∈ w.channel s, c.sent = false → c.id ∉ w.opened s
  gone : ∀ r, .close r ∈ w.link s → ¬ Lives w s r
  used_lives : ∀ r, Lives w s r → r ∈ w.used s
  used_close : ∀ r, .close r ∈ w.link s → r ∈ w.used s
  used_opened : ∀ r ∈ w.opened s, r ∈ w.used s

variable {w w' : Meeting ι} {s : Side}

lemma forall_side {P : Side → Prop} (s : Side) (h : P s) (hother : P s.other) (t : Side) : P t := by
  rcases eq_or_ne t s with rfl | hne
  · exact h
  · rw [Side.eq_other_of_ne hne]
    exact hother

lemma lives_iff_id_eq {c : Local ι} (h : w.channel s = some c) (r : ι) : Lives w s r ↔ c.id = r := by
  simp [Lives, h]

lemma not_lives_of_none (h : w.channel s = none) (r : ι) : ¬ Lives w s r := by
  simp [Lives, h]

lemma Ends.append {letters : List (Letter ι)} {r : ι} (h : Ends letters r) (more : List (Letter ι)) :
    Ends (letters ++ more) r := by
  obtain ⟨l, l', rfl, hl⟩ := h
  exact ⟨l, l' ++ more, by simp, hl⟩

lemma Ends.tail {letter : Letter ι} {letters : List (Letter ι)} {r : ι} (h : Ends (letter :: letters) r)
    (hne : letter ≠ .close r) : Ends letters r ∧ ∀ id, letter ≠ .open id := by
  obtain ⟨l, l', heq, hl⟩ := h
  cases l with
  | nil => exact absurd (List.cons.inj heq).1 hne
  | cons a l =>
    obtain ⟨rfl, rfl⟩ := List.cons.inj heq
    cases letter with
    | «open» id => simp at hl
    | close id => exact ⟨⟨l, l', rfl, hl⟩, fun _ => by simp⟩

lemma Sound.length_received_le (h : Sound w s) :
    (w.received s.other).length ≤ (w.opened s).length := by
  rw [h.fifo, List.length_append]
  exact Nat.le_add_right _ _

lemma Sound.all_received (h : Sound w s) (hle : (w.opened s).length ≤ (w.received s.other).length) :
    w.received s.other = w.opened s ∧ opensIn (w.link s) = [] := by
  have hfifo := h.fifo
  have hnil : opensIn (w.link s) = [] := by
    rw [hfifo, List.length_append] at hle
    exact List.length_eq_zero_iff.1 (by omega)
  rw [hnil, List.append_nil] at hfifo
  exact ⟨hfifo.symm, hnil⟩

lemma waits_of_pending (h : ∀ s, Sound w s) {r : ι} (hpending : w.pending s = some r) :
    (w.received s).length = (w.opened s).length + 1 ∧ w.received s = w.opened s.other ∧
      opensIn (w.link s.other) = [] ∧ (w.received s).getLast? = some r ∧
      ∃ c, w.channel s.other = some c ∧ c.sent = true ∧ c.remote = none ∧ c.id = r := by
  cases (h s).stage with
  | even _ hnone _ => simp [hnone] at hpending
  | waits _ _ hnone _ _ _ _ => simp [hnone] at hpending
  | holds r' hlength hsome hlast _ =>
    obtain rfl : r' = r := Option.some.inj (hsome.symm.trans hpending)
    have hle := (h s).length_received_le
    have hge := (h s.other).length_received_le
    rw [Side.other_other] at hge
    have hall := (h s.other).all_received
    rw [Side.other_other] at hall
    cases (h s.other).stage with
    | even hsame _ _ => omega
    | holds _ hmore _ _ _ => omega
    | waits c hmore _ hchannel hsent hremote hlast' =>
      obtain ⟨heq, hnil⟩ := hall (by omega)
      rw [← heq, hlast] at hlast'
      exact ⟨hlength, heq, hnil, hlast, c, hchannel, hsent, hremote, (Option.some.inj hlast').symm⟩

lemma even_of_remote (h : Sound w s) {c : Local ι} {r : ι} (hc : w.channel s = some c)
    (hr : c.remote = some r) : (w.opened s).length = (w.received s).length ∧ w.pending s = none ∧
      c.sent = true ∧ (w.opened s).getLast? = some c.id ∧ (w.received s).getLast? = some r := by
  cases h.stage with
  | even hlength hpending hchannel =>
    rcases hchannel c hc with ⟨-, hnone⟩ | ⟨hsent, hlast, -, hlast'⟩
    · simp [hnone] at hr
    · exact ⟨hlength, hpending, hsent, hlast, hlast'.trans hr⟩
  | waits c' _ _ hc' _ hnone _ =>
    obtain rfl : c' = c := Option.some.inj (hc'.symm.trans hc)
    simp [hnone] at hr
  | holds _ _ _ _ hchannel =>
    rw [(hchannel c hc).2] at hr
    cases hr

lemma received_of_remote (h : Sound w s) {c : Local ι} {r : ι} (hc : w.channel s = some c)
    (hr : c.remote = some r) : r ∈ w.received s := by
  obtain ⟨-, -, -, -, hlast⟩ := even_of_remote h hc hr
  exact List.mem_of_getLast? hlast

lemma received_of_pending (h : ∀ s, Sound w s) {r : ι} (hpending : w.pending s = some r) :
    r ∈ w.received s := by
  obtain ⟨-, -, -, hlast, -⟩ := waits_of_pending h hpending
  exact List.mem_of_getLast? hlast

lemma used_of_received (h : ∀ s, Sound w s) {r : ι} (hr : r ∈ w.received s) : r ∈ w.used s.other := by
  have hfifo := (h s.other).fifo
  rw [Side.other_other] at hfifo
  exact (h s.other).used_opened r (by rw [hfifo]; exact List.mem_append_left _ hr)

lemma used_of_link (h : Sound w s) {r : ι} {rest : List (Letter ι)}
    (hlink : w.link s = .open r :: rest) : r ∈ w.used s ∧ r ∉ w.received s.other := by
  have hfifo := h.fifo
  have hnodup := h.nodup
  rw [hlink, opensIn_open] at hfifo
  rw [hfifo] at hnodup
  exact ⟨h.used_opened r (by rw [hfifo]; simp),
    fun hin => (List.nodup_append.1 hnodup).2.2 r hin r (by simp) rfl⟩

lemma Sound.last_of_lives (h : Sound w s) {r : ι} (hlives : Lives w s r) (hin : r ∈ w.opened s) :
    (w.opened s).getLast? = some r := by
  obtain ⟨c, hc, rfl⟩ := hlives
  have hsent : c.sent ≠ false := fun hsent => h.unsent c hc hsent hin
  cases h.stage with
  | even _ _ hchannel =>
    rcases hchannel c hc with ⟨hnot, -⟩ | ⟨-, hlast, -⟩
    · exact absurd hnot hsent
    · exact hlast
  | waits c' _ _ hc' _ _ hlast =>
    obtain rfl : c' = c := Option.some.inj (hc'.symm.trans hc)
    exact hlast
  | holds _ _ _ _ hchannel => exact absurd (hchannel c hc).1 hsent

lemma eq_nil_of_getLast? {l l' : List ι} {r : ι} (hnodup : (l ++ l').Nodup) (hin : r ∈ l)
    (hlast : (l ++ l').getLast? = some r) : l' = [] := by
  by_contra hne
  rw [List.getLast?_append_of_ne_nil _ hne] at hlast
  exact (List.nodup_append.1 hnodup).2.2 r hin r (List.mem_of_getLast? hlast) rfl

lemma split_concat {letters l l' : List (Letter ι)} {letter : Letter ι} {r : ι}
    (h : letters ++ [letter] = l ++ .open r :: l') :
    (letters = l ∧ letter = .open r ∧ l' = []) ∨
      ∃ l'', letters = l ++ .open r :: l'' ∧ l' = l'' ++ [letter] := by
  rcases List.eq_nil_or_concat l' with rfl | ⟨l'', last, rfl⟩
  · obtain ⟨rfl, hletter⟩ := List.append_inj' h rfl
    exact .inl ⟨rfl, (List.cons.inj hletter).1, rfl⟩
  · rw [List.concat_eq_append, ← List.cons_append, ← List.append_assoc] at h
    obtain ⟨rfl, hletter⟩ := List.append_inj' h rfl
    obtain ⟨rfl, -⟩ := List.cons.inj hletter
    exact .inr ⟨l'', rfl, List.concat_eq_append⟩

lemma Stage.congr (h : Stage w s) (hchannel : w'.channel s = w.channel s)
    (hpending : w'.pending s = w.pending s) (hopened : w'.opened s = w.opened s)
    (hreceived : w'.received s = w.received s) : Stage w' s := by
  cases h with
  | even h₁ h₂ h₃ =>
    exact .even (by rw [hopened, hreceived, h₁]) (by rw [hpending, h₂])
      (by rw [hchannel, hopened, hreceived]; exact h₃)
  | waits c h₁ h₂ h₃ h₄ h₅ h₆ =>
    exact .waits c (by rw [hopened, hreceived, h₁]) (by rw [hpending, h₂]) (by rw [hchannel, h₃])
      h₄ h₅ (by rw [hopened, h₆])
  | holds r h₁ h₂ h₃ h₄ =>
    exact .holds r (by rw [hopened, hreceived, h₁]) (by rw [hpending, h₂]) (by rw [hreceived, h₃])
      (by rw [hchannel]; exact h₄)

/-- An end whose channel stays, perhaps with a partner: the first of its letters and those of the other end may have
been delivered. -/
lemma Sound.move (h : Sound w s) (delivered : List (Letter ι)) (more : List ι)
    (hlink : w.link s = delivered ++ w'.link s) (hused : w'.used s = w.used s)
    (hopened : w'.opened s = w.opened s) (hreceived : w'.received s = w.received s ++ more)
    (harrived : w'.received s.other = w.received s.other ++ opensIn delivered)
    (hlives : ∀ r, Lives w' s r ↔ Lives w s r) (hstage : Stage w' s)
    (hpartner : ∀ c ∈ w'.channel s, ∀ r ∈ c.remote,
      Lives w' s.other r ∨ Ends (w'.link s.other) r)
    (hunsent : ∀ c ∈ w'.channel s, c.sent = false → c.id ∉ w.opened s) : Sound w' s := by
  have hmem {letter : Letter ι} (hin : letter ∈ w'.link s) : letter ∈ w.link s := by
    rw [hlink]
    exact List.mem_append_right _ hin
  refine ⟨?_, hstage, hpartner, ?_, ?_, ?_, ?_, ?_, ?_, ?_, ?_⟩
  · rw [hopened, h.fifo, hlink, harrived, opensIn_append, List.append_assoc]
  · intro l r l' hsplit
    rw [hlives]
    exact h.inFlight (delivered ++ l) r l' (by rw [hlink, hsplit, List.append_assoc])
  · intro k r hk hin
    rw [hreceived, List.length_append]
    exact Nat.lt_add_right _ (h.paired k r (hopened ▸ hk) (hmem hin))
  · rw [hopened]
    exact h.nodup
  · rw [hopened]
    exact hunsent
  · intro r hin
    rw [hlives]
    exact h.gone r (hmem hin)
  · intro r hlive
    rw [hused]
    exact h.used_lives r ((hlives r).1 hlive)
  · intro r hin
    rw [hused]
    exact h.used_close r (hmem hin)
  · rw [hopened, hused]
    exact h.used_opened

lemma Sound.stay (h : Sound w s) (delivered : List (Letter ι))
    (hlink : w.link s = delivered ++ w'.link s) (hchannel : w'.channel s = w.channel s)
    (hpending : w'.pending s = w.pending s) (hused : w'.used s = w.used s)
    (hopened : w'.opened s = w.opened s) (hreceived : w'.received s = w.received s)
    (harrived : w'.received s.other = w.received s.other ++ opensIn delivered)
    (hpartner : ∀ c ∈ w.channel s, ∀ r ∈ c.remote,
      Lives w' s.other r ∨ Ends (w'.link s.other) r) : Sound w' s := by
  refine h.move delivered [] hlink hused hopened (hreceived.trans (List.append_nil _).symm) harrived
    (fun r => by rw [Lives, hchannel, Lives]) (h.stage.congr hchannel hpending hopened hreceived)
    ?_ ?_
  · rw [hchannel]
    exact hpartner
  · rw [hchannel]
    exact h.unsent

lemma waits_or_unsent (h : ∀ s, Sound w s) {t : Side} {r : ι} {rest : List (Letter ι)}
    (hlink : w.link t.other = .open r :: rest) :
    (∃ c, w.channel t = some c ∧ c.sent = true ∧ c.remote = none ∧ w.pending t = none ∧
      (w.opened t).length = (w.received t).length + 1 ∧ (w.opened t).getLast? = some c.id) ∨
    (w.opened t).length = (w.received t).length ∧
      ∀ c ∈ w.channel t, c.sent = false ∧ c.remote = none := by
  have hfifo := (h t.other).fifo
  rw [Side.other_other, hlink, opensIn_open] at hfifo
  cases (h t).stage with
  | even hlength _ hchannel =>
    refine .inr ⟨hlength, fun c hc => ?_⟩
    rcases hchannel c hc with hunsent | ⟨-, -, hremote, hlast⟩
    · exact hunsent
    · -- the partner is not the last channel that was opened, and its CLOSE is not at the head
      exfalso
      obtain ⟨r', hr'⟩ := Option.ne_none_iff_exists'.1 hremote
      have hin : r' ∈ w.received t := List.mem_of_getLast? (hlast.trans hr')
      rcases (h t).partner c hc r' hr' with hlive | hends
      · have hlast' := (h t.other).last_of_lives hlive (by rw [hfifo]; exact List.mem_append_left _ hin)
        have hnodup := (h t.other).nodup
        rw [hfifo] at hlast' hnodup
        cases eq_nil_of_getLast? hnodup hin hlast'
      · rw [hlink] at hends
        exact (hends.tail (by simp)).2 r rfl
  | waits c hlength hpending hc hsent hremote hlast =>
    exact .inl ⟨c, hc, hsent, hremote, hpending, hlength, hlast⟩
  | holds _ hlength _ _ _ =>
    -- the other end has opened at most one channel more than it has received OPENs
    exfalso
    have hmore := congrArg List.length hfifo
    rw [List.length_append, List.length_cons] at hmore
    have hle := (h t).length_received_le
    cases (h t.other).stage with
    | even hlength' _ _ => omega
    | waits _ hlength' _ _ _ _ _ => omega
    | holds _ hlength' _ _ _ => omega

lemma Sound.partner_closed (h : ∀ s, Sound w s) {t : Side} {c : Local ι} {r : ι}
    (hc : w.channel t = some c) (hr : c.remote = some r) (hclose : .close r ∈ w.link t.other) :
    opensIn (w.link t) = [] ∧ ∀ d ∈ w.channel t.other, d.remote ≠ some c.id := by
  obtain ⟨hlength, -, -, hlast, hlast'⟩ := even_of_remote (h t) hc hr
  have hfifo := (h t.other).fifo
  rw [Side.other_other] at hfifo
  have hle := (h t).length_received_le
  constructor
  · -- the OPEN that was answered is the last one that was received
    have hpos : w.received t ≠ [] := by
      rintro hnil
      simp [hnil] at hlast'
    have hget : (w.opened t.other)[(w.received t).length - 1]? = some r := by
      rw [hfifo, List.getElem?_append_left (by
        have := List.length_pos_iff.2 hpos
        omega), ← List.getLast?_eq_getElem?]
      exact hlast'
    have hlt := (h t.other).paired _ r hget hclose
    exact ((h t).all_received (by omega)).2
  · intro d hd hremote
    obtain ⟨hlength', -, -, hlast'', -⟩ := even_of_remote (h t.other) hd hremote
    have hall := (h t.other).all_received
    rw [Side.other_other] at hall
    obtain ⟨heq, -⟩ := hall (by omega)
    rw [heq, hlast''] at hlast'
    exact (h t.other).gone r hclose ⟨d, hd, Option.some.inj hlast'⟩

/-! ## One turn -/

variable [DecidableEq ι]

lemma sound_create (h : ∀ s, Sound w s) {id : ι} (hnone : w.channel s = none) (hnew : id ∉ w.used s)
    (t : Side) : Sound (w.step (.create s id)) t := by
  have hlives (r : ι) : Lives (w.step (.create s id)) s r ↔ id = r := by
    simp [Lives, step]
  have hused (r : ι) : r ∈ (w.step (.create s id)).used s ↔ r = id ∨ r ∈ w.used s := by
    simp [step]
  revert t
  refine forall_side s ?_ ?_
  · refine ⟨(h s).fifo, ?_, ?_, ?_, (h s).paired, (h s).nodup, ?_, ?_, ?_, ?_, ?_⟩
    · cases (h s).stage with
      | even hlength hpending _ => exact .even hlength hpending (by simp [step])
      | waits c _ _ hc _ _ _ => simp [hnone] at hc
      | holds r hlength hpending hlast _ => exact .holds r hlength hpending hlast (by simp [step])
    · simp [step]
    · intro l r l' hlink
      rcases (h s).inFlight l r l' hlink with hlive | hends
      · exact absurd hlive (not_lives_of_none hnone r)
      · exact .inr hends
    · intro c hc _ hin
      obtain rfl : (⟨id, false, none⟩ : Local ι) = c := by simpa [step] using hc
      exact hnew ((h s).used_opened _ hin)
    · intro r hclose hlive
      rw [hlives] at hlive
      exact hnew (hlive ▸ (h s).used_close r hclose)
    · intro r hlive
      rw [hlives] at hlive
      exact (hused r).2 (.inl hlive.symm)
    · exact fun r hclose => (hused r).2 (.inr ((h s).used_close r hclose))
    · exact fun r hin => (hused r).2 (.inr ((h s).used_opened r hin))
  · refine (h s.other).stay [] rfl (by simp [step]) rfl (by simp [step]) rfl rfl (by simp [step]) ?_
    intro c hc r hr
    rcases (h s.other).partner c hc r hr with hlive | hends
    · rw [Side.other_other] at hlive
      exact absurd hlive (not_lives_of_none hnone r)
    · exact .inr hends

lemma sound_open (h : ∀ s, Sound w s) (s t : Side) : Sound (w.step (.open s)) t := by
  cases hc : w.channel s with
  | none =>
    rw [step, hc]
    exact h t
  | some c =>
    cases hsent : c.sent with
    | true =>
      simp only [step, hc, hsent, if_true]
      exact h t
    | false =>
      generalize hw' : w.step (.open s) = w'
      simp only [step, hc, hsent, Bool.false_eq_true, if_false] at hw'
      have hchannel : w'.channel s = some { c with sent := true, remote := w.pending s } := by
        simp [← hw', write]
      have hpending : w'.pending s = none := by simp [← hw', write]
      have hlink : w'.link s = w.link s ++ [.open c.id] := by simp [← hw', write]
      have hopened : w'.opened s = w.opened s ++ [c.id] := by simp [← hw', write]
      have hreceived : w'.received = w.received := by simp [← hw', write]
      have hused : w'.used = w.used := by simp [← hw', write]
      have hlives (r : ι) : Lives w' s r ↔ Lives w s r := by
        rw [lives_iff_id_eq hchannel, lives_iff_id_eq hc]
      have hnew : c.id ∉ w.opened s := (h s).unsent c hc hsent
      have hclosed {r : ι} (hin : .close r ∈ w'.link s) : .close r ∈ w.link s := by
        simpa [hlink] using hin
      have hremote (r : ι) (hr : w.pending s = some r) : Lives w s.other r := by
        obtain ⟨-, -, -, -, d, hd, -, -, hid⟩ := waits_of_pending h hr
        exact ⟨d, hd, hid⟩
      revert t
      refine forall_side s ?_ ?_
      · refine ⟨?_, ?_, ?_, ?_, ?_, ?_, ?_, ?_, ?_, ?_, ?_⟩
        · rw [hopened, hreceived, hlink, opensIn_append, ← List.append_assoc, ← (h s).fifo]
          rfl
        · cases (h s).stage with
          | even hlength hnone _ =>
            exact .waits _ (by rw [hopened, hreceived, List.length_append, hlength]; rfl) hpending
              hchannel rfl hnone (by simp [hopened])
          | waits c' _ _ hc' hsent' _ _ =>
            obtain rfl : c' = c := Option.some.inj (hc'.symm.trans hc)
            exact absurd (hsent'.symm.trans hsent) (by simp)
          | holds r hlength hsome hlast _ =>
            refine .even (by rw [hopened, hreceived, List.length_append, hlength]; rfl) hpending ?_
            intro d hd
            obtain rfl := Option.some.inj (hchannel.symm.trans hd)
            exact .inr ⟨rfl, by simp [hopened], by simp [hsome], by rw [hreceived, hlast, hsome]⟩
        · intro d hd r hr
          obtain rfl := Option.some.inj (hchannel.symm.trans hd)
          obtain ⟨d, hd, hid⟩ := hremote r hr
          exact .inl ⟨d, by simpa [← hw', write] using hd, hid⟩
        · intro l r l' hsplit
          rcases split_concat (hlink ▸ hsplit) with ⟨-, hid, -⟩ | ⟨l'', hold, rfl⟩
          · exact .inl ⟨_, hchannel, (Letter.open.inj hid)⟩
          · rw [hlives]
            exact ((h s).inFlight l r l'' hold).imp_right fun hends => hends.append _
        · intro k r hk hclose
          rw [hreceived]
          rw [hopened] at hk
          rcases lt_or_ge k (w.opened s).length with hlt | hge
          · rw [List.getElem?_append_left hlt] at hk
            exact (h s).paired k r hk (hclosed hclose)
          · -- the channel is there, so that its CLOSE is not on its way
            rw [List.getElem?_append_right hge] at hk
            obtain rfl : r = c.id := List.mem_singleton.1 (List.mem_of_getElem? hk)
            exact absurd ⟨c, hc, rfl⟩ ((h s).gone c.id (hclosed hclose))
        · rw [hopened]
          exact List.nodup_append.2 ⟨(h s).nodup, List.nodup_singleton _, fun r hr r' hr' heq => by
            rw [List.mem_singleton] at hr'
            exact hnew (hr' ▸ heq ▸ hr)⟩
        · intro d hd hnot
          obtain rfl := Option.some.inj (hchannel.symm.trans hd)
          cases hnot
        · intro r hin
          rw [hlives]
          exact (h s).gone r (hclosed hin)
        · intro r hlive
          rw [hused]
          exact (h s).used_lives r ((hlives r).1 hlive)
        · intro r hin
          rw [hused]
          exact (h s).used_close r (hclosed hin)
        · intro r hin
          rw [hused]
          rw [hopened, List.mem_append, List.mem_singleton] at hin
          rcases hin with hin | rfl
          · exact (h s).used_opened r hin
          · exact (h s).used_lives _ ⟨c, hc, rfl⟩
      · have hother : w'.link s.other = w.link s.other := by simp [← hw', write]
        refine (h s.other).stay [] hother.symm (by simp [← hw', write]) (by simp [← hw', write])
          (by rw [hused]) (by simp [← hw', write]) (by rw [hreceived]) (by simp [hreceived]) ?_
        intro d hd r hr
        have hpartner := (h s.other).partner d hd r hr
        rw [Side.other_other] at hpartner ⊢
        rw [hlives, hlink]
        exact hpartner.imp_right fun hends => hends.append _

lemma sound_close (h : ∀ s, Sound w s) {s : Side} (hallowed : Allowed w (.close s)) (t : Side) :
    Sound (w.step (.close s)) t := by
  cases hc : w.channel s with
  | none =>
    rw [step, hc]
    exact h t
  | some c =>
    generalize hw' : w.step (.close s) = w'
    simp only [step, hc] at hw'
    have hchannel : w'.channel s = none := by simp [← hw', write, remove]
    have hpending : w'.pending s = none := by simp [← hw', write, remove]
    have hlink : w'.link s = w.link s ++ [.close c.id] := by simp [← hw', write, remove]
    have hopened : w'.opened = w.opened := by simp [← hw', write, remove]
    have hreceived : w'.received = w.received := by simp [← hw', write, remove]
    have hused : w'.used = w.used := by simp [← hw', write, remove]
    have hlives := not_lives_of_none hchannel
    have hclosed {r : ι} (hin : .close r ∈ w'.link s) : .close r ∈ w.link s ∨ r = c.id := by
      simpa [hlink] using hin
    have hturns : (w.opened s).length = (w.received s).length ∧ w.pending s = none := by
      rcases hallowed c hc with hremote | ⟨hsent, hnone⟩
      · obtain ⟨r, hr⟩ := Option.ne_none_iff_exists'.1 hremote
        obtain ⟨hlength, hnone, -⟩ := even_of_remote (h s) hc hr
        exact ⟨hlength, hnone⟩
      · cases (h s).stage with
        | even hlength _ _ => exact ⟨hlength, hnone⟩
        | waits c' _ _ hc' hsent' _ _ =>
          obtain rfl : c' = c := Option.some.inj (hc'.symm.trans hc)
          exact absurd (hsent'.symm.trans hsent) (by simp)
        | holds r _ hsome _ _ => simp [hnone] at hsome
    revert t
    refine forall_side s ?_ ?_
    · refine ⟨?_, ?_, ?_, ?_, ?_, ?_, ?_, ?_, ?_, ?_, ?_⟩
      · rw [hopened, hreceived, hlink, opensIn_append, (h s).fifo]
        simp
      · exact .even (by rw [hopened, hreceived, hturns.1]) hpending (by simp [hchannel])
      · simp [hchannel]
      · intro l r l' hsplit
        rcases split_concat (hlink ▸ hsplit) with ⟨-, hid, -⟩ | ⟨l'', hold, rfl⟩
        · cases hid
        · right
          rcases (h s).inFlight l r l'' hold with hlive | hends
          · -- it is the last channel that was opened
            have hfifo := (h s).fifo
            have hnodup := (h s).nodup
            rw [hold, opensIn_append, opensIn_open, ← List.singleton_append, ← List.append_assoc,
              ← List.append_assoc] at hfifo
            have hlast := (h s).last_of_lives hlive (by rw [hfifo]; simp)
            rw [hfifo] at hlast hnodup
            have hnil := eq_nil_of_getLast? hnodup (by simp) hlast
            rw [lives_iff_id_eq hc] at hlive
            exact ⟨l'', [], by rw [hlive], hnil⟩
          · exact hends.append _
      · intro k r hk hin
        rw [hopened] at hk
        rw [hreceived]
        rcases hclosed hin with hin | rfl
        · exact (h s).paired k r hk hin
        · rw [← hturns.1]
          exact (List.getElem?_eq_some_iff.1 hk).1
      · rw [hopened]
        exact (h s).nodup
      · simp [hchannel]
      · exact fun r _ => hlives r
      · exact fun r hlive => absurd hlive (hlives r)
      · intro r hin
        rw [hused]
        rcases hclosed hin with hin | rfl
        · exact (h s).used_close r hin
        · exact (h s).used_lives _ ⟨c, hc, rfl⟩
      · rw [hopened, hused]
        exact (h s).used_opened
    · have hother : w'.link s.other = w.link s.other := by simp [← hw', write, remove]
      refine (h s.other).stay [] hother.symm (by simp [← hw', write, remove])
        (by simp [← hw', write, remove]) (by rw [hused]) (by rw [hopened]) (by rw [hreceived])
        (by simp [hreceived]) ?_
      intro d hd r hr
      have hpartner := (h s.other).partner d hd r hr
      obtain ⟨hlength, -, -, -, hlast⟩ := even_of_remote (h s.other) hd hr
      rw [Side.other_other] at hpartner ⊢
      right
      rw [hlink]
      rcases hpartner with hlive | hends
      · -- all that was opened has been received
        have hle := (h s.other).length_received_le
        rw [Side.other_other] at hle
        obtain ⟨-, hnil⟩ := (h s).all_received (by rw [hturns.1, ← hlength]; exact hle)
        rw [lives_iff_id_eq hc] at hlive
        exact ⟨w.link s, [], by rw [hlive], hnil⟩
      · exact hends.append _

lemma sound_deliver_open (h : ∀ s, Sound w s) {t : Side} {r : ι} {rest : List (Letter ι)}
    (hlink : w.link t.other = .open r :: rest) (s : Side) :
    Sound (w.step (.deliver t.other)) s := by
  have hpartner : Lives w t.other r ∨ Ends rest r := (h t.other).inFlight [] r rest hlink
  -- in either case the end at which the OPEN arrives has the same channel
  have hboth {w' : Meeting ι} (hlink' : w'.link = update w.link t.other rest)
      (hused : w'.used = w.used) (hopened : w'.opened = w.opened)
      (hreceived : w'.received = update w.received t (w.received t ++ [r]))
      (hchannel : w'.channel t.other = w.channel t.other)
      (hpending : w'.pending t.other = w.pending t.other)
      (hlives : ∀ r, Lives w' t r ↔ Lives w t r) (hstage : Stage w' t)
      (hremote : ∀ c ∈ w'.channel t, ∀ r' ∈ c.remote, r' = r)
      (hunsent : ∀ c ∈ w'.channel t, c.sent = false → c.id ∉ w.opened t) : Sound w' s := by
    have hlives' (r : ι) : Lives w' t.other r ↔ Lives w t.other r := by
      rw [Lives, hchannel, Lives]
    revert s
    refine forall_side t ?_ ?_
    · refine (h t).move [] [r] (by simp [hlink']) (by rw [hused]) (by rw [hopened])
        (by simp [hreceived]) (by simp [hreceived]) hlives hstage ?_ hunsent
      intro c hc r' hr'
      rw [hremote c hc r' hr', hlives', hlink', Function.update_self]
      exact hpartner
    · refine (h t.other).stay [.open r] (by simp [hlink', hlink]) hchannel hpending (by rw [hused])
        (by rw [hopened]) (by simp [hreceived]) (by simp [hreceived]) ?_
      intro c hc r' hr'
      have hold := (h t.other).partner c hc r' hr'
      rw [Side.other_other] at hold ⊢
      rw [hlives, hlink', Function.update_of_ne (Side.ne_other t)]
      exact hold
  rcases waits_or_unsent h hlink with
    ⟨c, hc, hsent, hremote, hpending, hlength, hlast⟩ | ⟨hlength, hunsent⟩
  · generalize hw' : w.step (.deliver t.other) = w'
    simp only [step, hlink, Side.other_other, receiveOpen, hc, Option.filter_some, waiting, hsent,
      hremote, Option.isNone_none, Bool.and_self, if_true] at hw'
    have hpaired : w'.channel t = some { c with remote := some r } := by simp [← hw', hsent]
    refine hboth (by simp [← hw']) (by simp [← hw']) (by simp [← hw']) (by simp [← hw'])
      (by simp [← hw']) (by simp [← hw']) (fun r' => ?_) ?_ ?_ ?_
    · rw [lives_iff_id_eq hpaired, lives_iff_id_eq hc]
    · refine .even (by simp [← hw', hlength]) (by simp [← hw', hpending]) fun d hd => ?_
      obtain rfl := Option.some.inj (hpaired.symm.trans hd)
      exact .inr ⟨hsent, by simp [← hw', hlast], by simp, by simp [← hw']⟩
    · intro d hd r' hr'
      obtain rfl := Option.some.inj (hpaired.symm.trans hd)
      exact (Option.some.inj hr').symm
    · intro d hd hnot
      obtain rfl := Option.some.inj (hpaired.symm.trans hd)
      exact absurd (hsent.symm.trans hnot) (by simp)
  · generalize hw' : w.step (.deliver t.other) = w'
    have hnone : (w.channel t).filter waiting = none := by
      rw [Option.filter_eq_none_iff]
      intro c hc
      simp [waiting, hunsent c hc]
    simp only [step, hlink, Side.other_other, receiveOpen, hnone] at hw'
    have hchannel : w'.channel = w.channel := by rw [← hw']
    refine hboth (by simp [← hw']) (by simp [← hw']) (by simp [← hw']) (by simp [← hw'])
      (by simp [← hw']) (by simp [← hw']) (fun r' => ?_) ?_ ?_ ?_
    · rw [Lives, hchannel, Lives]
    · refine .holds r (by simp [← hw', hlength]) (by simp [← hw']) (by simp [← hw']) ?_
      rw [hchannel]
      exact hunsent
    · intro c hc r' hr'
      rw [hchannel] at hc
      rw [(hunsent c hc).2] at hr'
      cases hr'
    · rw [hchannel]
      exact (h t).unsent

lemma sound_deliver_close (h : ∀ s, Sound w s) {t : Side} {r : ι} {rest : List (Letter ι)}
    (hlink : w.link t.other = .close r :: rest) (s : Side) :
    Sound (w.step (.deliver t.other)) s := by
  generalize hw' : w.step (.deliver t.other) = w'
  simp only [step, hlink, Side.other_other, receiveClose] at hw'
  have hclose : .close r ∈ w.link t.other := by simp [hlink]
  split_ifs at hw' with hpaired
  · obtain ⟨c, hc, hr⟩ := Option.bind_eq_some_iff.1 hpaired
    obtain ⟨hnil, hfree⟩ := Sound.partner_closed h hc hr hclose
    obtain ⟨hlength, -, -, -, -⟩ := even_of_remote (h t) hc hr
    have hchannel : w'.channel t = none := by simp [← hw', remove]
    have hlinkt : w'.link t = w.link t := by simp [← hw', remove]
    have hused : w'.used = w.used := by simp [← hw', remove]
    have hopened : w'.opened = w.opened := by simp [← hw', remove]
    have hreceived : w'.received = w.received := by simp [← hw', remove]
    have hlives := not_lives_of_none hchannel
    revert s
    refine forall_side t ?_ ?_
    · refine ⟨?_, ?_, ?_, ?_, ?_, ?_, ?_, ?_, ?_, ?_, ?_⟩
      · rw [hopened, hreceived, hlinkt]
        exact (h t).fifo
      · exact .even (by rw [hopened, hreceived, hlength]) (by simp [← hw', remove])
          (by simp [hchannel])
      · simp [hchannel]
      · intro l r' l' hsplit
        rw [hlinkt] at hsplit
        rw [hsplit] at hnil
        simp at hnil
      · rw [hopened, hlinkt, hreceived]
        exact (h t).paired
      · rw [hopened]
        exact (h t).nodup
      · simp [hchannel]
      · exact fun r' _ => hlives r'
      · exact fun r' hlive => absurd hlive (hlives r')
      · rw [hlinkt, hused]
        exact (h t).used_close
      · rw [hopened, hused]
        exact (h t).used_opened
    · refine (h t.other).stay [.close r] (by simp [← hw', remove, hlink]) (by simp [← hw', remove])
        (by simp [← hw', remove]) (by rw [hused]) (by rw [hopened]) (by rw [hreceived])
        (by simp [hreceived]) ?_
      intro d hd r' hr'
      have hold := (h t.other).partner d hd r' hr'
      rw [Side.other_other] at hold ⊢
      rw [hlinkt]
      rcases hold with hlive | hends
      · rw [lives_iff_id_eq hc] at hlive
        exact absurd (hlive ▸ hr') (hfree d hd)
      · exact .inr hends
  · have hchannel : w'.channel = w.channel := by rw [← hw']
    have hlives (s : Side) (r : ι) : Lives w' s r ↔ Lives w s r := by rw [Lives, hchannel, Lives]
    have hlinkt : w'.link t = w.link t := by simp [← hw']
    revert s
    refine forall_side t ?_ ?_
    · refine (h t).stay [] hlinkt.symm (by rw [hchannel]) (by simp [← hw']) (by simp [← hw'])
        (by simp [← hw']) (by simp [← hw']) (by simp [← hw']) ?_
      intro c hc r' hr'
      have hne : r' ≠ r := by
        rintro rfl
        exact hpaired (by rw [hc]; exact hr')
      rw [hlives]
      refine ((h t).partner c hc r' hr').imp_right fun hends => ?_
      rw [hlink] at hends
      have htail := (hends.tail (by simpa using hne.symm)).1
      simpa [← hw'] using htail
    · refine (h t.other).stay [.close r] (by simp [← hw', hlink]) (by rw [hchannel])
        (by simp [← hw']) (by simp [← hw']) (by simp [← hw']) (by simp [← hw']) (by simp [← hw']) ?_
      intro c hc r' hr'
      have hold := (h t.other).partner c hc r' hr'
      rw [Side.other_other] at hold ⊢
      rw [hlives, hlinkt]
      exact hold

/-- **An allowed turn keeps the invariant.** -/
theorem sound_step (h : ∀ s, Sound w s) {turn : Turn ι} (hallowed : Allowed w turn) (s : Side) :
    Sound (w.step turn) s := by
  cases turn with
  | create s' id => exact sound_create h hallowed.1 hallowed.2 s
  | «open» s' => exact sound_open h s' s
  | close s' => exact sound_close h hallowed s
  | deliver s' =>
    obtain ⟨t, rfl⟩ : ∃ t : Side, t.other = s' := ⟨s'.other, s'.other_other⟩
    cases hlink : w.link t.other with
    | nil => simpa [step, hlink] using h s
    | cons letter rest =>
      cases letter with
      | «open» r => exact sound_deliver_open h hlink s
      | close r => exact sound_deliver_close h hlink s

omit [DecidableEq ι]

lemma sound_init (s : Side) : Sound ({} : Meeting ι) s where
  fifo := rfl
  stage := .even rfl rfl (by simp)
  partner := by simp
  inFlight := by simp
  paired := by simp
  nodup := List.nodup_nil
  unsent := by simp
  gone := by simp
  used_lives := by simp [Lives]
  used_close := by simp
  used_opened := by simp

/-! ## When all letters are delivered -/

lemma Sound.last_of_sent (h : Sound w s) {c : Local ι} (hc : w.channel s = some c)
    (hsent : c.sent = true) : (w.opened s).getLast? = some c.id ∧
      ((w.opened s).length = (w.received s).length ∧ c.remote ≠ none ∧
        (w.received s).getLast? = c.remote ∨
      (w.opened s).length = (w.received s).length + 1) := by
  cases h.stage with
  | even hlength _ hchannel =>
    rcases hchannel c hc with ⟨hnot, -⟩ | ⟨-, hlast, hremote, hlast'⟩
    · exact absurd (hsent.symm.trans hnot) (by simp)
    · exact ⟨hlast, .inl ⟨hlength, hremote, hlast'⟩⟩
  | waits c' hlength _ hc' _ _ hlast =>
    obtain rfl : c' = c := Option.some.inj (hc'.symm.trans hc)
    exact ⟨hlast, .inr hlength⟩
  | holds _ _ _ _ hchannel => exact absurd (hsent.symm.trans (hchannel c hc).1) (by simp)

/-- **Two channels that were opened are paired** once all letters are delivered. -/
theorem meets (h : ∀ s, Sound w s) (hlink : ∀ s, w.link s = []) {c d : Local ι}
    (hc : w.channel s = some c) (hd : w.channel s.other = some d) (hsent : c.sent = true)
    (hsent' : d.sent = true) : c.remote = some d.id := by
  have hfifo := (h s).fifo
  have hfifo' := (h s.other).fifo
  rw [hlink, opensIn_nil, List.append_nil] at hfifo hfifo'
  rw [Side.other_other] at hfifo'
  obtain ⟨-, ⟨-, -, hlast⟩ | hmore⟩ := (h s).last_of_sent hc hsent
  · obtain ⟨hlast', -⟩ := (h s.other).last_of_sent hd hsent'
    rw [← hlast, ← hfifo', hlast']
  · -- one of the two ends cannot be ahead of the other
    obtain ⟨-, hcase⟩ := (h s.other).last_of_sent hd hsent'
    rw [hfifo', ← hfifo] at hcase
    omega

/-- **The partner of a channel is there** once all letters are delivered. -/
theorem lives_of_remote (h : ∀ s, Sound w s) (hlink : ∀ s, w.link s = []) {c : Local ι} {r : ι}
    (hc : w.channel s = some c) (hr : c.remote = some r) : Lives w s.other r := by
  rcases (h s).partner c hc r hr with hlive | ⟨l, l', hends, -⟩
  · exact hlive
  · rw [hlink] at hends
    simp at hends

end Meeting

end HyperDHT.Protomux
