import HyperDHT.Handlers.Announcements

/-!
# Which announcements are accepted

The decoder of announcements returns what it has read when it meets an error, and drops the cursor that
knows of the error. What a handler can tell of the bytes from the fields that are there is this: the peer
is set only after it was read, the refresh token and the signature also when they were cut off, and the
bump is not looked at.

## Main definitions

* `Handlers.signedCursor`, `Handlers.announceCursor` — where the decoder is after the signature, and
  when it returns.
* `Handlers.CompleteAnnounce` — the decoder has met no error, and knows all the flags.

## Main results

* `Handlers.complete_encodeAnnounceMsg` — the encodings of announcements are complete.
* `Handlers.RpcHandlers.handleAnnounce_accepts` — what is known of a value that is accepted.
* `Handlers.RpcHandlers.not_complete_unknownFlag` — a value with a flag that nobody knows is accepted.
-/

set_option autoImplicit false

namespace HyperDHT.Handlers

open Compact Routing Rpc

/-! ## The cursor of the decoder -/

/-- The cursor after the signature of a message. A cursor that has met an error keeps it. -/
def signedCursor (flags : UInt64) (s : State) : State :=
  let peer := readPeer flags {} s
  let refresh := readRefresh flags peer.1 peer.2
  (readSignature flags refresh.1 refresh.2).2

/-- The cursor when the decoder of announcements returns. -/
def announceCursor (data : List UInt8) : State :=
  let flags := uintDecode (.forDecode data)
  if flags.2.error || flags.1 > 0xFF then flags.2.fail
  else
    let signed := signedCursor flags.1 flags.2
    if flags.1 &&& 8 = 0 then signed else (uintDecode signed).2

/-- **A complete announcement**: every field that the flags name was read without an error, and there is
no flag that is not known. -/
def CompleteAnnounce (data : List UInt8) : Prop :=
  (announceCursor data).error = false ∧ (uintDecode (.forDecode data)).1 &&& 0xF0 = 0

instance (data : List UInt8) : Decidable (CompleteAnnounce data) := inferInstanceAs (Decidable (_ ∧ _))

/-- **The encodings of announcements are complete.** -/
theorem complete_encodeAnnounceMsg (m : AnnounceMessage)
    (h : ∀ p, m.peer = some p → p.relayAddresses.length ≤ arrayMaxLength) :
    CompleteAnnounce (encodeAnnounceMsg m) := by
  have hsigned : signedCursor (flagsOf m) ⟨(m.peer.map encodePeerRecord).getD [] ++
      ((m.refresh.map List.Vector.toList).getD [] ++
        ((m.signature.map List.Vector.toList).getD [] ++
          if m.bump > 0 then uintEncode m.bump else [])), false⟩ =
      ⟨if m.bump > 0 then uintEncode m.bump else [], false⟩ := by
    unfold signedCursor
    rw [readPeer_encode rfl h]
    dsimp only
    rw [readRefresh_encode rfl]
    dsimp only
    rw [readSignature_encode rfl]
  have hknown : flagsOf m &&& 0xF0 = 0 := by
    unfold flagsOf
    split_ifs <;> decide
  have hfits : decide (flagsOf m > 0xFF) = false := decide_eq_false (flagsOf_spec m).1
  have hbump := (flagsOf_spec m).2.2.2.2
  rw [CompleteAnnounce, announceCursor, encodeAnnounceMsg_eq, State.forDecode, uintDecode_uintEncode]
  simp only [hfits, Bool.or_false, Bool.false_eq_true, if_false, hsigned]
  refine ⟨?_, hknown⟩
  split
  · rfl
  next hset =>
    have hread := uintDecode_uintEncode m.bump []
    rw [List.append_nil] at hread
    rw [if_pos (not_not.1 fun hnot => hset (hbump.2 hnot)), hread]

theorem complete_encodeAnnounceMsg_peer : CompleteAnnounce (encodeAnnounceMsg { peer := some {} }) :=
  complete_encodeAnnounceMsg { peer := some {} } (by simp)

/-! ## What the fields tell -/

lemma readPeer_tells (flags : UInt64) (s : State) :
    (readPeer flags {} s).1.refresh = none ∧ (readPeer flags {} s).1.signature = none ∧
      (flags &&& 1 = 0 → (readPeer flags {} s).1.peer = none) ∧
      (flags &&& 1 ≠ 0 → ((readPeer flags {} s).1.peer = none ↔
        (readPeer flags {} s).2.error = true)) := by
  unfold readPeer
  split
  next hclear => exact ⟨rfl, rfl, fun _ => rfl, fun hset => absurd hclear hset⟩
  next hset =>
    dsimp only
    split
    next herror => exact ⟨rfl, rfl, fun _ => rfl, fun _ => by simp [herror]⟩
    · split
      next herror => exact ⟨rfl, rfl, fun _ => rfl, fun _ => by simp [herror]⟩
      next hread => exact ⟨rfl, rfl, fun hclear => absurd hclear hset, fun _ => by simp [hread]⟩

lemma readRefresh_tells (flags : UInt64) {m : AnnounceMessage} (hnone : m.refresh = none)
    (s : State) :
    (readRefresh flags m s).1.peer = m.peer ∧ (readRefresh flags m s).1.signature = m.signature ∧
      ((readRefresh flags m s).1.refresh ≠ none → flags &&& 2 ≠ 0) := by
  unfold readRefresh
  split
  · exact ⟨rfl, rfl, fun h => absurd hnone h⟩
  next hset => exact ⟨rfl, rfl, fun _ => hset⟩

lemma fixedDecode_of_error {n : ℕ} {s : State} (h : (fixedDecode n s).2.error = true) :
    (fixedDecode n s).1 = List.Vector.replicate n 0 := by
  unfold fixedDecode at h ⊢
  split at h
  next hread => simp [State.skip, hread.1] at h
  next hnot => rw [dif_neg hnot]

lemma readSignature_tells (flags : UInt64) {m : AnnounceMessage} (hnone : m.signature = none)
    (s : State) :
    (readSignature flags m s).1.peer = m.peer ∧ (readSignature flags m s).1.refresh = m.refresh ∧
      ∀ signature, (readSignature flags m s).1.signature = some signature → flags &&& 4 ≠ 0 ∧
        ((readSignature flags m s).2.error = true → signature = List.Vector.replicate 64 0) := by
  unfold readSignature
  split
  · exact ⟨rfl, rfl, fun signature h => by rw [hnone] at h; cases h⟩
  next hset =>
    refine ⟨rfl, rfl, fun signature h => ⟨hset, fun herror => ?_⟩⟩
    obtain rfl := Option.some.inj h
    exact fixedDecode_of_error herror

lemma readBump_tells (flags : UInt64) (m : AnnounceMessage) (s : State) :
    (readBump flags m s).peer = m.peer ∧ (readBump flags m s).refresh = m.refresh ∧
      (readBump flags m s).signature = m.signature := by
  unfold readBump
  split <;> exact ⟨rfl, rfl, rfl⟩

/-- The fields before the signature were read. -/
def beforeSignature (flags : UInt64) (s : State) : State :=
  let peer := readPeer flags {} s
  (readRefresh flags peer.1 peer.2).2

/-- What a message with these fields tells of the bytes they were read from. -/
structure Tells (flags : UInt64) (s : State) (m : AnnounceMessage) : Prop where
  /-- A message that has only a refresh token. -/
  refreshOnly : m.peer = none → m.refresh ≠ none → flags &&& 1 = 0 ∧ flags &&& 2 ≠ 0
  /-- A message that has a peer and a signature. -/
  signed : ∀ signature, m.peer ≠ none → m.signature = some signature →
    flags &&& 1 ≠ 0 ∧ flags &&& 4 ≠ 0 ∧ (beforeSignature flags s).error = false ∧
      ((signedCursor flags s).error = true → signature = List.Vector.replicate 64 0)

/-- **What the fields tell**, in spite of the error that is dropped. -/
theorem readFields_tells (flags : UInt64) (s : State) : Tells flags s (readFields flags s) := by
  obtain ⟨hrefresh₁, hsignature₁, hclear, hset⟩ := readPeer_tells flags s
  obtain ⟨hpeer₂, hsignature₂, hrefresh₂⟩ := readRefresh_tells flags hrefresh₁ (readPeer flags {} s).2
  have hnone := hsignature₂.trans hsignature₁
  obtain ⟨hpeer₃, hrefresh₃, hsignature₃⟩ := readSignature_tells flags hnone
    (readRefresh flags (readPeer flags {} s).1 (readPeer flags {} s).2).2
  have hnamed : (readPeer flags {} s).1.peer ≠ none → flags &&& 1 ≠ 0 :=
    fun hpeer hzero => hpeer (hclear hzero)
  unfold readFields
  dsimp only
  split
  next herror =>
    refine ⟨fun _ hsome => absurd hrefresh₁ hsome, fun signature _ hsome => ?_⟩
    rw [hsignature₁] at hsome
    cases hsome
  next hread =>
    have hfree : (readPeer flags {} s).1.peer = none → flags &&& 1 = 0 := fun hpeer =>
      by_contra fun hbit => hread ((hset hbit).1 hpeer)
    split
    next herror =>
      refine ⟨fun hpeer hsome => ⟨hfree (hpeer₂ ▸ hpeer), hrefresh₂ hsome⟩,
        fun signature _ hsome => ?_⟩
      rw [hnone] at hsome
      cases hsome
    next hread₂ =>
      have hbefore : (beforeSignature flags s).error = false := by
        simpa [beforeSignature] using hread₂
      split
      next herror =>
        refine ⟨fun hpeer hsome => ?_, fun signature hpeer hsome => ?_⟩
        · exact ⟨hfree (hpeer₂ ▸ hpeer₃ ▸ hpeer), hrefresh₂ (hrefresh₃ ▸ hsome)⟩
        · obtain ⟨hbit, hzeros⟩ := hsignature₃ signature hsome
          exact ⟨hnamed (hpeer₂ ▸ hpeer₃ ▸ hpeer), hbit, hbefore, hzeros⟩
      next hread₃ =>
        obtain ⟨hpeer₄, hrefresh₄, hsignature₄⟩ := readBump_tells flags
          (readSignature flags (readRefresh flags (readPeer flags {} s).1 (readPeer flags {} s).2).1
            (readRefresh flags (readPeer flags {} s).1 (readPeer flags {} s).2).2).1
          (readSignature flags (readRefresh flags (readPeer flags {} s).1 (readPeer flags {} s).2).1
            (readRefresh flags (readPeer flags {} s).1 (readPeer flags {} s).2).2).2
        refine ⟨fun hpeer hsome => ?_, fun signature hpeer hsome => ?_⟩
        · exact ⟨hfree (hpeer₂ ▸ hpeer₃ ▸ hpeer₄ ▸ hpeer),
            hrefresh₂ (hrefresh₃ ▸ hrefresh₄ ▸ hsome)⟩
        · obtain ⟨hbit, hzeros⟩ := hsignature₃ signature (hsignature₄ ▸ hsome)
          exact ⟨hnamed (hpeer₂ ▸ hpeer₃ ▸ hpeer₄ ▸ hpeer), hbit, hbefore, hzeros⟩

namespace RpcHandlers

/-- What is known of a value that is accepted: it begins with its flags, and it has only a refresh token,
or a record is stored whose fields up to the signature were read. -/
structure Accepts (s s' : RpcHandlers) (now : UInt64) (req : Incoming) (value : List UInt8) :
    Prop where
  flags : (uintDecode (.forDecode value)).2.error = false ∧ (uintDecode (.forDecode value)).1 ≤ 0xFF
  fields :
    let flags := (uintDecode (.forDecode value)).1
    let fields := (uintDecode (.forDecode value)).2
    s' = s ∧ flags &&& 1 = 0 ∧ flags &&& 2 ≠ 0 ∨
      ∃ target signature, req.target = some target ∧
        s' = { s with
          store := s.store.put target
            { fromAddr := req.fromAddr, value, createdAt := now, ttl := s.annTtlMs } } ∧
        (decodeAnnounceMsg value).signature = some signature ∧
        flags &&& 1 ≠ 0 ∧ flags &&& 4 ≠ 0 ∧ (beforeSignature flags fields).error = false ∧
        ((signedCursor flags fields).error = true → signature = List.Vector.replicate 64 0)

/-- **What is known of a value that is accepted.** -/
theorem handleAnnounce_accepts (env : HandlerEnv) (s : RpcHandlers) (now : UInt64) (req : Incoming)
    {value : List UInt8} (hvalue : req.value = some value)
    (h : (s.handleAnnounce env now req).2.isSome = true) :
    Accepts s (s.handleAnnounce env now req).1 now req value := by
  have hread : decodeAnnounceMsg value ≠ {} →
      ((uintDecode (.forDecode value)).2.error = false ∧
        (uintDecode (.forDecode value)).1 ≤ 0xFF) ∧
      Tells (uintDecode (.forDecode value)).1 (uintDecode (.forDecode value)).2
        (decodeAnnounceMsg value) := by
    intro hsome
    unfold decodeAnnounceMsg at hsome ⊢
    dsimp only at hsome ⊢
    split at hsome
    · exact absurd rfl hsome
    next hflags =>
      rw [if_neg hflags]
      rw [Bool.or_eq_true, not_or, Bool.not_eq_true, decide_eq_true_eq] at hflags
      exact ⟨⟨hflags.1, UInt64.not_lt.1 hflags.2⟩, readFields_tells _ _⟩
  unfold handleAnnounce at h ⊢
  rw [hvalue] at h ⊢
  cases htarget : req.target with
  | none => simp [htarget] at h
  | some target =>
    cases htoken : req.token with
    | none => simp [htarget, htoken] at h
    | some token =>
      simp only [htarget, htoken] at h ⊢
      split at h
      · cases h
      next hvalid =>
        rw [if_neg hvalid]
        cases hpeer : (decodeAnnounceMsg value).peer with
        | none =>
          simp only [hpeer] at h ⊢
          have hrefresh : (decodeAnnounceMsg value).refresh ≠ none := by
            intro hnone
            simp [hnone] at h
          obtain ⟨hflags, htells⟩ := hread fun hempty => hrefresh (by rw [hempty])
          exact ⟨hflags, .inl ⟨rfl, htells.refreshOnly hpeer hrefresh⟩⟩
        | some peer =>
          simp only [hpeer] at h ⊢
          cases hsignature : (decodeAnnounceMsg value).signature with
          | none => simp [hsignature] at h
          | some signature =>
            simp only [hsignature] at h ⊢
            split at h
            next hverify =>
              rw [if_pos hverify]
              obtain ⟨hflags, htells⟩ := hread fun hempty => by
                rw [hempty] at hpeer
                cases hpeer
              refine ⟨hflags, .inr ⟨target, signature, htarget, rfl, hsignature, ?_⟩⟩
              exact htells.signed signature (by simp [hpeer]) hsignature
            · cases h

set_option maxRecDepth 10000 in
/-- A signed announcement is accepted. -/
theorem handleAnnounce_accepts_signed :
    Accepts freshHandlers
      (freshHandlers.handleAnnounce namedSignerEnv 0 (signedRequest cmdAnnounce 9 someAddr)).1 0
      (signedRequest cmdAnnounce 9 someAddr) (signedMessage 9) :=
  handleAnnounce_accepts namedSignerEnv freshHandlers 0 _ rfl (by decide +kernel)

def withUnknownFlag : List UInt8 := 0x15 :: (signedMessage 9).tail

def unknownFlagRequest : Incoming where
  fromAddr := someAddr
  token := some someTokens.current
  command := cmdAnnounce
  target := some someTarget
  value := some withUnknownFlag
  valueFits := by
    intro v hv
    rw [← Option.some.inj hv, withUnknownFlag, List.length_cons, List.length_tail,
      length_signedMessage]
    decide

set_option maxRecDepth 10000 in
/-- **A value with a flag that nobody knows is accepted**: it is stored, and answered. -/
theorem not_complete_unknownFlag :
    (freshHandlers.handleAnnounce namedSignerEnv 0 unknownFlagRequest).2.isSome = true ∧
      ((freshHandlers.handleAnnounce namedSignerEnv 0 unknownFlagRequest).1.store.get
        someTarget).map (·.value) = [withUnknownFlag] ∧
      ¬ CompleteAnnounce withUnknownFlag := by
  decide +kernel

end RpcHandlers

end HyperDHT.Handlers
