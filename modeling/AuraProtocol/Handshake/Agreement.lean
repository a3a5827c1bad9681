import AuraProtocol.Handshake.Honest

/-!
# What a completed handshake agrees on

If the responder accepted some init message and the initiator accepted the
responder's acknowledgement, both had the same bundle, the same init message and
the same root key, whatever happened to the messages on the way.  The
acknowledgement MAC covers the transcript, and the transcript carries the bundle
and all of the init message but its own MAC; that MAC is then equal because each
side computed it from the same root key and transcript.

Hash functions are not injective, so the assumption is that the two runs do not
produce a collision (`CollisionFree`).
-/

namespace AuraProtocol.Handshake

open Fallible Proto List

variable {c : Crypto} {w : Wire}

/-! ## Transcripts -/

/-- A `u32` length prefix determines where the first of two strings ends. -/
theorem lengthPrefixed_inj {x y x' y' : Bytes} (hx : x.length < 2 ^ 32) (hx' : x'.length < 2 ^ 32)
    (h : leBytes 4 x.length ++ x ++ y = leBytes 4 x'.length ++ x' ++ y') : x = x' ∧ y = y' := by
  rw [append_assoc, append_assoc] at h
  obtain ⟨hlen, h⟩ := append_inj h (by rw [length_leBytes, length_leBytes])
  exact append_inj h (leBytes_injective hx hx' hlen)

theorem transcript_inj {b b' : PreKeyBundle} {i i' : HandshakeInit}
    (hb : (w.preKeyBundle.encode b).length < 2 ^ 32)
    (hb' : (w.preKeyBundle.encode b').length < 2 ^ 32)
    (hi : (w.handshakeInit.encode (clearMac i)).length < 2 ^ 32)
    (hi' : (w.handshakeInit.encode (clearMac i')).length < 2 ^ 32)
    (h : transcript w b i = transcript w b' i') : b = b' ∧ clearMac i = clearMac i' := by
  simp only [transcript, append_assoc] at h
  simp only [← append_assoc (leBytes 4 (w.preKeyBundle.encode _).length)] at h
  obtain ⟨hbundle, h⟩ := lengthPrefixed_inj hb hb' h
  have h' : leBytes 4 (w.handshakeInit.encode (clearMac i)).length ++
      w.handshakeInit.encode (clearMac i) ++ [] =
      leBytes 4 (w.handshakeInit.encode (clearMac i')).length ++
        w.handshakeInit.encode (clearMac i') ++ [] := by
    rw [append_nil, append_nil, h]
  exact ⟨w.preKeyBundle.encode_injective hbundle,
    w.handshakeInit.encode_injective (lengthPrefixed_inj hi hi' h').1⟩

/-! ## Agreement -/

/-- The HMAC computations behind an acknowledgement. -/
def ackQueries (c : Crypto) (w : Wire) (b : PreKeyBundle) (i : HandshakeInit) (rootKey : Bytes) :
    Set (Bytes × Bytes) :=
  {(transcriptLabel, transcript w b i),
    (confirmKeyOf c rootKey keyConfirmRespInfo, buildTranscriptHash c w b i)}

/-- The acknowledgements of two runs with the given bundles, init messages and root keys are
computed without a collision of HMAC or HKDF. -/
structure CollisionFree (c : Crypto) (w : Wire) (b₁ : PreKeyBundle) (i₁ : HandshakeInit)
    (rootKey₁ : Bytes) (b₂ : PreKeyBundle) (i₂ : HandshakeInit) (rootKey₂ : Bytes) : Prop where
  hmac : Set.InjOn (fun q : Bytes × Bytes => c.hmacSha256 q.1 q.2)
    (ackQueries c w b₁ i₁ rootKey₁ ∪ ackQueries c w b₂ i₂ rootKey₂)
  hkdf : Set.InjOn (fun rootKey => confirmKeyOf c rootKey keyConfirmRespInfo) {rootKey₁, rootKey₂}

/-- Equal acknowledgement MACs come from equal transcripts and root keys. -/
theorem CollisionFree.of_ackMac {b₁ b₂ : PreKeyBundle} {i₁ i₂ : HandshakeInit}
    {rootKey₁ rootKey₂ : Bytes} (h : CollisionFree c w b₁ i₁ rootKey₁ b₂ i₂ rootKey₂)
    (hmac : c.hmacSha256 (confirmKeyOf c rootKey₁ keyConfirmRespInfo)
        (buildTranscriptHash c w b₁ i₁) =
      c.hmacSha256 (confirmKeyOf c rootKey₂ keyConfirmRespInfo) (buildTranscriptHash c w b₂ i₂)) :
    rootKey₁ = rootKey₂ ∧ transcript w b₁ i₁ = transcript w b₂ i₂ := by
  have hquery := h.hmac (.inl (.inr rfl)) (.inr (.inr rfl)) hmac
  have hkey : confirmKeyOf c rootKey₁ keyConfirmRespInfo =
    confirmKeyOf c rootKey₂ keyConfirmRespInfo := congrArg Prod.fst hquery
  have hhash : buildTranscriptHash c w b₁ i₁ = buildTranscriptHash c w b₂ i₂ :=
    congrArg Prod.snd hquery
  exact ⟨h.hkdf (.inl rfl) (.inr rfl) hkey,
    congrArg Prod.snd (h.hmac (.inl (.inl rfl)) (.inr (.inl rfl)) hhash)⟩

/-- Two equal runs collide only if their own two MACs do. -/
theorem CollisionFree.of_ne {b : PreKeyBundle} {i : HandshakeInit} {rootKey : Bytes}
    (h : buildTranscriptHash c w b i ≠ c.hmacSha256 (confirmKeyOf c rootKey keyConfirmRespInfo)
      (buildTranscriptHash c w b i)) : CollisionFree c w b i rootKey b i rootKey where
  hmac := by
    rw [Set.union_self]
    rintro p (rfl | rfl) q (rfl | rfl) hpq
    · rfl
    · exact absurd hpq h
    · exact absurd hpq.symm h
    · rfl
  hkdf := by
    rw [Set.pair_eq_singleton]
    exact Set.injOn_singleton _ _

theorem buildProtocolState_rootKey {a : Session.BuildArgs} {state : Session.ProtocolState}
    (h : Session.buildProtocolState c a = .ok state) : state.rootKey = a.rootKey := by
  simp only [Session.buildProtocolState, except_bind_eq_ok, Except.ok.injEq] at h
  obtain ⟨_, -, _, -, _, -, rfl⟩ := h
  rfl

/-- An initiator that accepts the acknowledgement of a responder has the responder's MAC. -/
theorem finish_eq_ok {i : HandshakeInitiator} {ack : HandshakeAck} {s : Session.SessionInner}
    (h : i.finish c w (w.handshakeAck.encode ack) = .ok s) :
    i.expectedAckMac = ack.keyConfirmationMac := by
  simp only [HandshakeInitiator.finish, w.handshakeAck.decode_encode, except_bind_eq_ok,
    mapError_eq_ok, require_eq_ok, Except.ok.injEq] at h
  obtain ⟨_, -, _, rfl, _, -, _, -, _, hmac, -⟩ := h
  exact hmac

/-- Both ends of a completed handshake have the same bundle, init message and root key, also
when the init message was modified on its way to the responder. -/
theorem finish_agrees {w : Wire} {nowI nowR : Except ProtocolError ℕ} {e : StartEntropy}
    {noncePrefix initMessageBytes : Bytes} {b₁ b₂ : PreKeyBundle} {max₁ max₂ : UInt32}
    {kI kI' kR kR' : IdentityKeys c} {i : HandshakeInitiator} {r : HandshakeResponder}
    {s : Session.SessionInner}
    (hstart : (start c w nowI e b₁ max₁).run kI = .ok i kI')
    (hprocess : (process c w nowR noncePrefix b₂ initMessageBytes max₂).run kR = .ok r kR')
    (hfinish : i.finish c w r.ackBytes = .ok s)
    (hcoll : ∀ i₂, w.handshakeInit.decode initMessageBytes = .ok i₂ →
      CollisionFree c w b₁ i.initMessage i.sessionState.state.rootKey b₂ i₂
        r.sessionState.state.rootKey) :
    b₁ = b₂ ∧ w.handshakeInit.decode initMessageBytes = .ok i.initMessage ∧
      i.sessionState.state.rootKey = r.sessionState.state.rootKey := by
  obtain ⟨hb₁, -, -, -, hs⟩ := start_eq_ok hstart
  obtain ⟨i₂, hacc, -⟩ := process_eq_ok.mp hprocess
  have hr := respond_eq_ok hacc.respond
  obtain ⟨_, -, hstateI⟩ := hs.state
  obtain ⟨_, -, hstateR⟩ := hr.state
  have hrootI : i.sessionState.state.rootKey =
      (initiatorSecrets e b₁ kI (ephemeralOf e kI)).rootKey := buildProtocolState_rootKey hstateI
  have hrootR : r.sessionState.state.rootKey =
      (responderSecrets kR (namedOpk kR i₂) b₂ i₂).rootKey := buildProtocolState_rootKey hstateR
  have hclear : clearMac i.initMessage =
      clearMac (startedInit e b₁ max₁ kI (ephemeralOf e kI)) := by
    rw [hs.initMessage]
    rfl
  have htranscript : ∀ b, transcript w b i.initMessage =
      transcript w b (startedInit e b₁ max₁ kI (ephemeralOf e kI)) := fun b ↦ by
    rw [transcript, transcript, hclear]
  have hhash : ∀ b, buildTranscriptHash c w b i.initMessage =
      buildTranscriptHash c w b (startedInit e b₁ max₁ kI (ephemeralOf e kI)) := fun b ↦ by
    rw [buildTranscriptHash, buildTranscriptHash, htranscript]
  rw [hr.ackBytes] at hfinish
  have hack := finish_eq_ok hfinish
  rw [hs.expectedAckMac, hr.ackMessage, ← hhash] at hack
  obtain ⟨hroot, htrans⟩ := (hcoll i₂ hacc.decode).of_ackMac (by rw [hrootI, hrootR]; exact hack)
  have hsized := validateInitMessage_sized hr.valid
  obtain ⟨rfl, hinit⟩ := transcript_inj (hb₁.length_encode_lt w)
    ((validateBundle_eq_ok.mp hacc.bundle).length_encode_lt w)
    (by rw [hclear]; exact length_encode_clearMac_lt (startedInit_sized _ _ _ _ _) w)
    (length_encode_clearMac_lt hsized w) htrans
  refine ⟨rfl, ?_, hroot⟩
  -- the MAC field is not in the transcript, but both sides compute it from the same data
  have hmac : i.initMessage.keyConfirmationMac = i₂.keyConfirmationMac := by
    rw [hs.initMessage, hr.keyConfirmationMac]
    change c.hmacSha256 (confirmKeyOf c _ _) _ = c.hmacSha256 (confirmKeyOf c _ _) _
    rw [← hhash, buildTranscriptHash, buildTranscriptHash, htrans]
    rw [hrootI, hrootR] at hroot
    exact congrArg (fun rootKey ↦ c.hmacSha256 (confirmKeyOf c rootKey keyConfirmInitInfo) _) hroot
  have heq : i.initMessage = i₂ := by
    have hset : ∀ x : HandshakeInit,
        x = { clearMac x with keyConfirmationMac := x.keyConfirmationMac } := fun _ ↦ rfl
    rw [hset i.initMessage, hset i₂, hinit, hmac]
  rw [heq]
  exact hacc.decode

/-- Both ends of a handshake on a sample bundle, whose MACs stay apart. -/
def sampleFinish (kI kR : IdentityKeys .transparent) : Except ProtocolError Unit := do
  let b := kR.createPublicBundle
  let (i, _) ← onCopy (start .transparent .protobuf (.ok 5) (sampleStart 1) b 1000) kI
  let (r, _) ← onCopy (process .transparent .protobuf (.ok 6) [] b i.initBytes 1000) kR
  let _ ← i.finish .transparent .protobuf r.ackBytes
  require (Wire.protobuf.handshakeInit.decode i.initBytes = .ok i.initMessage) (.handshake "")
  require (i.sessionState.state.rootKey = r.sessionState.state.rootKey) (.handshake "")
  let hash := buildTranscriptHash .transparent .protobuf b i.initMessage
  require (hash ≠ Crypto.transparent.hmacSha256 (confirmKeyOf .transparent
    r.sessionState.state.rootKey keyConfirmRespInfo) hash) (.handshake "")

theorem finish_agrees_sample :
    let kI := sampleIdentity 1 0 (by decide)
    let kR := sampleIdentity 2 3 (by decide)
    let b := kR.createPublicBundle
    ∃ i kI' r kR' s,
      (start Crypto.transparent .protobuf (.ok 5) (sampleStart 1) b 1000).run kI = .ok i kI' ∧
      (process Crypto.transparent .protobuf (.ok 6) [] b i.initBytes 1000).run kR = .ok r kR' ∧
      i.finish Crypto.transparent .protobuf r.ackBytes = .ok s ∧
      i.sessionState.state.rootKey = r.sessionState.state.rootKey := by
  intro kI kR b
  have h := eq_ok_get_toOption (by decide +kernel : (sampleFinish kI kR).toOption.isSome = true)
  simp only [sampleFinish, except_bind_eq_ok, onCopy_eq_ok, require_eq_ok] at h
  obtain ⟨⟨i, kI'⟩, hi, ⟨r, kR'⟩, hr, s, hs, _, hdecode, _, hroot, hne⟩ := h
  refine ⟨i, kI', r, kR', s, hi, hr, hs, (finish_agrees hi hr hs fun j hj ↦ ?_).2.2⟩
  cases hdecode.symm.trans hj
  rw [hroot]
  exact .of_ne hne

end AuraProtocol.Handshake
