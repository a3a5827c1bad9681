import AuraProtocol.Handshake.Derivation

/-!
# The responder

`HandshakeResponder::process` and `finish`.  A call reserves the fingerprint of
the init message first, releases it again when a later step fails, consumes the
one-time pre-key when all checks have passed and only then remembers the
fingerprint.  An external replay guard, if there is one, is asked at each of
these points; its answers are an argument.
-/

namespace AuraProtocol.Handshake

open Fallible Proto IdentityKeys
open Session (readBytes SessionInner HandshakeState)

variable {fingerprint initMessageBytes : Bytes}

/-- `HandshakeResponder`; `finish` consumes it, so its state is always there. -/
structure HandshakeResponder where
  ackMessage : HandshakeAck
  ackBytes : Bytes
  sessionState : HandshakeState

/-- The answers of a `HandshakeInitReplayGuard` during one call. -/
structure GuardReplies where
  reserve : Except ProtocolError Bool
  commit : Except ProtocolError Unit
  release : Except ProtocolError Unit

/-- The error of a repeated init message. -/
def replayDetected : ProtocolError :=
  .replayAttack "Replay attack detected: duplicate HandshakeInit"

variable {c : Crypto}

/-- The reservation at the external guard. -/
def reserveAtGuard : Option GuardReplies → IdentityM c Unit
  | some g => do
    let isFresh ← lift g.reserve
    lift (require (isFresh = true) replayDetected)
  | none => pure ()

/-- The release at the external guard. -/
def releaseAtGuard : Option GuardReplies → IdentityM c Unit
  | some g => lift g.release
  | none => pure ()

/-- `HandshakeInitReplayReservation::reserve`. -/
def reserve (fingerprint : Bytes) (guard : Option GuardReplies) : IdentityM c Unit := do
  reserveAtGuard guard
  let isFresh ← reserveHandshakeInitFingerprint fingerprint
  if isFresh = true then pure ()
  else do
    releaseAtGuard guard
    lift (.error replayDetected)

/-- The commit at the external guard.  If the guard refuses, the fingerprint is forgotten; what
the window evicted for it does not come back. -/
def commitAtGuard (fingerprint : Bytes) : Option GuardReplies → IdentityM c Unit
  | none => pure ()
  | some g =>
    match g.commit with
    | .ok () => pure ()
    | .error commitErr => do
      modify (forgetting fingerprint)
      lift g.release
      lift (.error commitErr)

/-- `HandshakeInitReplayReservation::commit`. -/
def commit (fingerprint : Bytes) (guard : Option GuardReplies) : IdentityM c Unit := do
  rememberHandshakeInitFingerprint fingerprint
  commitAtGuard fingerprint guard

/-- The fourth Diffie–Hellman secret, which is there only with a one-time pre-key. -/
def responderDh4 (c : Crypto) (ephemeralPublic : Bytes) :
    Option Bytes → Except ProtocolError Bytes
  | some opkPrivate => computeDh c opkPrivate ephemeralPublic "DH4"
  | none => .ok []

/-- The private key of the one-time pre-key an init message names. -/
def namedOpkPrivate (k : IdentityKeys c) : Option UInt32 → Except ProtocolError (Option Bytes)
  | some id => do
    let sk ← k.getOneTimePreKeyPrivateById id
    .ok (some sk)
  | none => .ok none

/-- What the responder passes to `build_protocol_state`. -/
def responderArgs (k : IdentityKeys c) (localBundle : PreKeyBundle) (init : HandshakeInit)
    (secrets : Secrets) (spkPrivate kyberSecret noncePrefix : Bytes) (max : UInt32)
    (createdAtUnix : ℕ) : Session.BuildArgs where
  isInitiator := false
  rootKey := secrets.rootKey
  sessionId := secrets.sessionId
  metadataKey := secrets.metadataKey
  dhLocalPrivate := spkPrivate
  dhLocalPublic := localBundle.signedPreKeyPublic
  dhRemotePublic := init.initiatorEphemeralX25519Public
  initialSelfPublic := localBundle.signedPreKeyPublic
  initialPeerPublic := init.initiatorEphemeralX25519Public
  kyberSecret := kyberSecret
  kyberPublic := k.kyber.publicKey
  peerKyberPublic := init.initiatorKyberPublic
  maxMessagesPerChain := max.toNat
  maxNonceCounter := AuraProtocol.maxNonceCounter
  nonceGenerator := { noncePrefix := noncePrefix, counter := 0 }
  createdAtUnix := createdAtUnix
  localIdentityEd25519 := localBundle.identityEd25519Public
  localIdentityX25519 := localBundle.identityX25519Public
  peerIdentityEd25519 := init.initiatorIdentityEd25519Public
  peerIdentityX25519 := init.initiatorIdentityX25519Public

/-- The part of `process` between the reservation and the consumption of the one-time
pre-key. -/
def respond (c : Crypto) (w : Wire) (now : Except ProtocolError ℕ) (noncePrefix : Bytes)
    (localBundle : PreKeyBundle) (init : HandshakeInit) (max : UInt32) (k : IdentityKeys c) :
    Except ProtocolError HandshakeResponder := do
  validateInitMessage c init
  require (localBundle.identityEd25519Public ≠ init.initiatorIdentityEd25519Public)
    (.invalidInput "Reflexion attack: initiator identity key matches local identity key")
  require (init.maxMessagesPerChain = max) (.invalidInput "Handshake ratchet config mismatch")
  let opkPrivate ← namedOpkPrivate k init.oneTimePreKeyId
  let spkPrivate ← readBytes k.signedPreKey.secretKey x25519PrivateKeyBytes
  let identityPrivate ← readBytes k.identityX25519.secretKey x25519PrivateKeyBytes
  let dh1 ← computeDh c spkPrivate init.initiatorIdentityX25519Public "DH1"
  let dh2 ← computeDh c identityPrivate init.initiatorEphemeralX25519Public "DH2"
  let dh3 ← computeDh c spkPrivate init.initiatorEphemeralX25519Public "DH3"
  let dh4 ← responderDh4 c init.initiatorEphemeralX25519Public opkPrivate
  let classical ← HkdfSha256.deriveKeyBytes c (x3dhIkm dh1 dh2 dh3 dh4) rootKeyBytes [] x3dhInfo
  let kyberSharedSecret ← k.decapsulateKyberCiphertext init.kyberCiphertext
  let secrets ← deriveSecrets c classical kyberSharedSecret init.kyberCiphertext
    localBundle.signedPreKeyPublic init.initiatorEphemeralX25519Public
  let transcriptHash := buildTranscriptHash c w localBundle init
  let expectedInitMac ← computeHmacSha256 c secrets.confirmInit transcriptHash
  require (expectedInitMac = init.keyConfirmationMac)
    (.handshake "Initiator key confirmation failed")
  let ackMac ← computeHmacSha256 c secrets.confirmResp transcriptHash
  let ackMessage : HandshakeAck :=
    { version := UInt32.ofNat protocolVersion, keyConfirmationMac := ackMac }
  let kyberSecret ← readBytes k.kyber.secretKey kyberSecretKeyBytes
  require (k.kyber.publicKey.length = kyberPublicKeyBytes)
    (.prepareLocal "Invalid local Kyber public key size")
  let createdAtUnix ← now
  let state ← Session.buildProtocolState c (responderArgs k localBundle init secrets spkPrivate
    kyberSecret noncePrefix max createdAtUnix)
  .ok { ackMessage := ackMessage
        ackBytes := w.handshakeAck.encode ackMessage
        sessionState := { state := state, kyberSharedSecret := kyberSharedSecret } }

/-- The end of `process`: the one-time pre-key goes before the fingerprint is remembered. -/
def consumeNamedOpk : Option UInt32 → IdentityM c Unit
  | some id => do
    let _ ← consumeOneTimePreKeyById id
    pure ()
  | none => pure ()

/-- The steps of `process` that release the reservation when they fail. -/
def respondAndConsume (c : Crypto) (w : Wire) (now : Except ProtocolError ℕ)
    (noncePrefix : Bytes) (localBundle : PreKeyBundle) (init : HandshakeInit) (max : UInt32) :
    IdentityM c HandshakeResponder := do
  let responder ← reads (respond c w now noncePrefix localBundle init max)
  consumeNamedOpk init.oneTimePreKeyId
  pure responder

/-- `HandshakeResponder::process_with_replay_guard`. -/
def processWithReplayGuard (c : Crypto) (w : Wire) (now : Except ProtocolError ℕ)
    (noncePrefix : Bytes) (localBundle : PreKeyBundle) (initMessageBytes : Bytes) (max : UInt32)
    (guard : Option GuardReplies) : IdentityM c HandshakeResponder := do
  lift (validateBundle c localBundle)
  lift (validateMaxMessagesPerChain max)
  lift (require (initMessageBytes.length ≤ maxHandshakeMessageSize)
    (.invalidInput "Message too large"))
  let init ← lift ((w.handshakeInit.decode initMessageBytes).mapError fun err =>
    .decode s!"Failed to parse HandshakeInit: {err}")
  let fingerprint := buildHandshakeInitFingerprint c w init
  reserve fingerprint guard
  let responder ← onError (respondAndConsume c w now noncePrefix localBundle init max)
    (releaseHandshakeInitFingerprint fingerprint)
  commit fingerprint guard
  pure responder

/-- `HandshakeResponder::process`: no external replay guard. -/
def process (c : Crypto) (w : Wire) (now : Except ProtocolError ℕ) (noncePrefix : Bytes)
    (localBundle : PreKeyBundle) (initMessageBytes : Bytes) (max : UInt32) :
    IdentityM c HandshakeResponder :=
  processWithReplayGuard c w now noncePrefix localBundle initMessageBytes max none

variable {guard : Option GuardReplies}

def HandshakeResponder.finish (c : Crypto) (r : HandshakeResponder) :
    Except ProtocolError SessionInner :=
  Session.fromHandshakeState c r.sessionState

/-! ## What an accepted init message has gone through -/

section Responded

variable {w : Wire} {now : Except ProtocolError ℕ} {noncePrefix : Bytes} {b : PreKeyBundle}
  {init : HandshakeInit} {max : UInt32} {k k' : IdentityKeys c} {r : HandshakeResponder}

/-- The one-time pre-key an init message names, if it is in the pool. -/
def namedOpk (k : IdentityKeys c) (init : HandshakeInit) : Option (OneTimePreKey c) :=
  init.oneTimePreKeyId.bind k.findOneTimePreKey

/-- The input of the responder's classical derivation. -/
def responderIkm (k : IdentityKeys c) (opk : Option (OneTimePreKey c)) (init : HandshakeInit) :
    Bytes :=
  x3dhIkm (c.x25519 k.signedPreKey.secretKey init.initiatorIdentityX25519Public)
    (c.x25519 k.identityX25519.secretKey init.initiatorEphemeralX25519Public)
    (c.x25519 k.signedPreKey.secretKey init.initiatorEphemeralX25519Public)
    (opk.elim [] fun o => c.x25519 o.secretKey init.initiatorEphemeralX25519Public)

/-- The keys the responder derives. -/
def responderSecrets (k : IdentityKeys c) (opk : Option (OneTimePreKey c)) (b : PreKeyBundle)
    (init : HandshakeInit) : Secrets :=
  .of c (classicalShared c (responderIkm k opk init))
    (c.kemDecaps k.kyber.secretKey init.kyberCiphertext) init.kyberCiphertext
    b.signedPreKeyPublic init.initiatorEphemeralX25519Public

/-- What a successful `process` checked and computed. -/
structure Responded (w : Wire) (now : Except ProtocolError ℕ) (noncePrefix : Bytes)
    (b : PreKeyBundle) (init : HandshakeInit) (max : UInt32) (k : IdentityKeys c)
    (r : HandshakeResponder) : Prop where
  valid : validateInitMessage c init = .ok ()
  reflexion : b.identityEd25519Public ≠ init.initiatorIdentityEd25519Public
  maxMessagesPerChain : init.maxMessagesPerChain = max
  opk : ∀ id, init.oneTimePreKeyId = some id → ∃ o, k.findOneTimePreKey id = some o
  keyConfirmationMac : init.keyConfirmationMac =
    c.hmacSha256 (responderSecrets k (namedOpk k init) b init).confirmInit
      (buildTranscriptHash c w b init)
  ackMessage : r.ackMessage =
    { version := UInt32.ofNat protocolVersion
      keyConfirmationMac := c.hmacSha256 (responderSecrets k (namedOpk k init) b init).confirmResp
        (buildTranscriptHash c w b init) }
  ackBytes : r.ackBytes = w.handshakeAck.encode r.ackMessage
  kyberSharedSecret :
    r.sessionState.kyberSharedSecret = c.kemDecaps k.kyber.secretKey init.kyberCiphertext
  state : ∃ createdAtUnix, now = .ok createdAtUnix ∧
    Session.buildProtocolState c (responderArgs k b init
      (responderSecrets k (namedOpk k init) b init) k.signedPreKey.secretKey k.kyber.secretKey
      noncePrefix max createdAtUnix) = .ok r.sessionState.state

theorem namedOpkPrivate_eq_ok {opkPrivate : Option Bytes}
    (h : namedOpkPrivate k init.oneTimePreKeyId = .ok opkPrivate) :
    opkPrivate = (namedOpk k init).map (·.secretKey) ∧
      ∀ id, init.oneTimePreKeyId = some id → ∃ o, k.findOneTimePreKey id = some o := by
  cases hid : init.oneTimePreKeyId with
  | none =>
    rw [hid] at h
    exact ⟨by rw [namedOpk, hid]; exact (Except.ok.inj h).symm, fun id h => (by cases h)⟩
  | some id =>
    rw [hid] at h
    simp only [namedOpkPrivate, getOneTimePreKeyPrivateById, except_bind_eq_ok,
      orError_eq_ok, Except.ok.injEq] at h
    obtain ⟨sk, ⟨o, ho, hsk⟩, rfl⟩ := h
    rw [Session.readBytes_of_length_eq o.length_secretKey] at hsk
    cases hsk
    refine ⟨by rw [namedOpk, hid, Option.bind_some, ho, Option.map_some], ?_⟩
    rintro _ ⟨⟩
    exact ⟨o, ho⟩

theorem responderDh4_eq_ok {ephPublic dh4 : Bytes} {opk : Option (OneTimePreKey c)}
    (h : responderDh4 c ephPublic (opk.map (·.secretKey)) = .ok dh4) :
    dh4 = opk.elim [] fun o => c.x25519 o.secretKey ephPublic := by
  cases opk with
  | none => exact (Except.ok.inj h).symm
  | some o => exact (computeDh_eq_ok.mp h).2.2

theorem decapsulateKyberCiphertext_eq_ok {ciphertext ss : Bytes} :
    k.decapsulateKyberCiphertext ciphertext = .ok ss ↔
      KyberInterop.validateCiphertext ciphertext = .ok () ∧
        ss = c.kemDecaps k.kyber.secretKey ciphertext := by
  have hsk := k.kyber.length_secretKey
  have hss : (c.kemDecaps k.kyber.secretKey ciphertext).length = kyberSharedSecretBytes :=
    c.length_kemDecaps _ _
  rw [decapsulateKyberCiphertext, except_seq_eq_ok]
  refine and_congr_right fun hct => ?_
  have hlen : ciphertext.length = kyberCiphertextBytes := by
    simp only [KyberInterop.validateCiphertext, except_seq_eq_ok, require_eq_ok] at hct
    exact hct.1
  rw [KyberInterop.decapsulate, if_neg (not_not.mpr hlen), if_neg hsk.not_lt,
    List.take_of_length_le hsk.le]
  change readBytes _ _ = _ ↔ _
  rw [Session.readBytes_of_length_eq hss, Except.ok.injEq, eq_comm]

theorem respond_eq_ok (h : respond c w now noncePrefix b init max k = .ok r) :
    Responded w now noncePrefix b init max k r := by
  simp only [respond, except_bind_eq_ok, require_eq_ok, computeDh_eq_ok, computeHmacSha256_eq_ok,
    decapsulateKyberCiphertext_eq_ok, deriveClassical_eq, deriveSecrets_eq,
    Except.ok.injEq] at h
  obtain ⟨_, hvalid, _, href, _, hmax, opkPrivate, hopk, spkPrivate, hspk, idPrivate, hid, dh1,
    ⟨-, -, rfl⟩, dh2, ⟨-, -, rfl⟩, dh3, ⟨-, -, rfl⟩, dh4, hdh4, _, rfl, ss, ⟨-, rfl⟩, _, rfl, mac,
    ⟨-, rfl⟩, _, hmac, ack, ⟨-, rfl⟩, kyberSecret, hkyberSecret, _, -, createdAt, hnow, state,
    hstate, rfl⟩ := h
  rw [Session.readBytes_of_length_eq k.signedPreKey.length_secretKey] at hspk
  rw [Session.readBytes_of_length_eq k.identityX25519.length_secretKey] at hid
  rw [Session.readBytes_of_length_eq k.kyber.length_secretKey] at hkyberSecret
  obtain ⟨rfl, hfound⟩ := namedOpkPrivate_eq_ok hopk
  cases hspk
  cases hid
  cases hkyberSecret
  cases responderDh4_eq_ok hdh4
  exact ⟨hvalid, href, hmax, hfound, hmac.symm, rfl, rfl, rfl, createdAt, hnow, hstate⟩

/-- The identity after it accepted an init message: the named one-time pre-key is gone and the
fingerprint is remembered. -/
def acceptedState (k : IdentityKeys c) (fingerprint : Bytes) (opkId : Option UInt32) :
    IdentityKeys c :=
  { opkId.elim k k.eraseOpk with
    recentHandshakeInits := k.recentHandshakeInits.remember maxSeenHandshakeInits fingerprint }

/-- The checks of an init message do not read the fingerprints. -/
theorem respond_reserving (fingerprint : Bytes) :
    respond c w now noncePrefix b init max (k.reserving fingerprint) =
      respond c w now noncePrefix b init max k := rfl

/-- The external guard, if there is one, has not seen the fingerprint. -/
def GuardReserves (guard : Option GuardReplies) : Prop :=
  ∀ g, guard = some g → g.reserve = .ok true

theorem reserveAtGuard_eq_ok {u : Unit} :
    (reserveAtGuard guard).run k = .ok u k' ↔ GuardReserves guard ∧ k' = k := by
  cases guard with
  | none => simp [reserveAtGuard, GuardReserves, eq_comm]
  | some g =>
    simp only [reserveAtGuard, GuardReserves, lift_bind_eq_ok, lift_eq_ok, require_eq_ok,
      Option.some.injEq, forall_eq']
    constructor
    · rintro ⟨isFresh, hreserve, rfl, rfl⟩
      exact ⟨hreserve, rfl⟩
    · rintro ⟨hreserve, rfl⟩
      exact ⟨true, hreserve, rfl, rfl⟩

theorem reserveAtGuard_eq_error {e : ProtocolError} (h : (reserveAtGuard guard).run k = .error e k') :
    k' = k := by
  cases guard with
  | none => cases h
  | some g =>
    rw [reserveAtGuard, lift_bind_eq_error] at h
    obtain ⟨-, rfl⟩ | ⟨_, -, h⟩ := h
    · rfl
    · exact (lift_eq_error.mp h).2

theorem releaseAtGuard_keeps (guard : Option GuardReplies) (k : IdentityKeys c) :
    (∃ u, (releaseAtGuard guard).run k = .ok u k) ∨
      ∃ e, (releaseAtGuard guard).run k = .error e k := by
  cases guard with
  | none => exact .inl ⟨(), rfl⟩
  | some g =>
    cases hrelease : g.release with
    | ok u => exact .inl ⟨u, lift_eq_ok.mpr ⟨hrelease, rfl⟩⟩
    | error e => exact .inr ⟨e, lift_eq_error.mpr ⟨hrelease, rfl⟩⟩

theorem reserve_of_unseen (hguard : GuardReserves guard) (hlen : fingerprint.length = hmacBytes)
    (hfresh : k.Unseen fingerprint)
    (hcard : k.inflightHandshakeInitHashes.card < maxInflightHandshakeInits) :
    (reserve fingerprint guard).run k = .ok () (k.reserving fingerprint) := by
  rw [reserve, bind_of_ok ((reserveAtGuard_eq_ok (u := ())).mpr ⟨hguard, rfl⟩),
    bind_of_ok (reserveHandshakeInitFingerprint_of_unseen hlen hfresh hcard)]
  rfl

theorem reserve_eq_ok {u : Unit} (h : (reserve fingerprint guard).run k = .ok u k') :
    GuardReserves guard ∧ k' = k.reserving fingerprint ∧ k.Unseen fingerprint ∧
      k.inflightHandshakeInitHashes.card < maxInflightHandshakeInits := by
  rw [reserve, bind_eq_ok] at h
  obtain ⟨_, k₀, hrun, h⟩ := h
  obtain ⟨hguard, hk⟩ := reserveAtGuard_eq_ok.mp hrun
  subst hk
  obtain ⟨isFresh, k₁, hreserve, hrest⟩ := bind_eq_ok.mp h
  obtain ⟨rfl, -⟩ | ⟨rfl, rfl, hfresh⟩ :=
    reserveHandshakeInitFingerprint_eq_ok hreserve
  · obtain ⟨_, _, -, hfail⟩ := bind_eq_ok.mp hrest
    cases hfail
  · cases hrest
    exact ⟨hguard, rfl, hfresh⟩

theorem reserve_eq_error {e : ProtocolError} (h : (reserve fingerprint guard).run k = .error e k') :
    k' = k := by
  rw [reserve, bind_eq_error] at h
  obtain h | ⟨_, k₀, hrun, h⟩ := h
  · exact reserveAtGuard_eq_error h
  rw [(reserveAtGuard_eq_ok.mp hrun).2] at h
  obtain hfail | ⟨isFresh, k₁, hreserve, hrest⟩ := bind_eq_error.mp h
  · exact reserveHandshakeInitFingerprint_eq_error hfail
  obtain ⟨rfl, hk⟩ | ⟨rfl, -⟩ := reserveHandshakeInitFingerprint_eq_ok hreserve
  · -- the guard has reserved what the identity knows already, and releases it again
    subst hk
    obtain ⟨_, hrelease⟩ | ⟨_, hrelease⟩ := releaseAtGuard_keeps guard k₁
    · rw [if_neg (by simp), bind_of_ok hrelease] at hrest
      exact (lift_eq_error.mp hrest).2
    · rw [if_neg (by simp), bind_of_error hrelease] at hrest
      cases hrest
      rfl
  · cases hrest

theorem consumeNamedOpk_of_found
    (h : ∀ id, init.oneTimePreKeyId = some id → ∃ o, k.findOneTimePreKey id = some o) :
    (consumeNamedOpk init.oneTimePreKeyId).run k =
      .ok () (init.oneTimePreKeyId.elim k k.eraseOpk) := by
  cases hid : init.oneTimePreKeyId with
  | none => rfl
  | some id =>
    obtain ⟨o, ho⟩ := h id hid
    obtain ⟨warning, hwarning⟩ := consumeOneTimePreKeyById_of_found ho
    exact bind_of_ok hwarning

theorem rememberHandshakeInitFingerprint_run (hlen : fingerprint.length = hmacBytes) :
    (rememberHandshakeInitFingerprint fingerprint).run k =
      .ok () (k.remembering fingerprint) := by
  have hcheck : checkFingerprint fingerprint = .ok () := require_eq_ok.mpr hlen
  rw [rememberHandshakeInitFingerprint, lift_bind_of_ok hcheck]
  rfl

/-- The external guard, if there is one, keeps the fingerprint. -/
def GuardCommits (guard : Option GuardReplies) : Prop :=
  ∀ g, guard = some g → g.commit = .ok ()

theorem commit_of_commits (hlen : fingerprint.length = hmacBytes) (hguard : GuardCommits guard) :
    (commit fingerprint guard).run k = .ok () (k.remembering fingerprint) := by
  rw [commit, bind_of_ok (rememberHandshakeInitFingerprint_run hlen)]
  cases guard with
  | none => rfl
  | some g =>
    rw [commitAtGuard, hguard g rfl]
    rfl

/-- When the external guard refuses, whether or not it can release its reservation, the
fingerprint is remembered and forgotten again. -/
theorem commit_of_refused {g : GuardReplies} {commitErr : ProtocolError}
    (hlen : fingerprint.length = hmacBytes) (hguard : g.commit = .error commitErr) :
    ∃ e, (commit fingerprint (some g)).run k =
      .error e ((k.remembering fingerprint).forgetting fingerprint) := by
  rw [commit, bind_of_ok (rememberHandshakeInitFingerprint_run hlen), commitAtGuard, hguard]
  cases hrelease : g.release with
  | ok u => exact ⟨commitErr, rfl⟩
  | error e => exact ⟨e, rfl⟩

/-- Remembering a fingerprint ends its reservation. -/
theorem remembering_reserving (h : k.Unseen fingerprint) (opkId : Option UInt32) :
    (opkId.elim (k.reserving fingerprint) (k.reserving fingerprint).eraseOpk).remembering
      fingerprint = acceptedState k fingerprint opkId := by
  cases opkId with
  | none =>
    simp only [Option.elim, remembering, reserving, acceptedState,
      Finset.erase_insert h.2]
  | some id =>
    simp only [Option.elim, remembering, reserving,
      eraseOpk, acceptedState, Finset.erase_insert h.2]

theorem respondAndConsume_of_respond (h : respond c w now noncePrefix b init max k = .ok r) :
    (respondAndConsume c w now noncePrefix b init max).run k =
      .ok r (init.oneTimePreKeyId.elim k k.eraseOpk) := by
  rw [respondAndConsume, reads_bind_of_ok h,
    bind_of_ok (consumeNamedOpk_of_found (respond_eq_ok h).opk), pure_run]

/-- What makes `process` accept some bytes as an init message. -/
structure Accepts (w : Wire) (now : Except ProtocolError ℕ) (noncePrefix : Bytes)
    (b : PreKeyBundle) (initMessageBytes : Bytes) (max : UInt32) (k : IdentityKeys c)
    (init : HandshakeInit) (r : HandshakeResponder) : Prop where
  bundle : validateBundle c b = .ok ()
  limit : validateMaxMessagesPerChain max = .ok ()
  length : initMessageBytes.length ≤ maxHandshakeMessageSize
  decode : w.handshakeInit.decode initMessageBytes = .ok init
  unseen : k.Unseen (buildHandshakeInitFingerprint c w init)
  card : k.inflightHandshakeInitHashes.card < maxInflightHandshakeInits
  respond : respond c w now noncePrefix b init max k = .ok r

/-- Once all checks have passed, the commit decides. -/
theorem processWithReplayGuard_of_accepts (hguard : GuardReserves guard)
    (h : Accepts w now noncePrefix b initMessageBytes max k init r) :
    (processWithReplayGuard c w now noncePrefix b initMessageBytes max guard).run k =
      (do commit (buildHandshakeInitFingerprint c w init) guard
          pure r : IdentityM c HandshakeResponder).run
        (init.oneTimePreKeyId.elim (k.reserving (buildHandshakeInitFingerprint c w init))
          (k.reserving (buildHandshakeInitFingerprint c w init)).eraseOpk) := by
  have hfp := length_buildHandshakeInitFingerprint c w init
  have hbody := respondAndConsume_of_respond
    ((respond_reserving (buildHandshakeInitFingerprint c w init)).trans h.respond)
  rw [processWithReplayGuard, lift_bind_of_ok h.bundle, lift_bind_of_ok h.limit,
    lift_bind_of_ok ((require_eq_ok (u := ())).mpr h.length),
    lift_bind_of_ok (mapError_eq_ok.mpr h.decode),
    bind_of_ok (reserve_of_unseen hguard hfp h.unseen h.card),
    bind_of_ok (onError_eq_ok.mpr hbody)]

/-- A call that does not get to the commit changes nothing. -/
theorem processWithReplayGuard_cases (c : Crypto) (w : Wire) (now : Except ProtocolError ℕ)
    (noncePrefix : Bytes) (b : PreKeyBundle) (initMessageBytes : Bytes) (max : UInt32)
    (guard : Option GuardReplies) (k : IdentityKeys c) :
    (GuardReserves guard ∧ ∃ init r, Accepts w now noncePrefix b initMessageBytes max k init r) ∨
      ∃ e, (processWithReplayGuard c w now noncePrefix b initMessageBytes max guard).run k =
        .error e k := by
  rw [processWithReplayGuard]
  cases hb : validateBundle c b with
  | error e => exact .inr ⟨e, lift_bind_of_error rfl k⟩
  | ok u =>
  cases hmax : validateMaxMessagesPerChain max with
  | error e => exact .inr ⟨e, by rw [lift_bind_of_ok rfl, lift_bind_of_error rfl]⟩
  | ok u =>
  cases hlen : require (initMessageBytes.length ≤ maxHandshakeMessageSize)
      (ProtocolError.invalidInput "Message too large") with
  | error e =>
    exact .inr ⟨e, by rw [lift_bind_of_ok rfl, lift_bind_of_ok rfl, lift_bind_of_error rfl]⟩
  | ok u =>
  cases hinit : (w.handshakeInit.decode initMessageBytes).mapError
      fun err => ProtocolError.decode s!"Failed to parse HandshakeInit: {err}" with
  | error e =>
    exact .inr ⟨e, by
      rw [lift_bind_of_ok rfl, lift_bind_of_ok rfl, lift_bind_of_ok rfl, lift_bind_of_error rfl]⟩
  | ok init =>
  rw [lift_bind_of_ok rfl, lift_bind_of_ok rfl, lift_bind_of_ok rfl, lift_bind_of_ok rfl]
  -- from here on the fingerprint is reserved, and a failure must give it back
  cases hreserve : (reserve (buildHandshakeInitFingerprint c w init) guard).run k with
  | error e k' =>
    obtain rfl := reserve_eq_error hreserve
    exact .inr ⟨e, bind_of_error hreserve⟩
  | ok u k' =>
  obtain ⟨hguard, rfl, hunseen, hcard⟩ := reserve_eq_ok hreserve
  cases hrespond : respond c w now noncePrefix b init max k with
  | ok r =>
    exact .inl ⟨hguard, init, r, hb, hmax, require_eq_ok.mp hlen, mapError_eq_ok.mp hinit,
      hunseen, hcard, hrespond⟩
  | error e =>
    have hbody : (respondAndConsume c w now noncePrefix b init max).run
        (k.reserving (buildHandshakeInitFingerprint c w init)) =
        .error e (k.reserving (buildHandshakeInitFingerprint c w init)) :=
      reads_bind_of_error ((respond_reserving _).trans hrespond)
    refine .inr ⟨e, ?_⟩
    rw [bind_of_ok hreserve, bind_of_error (onError_eq_error.mpr ⟨_, hbody, rfl⟩),
      release_reserving hunseen]

theorem processWithReplayGuard_of_commits (hreserve : GuardReserves guard)
    (hcommit : GuardCommits guard) (h : Accepts w now noncePrefix b initMessageBytes max k init r) :
    (processWithReplayGuard c w now noncePrefix b initMessageBytes max guard).run k =
      .ok r (acceptedState k (buildHandshakeInitFingerprint c w init) init.oneTimePreKeyId) := by
  have hfp := length_buildHandshakeInitFingerprint c w init
  rw [processWithReplayGuard_of_accepts hreserve h, bind_of_ok (commit_of_commits hfp hcommit),
    pure_run, remembering_reserving h.unseen]

theorem process_of_accepts (h : Accepts w now noncePrefix b initMessageBytes max k init r) :
    (process c w now noncePrefix b initMessageBytes max).run k =
      .ok r (acceptedState k (buildHandshakeInitFingerprint c w init) init.oneTimePreKeyId) :=
  processWithReplayGuard_of_commits (fun _ hg => absurd hg (by simp))
    (fun _ hg => absurd hg (by simp)) h

/-- A call of `process` either accepts an init message or changes nothing. -/
theorem process_cases (c : Crypto) (w : Wire) (now : Except ProtocolError ℕ)
    (noncePrefix : Bytes) (b : PreKeyBundle) (initMessageBytes : Bytes) (max : UInt32)
    (k : IdentityKeys c) :
    (∃ init r, Accepts w now noncePrefix b initMessageBytes max k init r) ∨
      ∃ e, (process c w now noncePrefix b initMessageBytes max).run k = .error e k :=
  (processWithReplayGuard_cases c w now noncePrefix b initMessageBytes max none k).imp_left
    And.right

/-- When `process` accepts an init message, and what it leaves. -/
theorem process_eq_ok :
    (process c w now noncePrefix b initMessageBytes max).run k = .ok r k' ↔
      ∃ init, Accepts w now noncePrefix b initMessageBytes max k init r ∧
        k' = acceptedState k (buildHandshakeInitFingerprint c w init) init.oneTimePreKeyId := by
  constructor
  · intro h
    obtain ⟨init, r', hacc⟩ | ⟨e, he⟩ :=
      process_cases c w now noncePrefix b initMessageBytes max k
    · rw [process_of_accepts hacc] at h
      cases h
      exact ⟨init, hacc, rfl⟩
    · rw [he] at h
      cases h
  · rintro ⟨init, hacc, rfl⟩
    exact process_of_accepts hacc

end Responded

end AuraProtocol.Handshake
