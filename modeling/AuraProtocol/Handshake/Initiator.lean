import AuraProtocol.Handshake.Derivation

/-!
# The initiator

`HandshakeInitiator::start` and `finish`.  `start` leaves the ephemeral key pair
of the identity in place when it fails after generating it, and uses a pair that
is there already; only a successful call clears it.  `Started` says what a
successful call computed.
-/

namespace AuraProtocol.Handshake

open Fallible Proto
open Session (readBytes SessionInner HandshakeState)

variable {opk : Option Proto.OneTimePreKey}

/-- `HandshakeInitiator`; `finish` consumes it, so its state is always there. -/
structure HandshakeInitiator where
  initMessage : HandshakeInit
  initBytes : Bytes
  sessionState : HandshakeState
  expectedAckMac : Bytes

/-- The randomness of `start`. -/
structure StartEntropy where
  ephemeralPrivate : Random32
  /-- Picks the one-time pre-key of the bundle. -/
  opkIndex : UInt32
  kyberEncapsulation : Bytes
  noncePrefix : Bytes

/-- The one-time pre-key of a bundle that the random index picks. -/
def pickOpk (index : UInt32) (bundle : PreKeyBundle) : Option Proto.OneTimePreKey :=
  bundle.oneTimePreKeys[index.toNat % bundle.oneTimePreKeys.length]?

/-- The checks on the one-time pre-key that was picked. -/
def selectOpk (index : UInt32) (bundle : PreKeyBundle) :
    Except ProtocolError (Option Proto.OneTimePreKey) :=
  match pickOpk index bundle with
  | none => .ok none
  | some opk => do
    require (opk.publicKey.length = x25519PublicKeyBytes)
      (.invalidInput "Invalid OPK public key size")
    DhValidator.validateX25519PublicKey opk.publicKey
    .ok (some opk)

/-- The fourth Diffie–Hellman secret, which is there only with a one-time pre-key. -/
def computeDh4 (c : Crypto) (ephemeralPrivate : Bytes) :
    Option Proto.OneTimePreKey → Except ProtocolError Bytes
  | some opk => computeDh c ephemeralPrivate opk.publicKey "DH4"
  | none => .ok []

variable {c : Crypto}

/-- The init message of a party, before its MAC. -/
def unconfirmedInit (k : IdentityKeys c) (ephemeralPublic : Bytes)
    (opk : Option Proto.OneTimePreKey) (kyberCiphertext signature : Bytes) (max : UInt32) :
    HandshakeInit where
  version := UInt32.ofNat protocolVersion
  initiatorIdentityEd25519Public := k.ed25519.publicKey
  initiatorIdentityX25519Public := k.identityX25519.publicKey
  initiatorEphemeralX25519Public := ephemeralPublic
  oneTimePreKeyId := opk.map (·.oneTimePreKeyId)
  kyberCiphertext := kyberCiphertext
  keyConfirmationMac := []
  initiatorKyberPublic := k.kyber.publicKey
  maxMessagesPerChain := max
  initiatorIdentityBindingSignature := signature

/-- What the initiator passes to `build_protocol_state`. -/
def initiatorArgs (k : IdentityKeys c) (peerBundle : PreKeyBundle) (secrets : Secrets)
    (ephemeralPrivate ephemeralPublic kyberSecret noncePrefix : Bytes) (max : UInt32)
    (createdAtUnix : ℕ) : Session.BuildArgs where
  isInitiator := true
  rootKey := secrets.rootKey
  sessionId := secrets.sessionId
  metadataKey := secrets.metadataKey
  dhLocalPrivate := ephemeralPrivate
  dhLocalPublic := ephemeralPublic
  dhRemotePublic := peerBundle.signedPreKeyPublic
  initialSelfPublic := ephemeralPublic
  initialPeerPublic := peerBundle.signedPreKeyPublic
  kyberSecret := kyberSecret
  kyberPublic := k.kyber.publicKey
  peerKyberPublic := peerBundle.kyberPublic
  maxMessagesPerChain := max.toNat
  maxNonceCounter := AuraProtocol.maxNonceCounter
  nonceGenerator := { noncePrefix := noncePrefix, counter := 0 }
  createdAtUnix := createdAtUnix
  localIdentityEd25519 := k.ed25519.publicKey
  localIdentityX25519 := k.identityX25519.publicKey
  peerIdentityEd25519 := peerBundle.identityEd25519Public
  peerIdentityX25519 := peerBundle.identityX25519Public

/-- The part of `start` between the generation of the ephemeral key pair and its removal. -/
def buildInit (c : Crypto) (w : Wire) (now : Except ProtocolError ℕ) (e : StartEntropy)
    (peerBundle : PreKeyBundle) (max : UInt32) (k : IdentityKeys c) :
    Except ProtocolError HandshakeInitiator := do
  let eph ← orError k.ephemeral (.prepareLocal "Initiator ephemeral key not available")
  require (eph.publicKey.length = x25519PublicKeyBytes)
    (.prepareLocal "Initiator ephemeral key invalid size")
  let ephPrivate ← readBytes eph.secretKey x25519PrivateKeyBytes
  let identityPrivate ← readBytes k.identityX25519.secretKey x25519PrivateKeyBytes
  let opk ← selectOpk e.opkIndex peerBundle
  let dh1 ← computeDh c identityPrivate peerBundle.signedPreKeyPublic "DH1"
  let dh2 ← computeDh c ephPrivate peerBundle.identityX25519Public "DH2"
  let dh3 ← computeDh c ephPrivate peerBundle.signedPreKeyPublic "DH3"
  let dh4 ← computeDh4 c ephPrivate opk
  let classical ← HkdfSha256.deriveKeyBytes c (x3dhIkm dh1 dh2 dh3 dh4) rootKeyBytes [] x3dhInfo
  let encaps ← KyberInterop.encapsulate c peerBundle.kyberPublic e.kyberEncapsulation
  let kyberSharedSecret ← readBytes encaps.2 kyberSharedSecretBytes
  let secrets ← deriveSecrets c classical kyberSharedSecret encaps.1 eph.publicKey
    peerBundle.signedPreKeyPublic
  require (k.kyber.publicKey.length = kyberPublicKeyBytes)
    (.prepareLocal "Invalid local Kyber public key size")
  let ed25519Secret ← readBytes k.ed25519.secretKey ed25519SecretKeyBytes
  let signature ← signInitIdentityBinding c ed25519Secret k.ed25519.publicKey
    k.identityX25519.publicKey k.kyber.publicKey
  let unconfirmed := unconfirmedInit k eph.publicKey opk encaps.1 signature max
  let transcriptHash := buildTranscriptHash c w peerBundle unconfirmed
  let mac ← computeHmacSha256 c secrets.confirmInit transcriptHash
  let initMessage := { unconfirmed with keyConfirmationMac := mac }
  let kyberSecret ← readBytes k.kyber.secretKey kyberSecretKeyBytes
  let createdAtUnix ← now
  let state ← Session.buildProtocolState c (initiatorArgs k peerBundle secrets ephPrivate
    eph.publicKey kyberSecret e.noncePrefix max createdAtUnix)
  let expectedAckMac ← computeHmacSha256 c secrets.confirmResp transcriptHash
  .ok { initMessage := initMessage
        initBytes := w.handshakeInit.encode initMessage
        sessionState := { state := state, kyberSharedSecret := kyberSharedSecret }
        expectedAckMac := expectedAckMac }

/-- The check that a bundle is not the identity's own. -/
def checkReflexion (peerBundle : PreKeyBundle) (k : IdentityKeys c) : Except ProtocolError Unit :=
  require (k.ed25519.publicKey ≠ peerBundle.identityEd25519Public)
    (.invalidInput "Reflexion attack: peer identity key matches local identity key")

/-- `HandshakeInitiator::start`. -/
def start (c : Crypto) (w : Wire) (now : Except ProtocolError ℕ) (e : StartEntropy)
    (peerBundle : PreKeyBundle) (max : UInt32) : IdentityM c HandshakeInitiator := do
  lift (validateBundle c peerBundle)
  lift (validateMaxMessagesPerChain max)
  reads (checkReflexion peerBundle)
  IdentityKeys.generateEphemeralKeyPair e.ephemeralPrivate
  let initiator ← reads (buildInit c w now e peerBundle max)
  IdentityKeys.clearEphemeralKeyPair
  pure initiator

def HandshakeInitiator.finish (c : Crypto) (w : Wire) (i : HandshakeInitiator) (ackBytes : Bytes) :
    Except ProtocolError SessionInner := do
  require (ackBytes.length ≤ maxHandshakeMessageSize) (.invalidInput "HandshakeAck too large")
  let ack ← (w.handshakeAck.decode ackBytes).mapError fun err =>
    .decode s!"Failed to parse HandshakeAck: {err}"
  require (ack.version.toNat = protocolVersion) (.invalidInput "Invalid HandshakeAck version")
  require (ack.keyConfirmationMac.length = hmacBytes)
    (.invalidInput "Invalid acknowledgement MAC size")
  require (i.expectedAckMac = ack.keyConfirmationMac)
    (.handshake "Responder key confirmation failed")
  Session.fromHandshakeState c i.sessionState

/-! ## What a started handshake has computed -/

/-- The input of the initiator's classical derivation. -/
def initiatorIkm (k : IdentityKeys c) (eph : X25519KeyPair c) (b : PreKeyBundle)
    (opk : Option Proto.OneTimePreKey) : Bytes :=
  x3dhIkm (c.x25519 k.identityX25519.secretKey b.signedPreKeyPublic)
    (c.x25519 eph.secretKey b.identityX25519Public)
    (c.x25519 eph.secretKey b.signedPreKeyPublic)
    (opk.elim [] fun o => c.x25519 eph.secretKey o.publicKey)

/-- The keys the initiator derives. -/
def initiatorSecrets (e : StartEntropy) (b : PreKeyBundle) (k : IdentityKeys c)
    (eph : X25519KeyPair c) : Secrets :=
  .of c (classicalShared c (initiatorIkm k eph b (pickOpk e.opkIndex b)))
    (c.kemEncaps b.kyberPublic e.kyberEncapsulation).2
    (c.kemEncaps b.kyberPublic e.kyberEncapsulation).1 eph.publicKey b.signedPreKeyPublic

/-- The init message of a handshake, before its MAC. -/
def startedInit (e : StartEntropy) (b : PreKeyBundle) (max : UInt32) (k : IdentityKeys c)
    (eph : X25519KeyPair c) : HandshakeInit :=
  unconfirmedInit k eph.publicKey (pickOpk e.opkIndex b)
    (c.kemEncaps b.kyberPublic e.kyberEncapsulation).1
    (c.ed25519Sign k.ed25519.secretKey (buildInitIdentityBindingMessage k.ed25519.publicKey
      k.identityX25519.publicKey k.kyber.publicKey)) max

/-- What a successful `start` computed with the ephemeral key pair `eph`. -/
structure Started (w : Wire) (now : Except ProtocolError ℕ) (e : StartEntropy) (b : PreKeyBundle)
    (max : UInt32) (k : IdentityKeys c) (eph : X25519KeyPair c) (i : HandshakeInitiator) :
    Prop where
  initMessage : i.initMessage = { startedInit e b max k eph with
    keyConfirmationMac := c.hmacSha256 (initiatorSecrets e b k eph).confirmInit
      (buildTranscriptHash c w b (startedInit e b max k eph)) }
  initBytes : i.initBytes = w.handshakeInit.encode i.initMessage
  expectedAckMac : i.expectedAckMac = c.hmacSha256 (initiatorSecrets e b k eph).confirmResp
    (buildTranscriptHash c w b (startedInit e b max k eph))
  kyberSharedSecret :
    i.sessionState.kyberSharedSecret = (c.kemEncaps b.kyberPublic e.kyberEncapsulation).2
  state : ∃ createdAtUnix, now = .ok createdAtUnix ∧
    Session.buildProtocolState c (initiatorArgs k b (initiatorSecrets e b k eph) eph.secretKey
      eph.publicKey k.kyber.secretKey e.noncePrefix max createdAtUnix) = .ok i.sessionState.state

theorem startedInit_sized (e : StartEntropy) (b : PreKeyBundle) (max : UInt32)
    (k : IdentityKeys c) (eph : X25519KeyPair c) : (startedInit e b max k eph).Sized where
  initiatorIdentityEd25519Public := k.ed25519.length_publicKey
  initiatorIdentityX25519Public := k.identityX25519.length_publicKey
  initiatorEphemeralX25519Public := eph.length_publicKey
  kyberCiphertext := c.length_kemEncaps_ciphertext _ _
  keyConfirmationMac := Nat.zero_le _
  initiatorKyberPublic := k.kyber.length_publicKey
  initiatorIdentityBindingSignature := c.length_ed25519Sign _ _

theorem selectOpk_eq_ok {index : UInt32} {b : PreKeyBundle} (h : selectOpk index b = .ok opk) :
    opk = pickOpk index b := by
  rw [selectOpk] at h
  split at h
  · next hpick => rw [← Except.ok.inj h, hpick]
  · next o hpick =>
    simp only [except_bind_eq_ok, Except.ok.injEq] at h
    obtain ⟨_, -, _, -, rfl⟩ := h
    exact hpick.symm

theorem computeDh4_eq_ok {ephPrivate dh4 : Bytes} (h : computeDh4 c ephPrivate opk = .ok dh4) :
    dh4 = opk.elim [] fun o => c.x25519 ephPrivate o.publicKey := by
  cases opk with
  | none => exact (Except.ok.inj h).symm
  | some o => exact (computeDh_eq_ok.mp h).2.2

theorem buildInit_eq_ok {w : Wire} {now : Except ProtocolError ℕ} {e : StartEntropy}
    {b : PreKeyBundle} {max : UInt32} {k : IdentityKeys c} {i : HandshakeInitiator}
    (h : buildInit c w now e b max k = .ok i) :
    ∃ eph, k.ephemeral = some eph ∧ Started w now e b max k eph i := by
  simp only [buildInit, signInitIdentityBinding, except_bind_eq_ok, require_eq_ok, orError_eq_ok,
    computeDh_eq_ok, computeHmacSha256_eq_ok, KyberInterop.encapsulate_eq_ok, deriveClassical_eq,
    deriveSecrets_eq, Except.ok.injEq] at h
  obtain ⟨eph, heph, _, -, ephPrivate, hephPrivate, idPrivate, hidPrivate, opk, hopk, dh1,
    ⟨-, -, rfl⟩, dh2, ⟨-, -, rfl⟩, dh3, ⟨-, -, rfl⟩, dh4, hdh4, _, rfl, _, ⟨-, -, rfl⟩, ss, hss, _,
    rfl, _, -, edSecret, hedSecret, sig, ⟨_, -, _, -, rfl⟩, mac, ⟨-, rfl⟩, kyberSecret, hkyberSecret,
    createdAt, hnow, state, hstate, ack, ⟨-, rfl⟩, rfl⟩ := h
  rw [Session.readBytes_of_length_eq eph.length_secretKey] at hephPrivate
  rw [Session.readBytes_of_length_eq k.identityX25519.length_secretKey] at hidPrivate
  have hssLen : (c.kemEncaps b.kyberPublic e.kyberEncapsulation).2.length =
      kyberSharedSecretBytes := c.length_kemEncaps_secret _ _
  rw [Session.readBytes_of_length_eq hssLen] at hss
  rw [Session.readBytes_of_length_eq k.ed25519.length_secretKey] at hedSecret
  rw [Session.readBytes_of_length_eq k.kyber.length_secretKey] at hkyberSecret
  cases hephPrivate
  cases hidPrivate
  cases hss
  cases hedSecret
  cases hkyberSecret
  cases selectOpk_eq_ok hopk
  cases computeDh4_eq_ok hdh4
  exact ⟨eph, heph, rfl, rfl, rfl, rfl, createdAt, hnow, hstate⟩

/-- The ephemeral key pair of a call: the one that is there, or a new one. -/
def ephemeralOf (e : StartEntropy) (k : IdentityKeys c) : X25519KeyPair c :=
  k.ephemeral.getD (.generate c e.ephemeralPrivate)

/-- The identity while `start` runs. -/
def withEphemeral (e : StartEntropy) (k : IdentityKeys c) : IdentityKeys c :=
  { k with ephemeral := some (ephemeralOf e k) }

theorem generateEphemeralKeyPair_run (e : StartEntropy) (k : IdentityKeys c) :
    (IdentityKeys.generateEphemeralKeyPair e.ephemeralPrivate).run k =
      .ok () (withEphemeral e k) := by
  rw [IdentityKeys.generateEphemeralKeyPair, modify_run, withEphemeral, ephemeralOf]
  cases h : k.ephemeral with
  | none => rfl
  | some eph =>
    simp only [Option.getD_some]
    rw [← h]

section start

variable {w : Wire} {now : Except ProtocolError ℕ} {e : StartEntropy} {b : PreKeyBundle}
  {max : UInt32} {k k' : IdentityKeys c} {i : HandshakeInitiator}

theorem start_of_buildInit (hb : validateBundle c b = .ok ())
    (hmax : validateMaxMessagesPerChain max = .ok ())
    (hne : k.ed25519.publicKey ≠ b.identityEd25519Public)
    (h : buildInit c w now e b max (withEphemeral e k) = .ok i) :
    (start c w now e b max).run k = .ok i { k with ephemeral := none } := by
  have hself : checkReflexion b k = .ok () := require_eq_ok.mpr hne
  rw [start, lift_bind_of_ok hb, lift_bind_of_ok hmax, reads_bind_of_ok hself,
    bind_of_ok (generateEphemeralKeyPair_run e k), reads_bind_of_ok h]
  rfl

theorem start_eq_ok (h : (start c w now e b max).run k = .ok i k') :
    ValidBundle c b ∧ validateMaxMessagesPerChain max = .ok () ∧
      k.ed25519.publicKey ≠ b.identityEd25519Public ∧ k' = { k with ephemeral := none } ∧
      Started w now e b max k (ephemeralOf e k) i := by
  rw [start, bind_eq_ok] at h
  obtain ⟨_, k₁, hrun₁, h⟩ := h
  obtain ⟨hb, rfl⟩ := lift_eq_ok.mp hrun₁
  rw [bind_eq_ok] at h
  obtain ⟨_, k₂, hrun₂, h⟩ := h
  obtain ⟨hmax, rfl⟩ := lift_eq_ok.mp hrun₂
  rw [bind_eq_ok] at h
  obtain ⟨_, k₃, hrun₃, h⟩ := h
  obtain ⟨hne, rfl⟩ := reads_eq_ok.mp hrun₃
  rw [bind_of_ok (generateEphemeralKeyPair_run e _), bind_eq_ok] at h
  obtain ⟨i', k₄, hrun, h⟩ := h
  obtain ⟨hbuild, rfl⟩ := reads_eq_ok.mp hrun
  cases h
  obtain ⟨eph, heph, hstarted⟩ := buildInit_eq_ok hbuild
  cases heph
  -- nothing that was computed reads the ephemeral slot itself
  exact ⟨validateBundle_eq_ok.mp hb, hmax, require_eq_ok.mp hne, rfl, hstarted.initMessage,
    hstarted.initBytes, hstarted.expectedAckMac, hstarted.kyberSharedSecret, hstarted.state⟩

end start

end AuraProtocol.Handshake
