import AuraProtocol.Session.Flow
import AuraProtocol.Session.Init

/-!
# The two sessions of one handshake

Both sides of a handshake call `build_protocol_state` with mirrored arguments and
the same secrets.  `Mirrored.inSync` says what that gives them: in each direction
the sender and the receiver start at the same view.
-/

namespace AuraProtocol.Session

open Fallible

variable {c : Crypto} {a b : BuildArgs} {state : ProtocolState}
  {kyberSharedSecret secret dh dh' : Bytes} {s r : SessionInner}

/-! ## One side -/

/-- The session a side of a handshake ends with. -/
def establish (c : Crypto) (args : BuildArgs) (kyberSharedSecret : Bytes) :
    Except ProtocolError SessionInner := do
  let state ← buildProtocolState c args
  fromHandshakeState c { state := state, kyberSharedSecret := kyberSharedSecret }

/-- The root key of a new session, from the handshake's root key and the two shared secrets. -/
def initialRoot (c : Crypto) (rootKey dhSecret kyberSharedSecret : Bytes) : Bytes :=
  (c.hkdfExpand (HkdfSha256.extract c rootKey (dhSecret ++ kyberSharedSecret)) hybridRatchetInfo
    (rootKeyBytes * 2)).take rootKeyBytes

/-- The two chain keys of a new session, the initiator's sending chain first. -/
def initialChains (c : Crypto) (newRoot : Bytes) : Bytes × Bytes :=
  let chainInit := c.hkdfExpand (HkdfSha256.extract c [] newRoot) chainInitInfo (chainKeyBytes * 2)
  (chainInit.take chainKeyBytes, chainInit.drop chainKeyBytes)

/-- The chain key of a sender, by its role. -/
def initialChainKey (c : Crypto) (newRoot : Bytes) (initiator : Bool) : Bytes :=
  if initiator then (initialChains c newRoot).1 else (initialChains c newRoot).2

theorem length_initialRoot (c : Crypto) (rootKey dhSecret kyberSharedSecret : Bytes) :
    (initialRoot c rootKey dhSecret kyberSharedSecret).length = rootKeyBytes := by
  rw [initialRoot, List.length_take, c.length_hkdfExpand]
  rfl

theorem length_initialChainKey (c : Crypto) (newRoot : Bytes) (initiator : Bool) :
    (initialChainKey c newRoot initiator).length = chainKeyBytes := by
  cases initiator with
  | true =>
    change (List.take _ _).length = _
    rw [List.length_take, c.length_hkdfExpand]
    rfl
  | false =>
    change (List.drop _ _).length = _
    rw [List.length_drop, c.length_hkdfExpand]
    rfl

theorem deriveInitialChains_eq_ok {keys : Bytes × Bytes × Bytes}
    (h : deriveInitialChains c s = .ok keys) :
    ∃ handle dhPrivate dhInit, s.dhPrivateHandle = some handle ∧
      readBytes handle x25519PrivateKeyBytes = .ok dhPrivate ∧
      computeDh c dhPrivate s.state.dhRemotePublic = .ok dhInit ∧
      keys = (initialRoot c s.state.rootKey dhInit s.pendingKyberSharedSecret,
        initialChains c (initialRoot c s.state.rootKey dhInit s.pendingKyberSharedSecret)) := by
  simp only [deriveInitialChains, except_bind_eq_ok, require_eq_ok, orError_eq_ok,
    HkdfSha256.deriveKeyBytes_eq c (by decide : rootKeyBytes * 2 ≠ 0) (by decide),
    HkdfSha256.deriveKeyBytes_eq c (by decide : chainKeyBytes * 2 ≠ 0) (by decide),
    Except.ok.injEq] at h
  obtain ⟨_, -, _, -, _, -, _, -, handle, hhandle, dhPrivate, hread, dhInit, hdh, _, rfl, _, -, _,
    rfl, _, -, rfl⟩ := h
  exact ⟨handle, dhPrivate, dhInit, hhandle, hread, hdh, rfl⟩

/-- What a session fresh from a handshake holds. -/
structure Established (c : Crypto) (a : BuildArgs) (kyberSharedSecret dhInit : Bytes)
    (s : SessionInner) : Prop where
  sharedDh : computeDh c a.dhLocalPrivate a.dhRemotePublic = .ok dhInit
  version : s.state.version = protocolVersion
  sessionId : s.state.sessionId = a.sessionId
  identityBindingHash : computeIdentityBindingHash c a.localIdentityEd25519 a.localIdentityX25519
    a.peerIdentityEd25519 a.peerIdentityX25519 = .ok s.state.identityBindingHash
  maxMessagesPerChain : s.state.maxMessagesPerChain = a.maxMessagesPerChain
  maxMessagesPerChain_valid :
    a.maxMessagesPerChain ≠ 0 ∧ a.maxMessagesPerChain ≤ AuraProtocol.maxMessagesPerChain
  sendRatchetEpoch : s.state.sendRatchetEpoch = 0
  recvRatchetEpoch : s.state.recvRatchetEpoch = 0
  rootKey : s.state.rootKey = initialRoot c a.rootKey dhInit kyberSharedSecret
  sendChain : s.state.sendChain = some
    { messageIndex := 0, chainKey := initialChainKey c s.state.rootKey a.isInitiator
      skippedMessageKeys := [] }
  recvChain : s.state.recvChain = some
    { messageIndex := 0, chainKey := initialChainKey c s.state.rootKey (!a.isInitiator)
      skippedMessageKeys := [] }
  metadataKey : s.state.metadataKey = a.metadataKey
  sendMetadataKey : s.state.sendMetadataKey = a.metadataKey
  length_metadataKey : a.metadataKey.length = metadataKeyBytes
  dhRemotePublic : s.state.dhRemotePublic = a.dhRemotePublic
  kyberRemotePublic : s.state.kyberRemotePublic = a.peerKyberPublic
  dhPrivateHandle : s.dhPrivateHandle = some a.dhLocalPrivate
  length_dhLocalPrivate : a.dhLocalPrivate.length = x25519PrivateKeyBytes
  kyberSecretHandle : s.kyberSecretHandle = some a.kyberSecret
  length_kyberSecret : a.kyberSecret.length = kyberSecretKeyBytes
  nonceGenerator : s.state.nonceGenerator = some a.nonceGenerator
  sendRatchetPending : s.sendRatchetPending = false
  totalMessagesSent : s.state.totalMessagesSent = 0
  totalMessagesReceived : s.state.totalMessagesReceived = 0
  seenPayloadNonces : s.seenPayloadNonces = ∅
  skippedMessageKeys : s.skippedMessageKeys = ∅
  cachedMetadataKeys : s.cachedMetadataKeys = ∅

theorem takeDhPrivate_of_length {dh : DhKeyPair} (h : state.dhLocal = some dh)
    (hlen : dh.privateKey.length = x25519PrivateKeyBytes) :
    takeDhPrivate state = .ok ({ state with
      dhLocal := some { dh with privateKey := List.replicate x25519PrivateKeyBytes 0 } },
      some dh.privateKey) := by
  have hne : ¬ dh.privateKey.isEmpty = true := by
    rw [List.isEmpty_iff_length_eq_zero, hlen]
    decide
  simp only [takeDhPrivate, h, if_neg hne, secureHandle_of_length_eq hlen]
  rfl

theorem takeKyberSecret_of_length {kyber : KyberKeyPair} (h : state.kyberLocal = some kyber)
    (hlen : kyber.secretKey.length = kyberSecretKeyBytes) :
    takeKyberSecret state = .ok ({ state with
      kyberLocal := some { kyber with secretKey := List.replicate kyberSecretKeyBytes 0 } },
      some kyber.secretKey) := by
  have hne : ¬ kyber.secretKey.isEmpty = true := by
    rw [List.isEmpty_iff_length_eq_zero, hlen]
    decide
  simp only [takeKyberSecret, h, if_neg hne, secureHandle_of_length_eq hlen]
  rfl

theorem checkBuildArgs_eq_ok {u : Unit} (h : checkBuildArgs a = .ok u) :
    a.metadataKey.length = metadataKeyBytes ∧ a.dhLocalPrivate.length = x25519PrivateKeyBytes ∧
      a.kyberSecret.length = kyberSecretKeyBytes ∧ a.maxMessagesPerChain ≠ 0 ∧
      a.maxMessagesPerChain ≤ AuraProtocol.maxMessagesPerChain := by
  simp only [checkBuildArgs, except_bind_eq_ok, require_eq_ok] at h
  obtain ⟨_, hkeys, _, hdh, _, hkyber, _, -, _, -, _, -, _, -, _, -, _, hmax, -⟩ := h
  exact ⟨hkeys.2.2, hdh.1, hkyber.1, hmax⟩

theorem initializeFromHandshake_eq_ok {s' : SessionInner} (h : initializeFromHandshake c s = .ok s') :
    ∃ newRoot, deriveInitialChains c s = .ok (newRoot, initialChains c newRoot) ∧
      s' = { s with
        pendingKyberSharedSecret := []
        skippedMessageKeys := ∅
        state := { s.state with
          rootKey := newRoot
          sendChain := some
            { messageIndex := 0, chainKey := initialChainKey c newRoot s.isInitiator
              skippedMessageKeys := [] }
          recvChain := some
            { messageIndex := 0, chainKey := initialChainKey c newRoot (!s.isInitiator)
              skippedMessageKeys := [] }
          sendRatchetEpoch := 0
          recvRatchetEpoch := 0 } } := by
  rw [initializeFromHandshake, except_bind_eq_ok] at h
  obtain ⟨keys, hkeys, h⟩ := h
  obtain ⟨_, _, dhInit, -, -, -, rfl⟩ := deriveInitialChains_eq_ok hkeys
  refine ⟨_, hkeys, ?_⟩
  cases hrole : s.isInitiator with
  | true =>
    rw [hrole] at h
    exact (Except.ok.inj h).symm
  | false =>
    rw [hrole] at h
    exact (Except.ok.inj h).symm

theorem establish_eq_ok (h : establish c a kyberSharedSecret = .ok s) :
    ∃ dhInit, Established c a kyberSharedSecret dhInit s := by
  rw [establish, except_bind_eq_ok] at h
  obtain ⟨state, hstate, h⟩ := h
  simp only [buildProtocolState, except_bind_eq_ok] at hstate
  obtain ⟨_, hargs, binding, hbinding, createdAt, -, hstate⟩ := hstate
  obtain ⟨hmetadataKey, hdhLen, hkyberLen, hmax⟩ := checkBuildArgs_eq_ok hargs
  cases hstate
  simp only [fromHandshakeState, newSession, except_bind_eq_ok] at h
  obtain ⟨_, -, s₁, ⟨_, hdhTake, _, hkyberTake, hs₁⟩, h⟩ := h
  rw [takeDhPrivate_of_length rfl hdhLen] at hdhTake
  cases hdhTake
  rw [takeKyberSecret_of_length rfl hkyberLen] at hkyberTake
  cases hkyberTake
  cases hs₁
  obtain ⟨newRoot, hkeys, rfl⟩ := initializeFromHandshake_eq_ok h
  obtain ⟨handle, dhPrivate, dhInit, hhandle, hread, hdh, hroot⟩ := deriveInitialChains_eq_ok hkeys
  cases hhandle
  rw [readBytes_of_length_eq hdhLen] at hread
  cases hread
  exact ⟨dhInit, {
    sharedDh := hdh, version := rfl, sessionId := rfl, identityBindingHash := hbinding
    maxMessagesPerChain := rfl, maxMessagesPerChain_valid := hmax, sendRatchetEpoch := rfl
    recvRatchetEpoch := rfl, rootKey := congrArg Prod.fst hroot, sendChain := rfl, recvChain := rfl
    metadataKey := rfl, sendMetadataKey := rfl
    length_metadataKey := hmetadataKey, dhRemotePublic := rfl, kyberRemotePublic := rfl
    dhPrivateHandle := rfl, length_dhLocalPrivate := hdhLen, kyberSecretHandle := rfl
    length_kyberSecret := hkyberLen, nonceGenerator := rfl, sendRatchetPending := rfl
    totalMessagesSent := rfl, totalMessagesReceived := rfl, seenPayloadNonces := rfl
    skippedMessageKeys := rfl, cachedMetadataKeys := rfl }⟩

/-- What the state of a handshake becomes before its chains are derived. -/
structure Unchained (a : BuildArgs) (kyberSharedSecret : Bytes) (s : SessionInner) : Prop where
  pendingKyberSharedSecret : s.pendingKyberSharedSecret = kyberSharedSecret
  rootKey : s.state.rootKey = a.rootKey
  dhLocal : s.state.dhLocal = some
    { privateKey := List.replicate x25519PrivateKeyBytes 0, publicKey := a.dhLocalPublic }
  dhRemotePublic : s.state.dhRemotePublic = a.dhRemotePublic
  dhPrivateHandle : s.dhPrivateHandle = some a.dhLocalPrivate
  kyberLocal : s.state.kyberLocal = some
    { secretKey := List.replicate kyberSecretKeyBytes 0, publicKey := a.kyberPublic }

theorem newSession_of_buildProtocolState (hstate : buildProtocolState c a = .ok state)
    (kyberSharedSecret : Bytes) :
    state.version = protocolVersion ∧
      ∃ s, newSession state kyberSharedSecret = .ok s ∧ Unchained a kyberSharedSecret s := by
  simp only [buildProtocolState, except_bind_eq_ok, Except.ok.injEq] at hstate
  obtain ⟨_, hargs, binding, -, createdAt, -, rfl⟩ := hstate
  obtain ⟨-, hdhLen, hkyberLen, -⟩ := checkBuildArgs_eq_ok hargs
  refine ⟨rfl, ?_⟩
  simp only [newSession, except_bind_eq_ok]
  exact ⟨_, ⟨_, takeDhPrivate_of_length rfl hdhLen, _, takeKyberSecret_of_length rfl hkyberLen,
    rfl⟩, rfl, rfl, rfl, rfl, rfl, rfl⟩

/-- A handshake whose data passes the checks ends with a session. -/
theorem fromHandshakeState_isOk (ha : ValidArgs a) (hstate : buildProtocolState c a = .ok state)
    (hss : kyberSharedSecret.length = kyberSharedSecretBytes)
    (hremote : DhValidator.validateX25519PublicKey a.dhRemotePublic = .ok ())
    (hdh : isAllZero (c.x25519 a.dhLocalPrivate a.dhRemotePublic) = false) :
    ∃ s, fromHandshakeState c { state := state, kyberSharedSecret := kyberSharedSecret } =
      .ok s := by
  obtain ⟨hversion, s, hs, hu⟩ := newSession_of_buildProtocolState hstate kyberSharedSecret
  have hlocal : (s.state.dhLocal.map fun dh => dh.privateKey.length).getD 0 =
      x25519PrivateKeyBytes := by
    rw [hu.dhLocal]
    exact List.length_replicate
  have hkeys : ∃ keys, deriveInitialChains c s = .ok keys := by
    simp only [deriveInitialChains, hu.dhRemotePublic, hu.pendingKyberSharedSecret, hu.rootKey,
      except_bind_eq_ok, require_eq_ok, orError_eq_ok,
      HkdfSha256.deriveKeyBytes_eq c (by decide : rootKeyBytes * 2 ≠ 0) (by decide),
      HkdfSha256.deriveKeyBytes_eq c (by decide : chainKeyBytes * 2 ≠ 0) (by decide)]
    exact ⟨_, (), hss, (), ha.keys.1, (), ⟨hlocal, ha.dh.2.2.1⟩, (), hremote, _,
      hu.dhPrivateHandle, _, readBytes_of_length_eq ha.dh.1, _,
      computeDh_eq_ok.mpr ⟨⟨ha.dh.1, ha.dh.2.2.1⟩, hdh, rfl⟩, _, rfl, (),
      c.length_hkdfExpand _ _ _, _, rfl, (), c.length_hkdfExpand _ _ _, rfl⟩
  obtain ⟨keys, hkeys⟩ := hkeys
  simp only [fromHandshakeState, initializeFromHandshake, except_bind_eq_ok, require_eq_ok]
  exact ⟨_, (), hversion, s, hs, keys, hkeys, rfl⟩

/-- The public ratchet keys of a new session are those of the handshake. -/
theorem establish_publicKeys (h : establish c a kyberSharedSecret = .ok s) :
    s.state.dhLocal.map (·.publicKey) = some a.dhLocalPublic ∧
      s.state.kyberLocal.map (·.publicKey) = some a.kyberPublic := by
  rw [establish, except_bind_eq_ok] at h
  obtain ⟨state, hstate, h⟩ := h
  obtain ⟨-, s₁, hs₁, hu⟩ := newSession_of_buildProtocolState hstate kyberSharedSecret
  simp only [fromHandshakeState, hs₁, except_bind_eq_ok, Except.ok.injEq] at h
  obtain ⟨_, -, _, rfl, h⟩ := h
  obtain ⟨newRoot, -, rfl⟩ := initializeFromHandshake_eq_ok h
  rw [hu.dhLocal, hu.kyberLocal]
  exact ⟨rfl, rfl⟩

/-! ## Both sides -/

/-- The arguments that the two sides of one handshake pass to `build_protocol_state`. -/
structure Mirrored (c : Crypto) (a b : BuildArgs) : Prop where
  isInitiator : b.isInitiator = !a.isInitiator
  rootKey : b.rootKey = a.rootKey
  sessionId : b.sessionId = a.sessionId
  metadataKey : b.metadataKey = a.metadataKey
  maxMessagesPerChain : b.maxMessagesPerChain = a.maxMessagesPerChain
  dhLocal : a.dhLocalPublic = c.x25519Public a.dhLocalPrivate ∧
    b.dhLocalPublic = c.x25519Public b.dhLocalPrivate
  dhRemote : a.dhRemotePublic = b.dhLocalPublic ∧ b.dhRemotePublic = a.dhLocalPublic
  kyberLocal : (∃ seed, c.kemKeygen seed = (a.kyberSecret, a.kyberPublic)) ∧
    ∃ seed, c.kemKeygen seed = (b.kyberSecret, b.kyberPublic)
  kyberRemote : a.peerKyberPublic = b.kyberPublic ∧ b.peerKyberPublic = a.kyberPublic
  identityEd25519 : a.peerIdentityEd25519 = b.localIdentityEd25519 ∧
    b.peerIdentityEd25519 = a.localIdentityEd25519
  identityX25519 : a.peerIdentityX25519 = b.localIdentityX25519 ∧
    b.peerIdentityX25519 = a.localIdentityX25519

theorem Mirrored.symm (h : Mirrored c a b) : Mirrored c b a where
  isInitiator := by rw [h.isInitiator, Bool.not_not]
  rootKey := h.rootKey.symm
  sessionId := h.sessionId.symm
  metadataKey := h.metadataKey.symm
  maxMessagesPerChain := h.maxMessagesPerChain.symm
  dhLocal := h.dhLocal.symm
  dhRemote := h.dhRemote.symm
  kyberLocal := h.kyberLocal.symm
  kyberRemote := h.kyberRemote.symm
  identityEd25519 := h.identityEd25519.symm
  identityX25519 := h.identityX25519.symm

/-- The two sessions of one honest handshake. -/
def HonestPair (c : Crypto) (s r : SessionInner) : Prop :=
  ∃ a b kyberSharedSecret, Mirrored c a b ∧ establish c a kyberSharedSecret = .ok s ∧
    establish c b kyberSharedSecret = .ok r

/-- Two sessions that face each other: the same keys, with the roles of the chains and of the
local and remote ratchet keys exchanged. -/
structure MirrorImages (s r : SessionInner) : Prop where
  rootKey : s.state.rootKey = r.state.rootKey
  sessionId : s.state.sessionId = r.state.sessionId
  identityBindingHash : s.state.identityBindingHash = r.state.identityBindingHash
  sendChain : s.state.sendChain.isSome = true ∧ s.state.sendChain = r.state.recvChain
  recvChain : s.state.recvChain.isSome = true ∧ s.state.recvChain = r.state.sendChain
  metadataKey : s.state.sendMetadataKey = r.state.metadataKey ∧
    s.state.metadataKey = r.state.sendMetadataKey
  dhRemotePublic : r.state.dhLocal.map (·.publicKey) = some s.state.dhRemotePublic ∧
    s.state.dhLocal.map (·.publicKey) = some r.state.dhRemotePublic
  kyberRemotePublic : r.state.kyberLocal.map (·.publicKey) = some s.state.kyberRemotePublic ∧
    s.state.kyberLocal.map (·.publicKey) = some r.state.kyberRemotePublic

/-- Sorting makes the concatenation of two keys independent of their order. -/
theorem sortedConcat_comm (x y : Bytes) :
    (if y < x then y ++ x else x ++ y) = if x < y then x ++ y else y ++ x := by
  by_cases hyx : y < x
  · rw [if_pos hyx, if_neg (List.lt_asymm hyx)]
  · rw [if_neg hyx]
    by_cases hxy : x < y
    · rw [if_pos hxy]
    · rw [if_neg hxy, List.le_antisymm (List.not_lt.mp hyx) (List.not_lt.mp hxy)]

/-- Both sides bind the session to the same identities. -/
theorem computeIdentityBindingHash_comm (c : Crypto) (ed x ed' x' : Bytes) :
    computeIdentityBindingHash c ed x ed' x' = computeIdentityBindingHash c ed' x' ed x := by
  simp only [computeIdentityBindingHash, sortedConcat_comm ed, sortedConcat_comm x,
    and_comm (a := ed.length = _), and_comm (a := x.length = _)]

theorem Mirrored.sameSession (h : Mirrored c a b) (hs : Established c a secret dh s)
    (hr : Established c b secret dh' r) : SameSession s.state r.state := by
  refine ⟨hs.sessionId.trans (h.sessionId.symm.trans hr.sessionId.symm), ?_⟩
  have hbind := hs.identityBindingHash
  rw [computeIdentityBindingHash_comm, h.identityEd25519.1, h.identityX25519.1,
    ← h.identityEd25519.2, ← h.identityX25519.2, hr.identityBindingHash] at hbind
  exact (Except.ok.inj hbind).symm

/-- Both sides derive the same root key. -/
theorem Mirrored.rootKey_eq (hc : c.Correct) (h : Mirrored c a b) (hs : Established c a secret dh s)
    (hr : Established c b secret dh' r) : r.state.rootKey = s.state.rootKey := by
  have hdh := hs.sharedDh
  rw [h.dhRemote.1, h.dhLocal.2] at hdh
  have hdh' := computeDh_comm hc hr.length_dhLocalPrivate hdh
  rw [← h.dhLocal.1, ← h.dhRemote.2, hr.sharedDh] at hdh'
  rw [hr.rootKey, hs.rootKey, h.rootKey, Except.ok.inj hdh']

/-- The two sessions of one handshake are mirror images. -/
theorem Mirrored.mirrorImages (hc : c.Correct) (h : Mirrored c a b)
    (hs : establish c a secret = .ok s) (hr : establish c b secret = .ok r) : MirrorImages s r := by
  obtain ⟨dh, es⟩ := establish_eq_ok hs
  obtain ⟨dh', er⟩ := establish_eq_ok hr
  have hroot := h.rootKey_eq hc es er
  obtain ⟨hid, hbinding⟩ := h.sameSession es er
  obtain ⟨hdhS, hkyberS⟩ := establish_publicKeys hs
  obtain ⟨hdhR, hkyberR⟩ := establish_publicKeys hr
  refine ⟨hroot.symm, hid, hbinding, ⟨?_, ?_⟩, ⟨?_, ?_⟩, ?_, ?_, ?_⟩
  · rw [es.sendChain, Option.isSome_some]
  · rw [es.sendChain, er.recvChain, hroot, h.isInitiator, Bool.not_not]
  · rw [es.recvChain, Option.isSome_some]
  · rw [es.recvChain, er.sendChain, hroot, h.isInitiator]
  · rw [es.sendMetadataKey, er.metadataKey, es.metadataKey, er.sendMetadataKey]
    exact ⟨h.metadataKey.symm, h.metadataKey.symm⟩
  · rw [hdhR, hdhS, es.dhRemotePublic, er.dhRemotePublic, h.dhRemote.1, h.dhRemote.2]
    exact ⟨rfl, rfl⟩
  · rw [hkyberR, hkyberS, es.kyberRemotePublic, er.kyberRemotePublic, h.kyberRemote.1,
      h.kyberRemote.2]
    exact ⟨rfl, rfl⟩

/-- Sender and receiver of one direction are at the same view. -/
structure InSync (c : Crypto) (s r : SessionInner) (v : View) : Prop where
  sendsAt : SendsAt c s v
  recvAt : RecvAt r v
  rootKey : s.state.rootKey = v.rootKey

theorem Mirrored.inSync (hc : c.Correct) (h : Mirrored c a b) (hs : Established c a secret dh s)
    (hr : Established c b secret dh' r) :
    ∃ v : View, InSync c s r v ∧ v.epoch = 0 ∧ v.index = 0 := by
  have hroot := h.rootKey_eq hc hs hr
  have hlen : s.state.rootKey.length = rootKeyBytes := by
    rw [hs.rootKey, length_initialRoot]
  obtain ⟨seed, hseed⟩ := h.kyberLocal.1
  refine ⟨{ epoch := 0, chainKey := initialChainKey c s.state.rootKey a.isInitiator, index := 0
            metadataKey := a.metadataKey, rootKey := s.state.rootKey
            dhPublic := a.dhLocalPublic, kyberPublic := a.kyberPublic
            length_chainKey := length_initialChainKey c _ _
            length_metadataKey := hs.length_metadataKey, length_rootKey := hlen },
    ⟨?_, ?_, rfl⟩, rfl, rfl⟩
  · exact ⟨hs.sendRatchetEpoch, ⟨_, hs.sendChain, rfl, rfl⟩, hs.sendMetadataKey,
      ⟨⟨_, hs.dhPrivateHandle, hs.length_dhLocalPrivate, h.dhLocal.1⟩,
        ⟨seed, by rw [hs.kyberSecretHandle, hseed], by rw [hseed]⟩⟩, Nat.zero_le _⟩
  · refine ⟨hr.recvRatchetEpoch, ⟨_, hr.recvChain, ?_, rfl⟩, hr.metadataKey.trans h.metadataKey,
      hroot, hr.dhRemotePublic.trans h.dhRemote.2, hr.kyberRemotePublic.trans h.kyberRemote.2⟩
    change initialChainKey c r.state.rootKey (!b.isInitiator) = _
    rw [hroot, h.isInitiator, Bool.not_not]

end AuraProtocol.Session
