import AuraProtocol.Lib.Run
import AuraProtocol.Session.Delivery

/-!
# One direction of a session

A `View` holds the keys of one direction at one point: the sender seals its next
message with them (`SendsAt`), and a receiver that holds them too (`RecvAt`) can
open it.  A parcel carries a view to the next one (`Carries`), along the chain or
through a ratchet.  The two main lemmas say that a successful `encrypt` sends a
parcel from the sender's view (`Sent.carries`), and that a receiver at the view a
parcel starts from decrypts it and arrives at the view it leads to
(`Carries.decrypt`).  What lies in flight is then a run of `Carries` from the
receiver's view to the sender's.
-/

namespace AuraProtocol.Session

open Fallible

variable {c : Crypto} {w : Wire} {clock : Clock} {rnd : Entropy} {r r' s s' s₁ : SessionInner}
  {envelope : SecureEnvelope} {step : SendRatchet} {m : Message} {snapshot : Option RatchetSnapshot}
  {header : SecureEnvelope} {activityUnix : ℕ}

/-! ## Views -/

/-- The keys of one direction at one point; the root key and the public keys of the sender are
those that the next ratchet builds on. -/
structure View where
  epoch : ℕ
  chainKey : Bytes
  index : ℕ
  metadataKey : Bytes
  rootKey : Bytes
  dhPublic : Bytes
  kyberPublic : Bytes
  length_chainKey : chainKey.length = chainKeyBytes
  length_metadataKey : metadataKey.length = metadataKeyBytes
  length_rootKey : rootKey.length = rootKeyBytes

/-- The keys of a ratchet step have full size. -/
structure RatchetOutput.FullSize (out : RatchetOutput) : Prop where
  rootKey : out.rootKey.length = rootKeyBytes
  chainKey : out.chainKey.length = chainKeyBytes
  metadataKey : out.metadataKey.length = metadataKeyBytes

theorem fullSize_of_deriveRatchet {rootKey dhSecret kyberSecret kyberPublic : Bytes}
    {out : RatchetOutput} (h : deriveRatchet c rootKey dhSecret kyberSecret kyberPublic = .ok out) :
    out.FullSize := by
  rw [deriveRatchet, except_bind_eq_ok] at h
  obtain ⟨bytes, -, h⟩ := h
  obtain ⟨hlen, h⟩ := except_seq_eq_ok.mp h
  have hlen' : bytes.length = 96 := require_eq_ok.mp hlen
  cases h
  refine ⟨?_, ?_, ?_⟩
  · rw [List.length_take, hlen']
    rfl
  · rw [List.length_take, List.length_drop, hlen']
    rfl
  · rw [List.length_drop, hlen']
    rfl

theorem fullSize_of_deriveSendRatchet (h : deriveSendRatchet c rnd s = .ok step) :
    step.keys.FullSize := by
  obtain ⟨_, _, -, -, -, hkeys, -⟩ := deriveSendRatchet_eq_ok h
  exact fullSize_of_deriveRatchet hkeys

/-- The view after one message along the chain. -/
def View.next (c : Crypto) (v : View) : View :=
  { v with
    chainKey := nextChainKeyOf c v.chainKey
    index := v.index + 1
    length_chainKey := length_nextChainKeyOf c v.chainKey }

/-- The view after some messages along the chain. -/
def View.advance (c : Crypto) (n : ℕ) (v : View) : View :=
  { v with
    chainKey := chainKeyAt c v.chainKey n
    index := v.index + n
    length_chainKey := length_chainKeyAt c v.length_chainKey n }

/-- The view after a ratchet, before the first message of the new epoch. -/
def View.turn (v : View) (step : SendRatchet) (hfull : step.keys.FullSize) : View where
  epoch := v.epoch + 1
  chainKey := step.keys.chainKey
  index := 0
  metadataKey := step.keys.metadataKey
  rootKey := step.keys.rootKey
  dhPublic := step.newPublic
  kyberPublic := step.newKyberPublic
  length_chainKey := hfull.chainKey
  length_metadataKey := hfull.metadataKey
  length_rootKey := hfull.rootKey

/-! ## Parcels -/

/-- An envelope on its way, with the message it was made from. -/
structure Packet where
  envelope : SecureEnvelope
  message : Message
  deriving DecidableEq

/-- A packet with what it was sealed with. -/
structure Parcel extends Packet where
  nonce : Bytes
  epoch : ℕ
  index : ℕ
  chainKey : Bytes
  metadataKey : Bytes

/-- The metadata sealed in a parcel. -/
def Parcel.metadata (p : Parcel) : EnvelopeMetadata := metadataFor p.message p.index p.nonce

/-- A packet sealed at a view. -/
def View.parcel (v : View) (packet : Packet) (nonce : Bytes) : Parcel where
  toPacket := packet
  nonce := nonce
  epoch := v.epoch
  index := v.index
  chainKey := v.chainKey
  metadataKey := v.metadataKey

/-- The parcel is sealed with the keys of a view, for the session of `r`. -/
structure SealedAt (c : Crypto) (w : Wire) (r : SessionInner) (v : View) (p : Parcel) : Prop where
  parcel_eq : p = v.parcel p.toPacket p.nonce
  isSealed : ∃ t, SameSession t r.state ∧ SealedFor c w t p.metadataKey (messageKeyOf c p.chainKey)
    p.metadata p.message.payload p.envelope
  good : GoodMetadata r p.metadata
  epoch : p.envelope.ratchetEpoch = p.epoch

/-- The envelope carries the header of a ratchet step that leads on from a view, made for the
keys of `r`. -/
structure Turns (c : Crypto) (r : SessionInner) (v : View) (envelope : SecureEnvelope)
    (step : SendRatchet) : Prop where
  derived : ∃ rnd s, deriveSendRatchet c rnd s = .ok step ∧ s.state.rootKey = v.rootKey ∧
    KeysMatch c s.state.dhRemotePublic s.state.kyberRemotePublic r
  dhPublicKey : envelope.dhPublicKey = some step.newPublic
  kyberCiphertext : envelope.kyberCiphertext = some step.kyberCiphertext
  newKyberPublic : envelope.newKyberPublic = some step.newKyberPublic
  epoch : envelope.ratchetEpoch = v.epoch + 1
  epoch_le : v.epoch + 1 ≤ u64Max
  previousChainLength : envelope.previousChainLength = some v.index
  index_le : v.index ≤ r.state.maxMessagesPerChain

/-- A parcel for the session of `r` that leads from one view to the next. -/
inductive Carries (c : Crypto) (w : Wire) (r : SessionInner) : View → Parcel → View → Prop
  | message {v : View} {p : Parcel} : SealedAt c w r v p → p.envelope.hasRatchetHeader = false →
      p.envelope.previousChainLength = none → Carries c w r v p (v.next c)
  | ratchet {v : View} {p : Parcel} {step : SendRatchet} (hfull : step.keys.FullSize) :
      Turns c r v p.envelope step → SealedAt c w r (v.turn step hfull) p →
      Carries c w r v p ((v.turn step hfull).next c)

variable {v : View}

theorem Turns.hasRatchetHeader (h : Turns c r v envelope step) :
    envelope.hasRatchetHeader = true := by
  rw [SecureEnvelope.hasRatchetHeader, h.dhPublicKey]
  rfl

variable {p : Parcel}

/-- A parcel for one session is a parcel for another that differs in nothing it depends on. -/
theorem SealedAt.congr (h : SealedAt c w r v p) (hsame : SameSession r'.state r.state)
    (hmax : r'.state.maxMessagesPerChain = r.state.maxMessagesPerChain) : SealedAt c w r' v p := by
  obtain ⟨t, ht, hsealed⟩ := h.isSealed
  exact ⟨h.parcel_eq, ⟨t, ⟨ht.1.trans hsame.1.symm, ht.2.trans hsame.2.symm⟩, hsealed⟩,
    ⟨hmax ▸ h.good.index_lt, h.good.index_le, h.good.nonceIndex⟩, h.epoch⟩

variable {v' : View}

/-- The key pairs of the receiver only matter for a ratchet. -/
theorem Carries.congr (h : Carries c w r v p v') (hsame : SameSession r'.state r.state)
    (hmax : r'.state.maxMessagesPerChain = r.state.maxMessagesPerChain)
    (hkeys : p.envelope.hasRatchetHeader = true →
      r'.dhPrivateHandle = r.dhPrivateHandle ∧ r'.kyberSecretHandle = r.kyberSecretHandle) :
    Carries c w r' v p v' := by
  cases h with
  | message hsealed hheader hpcl => exact .message (hsealed.congr hsame hmax) hheader hpcl
  | ratchet hfull hturns hsealed =>
    obtain ⟨hdh, hkyber⟩ := hkeys hturns.hasRatchetHeader
    obtain ⟨rnd, s, hstep, hroot, hmatch⟩ := hturns.derived
    exact .ratchet hfull { hturns with
      derived := ⟨rnd, s, hstep, hroot, ⟨hdh ▸ hmatch.dh, hkyber ▸ hmatch.kyber⟩⟩
      index_le := hmax ▸ hturns.index_le } (hsealed.congr hsame hmax)

/-- The view with another root key. -/
def View.withRoot (v : View) (rootKey : Bytes) (h : rootKey.length = rootKeyBytes) : View :=
  { v with rootKey := rootKey, length_rootKey := h }

/-- Two views with the same keys for the next ratchet. -/
structure View.SameRatchet (v v' : View) : Prop where
  rootKey : v'.rootKey = v.rootKey
  dhPublic : v'.dhPublic = v.dhPublic
  kyberPublic : v'.kyberPublic = v.kyberPublic

/-- Without a ratchet the root key does not matter. -/
theorem Carries.withRoot (h : Carries c w r v p v') (hheader : p.envelope.hasRatchetHeader = false)
    (rootKey : Bytes) (hlen : rootKey.length = rootKeyBytes) :
    Carries c w r (v.withRoot rootKey hlen) p (v'.withRoot rootKey hlen) := by
  cases h with
  | message hsealed hheader hpcl =>
    exact .message (v := v.withRoot rootKey hlen)
      ⟨hsealed.parcel_eq, hsealed.isSealed, hsealed.good, hsealed.epoch⟩ hheader hpcl
  | ratchet _ hturns _ => exact absurd hheader (by rw [hturns.hasRatchetHeader]; decide)

theorem Carries.sameRatchet (h : Carries c w r v p v')
    (hheader : p.envelope.hasRatchetHeader = false) : v.SameRatchet v' := by
  cases h with
  | message => exact ⟨rfl, rfl, rfl⟩
  | ratchet _ hturns _ => exact absurd hheader (by rw [hturns.hasRatchetHeader]; decide)

/-! ## What the other calls leave alone -/

/-- What `decrypt` does not write: the sending side of a session, and its constants. -/
structure SendSide (s s' : SessionInner) : Prop where
  version : s'.state.version = s.state.version
  sameSession : SameSession s'.state s.state
  maxMessagesPerChain : s'.state.maxMessagesPerChain = s.state.maxMessagesPerChain
  sendRatchetEpoch : s'.state.sendRatchetEpoch = s.state.sendRatchetEpoch
  sendChain : s'.state.sendChain = s.state.sendChain
  sendMetadataKey : s'.state.sendMetadataKey = s.state.sendMetadataKey
  nonceGenerator : s'.state.nonceGenerator = s.state.nonceGenerator
  totalMessagesSent : s'.state.totalMessagesSent = s.state.totalMessagesSent
  dhPrivateHandle : s'.dhPrivateHandle = s.dhPrivateHandle
  kyberSecretHandle : s'.kyberSecretHandle = s.kyberSecretHandle

theorem SendSide.refl (s : SessionInner) : SendSide s s :=
  ⟨rfl, ⟨rfl, rfl⟩, rfl, rfl, rfl, rfl, rfl, rfl, rfl, rfl⟩

theorem SendSide.trans {s₂ s₃ : SessionInner} (h : SendSide s₁ s₂) (h' : SendSide s₂ s₃) :
    SendSide s₁ s₃ :=
  ⟨h'.1.trans h.1, ⟨h'.2.1.trans h.2.1, h'.2.2.trans h.2.2⟩, h'.3.trans h.3, h'.4.trans h.4,
    h'.5.trans h.5, h'.6.trans h.6, h'.7.trans h.7, h'.8.trans h.8, h'.9.trans h.9, h'.10.trans h.10⟩

theorem sendSide_setRecvChain (s : SessionInner) (m : OrdMap Slot Bytes) (chainKey : Bytes) (i : ℕ) :
    SendSide s ((s.withSkipped m).setRecvChain chainKey i) :=
  ⟨rfl, ⟨rfl, rfl⟩, rfl, rfl, rfl, rfl, rfl, rfl, rfl, rfl⟩

theorem sendSide_skipPreviousChain {pcl : Option ℕ} {u : Unit}
    (h : (skipPreviousChain c pcl).run s = .ok u s') : SendSide s s' := by
  cases pcl with
  | none =>
    cases h
    exact .refl s
  | some pcl =>
    obtain ⟨rc, -, ⟨-, rfl⟩ | ⟨-, -, rfl⟩⟩ := skipOldChainKeys_eq_ok.mp h
    · exact .refl s'
    · exact sendSide_setRecvChain s _ _ _

theorem sendSide_applyRecvRatchet {u : Unit} (h : (applyRecvRatchet c envelope).run s = .ok u s') :
    SendSide s s' := by
  obtain ⟨header, s₁, out, -, hskip, -, -, rfl⟩ := applyRecvRatchet_eq_ok.mp h
  exact (sendSide_skipPreviousChain hskip).trans
    ⟨rfl, ⟨rfl, rfl⟩, rfl, rfl, rfl, rfl, rfl, rfl, rfl, rfl⟩

theorem sendSide_takeMessageKey {isOldEpoch : Bool} {i : ℕ} {key : Bytes}
    (h : (takeMessageKey c envelope isOldEpoch i).run s = .ok key s') : SendSide s s' := by
  cases isOldEpoch with
  | true =>
    obtain ⟨-, rfl⟩ := trySkippedKey_eq_ok.mp h
    exact ⟨rfl, ⟨rfl, rfl⟩, rfl, rfl, rfl, rfl, rfl, rfl, rfl, rfl⟩
  | false =>
    obtain ⟨rc, -, ⟨-, -, rfl⟩ | ⟨-, -, -, rfl⟩⟩ := getRecvMessageKey_eq_ok.mp h
    · exact ⟨rfl, ⟨rfl, rfl⟩, rfl, rfl, rfl, rfl, rfl, rfl, rfl, rfl⟩
    · exact sendSide_setRecvChain s _ _ _

theorem sendSide_recordReceived (nonce : Bytes) (activityUnix totalReceived : ℕ)
    (s : SessionInner) : SendSide s (recordReceived nonce activityUnix totalReceived s) := by
  rw [recordReceived, rememberSeenPayloadNonce]
  split_ifs <;> exact ⟨rfl, ⟨rfl, rfl⟩, rfl, rfl, rfl, rfl, rfl, rfl, rfl, rfl⟩

theorem Entered.sendSide {isOldEpoch : Bool} (h : Entered c envelope s isOldEpoch snapshot s₁) :
    SendSide s s₁ := by
  cases h with
  | ratchet _ _ happly => exact sendSide_applyRecvRatchet happly
  | current => exact .refl s
  | old => exact .refl s

theorem Received.sendSide {result : DecryptResult} (h : Received c w clock envelope s result s') :
    SendSide s s' := by
  have hfinal := sendSide_recordReceived result.metadata.payloadNonce h.activityUnix
    h.totalReceived h.keyed
  rw [← h.final_eq] at hfinal
  exact (h.isEntered.sendSide.trans (sendSide_takeMessageKey h.take)).trans hfinal

/-- What `encrypt` does not write: the receiving side of a session, and its constants. -/
structure RecvSide (s s' : SessionInner) : Prop where
  version : s'.state.version = s.state.version
  sameSession : SameSession s'.state s.state
  maxMessagesPerChain : s'.state.maxMessagesPerChain = s.state.maxMessagesPerChain
  recvRatchetEpoch : s'.state.recvRatchetEpoch = s.state.recvRatchetEpoch
  recvChain : s'.state.recvChain = s.state.recvChain
  metadataKey : s'.state.metadataKey = s.state.metadataKey
  dhRemotePublic : s'.state.dhRemotePublic = s.state.dhRemotePublic
  kyberRemotePublic : s'.state.kyberRemotePublic = s.state.kyberRemotePublic
  totalMessagesReceived : s'.state.totalMessagesReceived = s.state.totalMessagesReceived
  seenPayloadNonces : s'.seenPayloadNonces = s.seenPayloadNonces

theorem RecvSide.refl (s : SessionInner) : RecvSide s s :=
  ⟨rfl, ⟨rfl, rfl⟩, rfl, rfl, rfl, rfl, rfl, rfl, rfl, rfl⟩

theorem RecvSide.trans {s₂ s₃ : SessionInner} (h : RecvSide s₁ s₂) (h' : RecvSide s₂ s₃) :
    RecvSide s₁ s₃ :=
  ⟨h'.1.trans h.1, ⟨h'.2.1.trans h.2.1, h'.2.2.trans h.2.2⟩, h'.3.trans h.3, h'.4.trans h.4,
    h'.5.trans h.5, h'.6.trans h.6, h'.7.trans h.7, h'.8.trans h.8, h'.9.trans h.9, h'.10.trans h.10⟩

theorem Prepared.recvSide (h : Prepared c rnd s header s') : RecvSide s s' := by
  cases h <;> exact ⟨rfl, ⟨rfl, rfl⟩, rfl, rfl, rfl, rfl, rfl, rfl, rfl, rfl⟩

theorem Sent.recvSide (h : Sent c w clock rnd m s envelope s') : RecvSide s s' := by
  obtain ⟨h1, h2, h3, h4, h5, h6, h7, h8, h9, h10⟩ := h.isPrepared.recvSide
  rw [h.final_eq]
  exact ⟨h1, h2, h3, h4, h5, h6, h7, h8, h9, h10⟩

/-! ## Receiving -/

/-- The receiver is at a view. -/
structure RecvAt (r : SessionInner) (v : View) : Prop where
  epoch : r.state.recvRatchetEpoch = v.epoch
  chain : ∃ rc, r.state.recvChain = some rc ∧ rc.chainKey = v.chainKey ∧ rc.messageIndex = v.index
  metadataKey : r.state.metadataKey = v.metadataKey
  rootKey : r.state.rootKey = v.rootKey
  dhRemotePublic : r.state.dhRemotePublic = v.dhPublic
  kyberRemotePublic : r.state.kyberRemotePublic = v.kyberPublic

/-- The session in the epoch of a ratchet. -/
def turned (step : SendRatchet) (r : SessionInner) : SessionInner :=
  enterRecvEpoch (r.state.recvRatchetEpoch + 1) step.header
    (installRecvKeys step.keys (retireMetadataKey r))

theorem recvAt_turned (hepoch : r.state.recvRatchetEpoch = v.epoch) (step : SendRatchet)
    (hfull : step.keys.FullSize) : RecvAt (turned step r) (v.turn step hfull) :=
  ⟨congrArg (· + 1) hepoch, ⟨_, rfl, rfl, rfl⟩, rfl, rfl, rfl, rfl⟩

/-- The session after it moved the next `n` keys of its chain to the cache, as a ratchet does
with what is left of a chain. -/
def caughtUp (c : Crypto) (rc : ChainState) (n : ℕ) (r : SessionInner) : SessionInner :=
  if n = 0 then r
  else (cacheAhead c rc n r).setRecvChain (chainKeyAt c rc.chainKey n) (rc.messageIndex + n)

theorem skipPreviousChain_caughtUp {rc : ChainState} {n pcl : ℕ}
    (hrc : checkSkipOldChain pcl r = .ok rc) (hpcl : pcl = rc.messageIndex + n)
    (hn : n ≤ maxSkippedMessageKeys) :
    (skipPreviousChain c (some pcl)).run r = .ok () (caughtUp c rc n r) := by
  refine skipOldChainKeys_eq_ok.mpr ⟨rc, hrc, ?_⟩
  have hsub : pcl - rc.messageIndex = n := by omega
  rw [hsub, caughtUp]
  by_cases hzero : n = 0
  · rw [if_pos hzero]
    exact .inl ⟨by omega, rfl⟩
  · rw [if_neg hzero, hpcl]
    exact .inr ⟨by omega, hn, rfl⟩

section

variable (c : Crypto) (rc : ChainState) (n : ℕ) (r : SessionInner)

theorem caughtUp_sendSide :
    SendSide r (caughtUp c rc n r) := by
  rw [caughtUp]
  split_ifs
  · exact .refl r
  · exact sendSide_setRecvChain r _ _ _

theorem caughtUp_epoch :
    (caughtUp c rc n r).state.recvRatchetEpoch = r.state.recvRatchetEpoch := by
  rw [caughtUp]
  split_ifs <;> rfl

theorem caughtUp_rootKey :
    (caughtUp c rc n r).state.rootKey = r.state.rootKey := by
  rw [caughtUp]
  split_ifs <;> rfl

end

/-- A receiver enters the next epoch, also if up to a cache of messages of its epoch are missing. -/
theorem RecvAt.entered (hc : c.Correct) (h : RecvAt r v) {n : ℕ} {rc : ChainState}
    (hrc : r.state.recvChain = some rc) (hturns : Turns c r (v.advance c n) envelope step)
    (hn : n ≤ maxSkippedMessageKeys) (hmax : r.state.maxMessagesPerChain ≠ 0 ∧
      r.state.maxMessagesPerChain ≤ AuraProtocol.maxMessagesPerChain) :
    Entered c envelope r false (some (RatchetSnapshot.capture r))
      (turned step (caughtUp c rc n r)) := by
  obtain ⟨rc', hrc', hkey, hindex⟩ := h.chain
  obtain rfl : rc' = rc := Option.some.inj (hrc'.symm.trans hrc)
  obtain ⟨rnd, s, hstep, hroot, hkeys⟩ := hturns.derived
  have hpcl : (v.advance c n).index = rc'.messageIndex + n := congrArg (· + n) hindex.symm
  have hcheck : checkRatchetEnvelope envelope r = .ok () := by
    simp only [checkRatchetEnvelope, except_bind_eq_ok, require_eq_ok, orError_eq_ok,
      checkedAdd_eq_some, hturns.previousChainLength, hrc, Option.map_some, Option.getD_some,
      hturns.dhPublicKey, hturns.kyberCiphertext, hturns.newKyberPublic, hturns.epoch, h.epoch]
    exact ⟨(), ⟨rfl, rfl, rfl⟩, _, ⟨hturns.epoch_le, rfl⟩, (), rfl, (), hturns.index_le, by omega⟩
  have hheader : checkRatchetHeader c envelope r = .ok step.header :=
    checkRatchetHeader_of_send hc hstep hturns.dhPublicKey hturns.kyberCiphertext
      hturns.newKyberPublic (h.rootKey ▸ v.length_rootKey)
  have hskip : (skipPreviousChain c envelope.previousChainLength).run r =
      .ok () (caughtUp c rc' n r) := by
    rw [hturns.previousChainLength]
    refine skipPreviousChain_caughtUp (checkSkipOldChain_eq_ok.mpr ⟨hrc, ?_, hmax, hturns.index_le⟩)
      hpcl hn
    rw [hkey, v.length_chainKey]
  have hside := caughtUp_sendSide c rc' n r
  have hout : recvRatchetOutput c step.header (caughtUp c rc' n r) = .ok step.keys := by
    refine recvRatchetOutput_of_send hc hstep ?_
      ⟨hside.dhPrivateHandle ▸ hkeys.dh, hside.kyberSecretHandle ▸ hkeys.kyber⟩
    rw [caughtUp_rootKey, h.rootKey, hroot]
    rfl
  have hle : (caughtUp c rc' n r).state.recvRatchetEpoch + 1 ≤ u64Max := by
    rw [caughtUp_epoch, h.epoch]
    exact hturns.epoch_le
  exact .ratchet hturns.hasRatchetHeader hcheck (applyRecvRatchet_eq_ok.mpr
    ⟨step.header, _, step.keys, hheader, hskip, hout, hle, rfl⟩)

section

variable (nonce : Bytes) (activityUnix totalReceived : ℕ)

theorem recordReceived_skippedMessageKeys
    (s : SessionInner) : (recordReceived nonce activityUnix totalReceived s).skippedMessageKeys =
      s.skippedMessageKeys := by
  rw [recordReceived, rememberSeenPayloadNonce]
  split_ifs <;> rfl

theorem recordReceived_cachedMetadataKeys
    (s : SessionInner) : (recordReceived nonce activityUnix totalReceived s).cachedMetadataKeys =
      s.cachedMetadataKeys := by
  rw [recordReceived, rememberSeenPayloadNonce]
  split_ifs <;> rfl

theorem RecvAt.recordReceived (h : RecvAt r v) :
    RecvAt (recordReceived nonce activityUnix totalReceived r) v := by
  obtain ⟨h1, h2, h3, h4, h5, h6⟩ := h
  rw [Session.recordReceived, rememberSeenPayloadNonce]
  split_ifs <;> exact ⟨h1, h2, h3, h4, h5, h6⟩

end

theorem GoodMetadata.of_sendSide {metadata : EnvelopeMetadata} (h : GoodMetadata r metadata)
    (hside : SendSide r r') : GoodMetadata r' metadata :=
  ⟨hside.maxMessagesPerChain ▸ h.index_lt, h.index_le, h.nonceIndex⟩

/-- A receiver that entered a parcel's epoch and is at the view of its seal decrypts it. -/
theorem SealedAt.decrypt (hc : c.Correct) {entered : SessionInner} (h : SealedAt c w r v p)
    (hcan : CanReceive clock r activityUnix)
    (henter : Entered c p.envelope r false snapshot entered) (hat : RecvAt entered v)
    (hfresh : p.nonce ∉ entered.seenPayloadNonces) :
    ∃ r', (decrypt c w clock p.envelope).run r =
        .ok { plaintext := p.message.payload, metadata := p.metadata } r' ∧
      RecvAt r' (v.next c) ∧ r'.seenPayloadNonces ⊆ insert p.nonce entered.seenPayloadNonces ∧
      r'.state.totalMessagesReceived = r.state.totalMessagesReceived + 1 ∧
      r'.skippedMessageKeys = roomFor 0 entered ∧
      r'.cachedMetadataKeys = entered.cachedMetadataKeys := by
  obtain ⟨t, hsame, hsealed⟩ := h.isSealed
  obtain ⟨rc, hrc, hkey, hindex⟩ := hat.chain
  have hside := henter.sendSide
  have hgood := h.good.of_sendSide hside
  have hpindex : p.metadata.messageIndex = v.index := congrArg Parcel.index h.parcel_eq
  have hpkey : p.chainKey = v.chainKey := congrArg Parcel.chainKey h.parcel_eq
  have hpmeta : p.metadataKey = v.metadataKey := congrArg Parcel.metadataKey h.parcel_eq
  rw [hpkey, hpmeta] at hsealed
  have hsame' : SameSession t entered.state :=
    ⟨hsame.1.trans hside.sameSession.1.symm, hsame.2.trans hside.sameSession.2.symm⟩
  have hmetadataKey : metadataKeyFor p.envelope false entered = .ok v.metadataKey :=
    congrArg Except.ok hat.metadataKey
  have hchain : checkRecvMessageIndex v.index entered = .ok rc :=
    checkRecvMessageIndex_eq_ok.mpr ⟨hrc, hkey ▸ v.length_chainKey, hpindex ▸ h.good.index_le⟩
  have htake : (takeMessageKey c p.envelope false p.metadata.messageIndex).run entered =
      .ok (messageKeyOf c v.chainKey)
        ((cacheAhead c rc 0 entered).setRecvChain (nextChainKeyOf c v.chainKey) (v.index + 1)) := by
    rw [hpindex]
    refine getRecvMessageKey_eq_ok.mpr ⟨rc, hchain, .inr ⟨hindex.le, ?_, ?_, ?_⟩⟩
    · rw [hindex, Nat.sub_self]
      exact Nat.zero_le _
    · rw [hindex, Nat.sub_self, chainKeyAt_zero, hkey]
    · rw [hindex, Nat.sub_self, chainKeyAt_succ, chainKeyAt_zero, hkey]
  have hkeyed : RecvAt ((cacheAhead c rc 0 entered).setRecvChain (nextChainKeyOf c v.chainKey)
      (v.index + 1)) (v.next c) := by
    refine ⟨hat.epoch, ⟨{ rc with
      chainKey := nextChainKeyOf c v.chainKey, messageIndex := v.index + 1 }, ?_, rfl, rfl⟩,
      hat.metadataKey, hat.rootKey, hat.dhRemotePublic, hat.kyberRemotePublic⟩
    rw [SessionInner.setRecvChain_recvChain, cacheAhead, SessionInner.withSkipped_state, hrc]
    rfl
  refine ⟨_, decrypt_of_entered hc hsealed (hcan.check hsealed) henter hmetadataKey hsame'
    hgood hfresh htake hsame', hkeyed.recordReceived _ _ _,
    recordReceived_seenPayloadNonces _ _ _ _, ?_, recordReceived_skippedMessageKeys _ _ _ _,
    recordReceived_cachedMetadataKeys _ _ _ _⟩
  rw [recordReceived_state]

/-- A receiver at the view a parcel starts from decrypts it and is at the view it leads to. -/
theorem Carries.decrypt (hc : c.Correct) (h : Carries c w r v p v')
    (hcan : CanReceive clock r activityUnix) (hat : RecvAt r v)
    (hfresh : p.nonce ∉ r.seenPayloadNonces) :
    ∃ result r', (decrypt c w clock p.envelope).run r = .ok result r' ∧
      result.plaintext = p.message.payload ∧ RecvAt r' v' ∧
      r'.seenPayloadNonces ⊆ insert p.nonce r.seenPayloadNonces ∧
      r'.state.totalMessagesReceived = r.state.totalMessagesReceived + 1 := by
  cases h with
  | message hsealed hheader hpcl =>
    have hepoch : p.envelope.ratchetEpoch = r.state.recvRatchetEpoch :=
      hsealed.epoch.trans ((congrArg Parcel.epoch hsealed.parcel_eq).trans hat.epoch.symm)
    obtain ⟨r', hrun, hat', hseen, htotal, -, -⟩ := hsealed.decrypt hc hcan
      (.current hheader hepoch hpcl) hat hfresh
    exact ⟨_, r', hrun, rfl, hat', hseen, htotal⟩
  | ratchet hfull hturns hsealed =>
    obtain ⟨rc, hrc, -, -⟩ := hat.chain
    have henter := hat.entered (n := 0) hc hrc hturns (Nat.zero_le _) hcan.maxMessagesPerChain
    obtain ⟨r', hrun, hat', hseen, htotal, -, -⟩ := hsealed.decrypt hc hcan henter
      (recvAt_turned hat.epoch _ hfull) hfresh
    exact ⟨_, r', hrun, rfl, hat', hseen, htotal⟩

/-! ## Sending -/

/-- The sender is at a view; its root key need not be the view's, since the peer may have turned
the ratchet in between. -/
structure SendsAt (c : Crypto) (s : SessionInner) (v : View) : Prop where
  epoch : s.state.sendRatchetEpoch = v.epoch
  chain : ∃ sc, s.state.sendChain = some sc ∧ sc.chainKey = v.chainKey ∧ sc.messageIndex = v.index
  metadataKey : s.state.sendMetadataKey = v.metadataKey
  keys : KeysMatch c v.dhPublic v.kyberPublic s
  index_le : v.index ≤ s.state.maxMessagesPerChain

theorem SendsAt.sendIndex (h : SendsAt c s v) : sendIndex s = v.index := by
  obtain ⟨sc, hsc, -, hindex⟩ := h.chain
  rw [Session.sendIndex, hsc, ← hindex]
  rfl

theorem SendsAt.of_sendSide (h : SendsAt c s v) (hside : SendSide s s') : SendsAt c s' v where
  epoch := hside.sendRatchetEpoch.trans h.epoch
  chain := hside.sendChain ▸ h.chain
  metadataKey := hside.sendMetadataKey.trans h.metadataKey
  keys := ⟨hside.dhPrivateHandle ▸ h.keys.dh, hside.kyberSecretHandle ▸ h.keys.kyber⟩
  index_le := hside.maxMessagesPerChain ▸ h.index_le

theorem sendRatchetRotationNeeded_eq_ok {needed : Bool} :
    sendRatchetRotationNeeded s = .ok needed ↔
      (s.state.maxMessagesPerChain ≠ 0 ∧
        s.state.maxMessagesPerChain ≤ AuraProtocol.maxMessagesPerChain) ∧
      (s.sendRatchetPending || decide (s.state.maxMessagesPerChain ≤ sendIndex s)) = needed := by
  rw [sendRatchetRotationNeeded, except_seq_eq_ok, require_eq_ok, Except.ok.injEq]
  rfl

theorem checkSendChain_eq_ok {chain : ChainState} :
    checkSendChain s = .ok chain ↔ s.state.sendChain = some chain ∧
      chain.chainKey.length = chainKeyBytes ∧ chain.messageIndex ≤ maxMessageIndex := by
  rw [checkSendChain, except_bind_eq_ok]
  simp only [except_seq_eq_ok, require_eq_ok, orError_eq_ok, Except.ok.injEq]
  constructor
  · rintro ⟨_, hchain, hlen, hindex, rfl⟩
    exact ⟨hchain, hlen, hindex⟩
  · rintro ⟨hchain, hlen, hindex⟩
    exact ⟨chain, hchain, hlen, hindex, rfl⟩

theorem drawNonce_eq_ok {i : ℕ} {nonce : Bytes} {ns' : NonceState}
    (h : drawNonce i s = .ok (nonce, ns')) :
    ∃ ns, s.state.nonceGenerator = some ns ∧ ns.noncePrefix.length = noncePrefixBytes ∧
      i < maxMessageIndex ∧ nonce = payloadNonce ns.noncePrefix ns.counter i ∧
      ns' = { ns with counter := ns.counter + 1 } := by
  rw [drawNonce, except_bind_eq_ok] at h
  obtain ⟨⟨ns, limit⟩, hload, hnext⟩ := h
  obtain ⟨hns, hlen⟩ := loadNonceGenerator_eq_ok hload
  exact ⟨ns, hns, hlen, nextNonce_eq_ok hnext⟩

/-- The message of a call is sealed at the view of the prepared session, which moves on to the
next one. -/
theorem Sent.sealedAt {u : View} (h : Sent c w clock rnd m s envelope s')
    (hat : SendsAt c h.prepared u) (hlt : u.index < s.state.maxMessagesPerChain)
    (hsame : SameSession s.state r.state)
    (hmax : s.state.maxMessagesPerChain = r.state.maxMessagesPerChain) :
    SealedAt c w r u (u.parcel { envelope := envelope, message := m } h.nonce) ∧
      SendsAt c s' (u.next c) := by
  obtain ⟨sc, hsc, hkey, hindex⟩ := hat.chain
  obtain ⟨hchain, -, hle⟩ := checkSendChain_eq_ok.mp h.checkChain
  obtain rfl : sc = h.chain := Option.some.inj (hsc.symm.trans hchain)
  obtain ⟨ns, -, hlen, hidx, hnonce, -⟩ := drawNonce_eq_ok h.draw
  have hside := h.isPrepared.recvSide
  have hsealed := h.sealedFor
  rw [hkey, hindex, hat.metadataKey] at hsealed
  have hindex16 : u.index < 2 ^ 16 := lt_trans (hindex ▸ hidx) (by decide)
  have hgoodIndex : extractNonceIndex h.nonce = .ok u.index := by
    rw [hnonce, hindex]
    exact extractNonceIndex_payloadNonce hlen _ hindex16
  have hnext : u.index + 1 ≤ h.prepared.state.maxMessagesPerChain :=
    hside.maxMessagesPerChain ▸ hlt
  have hepoch : envelope.ratchetEpoch = u.epoch := h.samePlain.ratchetEpoch.trans hat.epoch
  rw [hindex] at hle
  refine ⟨⟨rfl, ⟨h.prepared.state, ?_, hsealed⟩, ⟨hmax ▸ hlt, hle, hgoodIndex⟩, hepoch⟩, ?_⟩
  · exact ⟨hside.sameSession.1.trans hsame.1, hside.sameSession.2.trans hsame.2⟩
  · rw [h.final_eq]
    refine ⟨hat.epoch, ⟨_, rfl, congrArg (nextChainKeyOf c) hkey, congrArg (· + 1) hindex⟩,
      hat.metadataKey, ⟨hat.keys.dh, hat.keys.kyber⟩, hnext⟩

/-- The keys that only a ratchet changes. -/
structure SameKeys (s s' : SessionInner) : Prop where
  rootKey : s'.state.rootKey = s.state.rootKey
  dhPrivateHandle : s'.dhPrivateHandle = s.dhPrivateHandle
  kyberSecretHandle : s'.kyberSecretHandle = s.kyberSecretHandle

/-- A successful `encrypt` sends a parcel that leads on from the sender's view.  For a ratchet, the
sender must hold the root key of the view and the current public keys of the receiver. -/
theorem Sent.carries (h : Sent c w clock rnd m s envelope s') (hat : SendsAt c s v)
    (hsame : SameSession s.state r.state)
    (hmax : s.state.maxMessagesPerChain = r.state.maxMessagesPerChain)
    (hturn : sendRatchetRotationNeeded s = .ok true → s.state.rootKey = v.rootKey ∧
      KeysMatch c s.state.dhRemotePublic s.state.kyberRemotePublic r) :
    ∃ p v', p.toPacket = { envelope := envelope, message := m } ∧ p.nonce = h.nonce ∧
      Carries c w r v p v' ∧ SendsAt c s' v' ∧
      ((envelope.hasRatchetHeader = false ∧ SameKeys s s') ∨
        (envelope.hasRatchetHeader = true ∧ sendRatchetRotationNeeded s = .ok true ∧
          s'.state.rootKey = v'.rootKey)) := by
  have hplain := h.samePlain
  have hsealedAt := fun u => h.sealedAt (r := r) (u := u)
  have hfinal := h.final_eq
  generalize hnonce : h.nonce = nonce at *
  generalize hheader : h.header = header at *
  generalize hprepared : h.prepared = prepared at *
  have hprep : Prepared c rnd s header prepared := hheader ▸ hprepared ▸ h.isPrepared
  cases hprep with
  | stay hneeded =>
    obtain ⟨-, hfalse⟩ := sendRatchetRotationNeeded_eq_ok.mp hneeded
    have hlt : v.index < s.state.maxMessagesPerChain := by
      rw [Bool.or_eq_false_iff, decide_eq_false_iff_not, hat.sendIndex] at hfalse
      exact not_le.mp hfalse.2
    obtain ⟨hsealed, hat'⟩ := hsealedAt v hat hlt hsame hmax
    refine ⟨_, v.next c, rfl, rfl,
      .message hsealed hplain.hasRatchetHeader hplain.previousChainLength, hat',
      .inl ⟨hplain.hasRatchetHeader, ?_⟩⟩
    rw [hfinal]
    exact ⟨rfl, rfl, rfl⟩
  | @rotate step hneeded hstep hle =>
    obtain ⟨hvalid, -⟩ := sendRatchetRotationNeeded_eq_ok.mp hneeded
    obtain ⟨hroot, hkeys⟩ := hturn hneeded
    obtain ⟨_, _, -, -, -, -, hstepEq⟩ := deriveSendRatchet_eq_ok hstep
    have hfull := fullSize_of_deriveSendRatchet hstep
    have hrotated : SendsAt c (rotated rnd step s) (v.turn step hfull) := by
      refine ⟨congrArg (· + 1) hat.epoch, ⟨_, rfl, rfl, rfl⟩, rfl,
        ⟨⟨_, rfl, rnd.length_x25519Private, ?_⟩, ⟨rnd.kyberSeed, ?_, ?_⟩⟩, Nat.zero_le _⟩
      · exact congrArg SendRatchet.newPublic hstepEq
      · exact congrArg some (congrArg SendRatchet.newKyberSecret hstepEq)
      · exact congrArg SendRatchet.newKyberPublic hstepEq
    obtain ⟨hsealed, hat'⟩ :=
      hsealedAt _ hrotated (Nat.pos_of_ne_zero hvalid.1) hsame hmax
    have hturns : Turns c r v envelope step := by
      refine ⟨⟨rnd, s, hstep, hroot, hkeys⟩, hplain.dhPublicKey, hplain.kyberCiphertext,
        hplain.newKyberPublic, ?_, ?_, ?_, hmax ▸ hat.index_le⟩
      · exact hplain.ratchetEpoch.trans (congrArg (· + 1) hat.epoch)
      · exact hat.epoch ▸ hle
      · exact hplain.previousChainLength.trans (congrArg some hat.sendIndex)
    refine ⟨_, _, rfl, rfl, .ratchet hfull hturns hsealed, hat',
      .inr ⟨hturns.hasRatchetHeader, hneeded, ?_⟩⟩
    rw [hfinal]
    rfl

/-! ## Nonces -/

/-- The nonce has one of the prefixes that were drawn, and an index that the sender has passed if
it still uses that prefix. -/
def Spent (s : SessionInner) (prefixes : List Bytes) (nonce : Bytes) : Prop :=
  ∃ p ctr i, nonce = payloadNonce p ctr i ∧ p ∈ prefixes ∧ p.length = noncePrefixBytes ∧
    i < 2 ^ 16 ∧ ∀ ns ∈ s.state.nonceGenerator, ns.noncePrefix = p → i < sendIndex s

/-- The sender's current prefix is one of those that were drawn. -/
def DrawnFrom (s : SessionInner) (prefixes : List Bytes) : Prop :=
  ∀ ns ∈ s.state.nonceGenerator, ns.noncePrefix ∈ prefixes

theorem Prepared.noncePrefix (h : Prepared c rnd s header s') :
    s' = s ∨ ∀ ns ∈ s'.state.nonceGenerator, ns.noncePrefix = rnd.noncePrefix := by
  cases h with
  | stay => exact .inl rfl
  | rotate =>
    refine .inr fun ns hns => ?_
    cases hns
    rfl

/-- With fresh prefixes every call draws a nonce that was not spent before. -/
theorem Sent.spent {prefixes : List Bytes} (h : Sent c w clock rnd m s envelope s')
    (hdrawn : DrawnFrom s prefixes) (hfresh : rnd.noncePrefix ∉ prefixes) :
    DrawnFrom s' (rnd.noncePrefix :: prefixes) ∧ Spent s' (rnd.noncePrefix :: prefixes) h.nonce ∧
      ∀ n, Spent s prefixes n → Spent s' (rnd.noncePrefix :: prefixes) n ∧ n ≠ h.nonce := by
  obtain ⟨ns, hns, hlen, hidx, hnonce, hns'⟩ := drawNonce_eq_ok h.draw
  obtain ⟨hchain, -, -⟩ := checkSendChain_eq_ok.mp h.checkChain
  have hlt16 : h.chain.messageIndex < 2 ^ 16 := lt_trans hidx (by decide)
  have hpre := h.isPrepared.noncePrefix
  -- a prefix that was drawn before this call is in use only if the call did not rotate
  have hold : ∀ p ∈ prefixes, ns.noncePrefix = p → h.prepared = s := by
    rintro p hp rfl
    rcases hpre with heq | hnew
    · exact heq
    · exact absurd (hnew ns hns ▸ hp) hfresh
  have hcurrent : ns.noncePrefix ∈ rnd.noncePrefix :: prefixes := by
    rcases hpre with heq | hnew
    · exact List.mem_cons_of_mem _ (hdrawn ns (heq ▸ hns))
    · exact hnew ns hns ▸ List.mem_cons_self
  have hgen : s'.state.nonceGenerator = some { ns with counter := ns.counter + 1 } := by
    rw [h.final_eq, ← hns']
    rfl
  have hindex : sendIndex s' = h.chain.messageIndex + 1 := congrArg sendIndex h.final_eq
  refine ⟨?_, ⟨ns.noncePrefix, ns.counter, h.chain.messageIndex, hnonce, hcurrent, hlen, hlt16, ?_⟩,
    ?_⟩
  · intro ns₁ hns₁
    rw [hgen] at hns₁
    cases hns₁
    exact hcurrent
  · intro _ _ _
    omega
  · rintro n ⟨p, ctr, i, rfl, hp, hplen, hi, hpast⟩
    have hpassed : ns.noncePrefix = p → i < h.chain.messageIndex := by
      intro heq
      have hs := hold p hp heq
      rw [hs] at hns hchain
      have := hpast ns hns heq
      rwa [sendIndex, hchain] at this
    refine ⟨⟨p, ctr, i, rfl, List.mem_cons_of_mem _ hp, hplen, hi, ?_⟩, ?_⟩
    · intro ns₁ hns₁ heq
      rw [hgen] at hns₁
      cases hns₁
      exact hindex ▸ Nat.lt_succ_of_lt (hpassed heq)
    · intro heq
      obtain ⟨rfl, rfl⟩ := payloadNonce_inj hplen hlen hi hlt16 (heq.trans hnonce)
      exact lt_irrefl _ (hpassed rfl)

end AuraProtocol.Session
