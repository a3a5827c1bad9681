import AuraProtocol.Crypto.Primitives
import AuraProtocol.Lib.OrdMap
import Mathlib.Data.Prod.Lex

/-!
# Session state

The data of a 1:1 session: the wire messages of `envelope.proto` and
`state.proto`, and `SessionInner`, the state a `Session` guards with its lock.
Secrets held in secure memory are plain byte strings here; wiping is not
modelled, since a wiped buffer is never read again.

`prost` is a parameter, as a `Codec` per message type: encoding is total and
decoding inverts it.
-/

namespace AuraProtocol

/-- The encoder and decoder `prost` generates for a message type. -/
structure Codec (α : Type) where
  encode : α → Bytes
  /-- Decoding gives the message or the text of a decode error. -/
  decode : Bytes → Except String α
  /-- What was encoded decodes to the same message. -/
  decode_encode : ∀ a, decode (encode a) = .ok a

namespace Session

/-- `google.protobuf.Timestamp`. -/
structure Timestamp where
  seconds : ℤ
  nanos : ℤ
  deriving DecidableEq, Repr

structure CachedMessageKey where
  messageIndex : ℕ
  messageKey : Bytes
  epoch : ℕ
  deriving DecidableEq, Repr

structure CachedMetadataKey where
  epoch : ℕ
  metadataKey : Bytes
  deriving DecidableEq, Repr

/-- `ChainState`: the next message index of a chain and the key to derive it from. -/
structure ChainState where
  messageIndex : ℕ
  chainKey : Bytes
  skippedMessageKeys : List CachedMessageKey
  deriving DecidableEq, Repr

structure DhKeyPair where
  privateKey : Bytes
  publicKey : Bytes
  deriving DecidableEq, Repr

structure KyberKeyPair where
  secretKey : Bytes
  publicKey : Bytes
  deriving DecidableEq, Repr

/-- `NonceState`: the random part of the payload nonces of a chain and the next counter. -/
structure NonceState where
  noncePrefix : Bytes
  counter : ℕ
  deriving DecidableEq, Repr

structure ProtocolState where
  version : ℕ
  isInitiator : Bool
  createdAt : Option Timestamp
  sessionId : Bytes
  stateCounter : ℕ
  sendRatchetEpoch : ℕ
  recvRatchetEpoch : ℕ
  rootKey : Bytes
  sendChain : Option ChainState
  recvChain : Option ChainState
  dhLocal : Option DhKeyPair
  dhRemotePublic : Bytes
  dhLocalInitialPublic : Bytes
  dhRemoteInitialPublic : Bytes
  metadataKey : Bytes
  kyberLocal : Option KyberKeyPair
  kyberRemotePublic : Bytes
  nonceGenerator : Option NonceState
  stateHmac : Bytes
  maxMessagesPerChain : ℕ
  maxNonceCounter : ℕ
  localIdentityEd25519Public : Bytes
  localIdentityX25519Public : Bytes
  peerIdentityEd25519Public : Bytes
  peerIdentityX25519Public : Bytes
  identityBindingHash : Bytes
  replayEpoch : ℕ
  seenPayloadNonces : List Bytes
  sendRatchetPending : Bool
  skippedKeys : List CachedMessageKey
  cachedMetadataKeys : List CachedMetadataKey
  sendMetadataKey : Bytes
  deviceId : Option Bytes
  sessionTtlSeconds : Option ℕ
  lastActivityUnix : Option ℕ
  totalMessagesSent : ℕ
  totalMessagesReceived : ℕ
  deriving DecidableEq, Repr

structure SecureEnvelope where
  version : ℕ
  encryptedMetadata : Bytes
  encryptedPayload : Bytes
  headerNonce : Bytes
  ratchetEpoch : ℕ
  dhPublicKey : Option Bytes
  kyberCiphertext : Option Bytes
  sentAt : Option Timestamp
  newKyberPublic : Option Bytes
  previousChainLength : Option ℕ
  deriving DecidableEq, Repr

structure EnvelopeMetadata where
  messageIndex : ℕ
  payloadNonce : Bytes
  envelopeType : ℤ
  envelopeId : ℕ
  correlationId : Option String
  deriving DecidableEq, Repr

structure SealedState where
  version : ℕ
  dekNonce : Bytes
  stateNonce : Bytes
  encryptedDek : Bytes
  encryptedState : Bytes
  externalCounter : ℕ
  deriving DecidableEq, Repr

/-- The codecs of the session's messages. -/
structure Wire where
  metadata : Codec EnvelopeMetadata
  protocolState : Codec ProtocolState
  sealedState : Codec SealedState

/-- The slot of a skipped message key: its epoch first, then its index. -/
abbrev Slot := ℕ ×ₗ ℕ

/-- The slot of an epoch and an index. -/
def slot (epoch index : ℕ) : Slot := toLex (epoch, index)

theorem slot_inj {e i e' i' : ℕ} : slot e i = slot e' i' ↔ e = e' ∧ i = i' := by
  rw [slot, slot, toLex_inj, Prod.mk.injEq]

theorem slot_le_slot {e i e' i' : ℕ} : slot e i ≤ slot e' i' ↔ e < e' ∨ e = e' ∧ i ≤ i' := by
  rw [slot, slot, Prod.Lex.toLex_le_toLex]

/-- Every key of the skipped-key map is a slot. -/
theorem slot_eta (k : Slot) : slot (ofLex k).1 (ofLex k).2 = k := rfl

/-- `SessionInner`: what the lock of a `Session` guards. -/
structure SessionInner where
  state : ProtocolState
  pendingKyberSharedSecret : Bytes
  skippedMessageKeys : OrdMap Slot Bytes
  cachedMetadataKeys : OrdMap ℕ Bytes
  replayEpoch : ℕ
  seenPayloadNonces : Finset Bytes
  seenPayloadNonceOrder : List Bytes
  isInitiator : Bool
  dhPrivateHandle : Option Bytes
  kyberSecretHandle : Option Bytes
  sendRatchetPending : Bool
  messagesSinceLastDhRatchet : ℕ

namespace SessionInner

/-- The session with another cache of skipped message keys. -/
def withSkipped (s : SessionInner) (m : OrdMap Slot Bytes) : SessionInner :=
  { s with skippedMessageKeys := m }

@[simp] theorem withSkipped_state (s : SessionInner) (m : OrdMap Slot Bytes) :
    (s.withSkipped m).state = s.state := rfl

@[simp] theorem withSkipped_skippedMessageKeys (s : SessionInner) (m : OrdMap Slot Bytes) :
    (s.withSkipped m).skippedMessageKeys = m := rfl

@[simp] theorem withSkipped_withSkipped (s : SessionInner) (m m' : OrdMap Slot Bytes) :
    (s.withSkipped m).withSkipped m' = s.withSkipped m' := rfl

@[simp] theorem withSkipped_self (s : SessionInner) :
    s.withSkipped s.skippedMessageKeys = s := rfl

/-- Writes the position of the receiving chain. -/
def setRecvChain (s : SessionInner) (chainKey : Bytes) (messageIndex : ℕ) : SessionInner :=
  { s with
    state := { s.state with
      recvChain := s.state.recvChain.map fun rc =>
        { rc with chainKey := chainKey, messageIndex := messageIndex } } }

@[simp] theorem setRecvChain_recvChain (s : SessionInner) (chainKey : Bytes) (i : ℕ) :
    (s.setRecvChain chainKey i).state.recvChain =
      s.state.recvChain.map fun rc => { rc with chainKey := chainKey, messageIndex := i } := rfl

end SessionInner

/-- Session operations: a failing one hands back the state it failed in. -/
abbrev SessionM := EStateM ProtocolError SessionInner

/-- The clock readings of one call, in the order the call takes them. -/
structure Clock where
  /-- Read by `check_inner_expired`, if the session has a time to live. -/
  expiry : Except ProtocolError ℕ
  /-- Read to record the session's last activity. -/
  activity : Except ProtocolError ℕ
  /-- Read by `encrypt` to stamp the envelope. -/
  sent : Except ProtocolError ℕ

def timestampFromUnixSecs (unixSecs : ℕ) : Except ProtocolError Timestamp :=
  if unixSecs < 2 ^ 63 then .ok { seconds := unixSecs, nanos := 0 }
  else .error (.invalidState "Unix timestamp exceeds i64 range")

/-- `check_inner_expired`; the cast of the creation time to `u64` wraps. -/
def checkInnerExpired (state : ProtocolState) (now : Except ProtocolError ℕ) :
    Except ProtocolError Bool :=
  match state.sessionTtlSeconds with
  | none => .ok false
  | some ttl => do
    let now ← now
    let idle := match state.lastActivityUnix with
      | some last => decide (ttl < now - last)
      | none => false
    let old := match state.createdAt with
      | some created => decide (ttl < now - (created.seconds % 2 ^ 64).toNat)
      | none => false
    .ok (idle || old)

/-- `SecureMemoryHandle::read_bytes`. -/
def readBytes (handle : Bytes) (len : ℕ) : Except ProtocolError Bytes :=
  if handle.length < len then .error (.crypto (.bufferTooSmall handle.length len))
  else .ok (handle.take len)

theorem readBytes_of_length_eq {handle : Bytes} {len : ℕ} (h : handle.length = len) :
    readBytes handle len = .ok handle := by
  rw [readBytes, if_neg (by omega), List.take_of_length_le (by omega)]

/-- Allocation of a secure memory region of `size` bytes and writing `data` into it; the
rest of the region stays zero. -/
def secureHandle (size : ℕ) (data : Bytes) : Except ProtocolError Bytes :=
  if size < data.length then .error (.crypto (.bufferTooSmall size data.length))
  else .ok (data ++ List.replicate (size - data.length) 0)

theorem secureHandle_of_length_eq {data : Bytes} {size : ℕ} (h : data.length = size) :
    secureHandle size data = .ok data := by
  rw [secureHandle, if_neg (by omega), h, Nat.sub_self, List.replicate_zero, List.append_nil]

theorem length_of_secureHandle {size : ℕ} {data handle : Bytes}
    (h : secureHandle size data = .ok handle) : handle.length = size := by
  rw [secureHandle] at h
  split_ifs at h with hlt
  cases h
  rw [List.length_append, List.length_replicate]
  omega

/-- The secrets in secure memory have their full size. -/
structure HandleSizes (s : SessionInner) : Prop where
  dhPrivateHandle : ∀ b ∈ s.dhPrivateHandle, b.length = x25519PrivateKeyBytes
  kyberSecretHandle : ∀ b ∈ s.kyberSecretHandle, b.length = kyberSecretKeyBytes

end Session

end AuraProtocol
