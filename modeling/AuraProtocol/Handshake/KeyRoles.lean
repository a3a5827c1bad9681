import AuraProtocol.Group.Instance
import AuraProtocol.Handshake.Honest
import AuraProtocol.Voip.Consent

/-!
# What a party's signatures say about its keys

A bundle carries two keys under the identity's Ed25519 signature: the identity's
X25519 key and the signed pre-key.  Both are signed as they are, 32 bytes with
nothing in front.  Every other message that is signed anywhere in the protocol is
longer than that, so nothing else can stand for a key; but each of the two kinds
can stand for the other, and `validate_bundle` lets a bundle pass that holds the
signed pre-key as identity key.

Signatures are unforgeable in the sense of `Unforged`: the signatures in a bundle
that verify under the party's key are over messages that the party has signed.
-/

namespace AuraProtocol.Handshake

open Fallible Proto List

variable {c : Crypto} {wire : Group.Wire}

/-! ## Everything that is signed -/

/-- `build_signed_payload` of `channel.rs`. -/
def buildSignedPayload (channelId : Bytes) (generation : ℕ) (ciphertext : Bytes) : Bytes :=
  channelId ++ beBytes 8 generation ++ ciphertext

/-- The messages, other than the two keys of a bundle, that are signed with an identity key: one
constructor for each place.  An encoded message is longer than any byte field in it. -/
inductive ProtocolMessage (wire : Group.Wire) : Bytes → Prop
  | initIdentityBinding (ed25519Public x25519Public kyberPublic : Bytes) :
      ProtocolMessage wire (buildInitIdentityBindingMessage ed25519Public x25519Public kyberPublic)
  | keyPackage (version : ℕ) (identityEd25519Public identityX25519Public identityKyberPublic
      leafX25519Public leafKyberPublic credential : Bytes)
      (hkyber : leafKyberPublic.length = kyberPublicKeyBytes) :
      ProtocolMessage wire (Group.KeyPackage.buildSignedContent version identityEd25519Public
        identityX25519Public identityKyberPublic leafX25519Public leafKyberPublic credential)
  | commit (m : Group.GroupCommit) (hmac : m.confirmationMac.length = hmacBytes)
      (hlong : m.confirmationMac.length < (wire.commit.encode m).length) :
      ProtocolMessage wire (wire.commit.encode m)
  | externalJoin (m : Group.GroupExternalJoinAuthorization)
      (hjoiner : m.joinerIdentityEd25519Public.length = ed25519PublicKeyBytes)
      (hlong : m.joinerIdentityEd25519Public.length < (wire.authorization.encode m).length) :
      ProtocolMessage wire (wire.authorization.encode m)
  | welcome (m : Group.GroupWelcome) :
      ProtocolMessage wire (Group.Welcome.welcomeSignatureInput wire m)
  | application (groupId : Bytes) (epoch : ℕ) (m : Group.GroupApplicationMessage) :
      ProtocolMessage wire (Group.GroupSession.buildAppSignatureInput groupId epoch m)
  | call (callId : Voip.CallId) (ephX25519Public kyberCt : Bytes)
      (context : Voip.CallInitAuthContext) (screenShare : Option Voip.ScreenShareMetadata)
      (m : Bytes) (hct : kyberCt.length = kyberCiphertextBytes)
      (h : Voip.callSignatureMessage callId ephX25519Public kyberCt context screenShare = .ok m) :
      ProtocolMessage wire m
  | rekey (callId : Voip.CallId) (rekeyGeneration : ℕ) (ephX25519Public kyberCt : Bytes)
      (hct : kyberCt.length = kyberCiphertextBytes) :
      ProtocolMessage wire
        (Voip.rekeySignatureMessage callId rekeyGeneration ephX25519Public kyberCt)
  | recordingConsent (callId : Bytes) (consent : ℤ) (timestampUnix : ℕ) :
      ProtocolMessage wire (Voip.recordingConsentSignatureInput callId consent timestampUnix)
  | channel (channelId : Bytes) (generation : ℕ) (ciphertext : Bytes)
      (hid : channelId.length = 16) (htag : aesGcmTagBytes ≤ ciphertext.length) :
      ProtocolMessage wire (buildSignedPayload channelId generation ciphertext)

theorem lt_length_callSignatureMessage {callId : Voip.CallId} {ephX25519Public kyberCt m : Bytes}
    {context : Voip.CallInitAuthContext} {screenShare : Option Voip.ScreenShareMetadata}
    (hct : kyberCt.length = kyberCiphertextBytes)
    (h : Voip.callSignatureMessage callId ephX25519Public kyberCt context screenShare = .ok m) :
    x25519PublicKeyBytes < m.length := by
  rw [Voip.callSignatureMessage, except_bind_eq_ok] at h
  obtain ⟨screenShareContext, -, h⟩ := h
  cases h
  simp only [Voip.callMaterialMessage, length_append, hct, kyberCiphertextBytes,
    x25519PublicKeyBytes]
  omega

/-- None of them is as short as a key. -/
theorem ProtocolMessage.lt_length {m : Bytes} (h : ProtocolMessage wire m) :
    x25519PublicKeyBytes < m.length := by
  cases h with
  | initIdentityBinding ed25519Public x25519Public kyberPublic =>
    have hlabel : handshakeInitIdentityBindingInfo.length = 36 := by decide
    simp only [buildInitIdentityBindingMessage, length_append, hlabel, x25519PublicKeyBytes]
    omega
  | keyPackage version identityEd25519Public identityX25519Public identityKyberPublic
      leafX25519Public leafKyberPublic credential hkyber =>
    simp only [Group.KeyPackage.buildSignedContent, length_append, hkyber,
      kyberPublicKeyBytes, x25519PublicKeyBytes]
    omega
  | commit m hmac hlong => rwa [hmac] at hlong
  | externalJoin m hjoiner hlong => rwa [hjoiner] at hlong
  | welcome m =>
    have hlabel : Group.welcomeProvenanceSignatureInfo.length = 31 := by decide
    simp only [Group.Welcome.welcomeSignatureInput, length_append, hlabel, length_leBytes,
      x25519PublicKeyBytes]
    omega
  | application groupId epoch m =>
    have hlabel : Group.groupMessageSignatureInfo.length = 27 := by decide
    simp only [Group.GroupSession.buildAppSignatureInput, length_append, hlabel,
      length_leBytes, x25519PublicKeyBytes]
    omega
  | call callId ephX25519Public kyberCt context screenShare m hct h =>
    exact lt_length_callSignatureMessage hct h
  | rekey callId rekeyGeneration ephX25519Public kyberCt hct =>
    simp only [Voip.rekeySignatureMessage, Voip.callMaterialMessage, length_append, hct,
      kyberCiphertextBytes, x25519PublicKeyBytes]
    omega
  | recordingConsent callId consent timestampUnix =>
    have hlabel : (ascii "Aura-VoIP-RecordingConsent-v1").length = 29 := by decide
    simp only [Voip.recordingConsentSignatureInput, length_append, hlabel, length_leBytes,
      x25519PublicKeyBytes]
    omega
  | channel channelId generation ciphertext hid htag =>
    simp only [buildSignedPayload, length_append, hid, length_beBytes, x25519PublicKeyBytes]
    rw [aesGcmTagBytes] at htag
    omega

/-- A party and everything it has signed with its identity key: the X25519 key of the identity,
signed pre-keys, and messages of the protocol. -/
structure SigningLog (c : Crypto) (wire : Group.Wire) where
  keys : IdentityKeys c
  signedPreKeys : Set Bytes
  signedPreKey_mem : keys.signedPreKey.publicKey ∈ signedPreKeys
  messages : Set Bytes
  protocolMessage_of_mem : ∀ m ∈ messages, ProtocolMessage wire m

namespace SigningLog

variable (p : SigningLog c wire) {b : PreKeyBundle}

/-- The party has signed the message, in whichever role. -/
def Signed (m : Bytes) : Prop :=
  m = p.keys.identityX25519.publicKey ∨ m ∈ p.signedPreKeys ∨ m ∈ p.messages

/-- The bundle holds no forged signature of the party. -/
structure Unforged (b : PreKeyBundle) : Prop where
  identityX25519 : c.ed25519Verify p.keys.ed25519.publicKey b.identityX25519Public
    b.identityX25519Signature = true → p.Signed b.identityX25519Public
  signedPreKey : c.ed25519Verify p.keys.ed25519.publicKey b.signedPreKeyPublic
    b.signedPreKeySignature = true → p.Signed b.signedPreKeyPublic

/-- The two keys of the bundle are the party's, each in its own role. -/
structure InRole (b : PreKeyBundle) : Prop where
  identityX25519 : b.identityX25519Public = p.keys.identityX25519.publicKey
  signedPreKey : b.signedPreKeyPublic ∈ p.signedPreKeys

/-- A key of the party stands in the place of the other kind of key. -/
def RoleMixed (b : PreKeyBundle) : Prop :=
  (b.identityX25519Public ∈ p.signedPreKeys ∧
      b.identityX25519Public ≠ p.keys.identityX25519.publicKey) ∨
    (b.signedPreKeyPublic = p.keys.identityX25519.publicKey ∧
      b.signedPreKeyPublic ∉ p.signedPreKeys)

variable {p}

/-- A signed message as long as a key is a key. -/
theorem Signed.isKey {m : Bytes} (h : p.Signed m) (hlen : m.length = x25519PublicKeyBytes) :
    m = p.keys.identityX25519.publicKey ∨ m ∈ p.signedPreKeys := by
  obtain h | h | h := h
  · exact .inl h
  · exact .inr h
  · exact absurd hlen (p.protocolMessage_of_mem m h).lt_length.ne'

/-- For every party and every bundle that `validate_bundle` accepts under the party's Ed25519 key:
the keys of the bundle are the party's keys in their own roles unless a key of one kind is passed
off as the other. -/
theorem accepted_inRole_iff (hvalid : validateBundle c b = .ok ())
    (hed : b.identityEd25519Public = p.keys.ed25519.publicKey) (hunforged : p.Unforged b) :
    p.InRole b ↔ ¬ p.RoleMixed b := by
  have hb := validateBundle_eq_ok.mp hvalid
  have hx := (Ed25519KeyPair.verify_eq_ok.mp hb.identityX25519Signature).2.2.2
  have hspk := (Ed25519KeyPair.verify_eq_ok.mp hb.signedPreKeySignature).2.2.2
  rw [hed] at hx hspk
  have hxKey := (hunforged.identityX25519 hx).isKey
    (DhValidator.length_of_validate hb.identityX25519Public)
  have hspkKey := (hunforged.signedPreKey hspk).isKey
    (DhValidator.length_of_validate hb.signedPreKeyPublic)
  constructor
  · rintro hrole (⟨-, hne⟩ | ⟨-, hnot⟩)
    · exact hne hrole.identityX25519
    · exact hnot hrole.signedPreKey
  · intro hmixed
    refine ⟨hxKey.elim id fun hmem ↦ ?_, hspkKey.elim (fun heq ↦ ?_) id⟩
    · by_contra hne
      exact hmixed (.inl ⟨hmem, hne⟩)
    · by_contra hnot
      exact hmixed (.inr ⟨heq, hnot⟩)

end SigningLog

/-! ## A bundle with the keys swapped -/

/-- The party's bundle with its two X25519 keys exchanged, each with its own signature. -/
def swappedBundle (k : IdentityKeys c) : PreKeyBundle :=
  { k.createPublicBundle with
    identityX25519Public := k.signedPreKey.publicKey
    identityX25519Signature := k.signedPreKeySignature.1
    signedPreKeyPublic := k.identityX25519.publicKey
    signedPreKeySignature := k.identityX25519Signature.1 }

/-- Exchanging the keys does not invalidate a bundle. -/
theorem validBundle_swappedBundle (hc : c.Correct) (hk : c.ProperKeys) (k : IdentityKeys c)
    (hlen : k.createPublicBundle.oneTimePreKeys.length ≤ maxOneTimePreKeysPerBundle) :
    ValidBundle c (swappedBundle k) :=
  { (builtFrom_createPublicBundle k).validBundle hc hk hlen with
    identityX25519Public := k.signedPreKey.validate hc
    identityX25519Signature := k.ed25519.verify_signature hc hk k.signedPreKeySignature
    signedPreKeyPublic := k.identityX25519.validate hc
    signedPreKeySignature := k.ed25519.verify_signature hc hk k.identityX25519Signature }

/-- The log of a party that has done nothing but create its identity. -/
def SigningLog.created (wire : Group.Wire) (k : IdentityKeys c) : SigningLog c wire where
  keys := k
  signedPreKeys := {k.signedPreKey.publicKey}
  signedPreKey_mem := rfl
  messages := ∅
  protocolMessage_of_mem _ h := h.elim

theorem unforged_createPublicBundle (k : IdentityKeys c) :
    (SigningLog.created wire k).Unforged k.createPublicBundle :=
  ⟨fun _ => .inl rfl, fun _ => .inr (.inl rfl)⟩

theorem unforged_swappedBundle (k : IdentityKeys c) :
    (SigningLog.created wire k).Unforged (swappedBundle k) :=
  ⟨fun _ => .inr (.inl rfl), fun _ => .inl rfl⟩

/-- The bundle with the keys swapped is accepted, holds no forged signature, and has both keys in
the wrong role. -/
theorem swapped_bundle_accepted :
    ∃ (p : SigningLog Crypto.transparent Group.Wire.plain) (b : PreKeyBundle),
      (∃ e count, IdentityKeys.create Crypto.transparent e count = .ok p.keys) ∧
      validateBundle Crypto.transparent b = .ok () ∧
      b.identityEd25519Public = p.keys.ed25519.publicKey ∧ p.Unforged b ∧
      b.identityX25519Public ≠ p.keys.identityX25519.publicKey ∧
      b.identityX25519Public ∈ p.signedPreKeys ∧ b.signedPreKeyPublic ∉ p.signedPreKeys := by
  have hlen : (sampleIdentity 2 3 (by decide)).createPublicBundle.oneTimePreKeys.length ≤
      maxOneTimePreKeysPerBundle := by decide
  have hne : (sampleIdentity 2 3 (by decide)).signedPreKey.publicKey ≠
      (sampleIdentity 2 3 (by decide)).identityX25519.publicKey := by decide +kernel
  have hvalid := validBundle_swappedBundle Crypto.transparent_correct
    Crypto.transparent_properKeys _ hlen
  exact ⟨.created _ (sampleIdentity 2 3 (by decide)), _,
    ⟨_, _, create_sampleEntropy 2 (by decide)⟩, validateBundle_eq_ok.mpr hvalid, rfl,
    unforged_swappedBundle _, hne, rfl, fun h ↦ hne h.symm⟩

theorem accepted_inRole_iff_sample :
    (SigningLog.created Group.Wire.plain (sampleIdentity 2 3 (by decide))).InRole
      (sampleIdentity 2 3 (by decide)).createPublicBundle := by
  have hvalid := (builtFrom_createPublicBundle (sampleIdentity 2 3 (by decide))).validBundle
    Crypto.transparent_correct Crypto.transparent_properKeys (by decide)
  refine (SigningLog.accepted_inRole_iff (validateBundle_eq_ok.mpr hvalid) rfl
    (unforged_createPublicBundle _)).mpr ?_
  rintro (⟨-, hne⟩ | ⟨-, hnot⟩)
  · exact hne rfl
  · exact hnot rfl

end AuraProtocol.Handshake
