import AuraProtocol.Group.Messages
import AuraProtocol.Identity.Keys

/-!
# Key packages

`protocol/group/key_package.rs`: the signed credential under which a member joins
a group, and the checks every key package passes before it reaches a tree.

The group modules each have their own copy of Ed25519 signing and verification,
which differ in their error texts only.  `signWith` and `verifyWith` are those
copies with the errors as parameters.
-/

namespace AuraProtocol.Group

open Fallible
open Session (readBytes)

/-! ## Signatures -/

section Signatures

variable (c : Crypto)

/-- The signing functions of the group modules, with the error for a key of the wrong size. -/
def signWith (size : ProtocolError) (secretKey message : Bytes) : Except ProtocolError Bytes := do
  require (secretKey.length = ed25519SecretKeyBytes) size
  require (c.ed25519KeypairValid secretKey = true)
    (.keyGeneration "Invalid Ed25519 keypair bytes")
  .ok (c.ed25519Sign secretKey message)

/-- The verifying functions of the group modules, with their four errors. -/
def verifyWith (keySize signatureSize badKey failed : ProtocolError)
    (publicKey signature message : Bytes) : Except ProtocolError Unit := do
  require (publicKey.length = ed25519PublicKeyBytes) keySize
  require (signature.length = ed25519SignatureBytes) signatureSize
  require (c.ed25519KeyValid publicKey = true) badKey
  require (c.ed25519Verify publicKey message signature = true) failed

/-- Whether a secret key can sign. -/
def CanSign (secretKey : Bytes) : Prop :=
  secretKey.length = ed25519SecretKeyBytes ∧ c.ed25519KeypairValid secretKey = true

/-- Whether a signature verifies under a public key. -/
def Verifies (publicKey signature message : Bytes) : Prop :=
  publicKey.length = ed25519PublicKeyBytes ∧ signature.length = ed25519SignatureBytes ∧
    c.ed25519KeyValid publicKey = true ∧ c.ed25519Verify publicKey message signature = true

variable {c}

theorem signWith_eq_ok {size : ProtocolError} {secretKey message signature : Bytes} :
    signWith c size secretKey message = .ok signature ↔
      CanSign c secretKey ∧ signature = c.ed25519Sign secretKey message := by
  rw [signWith, except_seq_eq_ok, except_seq_eq_ok, require_eq_ok, require_eq_ok, CanSign,
    and_assoc, Except.ok.injEq, eq_comm (a := signature)]

theorem verifyWith_eq_ok {keySize signatureSize badKey failed : ProtocolError}
    {publicKey signature message : Bytes} :
    verifyWith c keySize signatureSize badKey failed publicKey signature message = .ok () ↔
      Verifies c publicKey signature message := by
  rw [verifyWith, except_seq_eq_ok, except_seq_eq_ok, except_seq_eq_ok, require_eq_ok,
    require_eq_ok, require_eq_ok, require_eq_ok, Verifies]

/-- What a key signs verifies under its public key. -/
theorem verifies_sign (hc : c.Correct) (hk : c.ProperKeys) {secretKey : Bytes}
    (h : CanSign c secretKey) (message : Bytes) :
    Verifies c (c.ed25519Public secretKey) (c.ed25519Sign secretKey message) message :=
  ⟨c.length_ed25519Public _, c.length_ed25519Sign _ _, hk.ed25519Public_valid _ h.2,
    hc.ed25519Verify_ed25519Sign _ _⟩

end Signatures

/-! ## Key packages -/

namespace KeyPackage

variable (c : Crypto)

/-- `ed25519_sign` of `key_package.rs`. -/
def ed25519Sign (secretKey message : Bytes) : Except ProtocolError Bytes :=
  signWith c (.invalidInput "Invalid Ed25519 secret key size") secretKey message

/-- `ed25519_verify` of `key_package.rs`. -/
def ed25519Verify (publicKey signature message : Bytes) : Except ProtocolError Unit :=
  verifyWith c (.invalidInput "Invalid Ed25519 public key size")
    (.invalidInput "Invalid Ed25519 signature size") (.peerPubKey "Invalid Ed25519 public key")
    (.peerPubKey "Ed25519 signature verification failed") publicKey signature message

def buildSignedContent (version : ℕ) (identityEd25519Public identityX25519Public
    identityKyberPublic leafX25519Public leafKyberPublic credential : Bytes) : Bytes :=
  leBytes 4 version ++ identityEd25519Public ++ identityX25519Public ++ identityKyberPublic ++
    leafX25519Public ++ leafKyberPublic ++ credential

/-- The bytes a key package's signature is over. -/
def signedContent (pkg : GroupKeyPackage) : Bytes :=
  buildSignedContent pkg.version pkg.identityEd25519Public pkg.identityX25519Public
    pkg.identityKyberPublic pkg.leafX25519Public pkg.leafKyberPublic pkg.credential

def signExistingKeyPackage (ed25519Secret identityEd25519Public identityX25519Public
    identityKyberPublic leafX25519Public leafKyberPublic credential : Bytes) :
    Except ProtocolError Bytes :=
  ed25519Sign c ed25519Secret (buildSignedContent groupProtocolVersion identityEd25519Public
    identityX25519Public identityKyberPublic leafX25519Public leafKyberPublic credential)

/-- The check of a credential's size. -/
def validateCredential (credential : Bytes) : Except ProtocolError Unit :=
  require (credential.length ≤ maxCredentialSize) (.invalidInput
    s!"Credential size {credential.length} exceeds maximum {maxCredentialSize} bytes")

def validateKeyPackage (pkg : GroupKeyPackage) : Except ProtocolError Unit := do
  require (pkg.version = groupProtocolVersion) (.invalidInput
    s!"Unsupported KeyPackage version: {pkg.version} (expected {groupProtocolVersion})")
  validateCredential pkg.credential
  require (pkg.identityEd25519Public.length = ed25519PublicKeyBytes)
    (.invalidInput "Invalid Ed25519 public key size")
  require (pkg.identityX25519Public.length = x25519PublicKeyBytes)
    (.invalidInput "Invalid identity X25519 public key size")
  require (pkg.identityKyberPublic.length = kyberPublicKeyBytes)
    (.invalidInput "Invalid identity Kyber public key size")
  require (pkg.leafX25519Public.length = x25519PublicKeyBytes)
    (.invalidInput "Invalid leaf X25519 public key size")
  require (pkg.leafKyberPublic.length = kyberPublicKeyBytes)
    (.invalidInput "Invalid leaf Kyber public key size")
  require (pkg.signature.length = ed25519SignatureBytes) (.invalidInput "Invalid signature size")
  DhValidator.validateX25519PublicKey pkg.identityX25519Public
  KyberInterop.validatePublicKey c pkg.identityKyberPublic
  DhValidator.validateX25519PublicKey pkg.leafX25519Public
  KyberInterop.validatePublicKey c pkg.leafKyberPublic
  ed25519Verify c pkg.identityEd25519Public pkg.signature (signedContent pkg)

/-- The randomness of a hybrid key pair: the X25519 private key, and what ML-KEM key generation and
its self-test draw. -/
structure KeyEntropy where
  x25519 : Random32
  kyberSeed : Bytes
  kyberSelfTest : Bytes

/-- `create_key_package`: the package with the private keys of its leaf. -/
def createKeyPackage (identity : IdentityKeys c) (credential : Bytes) (entropy : KeyEntropy) :
    Except ProtocolError (GroupKeyPackage × Bytes × Bytes) := do
  let x25519 := X25519KeyPair.generate c entropy.x25519
  let kyber ← KyberKeyPair.generate c entropy.kyberSeed entropy.kyberSelfTest
  validateCredential credential
  let ed25519Secret ← readBytes identity.ed25519.secretKey ed25519SecretKeyBytes
  let signature ← ed25519Sign c ed25519Secret (buildSignedContent groupProtocolVersion
    identity.ed25519.publicKey identity.identityX25519.publicKey identity.kyber.publicKey
    x25519.publicKey kyber.publicKey credential)
  .ok ({ version := groupProtocolVersion
         identityEd25519Public := identity.ed25519.publicKey
         identityX25519Public := identity.identityX25519.publicKey
         leafX25519Public := x25519.publicKey
         leafKyberPublic := kyber.publicKey
         signature := signature
         credential := credential
         createdAt := none
         identityKyberPublic := identity.kyber.publicKey }, x25519.secretKey, kyber.secretKey)

variable {c}

/-- What `validate_key_package` accepts. -/
structure Valid (c : Crypto) (pkg : GroupKeyPackage) : Prop where
  version : pkg.version = groupProtocolVersion
  credential : pkg.credential.length ≤ maxCredentialSize
  identityX25519 : DhValidator.validateX25519PublicKey pkg.identityX25519Public = .ok ()
  identityKyber : KyberInterop.validatePublicKey c pkg.identityKyberPublic = .ok ()
  leafX25519 : DhValidator.validateX25519PublicKey pkg.leafX25519Public = .ok ()
  leafKyber : KyberInterop.validatePublicKey c pkg.leafKyberPublic = .ok ()
  signature : Verifies c pkg.identityEd25519Public pkg.signature (signedContent pkg)

/-- The separate size checks are implied by the key validators and the verifier. -/
theorem validateKeyPackage_eq_ok {pkg : GroupKeyPackage} :
    validateKeyPackage c pkg = .ok () ↔ Valid c pkg := by
  rw [validateKeyPackage]
  simp only [except_seq_eq_ok, require_eq_ok, validateCredential, ed25519Verify,
    verifyWith_eq_ok]
  constructor
  · rintro ⟨hversion, hcred, -, -, -, -, -, -, hix, hik, hlx, hlk, hsig⟩
    exact ⟨hversion, hcred, hix, hik, hlx, hlk, hsig⟩
  · intro h
    exact ⟨h.version, h.credential, h.signature.1, DhValidator.length_of_validate h.identityX25519,
      (KyberInterop.validatePublicKey_eq_ok.mp h.identityKyber).1,
      DhValidator.length_of_validate h.leafX25519,
      (KyberInterop.validatePublicKey_eq_ok.mp h.leafKyber).1, h.signature.2.1, h.identityX25519,
      h.identityKyber, h.leafX25519, h.leafKyber, h.signature⟩

/-- Every key package made with an identity is accepted. -/
theorem valid_createKeyPackage (hc : c.Correct) (hk : c.ProperKeys) {identity : IdentityKeys c}
    {credential : Bytes} {entropy : KeyEntropy} {pkg : GroupKeyPackage} {x k : Bytes}
    (h : createKeyPackage c identity credential entropy = .ok (pkg, x, k)) : Valid c pkg := by
  simp only [createKeyPackage, except_bind_eq_ok] at h
  obtain ⟨kyber, -, _, hcred, secret, hsecret, signature, hsign, hpkg⟩ := h
  rw [Session.readBytes_of_length_eq identity.ed25519.length_secretKey, Except.ok.injEq] at hsecret
  obtain ⟨hcan, rfl⟩ := signWith_eq_ok.mp hsign
  cases hpkg
  have hverify := verifies_sign hc hk (hsecret ▸ hcan) (buildSignedContent groupProtocolVersion
    identity.ed25519.publicKey identity.identityX25519.publicKey identity.kyber.publicKey
    (X25519KeyPair.generate c entropy.x25519).publicKey kyber.publicKey credential)
  rw [← identity.ed25519.publicKey_eq, hsecret] at hverify
  refine ⟨rfl, require_eq_ok.mp hcred, ?_, identity.kyber.validatePublicKey hc, ?_,
    kyber.validatePublicKey hc, hverify⟩
  · change DhValidator.validateX25519PublicKey identity.identityX25519.publicKey = _
    rw [identity.identityX25519.publicKey_eq]
    exact hc.x25519Public_valid _
  · exact hc.x25519Public_valid _

end KeyPackage

end AuraProtocol.Group
