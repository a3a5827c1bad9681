import AuraProtocol.Handshake.Initiator
import AuraProtocol.Handshake.Responder
import AuraProtocol.Identity.Create
import AuraProtocol.Session.Pair

/-!
# The handshake of two honest parties

If both parties follow the protocol, every step of the handshake succeeds and the
two sessions face each other.  The conditions are what the code itself imposes
besides the keys: the identities differ, the bundle holds no more one-time
pre-keys than `validate_bundle` lets through, the init message is new to the
responder and its table of running handshakes has room.

That generated keys pass every check, and never meet in an all-zero shared
secret, is `Crypto.ProperKeys`.
-/

namespace AuraProtocol

open Fallible Session

variable {c : Crypto} {i : HandshakeInitiator} {now : ℕ}

/-! ## Generated keys -/

/-- Both sides of an exchange compute the same secret. -/
theorem X25519KeyPair.dh_comm (hc : c.Correct) (a b : X25519KeyPair c) :
    c.x25519 a.secretKey b.publicKey = c.x25519 b.secretKey a.publicKey := by
  rw [a.publicKey_eq, b.publicKey_eq, hc.dh_comm]

theorem X25519KeyPair.dh_ne_zero (hk : c.ProperKeys) (a b : X25519KeyPair c) :
    isAllZero (c.x25519 a.secretKey b.publicKey) = false := by
  rw [b.publicKey_eq]
  exact hk.dh_ne_zero _ _

theorem X25519KeyPair.validate (hc : c.Correct) (a : X25519KeyPair c) :
    DhValidator.validateX25519PublicKey a.publicKey = .ok () := by
  rw [a.publicKey_eq]
  exact hc.x25519Public_valid _

theorem Ed25519KeyPair.publicKey_ne_zero (hk : c.ProperKeys) (a : Ed25519KeyPair c) :
    isAllZero a.publicKey = false := by
  rw [a.publicKey_eq]
  exact hk.ed25519Public_ne_zero _ (a.secretKey_valid hk)

theorem KyberKeyPair.kemDecaps_kemEncaps (hc : c.Correct) (a : KyberKeyPair c) (r : Bytes) :
    c.kemDecaps a.secretKey (c.kemEncaps a.publicKey r).1 = (c.kemEncaps a.publicKey r).2 := by
  obtain ⟨seed, hseed⟩ := a.exists_seed
  have hsecret : (c.kemKeygen seed).1 = a.secretKey := congrArg Prod.fst hseed
  have hpublic : (c.kemKeygen seed).2 = a.publicKey := congrArg Prod.snd hseed
  rw [← hsecret, ← hpublic, hc.kemDecaps_kemEncaps]

namespace Handshake

open Proto
open Session (readBytes MirrorImages HonestPair)

/-! ## Bundles of an identity -/

/-- A bundle that carries the keys of an identity.  Its one-time pre-keys are generated keys;
they need not be in the pool any more. -/
structure BuiltFrom (k : IdentityKeys c) (b : PreKeyBundle) : Prop where
  version : b.version = UInt32.ofNat protocolVersion
  identityEd25519Public : b.identityEd25519Public = k.ed25519.publicKey
  identityX25519Public : b.identityX25519Public = k.identityX25519.publicKey
  identityX25519Signature : b.identityX25519Signature = k.identityX25519Signature.1
  signedPreKeyPublic : b.signedPreKeyPublic = k.signedPreKey.publicKey
  signedPreKeySignature : b.signedPreKeySignature = k.signedPreKeySignature.1
  kyberPublic : b.kyberPublic = k.kyber.publicKey
  oneTimePreKeys : ∀ o ∈ b.oneTimePreKeys, ∃ pair : X25519KeyPair c, o.publicKey = pair.publicKey

/-- The bundle an identity publishes is built from it. -/
theorem builtFrom_createPublicBundle (k : IdentityKeys c) : BuiltFrom k k.createPublicBundle where
  version := rfl
  identityEd25519Public := rfl
  identityX25519Public := rfl
  identityX25519Signature := rfl
  signedPreKeyPublic := rfl
  signedPreKeySignature := rfl
  kyberPublic := rfl
  oneTimePreKeys o ho := by
    obtain ⟨opk, -, rfl⟩ := List.mem_map.mp ho
    exact ⟨opk.toX25519KeyPair, rfl⟩

theorem BuiltFrom.validBundle (hc : c.Correct) (hk : c.ProperKeys) {k : IdentityKeys c}
    {b : PreKeyBundle} (h : BuiltFrom k b)
    (hlen : b.oneTimePreKeys.length ≤ maxOneTimePreKeysPerBundle) : ValidBundle c b where
  version := by rw [h.version]; rfl
  identityEd25519Public := by rw [h.identityEd25519Public, k.ed25519.length_publicKey]
  identityX25519Public := by rw [h.identityX25519Public, k.identityX25519.validate hc]
  identityX25519Signature := by
    rw [h.identityEd25519Public, h.identityX25519Public, h.identityX25519Signature,
      k.ed25519.verify_signature hc hk]
  signedPreKeyPublic := by rw [h.signedPreKeyPublic, k.signedPreKey.validate hc]
  signedPreKeySignature := by
    rw [h.identityEd25519Public, h.signedPreKeyPublic, h.signedPreKeySignature,
      k.ed25519.verify_signature hc hk]
  oneTimePreKeys_length := hlen
  oneTimePreKeys o ho := by
    obtain ⟨pair, hpair⟩ := h.oneTimePreKeys o ho
    rw [hpair, pair.validate hc]
  kyberPublic := by rw [h.kyberPublic, k.kyber.validatePublicKey hc]

theorem mem_of_pickOpk {index : UInt32} {b : PreKeyBundle} {o : Proto.OneTimePreKey}
    (h : pickOpk index b = some o) : o ∈ b.oneTimePreKeys := List.mem_of_getElem? h

/-! ## The initiator -/

variable {w : Wire} {e : StartEntropy} {b : PreKeyBundle} {max : UInt32} {kI kR : IdentityKeys c}

theorem selectOpk_of_builtFrom (hc : c.Correct) (hb : BuiltFrom kR b) :
    selectOpk e.opkIndex b = .ok (pickOpk e.opkIndex b) := by
  rw [selectOpk]
  cases hpick : pickOpk e.opkIndex b with
  | none => rfl
  | some o =>
    obtain ⟨pair, hpair⟩ := hb.oneTimePreKeys o (mem_of_pickOpk hpick)
    simp only [except_seq_eq_ok, require_eq_ok]
    rw [hpair]
    exact ⟨pair.length_publicKey, pair.validate hc, trivial⟩

theorem computeDh4_of_builtFrom (hk : c.ProperKeys) (hb : BuiltFrom kR b)
    (eph : X25519KeyPair c) :
    computeDh4 c eph.secretKey (pickOpk e.opkIndex b) =
      .ok ((pickOpk e.opkIndex b).elim [] fun o => c.x25519 eph.secretKey o.publicKey) := by
  cases hpick : pickOpk e.opkIndex b with
  | none => rfl
  | some o =>
    obtain ⟨pair, hpair⟩ := hb.oneTimePreKeys o (mem_of_pickOpk hpick)
    refine computeDh_eq_ok.mpr ⟨⟨eph.length_secretKey, ?_⟩, ?_, rfl⟩
    · rw [hpair, pair.length_publicKey]
    · rw [hpair, eph.dh_ne_zero hk pair]

variable (e kI) in
theorem initiatorArgs_valid (hc : c.Correct) (hk : c.ProperKeys) (hb : BuiltFrom kR b)
    (hmax : validateMaxMessagesPerChain max = .ok ()) (eph : X25519KeyPair c) (createdAt : ℕ) :
    Session.ValidArgs (initiatorArgs kI b (initiatorSecrets e b kI eph) eph.secretKey eph.publicKey
      kI.kyber.secretKey e.noncePrefix max createdAt) where
  keys := ⟨c.length_hkdfExpand _ _ _, c.length_hkdfExpand _ _ _, c.length_hkdfExpand _ _ _⟩
  dh := by
    have hspk : b.signedPreKeyPublic.length = x25519PublicKeyBytes := by
      rw [hb.signedPreKeyPublic, kR.signedPreKey.length_publicKey]
    exact ⟨eph.length_secretKey, eph.length_publicKey, hspk, eph.length_publicKey, hspk⟩
  kyber := ⟨kI.kyber.length_secretKey, kI.kyber.length_publicKey,
    (congrArg List.length hb.kyberPublic).trans kR.kyber.length_publicKey⟩
  identityEd25519 := ⟨kI.ed25519.length_publicKey,
    (congrArg List.length hb.identityEd25519Public).trans kR.ed25519.length_publicKey⟩
  identityX25519 := by
    refine ⟨kI.identityX25519.validate hc, ?_⟩
    change DhValidator.validateX25519PublicKey b.identityX25519Public = _
    rw [hb.identityX25519Public, kR.identityX25519.validate hc]
  identityEd25519_ne_zero := by
    refine ⟨kI.ed25519.publicKey_ne_zero hk, ?_⟩
    change isAllZero b.identityEd25519Public = false
    rw [hb.identityEd25519Public, kR.ed25519.publicKey_ne_zero hk]
  maxMessagesPerChain := by
    obtain ⟨hne, hle⟩ := validateMaxMessagesPerChain_eq_ok.mp hmax
    exact ⟨fun h => hne (UInt32.toNat_inj.mp h), hle⟩
  maxNonceCounter := ⟨(by decide : AuraProtocol.maxNonceCounter ≠ 0), le_rfl⟩

variable (w e kI) in
/-- With a bundle of generated keys the message of an honest initiator can be built. -/
theorem buildInit_isOk (hc : c.Correct) (hk : c.ProperKeys) (hb : BuiltFrom kR b)
    (hmax : validateMaxMessagesPerChain max = .ok ()) {eph : X25519KeyPair c}
    (heph : kI.ephemeral = some eph) (hnow : now < 2 ^ 63) :
    ∃ i, buildInit c w (.ok now) e b max kI = .ok i := by
  have hss : (c.kemEncaps b.kyberPublic e.kyberEncapsulation).2.length = kyberSharedSecretBytes :=
    c.length_kemEncaps_secret _ _
  have hspk : ∀ pair : X25519KeyPair c, ∀ context, computeDh c pair.secretKey b.signedPreKeyPublic
      context = .ok (c.x25519 pair.secretKey b.signedPreKeyPublic) := fun pair context => by
    rw [hb.signedPreKeyPublic]
    exact computeDh_eq_ok.mpr ⟨⟨pair.length_secretKey, kR.signedPreKey.length_publicKey⟩,
      pair.dh_ne_zero hk _, rfl⟩
  have hid : computeDh c eph.secretKey b.identityX25519Public "DH2" =
      .ok (c.x25519 eph.secretKey b.identityX25519Public) := by
    rw [hb.identityX25519Public]
    exact computeDh_eq_ok.mpr ⟨⟨eph.length_secretKey, kR.identityX25519.length_publicKey⟩,
      eph.dh_ne_zero hk _, rfl⟩
  have hencaps : KyberInterop.encapsulate c b.kyberPublic e.kyberEncapsulation =
      .ok (c.kemEncaps b.kyberPublic e.kyberEncapsulation) := by
    obtain ⟨hlen, -, hparse⟩ := KyberInterop.validatePublicKey_eq_ok.mp
      (kR.kyber.validatePublicKey hc)
    rw [hb.kyberPublic]
    exact KyberInterop.encapsulate_eq_ok.mpr ⟨hlen, Option.isSome_of_mem hparse, rfl⟩
  obtain ⟨state, hstate⟩ := buildProtocolState_isOk (c := c)
    (initiatorArgs_valid e kI hc hk hb hmax eph now) hnow
  simp only [buildInit, signInitIdentityBinding, except_bind_eq_ok, require_eq_ok, orError_eq_ok,
    deriveClassical_eq, deriveSecrets_eq, computeHmacSha256_eq_ok, selectOpk_of_builtFrom hc hb,
    heph, hencaps]
  exact ⟨_, _, rfl, (), eph.length_publicKey, _, readBytes_of_length_eq eph.length_secretKey,
    _, readBytes_of_length_eq kI.identityX25519.length_secretKey, _, rfl, _, hspk _ _, _,
    hid, _, hspk _ _, _, computeDh4_of_builtFrom hk hb eph, _, rfl, _, rfl, _,
    readBytes_of_length_eq hss, _, rfl, (), kI.kyber.length_publicKey, _,
    readBytes_of_length_eq kI.ed25519.length_secretKey, _,
    ⟨(), kI.ed25519.length_secretKey, (), kI.ed25519.secretKey_valid hk, rfl⟩, _,
    ⟨length_confirmKeyOf _ _ _, rfl⟩, _, readBytes_of_length_eq kI.kyber.length_secretKey, _,
    rfl, state, hstate, _, ⟨length_confirmKeyOf _ _ _, rfl⟩, rfl⟩

/-- An honest initiator can start a handshake on every bundle of another identity that is not
too large. -/
theorem start_isOk (hc : c.Correct) (hk : c.ProperKeys) (hb : BuiltFrom kR b)
    (hlen : b.oneTimePreKeys.length ≤ maxOneTimePreKeysPerBundle)
    (hmax : validateMaxMessagesPerChain max = .ok ())
    (hne : kI.ed25519.publicKey ≠ kR.ed25519.publicKey) (hnow : now < 2 ^ 63) :
    ∃ i, (start c w (.ok now) e b max).run kI = .ok i { kI with ephemeral := none } := by
  obtain ⟨i, hi⟩ := buildInit_isOk w e (withEphemeral e kI) hc hk hb hmax rfl hnow
  exact ⟨i, start_of_buildInit (validateBundle_eq_ok.mpr (hb.validBundle hc hk hlen)) hmax
    (by rwa [hb.identityEd25519Public]) hi⟩

/-! ## The responder -/

theorem buildMetadataContext_comm (x y sessionId : Bytes) :
    buildMetadataContext x y sessionId = buildMetadataContext y x sessionId := by
  rw [buildMetadataContext, sortedConcat_comm, buildMetadataContext]

/-- The order of the ratchet keys does not matter to what is derived. -/
theorem Secrets.of_comm (classical kyberSharedSecret kyberCiphertext x y : Bytes) :
    Secrets.of c classical kyberSharedSecret kyberCiphertext x y =
      Secrets.of c classical kyberSharedSecret kyberCiphertext y x := by
  simp only [Secrets.of, buildMetadataContext_comm x]

/-- The init message of a handshake, with its MAC. -/
def confirmedInit (w : Wire) (e : StartEntropy) (b : PreKeyBundle) (max : UInt32)
    (k : IdentityKeys c) (eph : X25519KeyPair c) : HandshakeInit :=
  { startedInit e b max k eph with
    keyConfirmationMac := c.hmacSha256 (initiatorSecrets e b k eph).confirmInit
      (buildTranscriptHash c w b (startedInit e b max k eph)) }

/-- The picked one-time pre-key, if any, is in the responder's pool. -/
def PicksFromPool (e : StartEntropy) (b : PreKeyBundle) (k : IdentityKeys c) : Prop :=
  ∀ p, pickOpk e.opkIndex b = some p → ∃ o ∈ k.oneTimePreKeys, p = o.toProto

/-- All one-time pre-keys of a current bundle are in the pool. -/
theorem picksFromPool_createPublicBundle (e : StartEntropy) (k : IdentityKeys c) :
    PicksFromPool e k.createPublicBundle k := by
  intro p hp
  obtain ⟨o, ho, rfl⟩ := List.mem_map.mp (mem_of_pickOpk hp)
  exact ⟨o, ho, rfl⟩

variable {eph : X25519KeyPair c}

variable (w max kI eph) in
/-- The responder finds the key the initiator picked. -/
theorem PicksFromPool.namedOpk (h : PicksFromPool e b kR) :
    pickOpk e.opkIndex b =
        (Handshake.namedOpk kR (confirmedInit w e b max kI eph)).map OneTimePreKey.toProto ∧
      ∀ id, (confirmedInit w e b max kI eph).oneTimePreKeyId = some id →
        ∃ o, kR.findOneTimePreKey id = some o := by
  have hid : (confirmedInit w e b max kI eph).oneTimePreKeyId =
    (pickOpk e.opkIndex b).map (·.oneTimePreKeyId) := rfl
  rw [Handshake.namedOpk, hid]
  cases hpick : pickOpk e.opkIndex b with
  | none => exact ⟨rfl, fun id h => (by cases h)⟩
  | some p =>
    obtain ⟨o, ho, rfl⟩ := h p hpick
    have hfind := IdentityKeys.findOneTimePreKey_of_mem ho
    refine ⟨?_, ?_⟩
    · change _ = (kR.findOneTimePreKey o.id).map _
      rw [hfind, Option.map_some]
    · rintro _ ⟨⟩
      exact ⟨o, hfind⟩

variable (w max kI eph) in
/-- Both parties derive the same keys. -/
theorem responderSecrets_confirmedInit (hc : c.Correct) (hb : BuiltFrom kR b)
    (hopk : PicksFromPool e b kR) :
    responderSecrets kR (namedOpk kR (confirmedInit w e b max kI eph)) b
      (confirmedInit w e b max kI eph) = initiatorSecrets e b kI eph := by
  have hpick := (hopk.namedOpk w max kI eph).1
  generalize hopk' : namedOpk kR (confirmedInit w e b max kI eph) = opk at hpick ⊢
  have hikm : responderIkm kR opk (confirmedInit w e b max kI eph) =
      initiatorIkm kI eph b (pickOpk e.opkIndex b) := by
    change x3dhIkm (c.x25519 _ kI.identityX25519.publicKey) (c.x25519 _ eph.publicKey)
      (c.x25519 _ eph.publicKey) (opk.elim [] fun o => c.x25519 _ eph.publicKey) = _
    rw [initiatorIkm, hpick, hb.signedPreKeyPublic, hb.identityX25519Public,
      X25519KeyPair.dh_comm hc kI.identityX25519, X25519KeyPair.dh_comm hc eph,
      X25519KeyPair.dh_comm hc eph]
    cases opk with
    | none => rfl
    | some o => exact congrArg (x3dhIkm _ _ _) (o.dh_comm hc eph)
  rw [responderSecrets, hikm, Secrets.of_comm, initiatorSecrets]
  change Secrets.of c _ (c.kemDecaps _ (c.kemEncaps b.kyberPublic _).1)
    (c.kemEncaps b.kyberPublic _).1 eph.publicKey _ = _
  rw [hb.kyberPublic, kR.kyber.kemDecaps_kemEncaps hc]

variable (w e b kI eph) in
theorem validateInitMessage_confirmedInit (hc : c.Correct) (hk : c.ProperKeys)
    (hmax : validateMaxMessagesPerChain max = .ok ()) :
    validateInitMessage c (confirmedInit w e b max kI eph) = .ok () := by
  simp only [validateInitMessage, KyberInterop.validateCiphertext, except_seq_eq_ok, require_eq_ok]
  exact ⟨rfl, ⟨kI.ed25519.length_publicKey, kI.identityX25519.length_publicKey,
    eph.length_publicKey⟩, c.length_kemEncaps_ciphertext _ _, c.length_hmacSha256 _ _,
    c.length_ed25519Sign _ _, kI.kyber.length_publicKey, kI.identityX25519.validate hc,
    eph.validate hc, ⟨c.length_kemEncaps_ciphertext _ _, hc.kemEncaps_ne_zero _ _⟩,
    kI.kyber.validatePublicKey hc, hmax, kI.ed25519.verify_signature hc hk ⟨_, rfl⟩⟩

variable (w e kI eph) in
theorem responderArgs_valid (hc : c.Correct) (hk : c.ProperKeys) (hb : BuiltFrom kR b)
    (hmax : validateMaxMessagesPerChain max = .ok ()) (opk : Option (OneTimePreKey c))
    (noncePrefix : Bytes) (createdAt : ℕ) :
    Session.ValidArgs (responderArgs kR b (confirmedInit w e b max kI eph)
      (responderSecrets kR opk b (confirmedInit w e b max kI eph)) kR.signedPreKey.secretKey
      kR.kyber.secretKey noncePrefix max createdAt) where
  keys := ⟨c.length_hkdfExpand _ _ _, c.length_hkdfExpand _ _ _, c.length_hkdfExpand _ _ _⟩
  dh := by
    have hspk : b.signedPreKeyPublic.length = x25519PublicKeyBytes := by
      rw [hb.signedPreKeyPublic, kR.signedPreKey.length_publicKey]
    exact ⟨kR.signedPreKey.length_secretKey, hspk, eph.length_publicKey, hspk,
      eph.length_publicKey⟩
  kyber := ⟨kR.kyber.length_secretKey, kR.kyber.length_publicKey, kI.kyber.length_publicKey⟩
  identityEd25519 := ⟨(congrArg List.length hb.identityEd25519Public).trans
    kR.ed25519.length_publicKey, kI.ed25519.length_publicKey⟩
  identityX25519 := by
    refine ⟨?_, kI.identityX25519.validate hc⟩
    change DhValidator.validateX25519PublicKey b.identityX25519Public = _
    rw [hb.identityX25519Public, kR.identityX25519.validate hc]
  identityEd25519_ne_zero := by
    refine ⟨?_, kI.ed25519.publicKey_ne_zero hk⟩
    change isAllZero b.identityEd25519Public = false
    rw [hb.identityEd25519Public, kR.ed25519.publicKey_ne_zero hk]
  maxMessagesPerChain := by
    obtain ⟨hne, hle⟩ := validateMaxMessagesPerChain_eq_ok.mp hmax
    exact ⟨fun h => hne (UInt32.toNat_inj.mp h), hle⟩
  maxNonceCounter := ⟨(by decide : AuraProtocol.maxNonceCounter ≠ 0), le_rfl⟩

variable (w eph) in
/-- An honest init message for the responder's own bundle passes all checks. -/
theorem respond_isOk (hc : c.Correct) (hk : c.ProperKeys) (hb : BuiltFrom kR b)
    (hmax : validateMaxMessagesPerChain max = .ok ()) (hopk : PicksFromPool e b kR)
    (hne : kI.ed25519.publicKey ≠ kR.ed25519.publicKey) (hnow : now < 2 ^ 63)
    (noncePrefix : Bytes) :
    ∃ r, respond c w (.ok now) noncePrefix b (confirmedInit w e b max kI eph) max kR = .ok r := by
  obtain ⟨-, hfound⟩ := hopk.namedOpk w max kI eph
  have hsecrets := responderSecrets_confirmedInit w max kI eph hc hb hopk
  have hnamed : namedOpkPrivate kR (confirmedInit w e b max kI eph).oneTimePreKeyId =
      .ok ((namedOpk kR (confirmedInit w e b max kI eph)).map (·.secretKey)) := by
    rw [namedOpk]
    cases hid : (confirmedInit w e b max kI eph).oneTimePreKeyId with
    | none => rfl
    | some id =>
      obtain ⟨o, ho⟩ := hfound id hid
      simp only [namedOpkPrivate, IdentityKeys.getOneTimePreKeyPrivateById, ho, orError,
        Option.bind_some, Option.map_some, except_bind_eq_ok, Except.ok.injEq]
      exact ⟨_, ⟨o, rfl, readBytes_of_length_eq o.length_secretKey⟩, rfl⟩
  have hdh : ∀ (a : X25519KeyPair c) (x : X25519KeyPair c) (context : String),
      computeDh c a.secretKey x.publicKey context = .ok (c.x25519 a.secretKey x.publicKey) :=
    fun a x context => computeDh_eq_ok.mpr
      ⟨⟨a.length_secretKey, x.length_publicKey⟩, a.dh_ne_zero hk x, rfl⟩
  have hdh4 : ∀ opk : Option (OneTimePreKey c),
      responderDh4 c eph.publicKey (opk.map (·.secretKey)) =
        .ok (opk.elim [] fun o => c.x25519 o.secretKey eph.publicKey) := fun opk => by
    cases opk with
    | none => rfl
    | some o => exact hdh o.toX25519KeyPair eph "DH4"
  have hct : KyberInterop.validateCiphertext (c.kemEncaps b.kyberPublic e.kyberEncapsulation).1 =
      .ok () := by
    simp only [KyberInterop.validateCiphertext, except_seq_eq_ok, require_eq_ok]
    exact ⟨c.length_kemEncaps_ciphertext _ _, hc.kemEncaps_ne_zero _ _⟩
  obtain ⟨state, hstate⟩ := buildProtocolState_isOk (c := c)
    (responderArgs_valid w e kI eph hc hk hb hmax
      (namedOpk kR (confirmedInit w e b max kI eph)) noncePrefix now) hnow
  have hreflexion : b.identityEd25519Public ≠ kI.ed25519.publicKey := by
    rw [hb.identityEd25519Public]
    exact hne.symm
  simp only [respond, except_bind_eq_ok, require_eq_ok, deriveClassical_eq, deriveSecrets_eq,
    computeHmacSha256_eq_ok, decapsulateKyberCiphertext_eq_ok, hnamed]
  exact ⟨_, (), validateInitMessage_confirmedInit _ _ _ _ _ hc hk hmax, (), hreflexion, (), rfl, _, rfl,
    _,
    readBytes_of_length_eq kR.signedPreKey.length_secretKey, _,
    readBytes_of_length_eq kR.identityX25519.length_secretKey, _,
    hdh kR.signedPreKey kI.identityX25519 _, _, hdh kR.identityX25519 eph _, _,
    hdh kR.signedPreKey eph _, _, hdh4 _, _, rfl, _, ⟨hct, rfl⟩, _, rfl, _,
    ⟨length_confirmKeyOf _ _ _, rfl⟩, (), congrArg (fun s => c.hmacSha256 (Secrets.confirmInit s) _)
      hsecrets, _, ⟨length_confirmKeyOf _ _ _, rfl⟩, _,
    readBytes_of_length_eq kR.kyber.length_secretKey, (), kR.kyber.length_publicKey, _,
    rfl, state, hstate, rfl⟩

variable (w max kI eph) in
/-- The two parties of an honest handshake build their sessions from mirrored data. -/
theorem mirrored_args (hc : c.Correct) (hb : BuiltFrom kR b) (hopk : PicksFromPool e b kR)
    (noncePrefix : Bytes) (createdI createdR : ℕ) :
    Session.Mirrored c
      (initiatorArgs kI b (initiatorSecrets e b kI eph) eph.secretKey eph.publicKey
        kI.kyber.secretKey e.noncePrefix max createdI)
      (responderArgs kR b (confirmedInit w e b max kI eph)
        (responderSecrets kR (namedOpk kR (confirmedInit w e b max kI eph)) b
          (confirmedInit w e b max kI eph))
        kR.signedPreKey.secretKey kR.kyber.secretKey noncePrefix max createdR) := by
  rw [responderSecrets_confirmedInit w max kI eph hc hb hopk]
  exact {
    isInitiator := rfl, rootKey := rfl, sessionId := rfl, metadataKey := rfl
    maxMessagesPerChain := rfl
    dhLocal := ⟨eph.publicKey_eq, hb.signedPreKeyPublic.trans kR.signedPreKey.publicKey_eq⟩
    dhRemote := ⟨rfl, rfl⟩
    kyberLocal := ⟨kI.kyber.exists_seed, kR.kyber.exists_seed⟩
    kyberRemote := ⟨hb.kyberPublic, rfl⟩
    identityEd25519 := ⟨rfl, rfl⟩
    identityX25519 := ⟨rfl, rfl⟩ }

/-! ## The whole handshake -/

theorem Started.initMessage_eq {now : Except ProtocolError ℕ}
    (h : Started w now e b max kI eph i) :
    i.initMessage = confirmedInit w e b max kI eph := h.initMessage

/-- The initiator accepts the acknowledgement of a responder that derived the same MAC. -/
theorem finish_of_ackMac {s : Session.SessionInner} (hmac : i.expectedAckMac.length = hmacBytes)
    (hs : Session.fromHandshakeState c i.sessionState = .ok s) :
    i.finish c w (w.handshakeAck.encode
      { version := UInt32.ofNat protocolVersion, keyConfirmationMac := i.expectedAckMac }) =
      .ok s := by
  have hbytes : (w.handshakeAck.encode
      ⟨UInt32.ofNat protocolVersion, i.expectedAckMac⟩).length ≤ maxHandshakeMessageSize := by
    rw [w.encode_handshakeAck]
    exact (length_encode_handshakeAck_le hmac).trans (by decide)
  simp only [HandshakeInitiator.finish, except_bind_eq_ok, require_eq_ok, mapError_eq_ok]
  exact ⟨(), hbytes, _, w.handshakeAck.decode_encode _, (), rfl, (), hmac, (), rfl, hs⟩

section

variable (hc : c.Correct) (hk : c.ProperKeys) (hb : BuiltFrom kR b)
  (hlen : b.oneTimePreKeys.length ≤ maxOneTimePreKeysPerBundle)
  (hmax : validateMaxMessagesPerChain max = .ok ()) (hopk : PicksFromPool e b kR)
include hc hk hb hlen hmax hopk

/-- The responder accepts an honest init message it has not seen. -/
theorem accepts_confirmedInit (hne : kI.ed25519.publicKey ≠ kR.ed25519.publicKey) {nowR : ℕ}
    (hnowR : nowR < 2 ^ 63) (noncePrefix : Bytes)
    (hunseen : kR.Unseen (buildHandshakeInitFingerprint c w (confirmedInit w e b max kI eph)))
    (hcard : kR.inflightHandshakeInitHashes.card < maxInflightHandshakeInits) :
    ∃ r, Accepts w (.ok nowR) noncePrefix b
      (w.handshakeInit.encode (confirmedInit w e b max kI eph)) max kR
      (confirmedInit w e b max kI eph) r := by
  obtain ⟨r, hr⟩ := respond_isOk w eph hc hk hb hmax hopk hne hnowR noncePrefix
  have hsized := validateInitMessage_sized
    (validateInitMessage_confirmedInit w e b kI eph hc hk hmax)
  have hbytes := length_encode_handshakeInit_le hsized
  refine ⟨r, validateBundle_eq_ok.mpr (hb.validBundle hc hk hlen), hmax, ?_,
    w.handshakeInit.decode_encode _, hunseen, hcard, hr⟩
  rw [w.encode_handshakeInit]
  exact hbytes.trans (by decide)

theorem accepts_of_started (hne : kI.ed25519.publicKey ≠ kR.ed25519.publicKey)
    {nowI : Except ProtocolError ℕ} {nowR : ℕ} (hnowR : nowR < 2 ^ 63) (noncePrefix : Bytes)
    (hs : Started w nowI e b max kI eph i)
    (hunseen : kR.Unseen (buildHandshakeInitFingerprint c w i.initMessage))
    (hcard : kR.inflightHandshakeInitHashes.card < maxInflightHandshakeInits) :
    ∃ r, Accepts w (.ok nowR) noncePrefix b i.initBytes max kR i.initMessage r := by
  rw [hs.initMessage_eq] at hunseen
  rw [hs.initBytes, hs.initMessage_eq]
  exact accepts_confirmedInit hc hk hb hlen hmax hopk hne hnowR noncePrefix hunseen hcard

/-- An honest handshake that the responder accepted ends with two sessions that face each
other. -/
theorem finish_of_accepts {nowI nowR : Except ProtocolError ℕ} {noncePrefix : Bytes}
    {r : HandshakeResponder} (hs : Started w nowI e b max kI eph i)
    (hacc : Accepts w nowR noncePrefix b i.initBytes max kR i.initMessage r) :
    ∃ s t, i.finish c w r.ackBytes = .ok s ∧ r.finish c = .ok t ∧ MirrorImages s t ∧
      HonestPair c s t := by
  have hr := respond_eq_ok hacc.respond
  rw [hs.initMessage_eq] at hr
  have hsecrets := responderSecrets_confirmedInit w max kI eph hc hb hopk
  obtain ⟨createdI, -, hstateI⟩ := hs.state
  obtain ⟨createdR, -, hstateR⟩ := hr.state
  have hmirrored := mirrored_args w max kI eph hc hb hopk
    noncePrefix createdI createdR
  have hss : r.sessionState.kyberSharedSecret = i.sessionState.kyberSharedSecret := by
    rw [hr.kyberSharedSecret, hs.kyberSharedSecret, hb.kyberPublic,
      ← kR.kyber.kemDecaps_kemEncaps hc, ← hb.kyberPublic]
    rfl
  have hssLen : i.sessionState.kyberSharedSecret.length = kyberSharedSecretBytes := by
    rw [hs.kyberSharedSecret]
    exact c.length_kemEncaps_secret _ _
  have hdhI : isAllZero (c.x25519 eph.secretKey b.signedPreKeyPublic) = false := by
    rw [hb.signedPreKeyPublic, eph.dh_ne_zero hk]
  obtain ⟨s, hfinishI⟩ := fromHandshakeState_isOk
    (initiatorArgs_valid e kI hc hk hb hmax eph createdI) hstateI hssLen
    (hb.validBundle hc hk hlen).signedPreKeyPublic hdhI
  obtain ⟨t, hfinishR⟩ := fromHandshakeState_isOk
    (responderArgs_valid w e kI eph hc hk hb hmax _ noncePrefix createdR)
    hstateR (hss ▸ hssLen) (eph.validate hc) (kR.signedPreKey.dh_ne_zero hk eph)
  have hI : Session.establish c _ i.sessionState.kyberSharedSecret = .ok s :=
    except_bind_eq_ok.mpr ⟨_, hstateI, hfinishI⟩
  have hR : Session.establish c _ i.sessionState.kyberSharedSecret = .ok t :=
    except_bind_eq_ok.mpr ⟨_, hstateR, hss ▸ hfinishR⟩
  refine ⟨s, t, ?_, hfinishR, hmirrored.mirrorImages hc hI hR, _, _, _, hmirrored, hI, hR⟩
  have hack : r.ackMessage =
      { version := UInt32.ofNat protocolVersion, keyConfirmationMac := i.expectedAckMac } := by
    rw [hr.ackMessage, hs.expectedAckMac, hsecrets]
    rfl
  rw [hr.ackBytes, hack]
  refine finish_of_ackMac ?_ hfinishI
  rw [hs.expectedAckMac]
  exact c.length_hmacSha256 _ _

end

theorem validateMaxMessagesPerChain_of_le (hmax : 1 ≤ max.toNat ∧ max.toNat ≤ 10000) :
    validateMaxMessagesPerChain max = .ok () := by
  refine validateMaxMessagesPerChain_eq_ok.mpr ⟨?_, hmax.2⟩
  rintro rfl
  exact absurd hmax.1 (by decide)

/-- Two honest parties with different identities complete a handshake on every bundle of the
responder that is not too large, with every one-time pre-key that is still in the pool or with
none, and their sessions are mirror images. -/
theorem honest_handshake (hc : c.Correct) (hk : c.ProperKeys) (w : Wire) (e : StartEntropy)
    (max : UInt32) (hmax : 1 ≤ max.toNat ∧ max.toNat ≤ 10000) (kI kR : IdentityKeys c)
    (hne : kI.ed25519.publicKey ≠ kR.ed25519.publicKey) (b : PreKeyBundle) (hb : BuiltFrom kR b)
    (hlen : b.oneTimePreKeys.length ≤ 4096) (hopk : PicksFromPool e b kR) (noncePrefix : Bytes)
    (nowI nowR : ℕ) (hnowI : nowI < 2 ^ 63) (hnowR : nowR < 2 ^ 63)
    (hcard : kR.inflightHandshakeInitHashes.card < 4096) :
    ∃ i, (start c w (.ok nowI) e b max).run kI = .ok i { kI with ephemeral := none } ∧
      (kR.Unseen (buildHandshakeInitFingerprint c w i.initMessage) →
        ∃ r kR' s t, (process c w (.ok nowR) noncePrefix b i.initBytes max).run kR = .ok r kR' ∧
          i.finish c w r.ackBytes = .ok s ∧ r.finish c = .ok t ∧ MirrorImages s t ∧
          HonestPair c s t) := by
  have hmax' := validateMaxMessagesPerChain_of_le hmax
  obtain ⟨i, hi⟩ := start_isOk (w := w) (e := e) hc hk hb hlen hmax' hne hnowI
  refine ⟨i, hi, fun hunseen ↦ ?_⟩
  obtain ⟨-, -, -, -, hs⟩ := start_eq_ok hi
  obtain ⟨r, hacc⟩ := accepts_of_started hc hk hb hlen hmax' hopk hne hnowR noncePrefix hs hunseen
    hcard
  obtain ⟨s, t, hfinish⟩ := finish_of_accepts hc hk hb hlen hmax' hopk hs hacc
  exact ⟨r, _, s, t, process_of_accepts hacc, hfinish⟩

/-- Sample randomness of an initiator that picks the one-time pre-key with a given index. -/
def sampleStart (index : UInt32) : StartEntropy where
  ephemeralPrivate := ⟨List.replicate 32 9, List.length_replicate⟩
  opkIndex := index
  kyberEncapsulation := []
  noncePrefix := List.replicate noncePrefixBytes 0

theorem honest_handshake_sample :
    ∃ i, (start Crypto.transparent .protobuf (.ok 5) (sampleStart 1)
        (sampleIdentity 2 3 (by decide)).createPublicBundle 1000).run
          (sampleIdentity 1 0 (by decide)) = .ok i (sampleIdentity 1 0 (by decide)) ∧
      ∃ r kR' s t, (process Crypto.transparent .protobuf (.ok 6) []
          (sampleIdentity 2 3 (by decide)).createPublicBundle i.initBytes 1000).run
            (sampleIdentity 2 3 (by decide)) = .ok r kR' ∧
        i.finish Crypto.transparent .protobuf r.ackBytes = .ok s ∧
        r.finish Crypto.transparent = .ok t ∧ MirrorImages s t ∧ HonestPair Crypto.transparent s t := by
  obtain ⟨i, hi, h⟩ := honest_handshake Crypto.transparent_correct Crypto.transparent_properKeys
    .protobuf (sampleStart 1) 1000 (by decide) (sampleIdentity 1 0 (by decide))
    (sampleIdentity 2 3 (by decide)) (by decide) _ (builtFrom_createPublicBundle _) (by decide)
    (picksFromPool_createPublicBundle _ _) [] 5 6 (by decide) (by decide) (by decide)
  exact ⟨i, hi, h ⟨Finset.notMem_empty _, Finset.notMem_empty _⟩⟩

/-- The bundle of an identity with more one-time pre-keys than `validate_bundle` lets through
cannot be used by anyone. -/
theorem start_rejects_large_bundle :
    ∃ kI kR : IdentityKeys Crypto.transparent,
      (∃ e, IdentityKeys.create Crypto.transparent e 0 = .ok kI) ∧
      (∃ e, IdentityKeys.create Crypto.transparent e 4097 = .ok kR) ∧
      kI.ed25519.publicKey ≠ kR.ed25519.publicKey ∧ BuiltFrom kR kR.createPublicBundle ∧
      ∀ w e now max, PicksFromPool e kR.createPublicBundle kR ∧
        ∀ i kI', (start Crypto.transparent w now e kR.createPublicBundle max).run kI ≠ .ok i kI' := by
  refine ⟨sampleIdentity 1 0 (by decide), sampleIdentity 2 4097 (by decide),
    ⟨_, create_sampleEntropy 1 _⟩, ⟨_, create_sampleEntropy 2 _⟩, by decide,
    builtFrom_createPublicBundle _, fun w e now max ↦ ⟨picksFromPool_createPublicBundle _ _, ?_⟩⟩
  intro i kI' h
  obtain ⟨hb, -⟩ := start_eq_ok h
  have hlen : ((sampleIdentity 2 4097 (by decide)).oneTimePreKeys.map
    OneTimePreKey.toProto).length ≤ maxOneTimePreKeysPerBundle := hb.oneTimePreKeys_length
  rw [List.length_map, length_oneTimePreKeys_sampleIdentity] at hlen
  exact absurd hlen (by decide)

end Handshake

end AuraProtocol
