import AuraProtocol.Handshake.Messages
import AuraProtocol.Lib.SeenWindow

/-!
# Identity keys

`IdentityKeys` of `identity/identity_keys.rs`: the long-term keys of a party, its
pool of one-time pre-keys and its memory of the handshakes it has seen.  Key
pairs carry the fact that their halves belong together, signatures the fact that
they were made with the identity's own key, and the pool the fact that its ids
differ, so every identity in the model is one the library could have built.

A key pair in secure memory is a pair of byte strings; the wiping of secrets and
the poisoning of the lock are not modelled.
-/

namespace AuraProtocol

open Fallible List
open Session (readBytes)

variable {used : Finset UInt32} {id : UInt32}

/-! ## Deriving seeds from a master key -/

namespace MasterKeyDerivation

def derive (c : Crypto) (masterKey contextString membershipId : Bytes) (outLen : ℕ) :
    Except ProtocolError Bytes := do
  require (minMasterKeyBytes ≤ masterKey.length) (.deriveKey "Master key must be at least 32 bytes")
  require (outLen ≠ 0 ∧ outLen ≤ 64) (.deriveKey s!"Invalid output length: {outLen}")
  require (contextString.length ≤ 65535)
    (.invalidInput "Context string too long (max 65535 bytes)")
  require (membershipId.length ≤ 65535)
    (.invalidInput "Membership ID too long (max 65535 bytes)")
  HkdfSha256.expand c (HkdfSha256.extract c mkdLabel masterKey)
    (leBytes 2 contextString.length ++ contextString ++ leBytes 2 membershipId.length ++
      membershipId) outLen

def deriveEd25519Seed (c : Crypto) (masterKey membershipId : Bytes) : Except ProtocolError Bytes :=
  derive c masterKey mkdEd25519Info membershipId x25519PrivateKeyBytes

def deriveX25519Seed (c : Crypto) (masterKey membershipId : Bytes) : Except ProtocolError Bytes :=
  derive c masterKey mkdX25519Info membershipId x25519PrivateKeyBytes

def deriveSignedPreKeySeed (c : Crypto) (masterKey membershipId : Bytes) :
    Except ProtocolError Bytes :=
  derive c masterKey mkdSignedPreKeyInfo membershipId x25519PrivateKeyBytes

def deriveOneTimePreKeySeed (c : Crypto) (masterKey membershipId : Bytes) (index : ℕ) :
    Except ProtocolError Bytes :=
  derive c masterKey (ascii s!"aura-opk-{index}") membershipId x25519PrivateKeyBytes

def deriveKyberSeed (c : Crypto) (masterKey membershipId : Bytes) : Except ProtocolError Bytes := do
  require (minMasterKeyBytes ≤ masterKey.length)
    (.deriveKey "Master key must be at least 32 bytes for Kyber seed derivation")
  let seed ← derive c masterKey mkdKyberSeed1Info membershipId kyberSeedKeyBytes
  let seed2 ← derive c masterKey mkdKyberSeed2Info membershipId kyberSeedKeyBytes
  .ok (seed ++ seed2)

end MasterKeyDerivation

/-! ## Key pairs -/

/-- A random string of 32 bytes. -/
abbrev Random32 := { b : Bytes // b.length = 32 }

structure X25519KeyPair (c : Crypto) where
  secretKey : Bytes
  publicKey : Bytes
  length_secretKey : secretKey.length = x25519PrivateKeyBytes
  publicKey_eq : publicKey = c.x25519Public secretKey
  deriving DecidableEq

/-- `generate_x25519_keypair`, from the random bytes of the private key. -/
def X25519KeyPair.generate (c : Crypto) (random : Random32) : X25519KeyPair c where
  secretKey := random.1
  publicKey := c.x25519Public random.1
  length_secretKey := random.2
  publicKey_eq := rfl

theorem X25519KeyPair.length_publicKey {c : Crypto} (k : X25519KeyPair c) :
    k.publicKey.length = x25519PublicKeyBytes := by
  rw [k.publicKey_eq]
  exact c.length_x25519Public _

/-- The clamping of a private key. -/
def clamp (seed : Bytes) : Bytes :=
  (seed.modify 0 (· &&& 0xF8)).modify 31 fun b => b &&& 0x7F ||| 0x40

@[simp] theorem length_clamp (seed : Bytes) : (clamp seed).length = seed.length := by
  rw [clamp, length_modify, length_modify]

/-- The key pair of a clamped seed. -/
def X25519KeyPair.ofSeed (c : Crypto) (seed : Bytes) (e : ProtocolError) :
    Except ProtocolError (X25519KeyPair c) :=
  if h : seed.length = x25519PrivateKeyBytes then
    .ok (.generate c ⟨clamp seed, (length_clamp seed).trans h⟩)
  else .error e

structure Ed25519KeyPair (c : Crypto) where
  secretKey : Bytes
  publicKey : Bytes
  exists_seed : ∃ seed, secretKey = c.ed25519Keypair seed
  publicKey_eq : publicKey = c.ed25519Public secretKey

namespace Ed25519KeyPair

variable {c : Crypto}

/-- The key pair of a seed. -/
def ofSeed (c : Crypto) (seed : Bytes) : Ed25519KeyPair c where
  secretKey := c.ed25519Keypair seed
  publicKey := c.ed25519Public (c.ed25519Keypair seed)
  exists_seed := ⟨seed, rfl⟩
  publicKey_eq := rfl

theorem length_secretKey (k : Ed25519KeyPair c) : k.secretKey.length = ed25519SecretKeyBytes := by
  obtain ⟨seed, hseed⟩ := k.exists_seed
  rw [hseed]
  exact c.length_ed25519Keypair seed

theorem length_publicKey (k : Ed25519KeyPair c) : k.publicKey.length = ed25519PublicKeyBytes := by
  rw [k.publicKey_eq]
  exact c.length_ed25519Public _

theorem secretKey_valid (hk : c.ProperKeys) (k : Ed25519KeyPair c) :
    c.ed25519KeypairValid k.secretKey = true := by
  obtain ⟨seed, hseed⟩ := k.exists_seed
  rw [hseed]
  exact hk.ed25519Keypair_valid seed

/-- A signature of a message by a key pair. -/
abbrev SignatureOf (k : Ed25519KeyPair c) (message : Bytes) :=
  { sig : Bytes // sig = c.ed25519Sign k.secretKey message }

def signWithEd25519 (k : Ed25519KeyPair c) (message : Bytes) :
    Except ProtocolError (k.SignatureOf message) := do
  let sk ← readBytes k.secretKey ed25519SecretKeyBytes
  require (c.ed25519KeypairValid sk = true) (.generic "Failed to parse Ed25519 keypair bytes")
  .ok ⟨c.ed25519Sign k.secretKey message, rfl⟩

theorem signWithEd25519_eq (hk : c.ProperKeys) (k : Ed25519KeyPair c) (message : Bytes) :
    k.signWithEd25519 message = .ok ⟨c.ed25519Sign k.secretKey message, rfl⟩ := by
  rw [signWithEd25519, except_bind_eq_ok]
  refine ⟨_, Session.readBytes_of_length_eq k.length_secretKey, ?_⟩
  rw [except_seq_eq_ok, require_eq_ok]
  exact ⟨k.secretKey_valid hk, rfl⟩

/-- What a key pair signed verifies under its public key. -/
theorem verify_signature (hc : c.Correct) (hk : c.ProperKeys) (k : Ed25519KeyPair c)
    {message : Bytes} (sig : k.SignatureOf message) : verify c k.publicKey message sig.1 = .ok () := by
  rw [verify_eq_ok, sig.2]
  refine ⟨k.length_publicKey, c.length_ed25519Sign _ _, ?_, ?_⟩
  · rw [k.publicKey_eq]
    exact hk.ed25519Public_valid _ (k.secretKey_valid hk)
  · rw [k.publicKey_eq]
    exact hc.ed25519Verify_ed25519Sign _ _

end Ed25519KeyPair

/-- A KEM key pair. -/
structure KyberKeyPair (c : Crypto) where
  secretKey : Bytes
  publicKey : Bytes
  exists_seed : ∃ seed, c.kemKeygen seed = (secretKey, publicKey)

namespace KyberKeyPair

variable {c : Crypto}

/-- The key pair of some randomness. -/
def ofSeed (c : Crypto) (seed : Bytes) : KyberKeyPair c where
  secretKey := (c.kemKeygen seed).1
  publicKey := (c.kemKeygen seed).2
  exists_seed := ⟨seed, rfl⟩

/-- `KyberInterop::generate_keypair`. -/
def generate (c : Crypto) (seed selfTest : Bytes) : Except ProtocolError (KyberKeyPair c) := do
  let _ ← KyberInterop.generateKeypair c seed selfTest
  .ok (ofSeed c seed)

/-- `KyberInterop::generate_keypair_from_seed`. -/
def generateFromSeed (c : Crypto) (seed : Bytes) : Except ProtocolError (KyberKeyPair c) := do
  let _ ← KyberInterop.generateKeypairFromSeed c seed
  .ok (ofSeed c (c.chaCha20Rng (seed.take kyberSeedKeyBytes)))

theorem length_secretKey (k : KyberKeyPair c) : k.secretKey.length = kyberSecretKeyBytes := by
  obtain ⟨seed, hseed⟩ := k.exists_seed
  have hsecret : (c.kemKeygen seed).1 = k.secretKey := congrArg Prod.fst hseed
  rw [← hsecret]
  exact c.length_kemKeygen_secret seed

theorem length_publicKey (k : KyberKeyPair c) : k.publicKey.length = kyberPublicKeyBytes := by
  obtain ⟨seed, hseed⟩ := k.exists_seed
  have hpublic : (c.kemKeygen seed).2 = k.publicKey := congrArg Prod.snd hseed
  rw [← hpublic]
  exact c.length_kemKeygen_public seed

theorem validatePublicKey (hc : c.Correct) (k : KyberKeyPair c) :
    KyberInterop.validatePublicKey c k.publicKey = .ok () := by
  obtain ⟨seed, hseed⟩ := k.exists_seed
  have hpublic : (c.kemKeygen seed).2 = k.publicKey := congrArg Prod.snd hseed
  rw [← hpublic]
  exact hc.kemKeygen_valid seed

end KyberKeyPair

/-! ## One-time pre-keys -/

/-- `OneTimePreKey` of `models/keys`. -/
structure OneTimePreKey (c : Crypto) extends X25519KeyPair c where
  id : UInt32
  deriving DecidableEq

namespace OneTimePreKey

variable {c : Crypto}

/-- The id that four random bytes stand for. -/
def idOfRaw (raw : ℕ) : UInt32 := UInt32.ofNat (raw % opkIdModulus + opkIdOffset)

def createFromSeed (c : Crypto) (id : UInt32) (seed : Bytes) :
    Except ProtocolError (OneTimePreKey c) := do
  let pair ← X25519KeyPair.ofSeed c seed (.keyGeneration "Invalid seed size for OPK derivation")
  .ok { pair with id := id }

/-- What a bundle publishes of a one-time pre-key. -/
def toProto (o : OneTimePreKey c) : Proto.OneTimePreKey where
  oneTimePreKeyId := o.id
  publicKey := o.publicKey

end OneTimePreKey

/-- The randomness of generating one-time pre-keys: four bytes for each attempt at the id of
the key with a given index, and its private key. -/
structure OpkEntropy where
  rawId : ℕ → ℕ → ℕ
  privateKey : ℕ → Random32

/-- The first id among the attempts that is not in use. -/
def OpkEntropy.freshId (e : OpkEntropy) (i : ℕ) (used : Finset UInt32) : Option UInt32 :=
  ((List.range opkIdRetryLimit).map fun attempt => OneTimePreKey.idOfRaw (e.rawId i attempt)).find?
    (· ∉ used)

variable {e : OpkEntropy}

/-- The loop of `generate_one_time_pre_keys_excluding`: `count` keys from index `i` on. -/
def generateOpksFrom (c : Crypto) (e : OpkEntropy) :
    ℕ → ℕ → Finset UInt32 → Except ProtocolError (List (OneTimePreKey c))
  | 0, _, _ => .ok []
  | count + 1, i, used => do
    let id ← orError (e.freshId i used) (.keyGeneration
      s!"Could not find an unused one-time prekey ID at index {i} after {opkIdRetryLimit} attempts")
    let rest ← generateOpksFrom c e count (i + 1) (insert id used)
    .ok ({ X25519KeyPair.generate c (e.privateKey i) with id := id } :: rest)

def generateOneTimePreKeysExcluding (c : Crypto) (e : OpkEntropy) (count : ℕ)
    (reservedIds : Finset UInt32) : Except ProtocolError (List (OneTimePreKey c)) :=
  generateOpksFrom c e count 0 reservedIds

/-- The loop of `generate_one_time_pre_keys_from_master_key`; the sum of a count and an index
is a `u32`. -/
def deriveOpksFrom (c : Crypto) (masterKey membershipId : Bytes) (count : ℕ) :
    ℕ → ℕ → Finset UInt32 → Except ProtocolError (List (OneTimePreKey c))
  | 0, _, _ => .ok []
  | n + 1, i, used => do
    let idSeed ← MasterKeyDerivation.deriveOneTimePreKeySeed c masterKey membershipId i
    let id := OneTimePreKey.idOfRaw (leNat (idSeed.take 4))
    require (id ∉ used) (.keyGeneration
      s!"Deterministic OPK ID collision at index {i} (id={id.toNat})")
    let opkSeed ← MasterKeyDerivation.deriveOneTimePreKeySeed c masterKey membershipId
      ((count + i) % 2 ^ 32)
    let opk ← OneTimePreKey.createFromSeed c id opkSeed
    let rest ← deriveOpksFrom c masterKey membershipId count n (i + 1) (insert id used)
    .ok (opk :: rest)

def generateOneTimePreKeysFromMasterKey (c : Crypto) (masterKey membershipId : Bytes)
    (count : ℕ) : Except ProtocolError (List (OneTimePreKey c)) :=
  deriveOpksFrom c masterKey membershipId count count 0 ∅

section generate

variable {c : Crypto}

theorem OpkEntropy.freshId_notMem {i : ℕ} (h : e.freshId i used = some id) : id ∉ used := by
  have := List.find?_some h
  simpa using this

theorem ids_cons {o : OneTimePreKey c} {rest : List (OneTimePreKey c)} {n : ℕ} (ho : o.id ∉ used)
    (h : (rest.map (·.id)).Nodup ∧ (∀ o' ∈ rest, o'.id ∉ insert o.id used) ∧ rest.length = n) :
    ((o :: rest).map (·.id)).Nodup ∧ (∀ o' ∈ o :: rest, o'.id ∉ used) ∧
      (o :: rest).length = n + 1 := by
  obtain ⟨hnodup, hused, rfl⟩ := h
  refine ⟨nodup_cons.mpr ⟨?_, hnodup⟩, forall_mem_cons.mpr ⟨ho, ?_⟩, rfl⟩
  · rw [mem_map]
    rintro ⟨o', ho', hid⟩
    exact hused o' ho' (hid ▸ Finset.mem_insert_self _ _)
  · exact fun o' ho' hmem => hused o' ho' (Finset.mem_insert_of_mem hmem)

/-- Generated keys have ids of their own, apart from those in use. -/
theorem generateOpksFrom_ids {count i : ℕ} {opks : List (OneTimePreKey c)}
    (h : generateOpksFrom c e count i used = .ok opks) :
    (opks.map (·.id)).Nodup ∧ (∀ o ∈ opks, o.id ∉ used) ∧ opks.length = count := by
  induction count generalizing i used opks with
  | zero =>
    cases h
    exact ⟨nodup_nil, fun o ho => (by cases ho), rfl⟩
  | succ count ih =>
    simp only [generateOpksFrom, except_bind_eq_ok, orError_eq_ok, Except.ok.injEq] at h
    obtain ⟨id, hid, rest, hrest, rfl⟩ := h
    exact ids_cons (OpkEntropy.freshId_notMem hid) (ih hrest)

theorem deriveOpksFrom_ids {masterKey membershipId : Bytes} {count n i : ℕ}
    {opks : List (OneTimePreKey c)}
    (h : deriveOpksFrom c masterKey membershipId count n i used = .ok opks) :
    (opks.map (·.id)).Nodup ∧ (∀ o ∈ opks, o.id ∉ used) ∧ opks.length = n := by
  induction n generalizing i used opks with
  | zero =>
    cases h
    exact ⟨nodup_nil, fun o ho => (by cases ho), rfl⟩
  | succ n ih =>
    simp only [deriveOpksFrom, OneTimePreKey.createFromSeed, except_bind_eq_ok, require_eq_ok,
      Except.ok.injEq] at h
    obtain ⟨idSeed, -, _, hfresh, opkSeed, -, _, ⟨pair, -, rfl⟩, rest, hrest, rfl⟩ := h
    exact ids_cons hfresh (ih hrest)

end generate

/-! ## The identity -/

/-- `IdentityKeys`.  The ephemeral key pair is set and cleared as a whole. -/
structure IdentityKeys (c : Crypto) where
  ed25519 : Ed25519KeyPair c
  identityX25519 : X25519KeyPair c
  identityX25519Signature : ed25519.SignatureOf identityX25519.publicKey
  signedPreKeyId : UInt32
  signedPreKey : X25519KeyPair c
  signedPreKeySignature : ed25519.SignatureOf signedPreKey.publicKey
  oneTimePreKeys : List (OneTimePreKey c)
  nodup_ids : (oneTimePreKeys.map (·.id)).Nodup
  oneTimePreKeyCapacity : ℕ
  kyber : KyberKeyPair c
  ephemeral : Option (X25519KeyPair c)
  inflightHandshakeInitHashes : Finset Bytes
  /-- `recent_handshake_init_hashes` and `recent_handshake_init_order`. -/
  recentHandshakeInits : SeenWindow Bytes
  /-- Whether an event handler is registered. -/
  eventHandler : Bool

/-- Operations on an identity: a failing one hands back the state it failed in. -/
abbrev IdentityM (c : Crypto) := EStateM ProtocolError (IdentityKeys c)

namespace IdentityKeys

variable {c : Crypto}

/-- `IdentityKeys::new`, from the material of `create` and `create_from_master_key`. -/
def new (ed25519 : Ed25519KeyPair c) (identityX25519 : X25519KeyPair c)
    (identityX25519Signature : ed25519.SignatureOf identityX25519.publicKey)
    (signedPreKeyId : UInt32) (signedPreKey : X25519KeyPair c)
    (signedPreKeySignature : ed25519.SignatureOf signedPreKey.publicKey)
    (oneTimePreKeys : List (OneTimePreKey c)) (nodup_ids : (oneTimePreKeys.map (·.id)).Nodup)
    (kyber : KyberKeyPair c) : IdentityKeys c where
  ed25519 := ed25519
  identityX25519 := identityX25519
  identityX25519Signature := identityX25519Signature
  signedPreKeyId := signedPreKeyId
  signedPreKey := signedPreKey
  signedPreKeySignature := signedPreKeySignature
  oneTimePreKeys := oneTimePreKeys
  nodup_ids := nodup_ids
  oneTimePreKeyCapacity := min oneTimePreKeys.length (2 ^ 32 - 1)
  kyber := kyber
  ephemeral := none
  inflightHandshakeInitHashes := ∅
  recentHandshakeInits := .empty
  eventHandler := false

/-- The randomness of `create`. -/
structure CreateEntropy where
  ed25519Seed : Bytes
  x25519Private : Random32
  signedPreKeyId : UInt32
  signedPreKeyPrivate : Random32
  opks : OpkEntropy
  kyberSeed : Bytes
  kyberSelfTest : Bytes

def create (c : Crypto) (e : CreateEntropy) (oneTimeKeyCount : ℕ) :
    Except ProtocolError (IdentityKeys c) := do
  let edPair := Ed25519KeyPair.ofSeed c e.ed25519Seed
  let xPair := X25519KeyPair.generate c e.x25519Private
  let xSignature ← edPair.signWithEd25519 xPair.publicKey
  let spkPair := X25519KeyPair.generate c e.signedPreKeyPrivate
  let spkSignature ← edPair.signWithEd25519 spkPair.publicKey
  match h : generateOneTimePreKeysExcluding c e.opks oneTimeKeyCount ∅ with
  | .error err => .error err
  | .ok opks =>
    let kyber ← KyberKeyPair.generate c e.kyberSeed e.kyberSelfTest
    .ok (new edPair xPair xSignature e.signedPreKeyId spkPair spkSignature opks
      (generateOpksFrom_ids h).1 kyber)

def createFromMasterKey (c : Crypto) (masterKey membershipId : Bytes) (oneTimeKeyCount : ℕ) :
    Except ProtocolError (IdentityKeys c) := do
  let edSeed ← MasterKeyDerivation.deriveEd25519Seed c masterKey membershipId
  let edPair := Ed25519KeyPair.ofSeed c (edSeed.take x25519PrivateKeyBytes)
  let xSeed ← MasterKeyDerivation.deriveX25519Seed c masterKey membershipId
  let xPair ← X25519KeyPair.ofSeed c xSeed (.keyGeneration "X25519 seed has wrong length")
  let xSignature ← edPair.signWithEd25519 xPair.publicKey
  let spkSeed ← MasterKeyDerivation.deriveSignedPreKeySeed c masterKey membershipId
  let spkIdBytes ← HkdfSha256.deriveKeyBytes c spkSeed spkIdBytes [] spkIdInfo
  let spkPair ← X25519KeyPair.ofSeed c spkSeed (.keyGeneration "SPK secret has wrong length")
  let spkSignature ← edPair.signWithEd25519 spkPair.publicKey
  match h : generateOneTimePreKeysFromMasterKey c masterKey membershipId oneTimeKeyCount with
  | .error err => .error err
  | .ok opks =>
    let kyberSeed ← MasterKeyDerivation.deriveKyberSeed c masterKey membershipId
    let kyber ← KyberKeyPair.generateFromSeed c kyberSeed
    .ok (new edPair xPair xSignature (UInt32.ofNat (leNat spkIdBytes)) spkPair spkSignature opks
      (deriveOpksFrom_ids h).1 kyber)

/-- `create_public_bundle`, as the message `pre_key_bundle` of the API makes of it. -/
def createPublicBundle (k : IdentityKeys c) : Proto.PreKeyBundle where
  version := UInt32.ofNat protocolVersion
  identityEd25519Public := k.ed25519.publicKey
  identityX25519Public := k.identityX25519.publicKey
  signedPreKeyId := k.signedPreKeyId
  signedPreKeyPublic := k.signedPreKey.publicKey
  signedPreKeySignature := k.signedPreKeySignature.1
  oneTimePreKeys := k.oneTimePreKeys.map OneTimePreKey.toProto
  kyberPublic := k.kyber.publicKey
  identityX25519Signature := k.identityX25519Signature.1

/-! ### The pool of one-time pre-keys -/

/-- The pool after `replenish_one_time_pre_keys`. -/
def withOpks (k : IdentityKeys c) (new : List (OneTimePreKey c)) (count : ℕ)
    (h : ((k.oneTimePreKeys ++ new).map (·.id)).Nodup) : IdentityKeys c :=
  { k with
    oneTimePreKeys := k.oneTimePreKeys ++ new
    nodup_ids := h
    oneTimePreKeyCapacity := min (k.oneTimePreKeyCapacity + count) (2 ^ 32 - 1) }

theorem nodup_append_generated (k : IdentityKeys c) {count : ℕ} {new : List (OneTimePreKey c)}
    (h : generateOneTimePreKeysExcluding c e count (k.oneTimePreKeys.map (·.id)).toFinset =
      .ok new) : ((k.oneTimePreKeys ++ new).map (·.id)).Nodup := by
  obtain ⟨hnodup, hfresh, -⟩ := generateOpksFrom_ids h
  rw [map_append, nodup_append]
  refine ⟨k.nodup_ids, hnodup, fun a ha b hb hab => ?_⟩
  obtain ⟨o, ho, rfl⟩ := mem_map.mp hb
  exact hfresh o ho (mem_toFinset.mpr (hab ▸ ha))

/-- `replenish_one_time_pre_keys`: the ids and public keys to upload. -/
def replenishOneTimePreKeys (e : OpkEntropy) (count : ℕ) : IdentityM c (List (UInt32 × Bytes)) :=
  fun k =>
    match h : generateOneTimePreKeysExcluding c e count (k.oneTimePreKeys.map (·.id)).toFinset with
    | .error err => .error err k
    | .ok new =>
      .ok (new.map fun o => (o.id, o.publicKey))
        (k.withOpks new count (k.nodup_append_generated h))

/-- `find_one_time_pre_key_by_id`, as far as the pool is concerned: the first match. -/
def findOneTimePreKey (k : IdentityKeys c) (id : UInt32) : Option (OneTimePreKey c) :=
  k.oneTimePreKeys.find? (·.id = id)

def getOneTimePreKeyPrivateById (k : IdentityKeys c) (id : UInt32) :
    Except ProtocolError Bytes := do
  let opk ← orError (k.findOneTimePreKey id) (.handshake "Requested OPK not found")
  readBytes opk.secretKey x25519PrivateKeyBytes

/-- The identity without the first one-time pre-key of an id. -/
def eraseOpk (k : IdentityKeys c) (id : UInt32) : IdentityKeys c :=
  { k with
    oneTimePreKeys := k.oneTimePreKeys.eraseP (·.id = id)
    nodup_ids := k.nodup_ids.sublist ((eraseP_sublist).map _) }

/-- `consume_one_time_pre_key_by_id`.  The result is the exhaustion warning passed to the event
handler, if there is one: the keys that remain and the capacity. -/
def consumeOneTimePreKeyById (id : UInt32) : IdentityM c (Option (ℕ × ℕ)) := do
  let k ← get
  let _ ← lift (orError (k.findOneTimePreKey id)
    (.invalidInput "OPK with requested ID not found"))
  let k' := k.eraseOpk id
  set k'
  let remaining := min k'.oneTimePreKeys.length (2 ^ 32 - 1)
  let percent := min (k.oneTimePreKeyCapacity * otkExhaustionWarningPercent) (2 ^ 32 - 1)
  if remaining ≤ (percent + 99) / 100 ∧ k.eventHandler = true then
    pure (some (remaining, k.oneTimePreKeyCapacity))
  else pure none

/-! ### The ephemeral key pair -/

/-- `generate_ephemeral_key_pair`: a pair that is there is used again. -/
def generateEphemeralKeyPair (random : Random32) : IdentityM c Unit :=
  modify fun k =>
    match k.ephemeral with
    | some _ => k
    | none => { k with ephemeral := some (.generate c random) }

def clearEphemeralKeyPair : IdentityM c Unit :=
  modify fun k => { k with ephemeral := none }

/-! ### Fingerprints of handshakes -/

/-- The size check of the fingerprint operations. -/
def checkFingerprint (fingerprint : Bytes) : Except ProtocolError Unit :=
  require (fingerprint.length = hmacBytes) (.invalidInput "Invalid HandshakeInit fingerprint size")

/-- The identity with a fingerprint in flight. -/
def reserving (fingerprint : Bytes) (k : IdentityKeys c) : IdentityKeys c :=
  { k with inflightHandshakeInitHashes := insert fingerprint k.inflightHandshakeInitHashes }

/-- `reserve_handshake_init_fingerprint`: whether the fingerprint is new. -/
def reserveHandshakeInitFingerprint (fingerprint : Bytes) : IdentityM c Bool := do
  lift (checkFingerprint fingerprint)
  let k ← get
  if fingerprint ∈ k.recentHandshakeInits.seen ∨ fingerprint ∈ k.inflightHandshakeInitHashes then
    pure false
  else
    lift (require (k.inflightHandshakeInitHashes.card < maxInflightHandshakeInits)
      (.invalidState "Too many inflight HandshakeInit reservations"))
    set (k.reserving fingerprint)
    pure true

/-- `release_handshake_init_fingerprint`; a fingerprint of the wrong size was never reserved. -/
def releaseHandshakeInitFingerprint (fingerprint : Bytes) (k : IdentityKeys c) : IdentityKeys c :=
  { k with inflightHandshakeInitHashes := k.inflightHandshakeInitHashes.erase fingerprint }

/-- What `remember_handshake_init_fingerprint` does to the identity. -/
def remembering (fingerprint : Bytes) (k : IdentityKeys c) : IdentityKeys c :=
  { k with
    inflightHandshakeInitHashes := k.inflightHandshakeInitHashes.erase fingerprint
    recentHandshakeInits := k.recentHandshakeInits.remember maxSeenHandshakeInits fingerprint }

def rememberHandshakeInitFingerprint (fingerprint : Bytes) : IdentityM c Unit := do
  lift (checkFingerprint fingerprint)
  modify (remembering fingerprint)

/-- What `forget_handshake_init_fingerprint` does to the identity. -/
def forgetting (fingerprint : Bytes) (k : IdentityKeys c) : IdentityKeys c :=
  { k with
    inflightHandshakeInitHashes := k.inflightHandshakeInitHashes.erase fingerprint
    recentHandshakeInits := k.recentHandshakeInits.forget fingerprint }

/-- `decapsulate_kyber_ciphertext`: the shared secret. -/
def decapsulateKyberCiphertext (k : IdentityKeys c) (ciphertext : Bytes) :
    Except ProtocolError Bytes := do
  KyberInterop.validateCiphertext ciphertext
  let ss ← KyberInterop.decapsulate c ciphertext k.kyber.secretKey
  readBytes ss kyberSharedSecretBytes

/-! ### What the operations do -/

section spec

variable {k k' : IdentityKeys c} {fingerprint : Bytes} {o : OneTimePreKey c}

/-- A fingerprint that the identity has not seen and is not processing. -/
def Unseen (k : IdentityKeys c) (fingerprint : Bytes) : Prop :=
  fingerprint ∉ k.recentHandshakeInits.seen ∧ fingerprint ∉ k.inflightHandshakeInitHashes

theorem reserveHandshakeInitFingerprint_of_unseen (hlen : fingerprint.length = hmacBytes)
    (hfresh : k.Unseen fingerprint)
    (hcard : k.inflightHandshakeInitHashes.card < maxInflightHandshakeInits) :
    (reserveHandshakeInitFingerprint fingerprint).run k = .ok true (k.reserving fingerprint) := by
  have hnot : ¬ (fingerprint ∈ k.recentHandshakeInits.seen ∨
      fingerprint ∈ k.inflightHandshakeInitHashes) := not_or.mpr hfresh
  have hcheck : checkFingerprint fingerprint = .ok () := require_eq_ok.mpr hlen
  rw [reserveHandshakeInitFingerprint, lift_bind_of_ok hcheck, get_bind_run, if_neg hnot,
    lift_bind_of_ok ((require_eq_ok (u := ())).mpr hcard)]
  rfl

theorem reserveHandshakeInitFingerprint_eq_ok {isFresh : Bool}
    (h : (reserveHandshakeInitFingerprint fingerprint).run k = .ok isFresh k') :
    (isFresh = false ∧ k' = k) ∨
      (isFresh = true ∧ k' = k.reserving fingerprint ∧ k.Unseen fingerprint ∧
        k.inflightHandshakeInitHashes.card < maxInflightHandshakeInits) := by
  rw [reserveHandshakeInitFingerprint, bind_eq_ok] at h
  obtain ⟨_, _, hlen, h⟩ := h
  obtain ⟨-, rfl⟩ := lift_eq_ok.mp hlen
  rw [get_bind_run] at h
  split_ifs at h with hseen
  · cases h
    exact .inl ⟨rfl, rfl⟩
  · obtain ⟨_, _, hcard, h⟩ := bind_eq_ok.mp h
    obtain ⟨hcard, rfl⟩ := lift_eq_ok.mp hcard
    cases h
    exact .inr ⟨rfl, rfl, not_or.mp hseen, require_eq_ok.mp hcard⟩

theorem reserveHandshakeInitFingerprint_eq_error {e : ProtocolError}
    (h : (reserveHandshakeInitFingerprint fingerprint).run k = .error e k') : k' = k := by
  rw [reserveHandshakeInitFingerprint, bind_eq_error] at h
  rcases h with h | ⟨_, _, hlen, h⟩
  · exact (lift_eq_error.mp h).2
  · obtain ⟨-, rfl⟩ := lift_eq_ok.mp hlen
    rw [get_bind_run] at h
    split_ifs at h with hseen
    · cases h
    · rcases bind_eq_error.mp h with h | ⟨_, _, hcard, h⟩
      · exact (lift_eq_error.mp h).2
      · cases h

/-- A reservation that is released again leaves no trace. -/
theorem release_reserving (h : k.Unseen fingerprint) :
    releaseHandshakeInitFingerprint fingerprint (k.reserving fingerprint) = k := by
  rw [releaseHandshakeInitFingerprint, reserving, Finset.erase_insert h.2]

theorem consumeOneTimePreKeyById_of_found
    (h : k.findOneTimePreKey id = some o) :
    ∃ warning, (consumeOneTimePreKeyById id).run k = .ok warning (k.eraseOpk id) := by
  rw [consumeOneTimePreKeyById, get_bind_run, lift_bind_of_ok (orError_eq_ok.mpr h)]
  change ∃ warning, (ite _ _ _ : IdentityM c _) (k.eraseOpk id) = _
  split_ifs with hwarn
  · exact ⟨_, rfl⟩
  · exact ⟨_, rfl⟩

/-- Ids differ, so the pool's key of an id is the one that has it. -/
theorem findOneTimePreKey_of_mem (h : o ∈ k.oneTimePreKeys) :
    k.findOneTimePreKey o.id = some o := by
  rw [findOneTimePreKey]
  have hnodup := k.nodup_ids
  generalize k.oneTimePreKeys = l at h hnodup
  induction l with
  | nil => cases h
  | cons a l ih =>
    rw [map_cons, nodup_cons] at hnodup
    rw [List.find?_cons]
    obtain rfl | ho := mem_cons.mp h
    · simp
    · have hne : a.id ≠ o.id := fun heq => hnodup.1 (heq ▸ mem_map_of_mem ho)
      simpa [hne] using ih ho hnodup.2

/-- Erasing a key takes the one that was found out of the pool. -/
theorem oneTimePreKeys_eraseOpk (h : k.findOneTimePreKey id = some o) :
    ∃ l₁ l₂, k.oneTimePreKeys = l₁ ++ o :: l₂ ∧ (k.eraseOpk id).oneTimePreKeys = l₁ ++ l₂ := by
  obtain ⟨hid, l₁, l₂, hl, hne⟩ := List.find?_eq_some_iff_append.mp h
  refine ⟨l₁, l₂, hl, ?_⟩
  change k.oneTimePreKeys.eraseP _ = _
  rw [hl, eraseP_append_right _ fun a ha => by simpa using hne a ha]
  rw [eraseP_cons, hid]
  rfl

end spec

end IdentityKeys

end AuraProtocol
