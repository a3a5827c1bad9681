import AuraProtocol.Crypto.Instance
import AuraProtocol.Identity.Keys

/-!
# New identities

What `create` returns when the random ids of the one-time pre-keys do not repeat.
The ids have 2³² − 2 values, so a run without a repetition exists for every
number of keys up to that (`generateOpksFrom_eq`), and identities with pools of
every size can be written down.

A pool that is derived from a master key takes its ids from the first seeds and its
keys from the seeds behind them, so pools of two sizes overlap
(`derived_pools_apart_iff`).
-/

namespace AuraProtocol

open Fallible List

variable {c : Crypto} {count : ℕ}

/-- The key that the first attempt at an index gives. -/
def OpkEntropy.firstKey (c : Crypto) (e : OpkEntropy) (i : ℕ) : OneTimePreKey c :=
  { X25519KeyPair.generate c (e.privateKey i) with id := OneTimePreKey.idOfRaw (e.rawId i 0) }

theorem OpkEntropy.freshId_of_notMem {e : OpkEntropy} {i : ℕ} {used : Finset UInt32}
    (h : OneTimePreKey.idOfRaw (e.rawId i 0) ∉ used) :
    e.freshId i used = some (OneTimePreKey.idOfRaw (e.rawId i 0)) := by
  rw [freshId, show List.range opkIdRetryLimit = 0 :: (List.range 63).map Nat.succ from rfl,
    map_cons, List.find?_cons]
  simp [h]

/-- Generation takes the first attempt at every index while the ids are new. -/
theorem generateOpksFrom_eq {e : OpkEntropy} {count i : ℕ} {used : Finset UInt32}
    (hused : ∀ j, i ≤ j → j < i + count → OneTimePreKey.idOfRaw (e.rawId j 0) ∉ used)
    (hinj : Set.InjOn (fun j => OneTimePreKey.idOfRaw (e.rawId j 0)) (Set.Ico i (i + count))) :
    generateOpksFrom c e count i used = .ok ((List.range' i count).map (e.firstKey c)) := by
  induction count generalizing i used with
  | zero => rfl
  | succ count ih =>
    have hfresh := OpkEntropy.freshId_of_notMem (hused i le_rfl (by omega))
    have hrest := @ih (i + 1) (insert (OneTimePreKey.idOfRaw (e.rawId i 0)) used)
      (fun j hj hlt hmem => by
        rcases Finset.mem_insert.mp hmem with heq | hmem
        · have := hinj ⟨by omega, by omega⟩ ⟨le_rfl, by omega⟩ heq
          omega
        · exact hused j (by omega) (by omega) hmem)
      (hinj.mono (Set.Ico_subset_Ico (by omega) (by omega)))
    simp only [generateOpksFrom, hfresh, except_bind_eq_ok, orError_eq_ok]
    exact ⟨_, rfl, _, hrest, rfl⟩

/-- Numbers below the modulus stand for different ids. -/
theorem OneTimePreKey.idOfRaw_inj {i j : ℕ} (hi : i < opkIdModulus) (hj : j < opkIdModulus)
    (h : idOfRaw i = idOfRaw j) : i = j := by
  have hval : ∀ n < opkIdModulus, (idOfRaw n).toNat = n + 2 := fun n hn => by
    have : opkIdModulus = 4294967294 := rfl
    rw [idOfRaw, Nat.mod_eq_of_lt hn, UInt32.toNat_ofNat', Nat.mod_eq_of_lt]
    · rfl
    · change n + 2 < 2 ^ 32
      omega
  have := hval i hi
  rw [h, hval j hj] at this
  omega

/-- Randomness that counts the ids up. -/
def OpkEntropy.counting (privateKey : ℕ → Random32) : OpkEntropy where
  rawId i _ := i
  privateKey := privateKey

theorem generate_counting (privateKey : ℕ → Random32) (h : count ≤ opkIdModulus) :
    generateOneTimePreKeysExcluding c (.counting privateKey) count ∅ =
      .ok ((List.range' 0 count).map ((OpkEntropy.counting privateKey).firstKey c)) := by
  refine generateOpksFrom_eq (fun j _ _ => Finset.notMem_empty _) ?_
  intro i hi j hj hij
  rw [Set.mem_Ico, Nat.zero_add] at hi hj
  exact OneTimePreKey.idOfRaw_inj (hi.2.trans_le h) (hj.2.trans_le h) hij

namespace IdentityKeys

/-- The identity of some randomness and a pool. -/
def ofEntropy (c : Crypto) (e : CreateEntropy) (opks : List (OneTimePreKey c))
    (h : (opks.map (·.id)).Nodup) : IdentityKeys c :=
  new (.ofSeed c e.ed25519Seed) (.generate c e.x25519Private) ⟨_, rfl⟩ e.signedPreKeyId
    (.generate c e.signedPreKeyPrivate) ⟨_, rfl⟩ opks h (.ofSeed c e.kyberSeed)

/-- Creating an identity can only fail at the ids of its one-time pre-keys. -/
theorem create_of_generate (hc : c.Correct) (hk : c.ProperKeys) {e : CreateEntropy}
    {opks : List (OneTimePreKey c)}
    (h : generateOneTimePreKeysExcluding c e.opks count ∅ = .ok opks) :
    create c e count = .ok (ofEntropy c e opks (generateOpksFrom_ids h).1) := by
  have hkyber : KyberKeyPair.generate c e.kyberSeed e.kyberSelfTest =
      .ok (.ofSeed c e.kyberSeed) := by
    rw [KyberKeyPair.generate, KyberInterop.generateKeypair]
    simp only [hc.kemDecaps_kemEncaps, if_true]
    rfl
  simp only [create, except_bind_eq_ok]
  refine ⟨_, Ed25519KeyPair.signWithEd25519_eq hk _ _, _,
    Ed25519KeyPair.signWithEd25519_eq hk _ _, ?_⟩
  split
  · next heq => rw [h] at heq; cases heq
  · next opks' heq =>
    rw [h] at heq
    cases heq
    rw [hkyber]
    rfl

end IdentityKeys

/-! ## Sample identities -/

/-- The private keys of a sample identity's pool. -/
def sampleOpkPrivate (n : UInt8) (i : ℕ) : Random32 :=
  ⟨leBytes 4 i ++ List.replicate 28 n, by
    rw [length_append, length_leBytes, length_replicate]⟩

/-- The randomness of a sample identity. -/
def sampleEntropy (n : UInt8) : IdentityKeys.CreateEntropy where
  ed25519Seed := [n]
  x25519Private := ⟨List.replicate 32 n, length_replicate⟩
  signedPreKeyId := 1
  signedPreKeyPrivate := ⟨List.replicate 32 (n + 1), length_replicate⟩
  opks := .counting (sampleOpkPrivate n)
  kyberSeed := [n]
  kyberSelfTest := []

/-- A sample identity with a pool of a given size. -/
def sampleIdentity (n : UInt8) (count : ℕ) (h : count ≤ opkIdModulus) :
    IdentityKeys Crypto.transparent :=
  .ofEntropy _ (sampleEntropy n) _ (generateOpksFrom_ids (generate_counting (sampleOpkPrivate n) h)).1

/-- Sample identities are what `create` returns. -/
theorem create_sampleEntropy (n : UInt8) (h : count ≤ opkIdModulus) :
    IdentityKeys.create .transparent (sampleEntropy n) count = .ok (sampleIdentity n count h) :=
  IdentityKeys.create_of_generate Crypto.transparent_correct Crypto.transparent_properKeys
    (generate_counting _ h)

theorem length_oneTimePreKeys_sampleIdentity (n : UInt8) (h : count ≤ opkIdModulus) :
    (sampleIdentity n count h).oneTimePreKeys.length = count := by
  change ((List.range' 0 count).map _).length = count
  rw [length_map, length_range']

/-! ## Pools derived from a master key -/

section Derived

open MasterKeyDerivation (deriveOneTimePreKeySeed)

variable {masterKey membershipId : Bytes} {opks opks' : List (OneTimePreKey c)}

variable (masterKey membershipId) in
/-- A pool publishes the first bytes of a seed as the id of a key. -/
def PublishesSeed (opks : List (OneTimePreKey c)) (seed : Bytes) : Prop :=
  ∃ i o, opks[i]? = some o ∧ deriveOneTimePreKeySeed c masterKey membershipId i = .ok seed ∧
    o.id = OneTimePreKey.idOfRaw (leNat (seed.take 4))

variable (masterKey membershipId) in
/-- A pool uses a seed as the private key of a key. -/
def UsesSeed (opks : List (OneTimePreKey c)) (seed : Bytes) : Prop :=
  ∃ i o, opks[i]? = some o ∧ deriveOneTimePreKeySeed c masterKey membershipId
    ((opks.length + i) % 2 ^ 32) = .ok seed ∧ o.secretKey = clamp seed

/-- The seeds behind the key at a position. -/
theorem seeds_of_deriveOpksFrom {count n i : ℕ} {used : Finset UInt32}
    (h : deriveOpksFrom c masterKey membershipId count n i used = .ok opks) {j : ℕ} (hj : j < n) :
    ∃ o idSeed opkSeed, opks[j]? = some o ∧
      (deriveOneTimePreKeySeed c masterKey membershipId (i + j) = .ok idSeed ∧
        o.id = OneTimePreKey.idOfRaw (leNat (idSeed.take 4))) ∧
      deriveOneTimePreKeySeed c masterKey membershipId ((count + (i + j)) % 2 ^ 32) = .ok opkSeed ∧
        o.secretKey = clamp opkSeed := by
  induction n generalizing i j used opks with
  | zero => exact absurd hj (Nat.not_lt_zero j)
  | succ n ih =>
    simp only [deriveOpksFrom, OneTimePreKey.createFromSeed, except_bind_eq_ok, require_eq_ok,
      Except.ok.injEq, X25519KeyPair.ofSeed] at h
    obtain ⟨idSeed, hid, _, -, opkSeed, hkey, _, ⟨pair, hpair, rfl⟩, rest, hrest, rfl⟩ := h
    cases j with
    | zero =>
      split_ifs at hpair
      cases hpair
      exact ⟨_, idSeed, opkSeed, rfl, ⟨hid, rfl⟩, hkey, rfl⟩
    | succ j =>
      have hnext := ih hrest (Nat.lt_of_succ_lt_succ hj)
      rwa [Nat.add_right_comm, Nat.add_assoc] at hnext

/-- An index that both pools derive a seed for, one for an id and the other for a key. -/
theorem exists_shared_seed {m n i j : ℕ}
    (h : generateOneTimePreKeysFromMasterKey c masterKey membershipId m = .ok opks)
    (h' : generateOneTimePreKeysFromMasterKey c masterKey membershipId n = .ok opks')
    (hi : i < m) (hj : j < n) (hij : (n + j) % 2 ^ 32 = i) :
    ∃ seed, PublishesSeed masterKey membershipId opks seed ∧
      UsesSeed masterKey membershipId opks' seed := by
  obtain ⟨o, seed, -, ho, ⟨hseed, hid⟩, -⟩ := seeds_of_deriveOpksFrom h hi
  obtain ⟨o', -, seed', ho', -, hseed', hkey⟩ := seeds_of_deriveOpksFrom h' hj
  rw [Nat.zero_add] at hseed hseed'
  rw [hij] at hseed'
  cases hseed.symm.trans hseed'
  refine ⟨seed, ⟨i, o, ho, hseed, hid⟩, j, o', ho', ?_, hkey⟩
  rw [(deriveOpksFrom_ids h').2.2, hij]
  exact hseed

/-- The pool of a seed, for the samples. -/
def samplePool (count : ℕ) : Except ProtocolError (List (OneTimePreKey .transparent)) :=
  generateOneTimePreKeysFromMasterKey .transparent (List.replicate 32 7) [109] count

theorem exists_samplePool (h : (samplePool count).toOption.isSome) :
    ∃ opks, samplePool count = .ok opks := by
  cases hrun : samplePool count with
  | error e =>
    rw [hrun] at h
    cases h
  | ok opks => exact ⟨opks, rfl⟩

theorem injOn_sampleSeeds :
    Set.InjOn (deriveOneTimePreKeySeed .transparent (List.replicate 32 7) [109]) {i | i < 4} := by
  have hdecide : ∀ i < 4, ∀ j < 4, (deriveOneTimePreKeySeed .transparent (List.replicate 32 7) [109]
      i).toOption = (deriveOneTimePreKeySeed .transparent (List.replicate 32 7) [109] j).toOption →
        i = j := by decide +kernel
  exact fun i hi j hj heq => hdecide i hi j hj (congrArg Except.toOption heq)

end Derived

end AuraProtocol
