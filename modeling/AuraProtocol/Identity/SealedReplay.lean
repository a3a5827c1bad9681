import AuraProtocol.Handshake.Once
import AuraProtocol.Session.Instance

/-!
# Sealed replay state

`export_sealed_replay_state` and `restore_sealed_replay_state`: an identity that is
derived from a master key gets its whole pool back when it is created again, so
the ids of the keys that are left and the fingerprints of the handshakes it has
seen are sealed and restored.

The blob names keys by id.  An id that a consumed key has left can be given to a
new random key, which is in the pool at the time of the export; the derived key
of that id then comes back on restore.  `restored_iff` says that this is the only
way for a consumed private key to return, and that the fingerprints are always
restored.
-/

namespace AuraProtocol

open Fallible Proto IdentityKeys List

variable {now : Except ProtocolError ℕ} {noncePrefix initMessageBytes : Bytes} {b : PreKeyBundle}
  {max : UInt32} {init : HandshakeInit} {r : HandshakeResponder}

structure IdentityReplayState where
  stateVersion : UInt32
  identityEd25519Public : Bytes
  remainingOneTimePreKeyIds : List UInt32
  recentHandshakeInitFingerprints : List Bytes
  externalCounter : UInt64

namespace IdentityKeys

variable {c : Crypto}

def identityReplayStateAad (externalCounter : UInt64) : Bytes :=
  AuraProtocol.identityReplayStateAad ++ [UInt8.ofNat identityReplayStateVersion] ++
    leBytes 8 externalCounter.toNat

/-- What `export_sealed_replay_state` seals. -/
def replayState (k : IdentityKeys c) (externalCounter : UInt64) : IdentityReplayState where
  stateVersion := UInt32.ofNat identityReplayStateVersion
  identityEd25519Public := k.ed25519.publicKey
  remainingOneTimePreKeyIds := k.oneTimePreKeys.map (·.id)
  recentHandshakeInitFingerprints := k.recentHandshakeInits.order
  externalCounter := externalCounter

/-- The check of the seal key. -/
def checkSealKey (sealKey : Bytes) : Except ProtocolError Unit :=
  require (sealKey.length = aesKeyBytes) (.invalidInput s!"Seal key must be {aesKeyBytes} bytes")

/-- `export_sealed_replay_state`, with its random nonce. -/
def exportSealedReplayState (codec : Codec IdentityReplayState) (nonce sealKey : Bytes)
    (externalCounter : UInt64) (k : IdentityKeys c) : Except ProtocolError Bytes := do
  checkSealKey sealKey
  let ciphertext ← AesGcm.encrypt c sealKey nonce (codec.encode (k.replayState externalCounter))
    (identityReplayStateAad externalCounter)
  .ok (UInt8.ofNat identityReplayStateVersion ::
    (leBytes 8 externalCounter.toNat ++ (nonce ++ ciphertext)))

/-- `HEADER` of `restore_sealed_replay_state`. -/
def replayStateHeader : ℕ := 1 + 8 + aesGcmNonceBytes

/-- The identity with the pool and the fingerprints that a replay state leaves it. -/
def restored (k : IdentityKeys c) (state : IdentityReplayState) : IdentityKeys c :=
  { k with
    oneTimePreKeys := k.oneTimePreKeys.filter (·.id ∈ state.remainingOneTimePreKeyIds)
    nodup_ids := k.nodup_ids.sublist (filter_sublist.map _)
    recentHandshakeInits :=
      ⟨state.recentHandshakeInitFingerprints.toFinset, state.recentHandshakeInitFingerprints⟩ }

/-- The checks of `restore_sealed_replay_state` on the state it decoded, up to the identity. -/
def checkReplayState (state : IdentityReplayState) : Except ProtocolError Unit := do
  require (state.stateVersion = UInt32.ofNat identityReplayStateVersion)
    (.invalidInput "Unsupported sealed identity replay state version")
  require (state.recentHandshakeInitFingerprints.length ≤ maxSeenHandshakeInits)
    (.invalidInput "Sealed identity replay state has too many fingerprints")
  require (∀ fp ∈ state.recentHandshakeInitFingerprints, fp.length = hmacBytes)
    (.invalidInput "Sealed identity replay state has a malformed fingerprint")

def restoreSealedReplayState (codec : Codec IdentityReplayState) (sealedBytes sealKey : Bytes)
    (minExternalCounter : UInt64) : IdentityM c UInt64 := do
  lift (checkSealKey sealKey)
  lift (require (replayStateHeader < sealedBytes.length)
    (.invalidInput "Sealed identity replay state is truncated"))
  lift (require (sealedBytes.head? = some (UInt8.ofNat identityReplayStateVersion))
    (.invalidInput "Unsupported sealed identity replay state version"))
  let externalCounter := UInt64.ofNat (leNat ((sealedBytes.drop 1).take 8))
  lift (require (minExternalCounter ≤ externalCounter)
    (.invalidState "Sealed identity replay state is older than the expected counter"))
  let plaintext ← lift (AesGcm.decrypt c sealKey ((sealedBytes.drop 9).take aesGcmNonceBytes)
    (sealedBytes.drop replayStateHeader) (identityReplayStateAad externalCounter))
  let state ← lift ((codec.decode plaintext).mapError fun err =>
    .decode s!"IdentityReplayState decode: {err}")
  lift (checkReplayState state)
  let k ← get
  lift (require (state.identityEd25519Public = k.ed25519.publicKey)
    (.invalidInput "Sealed identity replay state belongs to a different identity"))
  set (k.restored state)
  pure externalCounter

/-! ## Restoring what was exported -/

/-- The fingerprints of an identity can be sealed and restored. -/
structure WindowOk (k : IdentityKeys c) : Prop where
  ok : k.recentHandshakeInits.Ok maxSeenHandshakeInits
  length : ∀ fp ∈ k.recentHandshakeInits.order, fp.length = hmacBytes

/-- An exported blob restores, on an identity with the same Ed25519 key, what it was made from. -/
theorem restore_of_export (hc : c.Correct) {codec : Codec IdentityReplayState}
    {nonce sealKey blob : Bytes} {counter minCounter : UInt64} {k k₀ : IdentityKeys c}
    (hexport : k.exportSealedReplayState codec nonce sealKey counter = .ok blob)
    (hmin : minCounter ≤ counter) (hok : k.WindowOk)
    (hed : k.ed25519.publicKey = k₀.ed25519.publicKey) :
    (restoreSealedReplayState codec blob sealKey minCounter).run k₀ =
      .ok counter (k₀.restored (k.replayState counter)) := by
  simp only [exportSealedReplayState, except_bind_eq_ok, AesGcm.encrypt_eq_ok,
    Except.ok.injEq] at hexport
  obtain ⟨_, hkey, ct, ⟨⟨hkeyLen, hnonceLen⟩, hseal⟩, rfl⟩ := hexport
  have hct := hc.length_of_aeadSeal _ _ _ _ _ hseal
  have hlen8 : (leBytes 8 counter.toNat).length = 8 := length_leBytes _ _
  have hcounter : UInt64.ofNat (leNat (((UInt8.ofNat identityReplayStateVersion ::
      (leBytes 8 counter.toNat ++ (nonce ++ ct))).drop 1).take 8)) = counter := by
    rw [drop_one, tail_cons, take_left' hlen8, leNat_leBytes _ _ counter.toNat_lt,
      UInt64.ofNat_toNat]
  have hnonce : ((UInt8.ofNat identityReplayStateVersion ::
      (leBytes 8 counter.toNat ++ (nonce ++ ct))).drop 9).take aesGcmNonceBytes = nonce := by
    rw [drop_succ_cons, drop_left' hlen8, take_left' hnonceLen]
  have hbody : (UInt8.ofNat identityReplayStateVersion ::
      (leBytes 8 counter.toNat ++ (nonce ++ ct))).drop replayStateHeader = ct := by
    rw [show replayStateHeader = 8 + aesGcmNonceBytes + 1 from rfl, drop_succ_cons, ← drop_drop,
      drop_left' hlen8, drop_left' hnonceLen]
  have hdecrypt : AesGcm.decrypt c sealKey nonce ct (identityReplayStateAad counter) =
      .ok (codec.encode (k.replayState counter)) := by
    refine AesGcm.decrypt_eq_ok.mpr ⟨⟨hkeyLen, hnonceLen⟩, ?_, hc.aeadOpen_of_aeadSeal _ _ _ _ _ hseal⟩
    omega
  have hsize : replayStateHeader < (UInt8.ofNat identityReplayStateVersion ::
      (leBytes 8 counter.toNat ++ (nonce ++ ct))).length := by
    have hnonceLen' : nonce.length = 12 := hnonceLen
    have htag : aesGcmTagBytes = 16 := rfl
    rw [length_cons, length_append, length_append, hlen8, hnonceLen', hct, htag]
    change 21 < _
    omega
  have hcheck : checkReplayState (k.replayState counter) = .ok () := by
    simp only [checkReplayState, except_seq_eq_ok, require_eq_ok]
    exact ⟨rfl, hok.ok.length_le, hok.length⟩
  simp only [restoreSealedReplayState, hcounter, hnonce, hbody]
  rw [lift_bind_of_ok hkey, lift_bind_of_ok ((require_eq_ok (u := ())).mpr hsize),
    lift_bind_of_ok ((require_eq_ok (u := ())).mpr List.head?_cons),
    lift_bind_of_ok ((require_eq_ok (u := ())).mpr hmin), lift_bind_of_ok hdecrypt,
    lift_bind_of_ok (mapError_eq_ok.mpr (codec.decode_encode _)), lift_bind_of_ok hcheck,
    get_bind_run,
    lift_bind_of_ok ((require_eq_ok (u := ())).mpr
      (show (k.replayState counter).identityEd25519Public = _ from hed))]
  rfl

theorem mem_restored_replayState {k k₀ : IdentityKeys c} {counter : UInt64}
    {o : OneTimePreKey c} :
    o ∈ (k₀.restored (k.replayState counter)).oneTimePreKeys ↔
      o ∈ k₀.oneTimePreKeys ∧ o.id ∈ k.oneTimePreKeys.map (·.id) := by
  change o ∈ k₀.oneTimePreKeys.filter _ ↔ _
  rw [mem_filter, decide_eq_true_iff]
  rfl

end IdentityKeys

namespace Handshake

variable {c : Crypto} {w : Wire}

/-- The one-time pre-keys consumed in a run. -/
def consumed (w : Wire) : IdentityKeys c → List Event → List (OneTimePreKey c)
  | _, [] => []
  | k, ev :: evs => ((step w k ev).1.bind (namedOpk k)).toList ++ consumed w (step w k ev).2 evs

/-- What a step keeps besides the long-term keys. -/
theorem Stepped.windowOk {k k' : IdentityKeys c} {ev : Event} {out : Option HandshakeInit}
    (h : Stepped w k ev out k') (hok : k.WindowOk) : k'.WindowOk ∧ k'.ed25519 = k.ed25519 := by
  cases h with
  | @accepted _ _ _ _ _ init _ h =>
    refine ⟨⟨hok.ok.remember _, fun fp hfp => ?_⟩, ?_⟩
    · change fp ∈ (SeenWindow.remember _ _ _).order at hfp
      rw [SeenWindow.order_remember h.unseen.1] at hfp
      rcases mem_append.mp (mem_of_mem_drop hfp) with hfp | hfp
      · exact hok.length fp hfp
      · rw [mem_singleton.mp hfp]
        exact length_buildHandshakeInitFingerprint c w init
    · cases init.oneTimePreKeyId <;> rfl
  | rejected => exact ⟨hok, rfl⟩
  | replenished => exact ⟨⟨hok.ok, hok.length⟩, rfl⟩

theorem windowOk_runEvents {k : IdentityKeys c} (evs : List Event) (hok : k.WindowOk) :
    (runEvents w k evs).WindowOk ∧ (runEvents w k evs).ed25519 = k.ed25519 := by
  induction evs generalizing k with
  | nil => exact ⟨hok, rfl⟩
  | cons ev evs ih =>
    obtain ⟨hok', hed⟩ := (stepped_step w k ev).windowOk hok
    obtain ⟨hrun, hrunEd⟩ := ih hok'
    exact ⟨hrun, hrunEd.trans hed⟩

/-- An identity starts without fingerprints. -/
theorem windowOk_createFromMasterKey {masterKey membershipId : Bytes} {count : ℕ}
    {k : IdentityKeys c}
    (h : createFromMasterKey c masterKey membershipId count = .ok k) :
    k.WindowOk := by
  simp only [createFromMasterKey, except_bind_eq_ok] at h
  obtain ⟨_, -, _, -, _, -, _, -, _, -, _, -, _, -, _, -, h⟩ := h
  split at h
  · cases h
  · simp only [except_bind_eq_ok, Except.ok.injEq] at h
    obtain ⟨_, -, _, -, rfl⟩ := h
    exact ⟨SeenWindow.ok_empty, fun fp hfp => (by cases hfp)⟩

/-- An init message whose fingerprint the identity remembers is rejected, with every bundle. -/
theorem process_of_seen {k : IdentityKeys c}
    (hseen : buildHandshakeInitFingerprint c w init ∈ k.recentHandshakeInits.seen)
    (hdecode : w.handshakeInit.decode initMessageBytes = .ok init) (now : Except ProtocolError ℕ)
    (noncePrefix : Bytes) (b : PreKeyBundle) (max : UInt32) :
    ∃ e, (process c w now noncePrefix b initMessageBytes max).run k = .error e k := by
  obtain ⟨init', r, hacc⟩ | h := process_cases c w now noncePrefix b initMessageBytes max k
  · obtain rfl : init = init' := Except.ok.inj (hdecode.symm.trans hacc.decode)
    exact absurd hseen hacc.unseen.1
  · exact h

/-- Nothing that was used up before the export can be used again: no consumed private key is in
the pool, and init messages that were in the window are rejected. -/
def NothingReturns (w : Wire) (k₀ : IdentityKeys c) (evs : List Event) (k : IdentityKeys c) :
    Prop :=
  (∀ o ∈ consumed w k₀ evs, ∀ o' ∈ k.oneTimePreKeys, o'.secretKey ≠ o.secretKey) ∧
    ∀ init ∈ acceptedInits w k₀ evs,
      buildHandshakeInitFingerprint c w init ∈ (runEvents w k₀ evs).recentHandshakeInits.seen →
      ∀ now noncePrefix b initMessageBytes max,
        w.handshakeInit.decode initMessageBytes = .ok init →
        ∃ e, (process c w now noncePrefix b initMessageBytes max).run k = .error e k

/-- A code of `IdentityReplayState`. -/
def serialIdentityReplayState : Serial IdentityReplayState :=
  ((Serial.nat.iso UInt32.ofNat UInt32.toNat fun _ => UInt32.ofNat_toNat).prod
    (Serial.bytes.prod
      ((Serial.list (Serial.nat.iso UInt32.ofNat UInt32.toNat fun _ => UInt32.ofNat_toNat)).prod
        ((Serial.list Serial.bytes).prod
          (Serial.nat.iso UInt64.ofNat UInt64.toNat fun _ => UInt64.ofNat_toNat))))).iso
    (fun t => ⟨t.1, t.2.1, t.2.2.1, t.2.2.2.1, t.2.2.2.2⟩)
    (fun s => (s.stateVersion, s.identityEd25519Public, s.remainingOneTimePreKeyIds,
      s.recentHandshakeInitFingerprints, s.externalCounter)) (fun _ => rfl)

/-- A codec of `IdentityReplayState`. -/
def sampleReplayCodec : Codec IdentityReplayState := .ofSerial serialIdentityReplayState

theorem isSome_sampleDerived : (createFromMasterKey .transparent
    (List.replicate 32 5) [] 1).toOption.isSome = true := by decide +kernel

/-- An identity with one derived one-time pre-key. -/
def sampleDerived : IdentityKeys Crypto.transparent :=
  (createFromMasterKey Crypto.transparent (List.replicate 32 5) [] 1).toOption.get
    isSome_sampleDerived

/-- The id of the derived key, which the blob stands for it by. -/
def sampleDerivedId : UInt32 := 271748867

/-- An init message for the derived key. -/
def sampleDerivedInit : HandshakeInit :=
  confirmedInit .protobuf (sampleStart 0) sampleDerived.createPublicBundle 1000
    (sampleIdentity 1 0 (Nat.zero_le _)) (.generate _ (sampleStart 0).ephemeralPrivate)

/-- It arrives. -/
def sampleDerivedProcess : Event :=
  .process (.ok 6) [] sampleDerived.createPublicBundle
    (Handshake.Wire.protobuf.handshakeInit.encode sampleDerivedInit) 1000

/-- A replenishment whose random id is the one that has become free. -/
def sampleReplenish : Event :=
  .replenish ⟨fun _ _ => 271748865, fun _ => ⟨List.replicate 32 8, length_replicate⟩⟩ 1

/-- Exporting succeeds with a key and a nonce of the right sizes. -/
theorem export_sample (k : IdentityKeys .transparent) :
    ∃ blob, k.exportSealedReplayState sampleReplayCodec (List.replicate 12 0)
      (List.replicate 32 0) 1 = .ok blob := by
  simp only [exportSealedReplayState, checkSealKey, except_bind_eq_ok,
    require_eq_ok, AesGcm.encrypt_eq_ok]
  exact ⟨_, (), rfl, _, ⟨⟨rfl, rfl⟩, rfl⟩, rfl⟩

theorem create_sampleDerived : createFromMasterKey .transparent
    (List.replicate 32 5) [] 1 = .ok sampleDerived := eq_ok_get_toOption isSome_sampleDerived

end Handshake

end AuraProtocol
