import AuraProtocol.Session.Delivery
import AuraProtocol.Session.Instance

/-!
# A session over its lifetime

The remaining calls of a `Session` and the runs made of all its calls, on a host
that keeps the sealed states it exported.  `Host.exec` is what one call does to
the host; `Reachable` closes the sessions fresh from a handshake under the calls a
policy admits.

The invariant that carries the results about runs is `SessionInv`: every cached
message key lies behind the receiving position and in one of the last epochs.
With it, what a failing `decrypt` does to the session is decided by one
inequality (`decrypt_error_eq_iff`).
-/

namespace AuraProtocol.Session

open Fallible OrdMap SessionInner

variable {c : Crypto} {epoch count index i : ℕ} {w : Wire} {s s' : SessionInner}
  {rc : ChainState} {kek : Bytes} {clock : Clock} {envelope : SecureEnvelope} {e : ProtocolError}
  {m : OrdMap Slot Bytes} {result : DecryptResult}

/-! ## The remaining calls -/

def setDeviceId (deviceId : Bytes) : SessionM Unit := do
  lift (require (deviceId.length = deviceIdBytes)
    (.invalidInput "device_id must be exactly DEVICE_ID_BYTES"))
  reads fun s => require (s.state.version ≠ 0) (.invalidState "Session has been destroyed")
  modify fun s => { s with state := { s.state with deviceId := some deviceId } }

def setSessionTtl (ttlSeconds : Option ℕ) : SessionM Unit := do
  lift (require (∀ ttl ∈ ttlSeconds, minSessionTtlSeconds ≤ ttl ∧ ttl ≤ maxSessionTtlSeconds)
    (.invalidInput "TTL out of allowed range"))
  reads fun s => require (s.state.version ≠ 0) (.invalidState "Session has been destroyed")
  modify fun s => { s with state := { s.state with sessionTtlSeconds := ttlSeconds } }

/-- `secure_wipe`: zeros of the same length. -/
def wipe (b : Bytes) : Bytes := List.replicate b.length 0

/-- A chain with its keys wiped. -/
def ChainState.wipe (chain : ChainState) : ChainState :=
  { chain with
    chainKey := Session.wipe chain.chainKey
    skippedMessageKeys := chain.skippedMessageKeys.map fun k =>
      { k with messageKey := Session.wipe k.messageKey } }

def destroy (s : SessionInner) : SessionInner :=
  { s with
    state := { s.state with
      rootKey := wipe s.state.rootKey
      metadataKey := wipe s.state.metadataKey
      sendMetadataKey := wipe s.state.sendMetadataKey
      sendChain := s.state.sendChain.map ChainState.wipe
      recvChain := s.state.recvChain.map ChainState.wipe
      dhLocal := s.state.dhLocal.map fun dh => { dh with privateKey := wipe dh.privateKey }
      kyberLocal := s.state.kyberLocal.map fun k => { k with secretKey := wipe k.secretKey }
      identityBindingHash := wipe s.state.identityBindingHash
      sessionId := wipe s.state.sessionId
      stateHmac := wipe s.state.stateHmac
      version := 0 }
    dhPrivateHandle := none
    kyberSecretHandle := none
    skippedMessageKeys := ∅
    cachedMetadataKeys := ∅
    pendingKyberSharedSecret := wipe s.pendingKyberSharedSecret
    seenPayloadNonces := ∅
    seenPayloadNonceOrder := [] }

/-! ## Runs -/

/-- A sealed state, with the number of messages delivered before it was exported. -/
structure Export where
  blob : Bytes
  after : ℕ
  deriving DecidableEq

/-- A host: a session, the sealed states it exported (latest first), and the epoch and index of
every message it delivered (latest first). -/
structure Host where
  session : SessionInner
  exports : List Export
  delivered : List (ℕ × ℕ)

/-- The host of a session that has not done anything yet. -/
def Host.ofSession (s : SessionInner) : Host where
  session := s
  exports := []
  delivered := []

/-- What can happen to a host. -/
inductive Action
  | encrypt (clock : Clock) (rnd : Entropy) (m : Message)
  | decrypt (clock : Clock) (envelope : SecureEnvelope)
  | exportSealed (rnd : SealEntropy) (externalCounter : ℕ)
  | restore (sealedState : Export) (minExternalCounter : ℕ)
  | setDeviceId (deviceId : Bytes)
  | setSessionTtl (ttlSeconds : Option ℕ)
  | destroy
  /-- The replay cache forgets every nonce but those to keep. -/
  | evictSeenNonces (keep : Bytes → Bool)

/-- The effect of an action; `kek` is the host's key for sealed states. -/
def Host.exec (c : Crypto) (w : Wire) (kek : Bytes) (h : Host) : Action → Host
  | .encrypt clock rnd m =>
    { h with session := endState ((Session.encrypt c w clock rnd m).run h.session) }
  | .decrypt clock envelope =>
    match (Session.decrypt c w clock envelope).run h.session with
    | .ok result s =>
      { h with
        session := s
        delivered := (envelope.ratchetEpoch, result.metadata.messageIndex) :: h.delivered }
    | .error _ s => { h with session := s }
  | .exportSealed rnd externalCounter =>
    match (exportSealedState c w (.ok kek) rnd externalCounter).run h.session with
    | .ok blob s =>
      { h with
        session := s
        exports := { blob := blob, after := h.delivered.length } :: h.exports }
    | .error _ s => { h with session := s }
  | .restore sealedState minExternalCounter =>
    match fromSealedState c w sealedState.blob (.ok kek) minExternalCounter with
    | .ok s => { h with session := s }
    | .error _ => h
  | .setDeviceId deviceId =>
    { h with session := endState ((Session.setDeviceId deviceId).run h.session) }
  | .setSessionTtl ttl => { h with session := endState ((Session.setSessionTtl ttl).run h.session) }
  | .destroy => { h with session := Session.destroy h.session }
  | .evictSeenNonces keep =>
    { h with
      session := { h.session with
        seenPayloadNonces := h.session.seenPayloadNonces.filter fun n => keep n
        seenPayloadNonceOrder := h.session.seenPayloadNonceOrder.filter keep } }

variable {policy : Host → Action → Prop}

/-- A session fresh from a handshake. -/
def Initial (c : Crypto) (s : SessionInner) : Prop :=
  ∃ args state kyberSharedSecret, buildProtocolState c args = .ok state ∧
    fromHandshakeState c { state := state, kyberSharedSecret := kyberSharedSecret } = .ok s

/-- The hosts that runs from a fresh session reach, if a policy admits each action. -/
inductive Reachable (c : Crypto) (w : Wire) (kek : Bytes) (policy : Host → Action → Prop) :
    Host → Prop
  | start {s : SessionInner} : Initial c s → Reachable c w kek policy (Host.ofSession s)
  | step {h : Host} {a : Action} : Reachable c w kek policy h → policy h a →
      Reachable c w kek policy (h.exec c w kek a)

/-- Only calls are made, and only sealed states the host exported are restored. -/
def ownExports (h : Host) : Action → Prop
  | .restore sealedState _ => sealedState ∈ h.exports
  | .evictSeenNonces _ => False
  | _ => True

/-! ## The invariant -/

/-- The next index of the receiving chain. -/
def recvIndex (s : SessionInner) : ℕ := (s.state.recvChain.map ChainState.messageIndex).getD 0

/-- What holds between calls. -/
structure SessionInv (s : SessionInner) : Prop where
  /-- A cached key is behind the receiving position. -/
  behind : ∀ e i, slot e i ∈ s.skippedMessageKeys.keys →
    e < s.state.recvRatchetEpoch ∨ e = s.state.recvRatchetEpoch ∧ i < recvIndex s
  /-- A cached key is of one of the last epochs. -/
  recent : ∀ e i, slot e i ∈ s.skippedMessageKeys.keys →
    s.state.recvRatchetEpoch ≤ e + maxSkippedKeyEpochAge
  handleSizes : HandleSizes s

theorem recvIndex_of_recvChain (h : s.state.recvChain = some rc) :
    recvIndex s = rc.messageIndex := by
  rw [recvIndex, h]
  rfl

/-- Dropping keys and moving the chain forward keep the invariant. -/
theorem SessionInv.mono (h : SessionInv s)
    (hepoch : s'.state.recvRatchetEpoch = s.state.recvRatchetEpoch)
    (hindex : recvIndex s ≤ recvIndex s')
    (hkeys : s'.skippedMessageKeys.keys ⊆ s.skippedMessageKeys.keys) (hsizes : HandleSizes s') :
    SessionInv s' where
  behind e i hmem := by
    rw [hepoch]
    exact (h.behind e i (hkeys hmem)).imp_right fun hlt => ⟨hlt.1, hlt.2.trans_le hindex⟩
  recent e i hmem := by
    rw [hepoch]
    exact h.recent e i (hkeys hmem)
  handleSizes := hsizes

theorem keys_evictAgedSkippedKeys_subset (s : SessionInner) :
    (evictAgedSkippedKeys s).skippedMessageKeys.keys ⊆ s.skippedMessageKeys.keys :=
  keys_popWhile_subset _ _

theorem keys_roomFor_subset (n : ℕ) (s : SessionInner) :
    (roomFor n s).keys ⊆ s.skippedMessageKeys.keys :=
  (keys_popTo_subset _ _).trans (keys_evictAgedSkippedKeys_subset s)

theorem skippedMessageKeys_enterRecvEpoch (epoch : ℕ) (header : RatchetHeader) (s : SessionInner) :
    (enterRecvEpoch epoch header s).skippedMessageKeys =
      (s.skippedMessageKeys.popWhile
        fun k => decide ((ofLex k).1 < epoch - maxSkippedKeyEpochAge)).popTo
          maxSkippedMessageKeys := rfl

theorem keys_enterRecvEpoch_subset (epoch : ℕ) (header : RatchetHeader) (s : SessionInner) :
    (enterRecvEpoch epoch header s).skippedMessageKeys.keys ⊆ s.skippedMessageKeys.keys :=
  (keys_popTo_subset _ _).trans (keys_popWhile_subset _ _)

/-- The epochs before a bound are a lower set of slots. -/
theorem epoch_lt_of_slot_le {n : ℕ} (k k' : Slot) (hle : k ≤ k')
    (hk' : decide ((ofLex k').1 < n) = true) : decide ((ofLex k).1 < n) = true := by
  rw [← slot_eta k, ← slot_eta k', slot_le_slot] at hle
  rw [decide_eq_true_iff] at hk' ⊢
  omega

theorem recent_of_mem_keys_enterRecvEpoch {header : RatchetHeader} {e : ℕ}
    (h : slot e i ∈ (enterRecvEpoch epoch header s).skippedMessageKeys.keys) :
    epoch ≤ e + maxSkippedKeyEpochAge := by
  by_contra hold
  rw [skippedMessageKeys_enterRecvEpoch] at h
  refine OrdMap.get?_eq_none_iff.mp ?_ (keys_popTo_subset _ _ h)
  rw [OrdMap.get?_popWhile epoch_lt_of_slot_le, if_pos]
  rw [decide_eq_true_iff]
  change e < epoch - maxSkippedKeyEpochAge
  omega

theorem mem_keys_insertKeys {chainKey : Bytes} {e : ℕ} :
    slot e i ∈ (insertKeys c epoch count index chainKey m).keys ↔
      (e = epoch ∧ index ≤ i ∧ i < index + count) ∨ slot e i ∈ m.keys := by
  rw [mem_keys, get?_insertKeys, mem_keys]
  split_ifs with hin <;> simp [hin]

section

variable (h : SessionInv s)
include h

/-- A walk along the chain keeps the invariant if the chain ends behind the keys it cached. -/
theorem SessionInv.walk (hrc : s.state.recvChain = some rc) (count : ℕ)
    (chainKey : Bytes) (hle : rc.messageIndex + count ≤ index) :
    SessionInv ((cacheAhead c rc count s).setRecvChain chainKey index) := by
  have hindex : recvIndex ((cacheAhead c rc count s).setRecvChain chainKey index) = index := by
    rw [recvIndex, setRecvChain_recvChain, cacheAhead, withSkipped_state,
      hrc]
    rfl
  refine ⟨fun e i hmem => ?_, fun e i hmem => ?_, ⟨h.handleSizes.1, h.handleSizes.2⟩⟩
  · rw [hindex]
    rcases mem_keys_insertKeys.mp hmem with ⟨rfl, -, hi⟩ | hmem
    · exact .inr ⟨rfl, hi.trans_le hle⟩
    · refine (h.behind e i (keys_roomFor_subset count s hmem)).imp_right ?_
      rintro ⟨he, hi⟩
      refine ⟨he, ?_⟩
      rw [recvIndex_of_recvChain hrc] at hi
      omega
  · rcases mem_keys_insertKeys.mp hmem with ⟨rfl, -⟩ | hmem
    · exact Nat.le_add_right _ _
    · exact h.recent e i (keys_roomFor_subset count s hmem)

/-- Entering the next epoch evicts what got too old. -/
theorem SessionInv.enterRecvEpoch (out : RatchetOutput) (header : RatchetHeader) :
    SessionInv (enterRecvEpoch (s.state.recvRatchetEpoch + 1) header
      (installRecvKeys out (retireMetadataKey s))) := by
  refine ⟨fun e i hmem => .inl ?_, fun e i hmem => recent_of_mem_keys_enterRecvEpoch hmem,
    ⟨h.handleSizes.1, h.handleSizes.2⟩⟩
  have hold := h.behind e i (keys_enterRecvEpoch_subset _ header _ hmem)
  change e < s.state.recvRatchetEpoch + 1
  omega

theorem SessionInv.skipPreviousChain {pcl : Option ℕ} {u : Unit}
    (hrun : (skipPreviousChain c pcl).run s = .ok u s') : SessionInv s' := by
  cases pcl with
  | none =>
    cases hrun
    exact h
  | some pcl =>
    obtain ⟨rc, hrc, ⟨-, rfl⟩ | ⟨hlt, -, rfl⟩⟩ := skipOldChainKeys_eq_ok.mp hrun
    · exact h
    · exact h.walk (checkSkipOldChain_eq_ok.mp hrc).1 _ _ (by omega)

theorem SessionInv.applyRecvRatchet {u : Unit}
    (hrun : (applyRecvRatchet c envelope).run s = .ok u s') : SessionInv s' := by
  obtain ⟨header, s₁, out, -, hskip, -, -, rfl⟩ := applyRecvRatchet_eq_ok.mp hrun
  exact (h.skipPreviousChain hskip).enterRecvEpoch out header

theorem SessionInv.entered {isOldEpoch : Bool} {snapshot : Option RatchetSnapshot}
    (he : Entered c envelope s isOldEpoch snapshot s') : SessionInv s' := by
  cases he with
  | ratchet _ _ happly => exact h.applyRecvRatchet happly
  | current => exact h
  | old => exact h

theorem SessionInv.eraseKey (k : Slot) :
    SessionInv (s.withSkipped (s.skippedMessageKeys.erase k)) :=
  h.mono rfl le_rfl
    (by rw [withSkipped_skippedMessageKeys, keys_erase]; exact Finset.erase_subset _ _)
    ⟨h.handleSizes.1, h.handleSizes.2⟩

theorem SessionInv.takeMessageKey {isOldEpoch : Bool} {key : Bytes}
    (hrun : (takeMessageKey c envelope isOldEpoch i).run s = .ok key s') : SessionInv s' := by
  cases isOldEpoch with
  | true =>
    obtain ⟨-, rfl⟩ := trySkippedKey_eq_ok.mp hrun
    exact h.eraseKey _
  | false =>
    obtain ⟨rc, hrc, ⟨-, -, rfl⟩ | ⟨hle, -, -, rfl⟩⟩ := getRecvMessageKey_eq_ok.mp hrun
    · exact h.eraseKey _
    · exact h.walk (checkRecvMessageIndex_eq_ok.mp hrc).1 _ _ (by omega)

end

/-! ### Calls that leave the receiving side alone -/

/-- Neither the receiving position nor the caches change, and secrets keep their size. -/
structure Quiet (s s' : SessionInner) : Prop where
  recvRatchetEpoch : s'.state.recvRatchetEpoch = s.state.recvRatchetEpoch
  recvChain : s'.state.recvChain = s.state.recvChain
  skippedMessageKeys : s'.skippedMessageKeys = s.skippedMessageKeys
  cachedMetadataKeys : s'.cachedMetadataKeys = s.cachedMetadataKeys
  handleSizes : HandleSizes s → HandleSizes s'

theorem Quiet.refl (s : SessionInner) : Quiet s s := ⟨rfl, rfl, rfl, rfl, id⟩

theorem Quiet.trans {s₁ s₂ s₃ : SessionInner} (h : Quiet s₁ s₂) (h' : Quiet s₂ s₃) : Quiet s₁ s₃ :=
  ⟨h'.1.trans h.1, h'.2.trans h.2, h'.3.trans h.3, h'.4.trans h.4, h'.5 ∘ h.5⟩

instance : IsPreorder SessionInner Quiet where
  refl := .refl
  trans _ _ _ := .trans

theorem Quiet.recvIndex (h : Quiet s s') : recvIndex s' = recvIndex s := by
  rw [Session.recvIndex, h.recvChain, Session.recvIndex]

theorem SessionInv.quiet (h : SessionInv s) (hq : Quiet s s') : SessionInv s' :=
  h.mono hq.recvRatchetEpoch hq.recvIndex.ge (by rw [hq.skippedMessageKeys])
    (hq.handleSizes h.handleSizes)

theorem recordReceived_quiet (nonce : Bytes) (activityUnix totalReceived : ℕ) (s : SessionInner) :
    Quiet s (recordReceived nonce activityUnix totalReceived s) := by
  rw [recordReceived, rememberSeenPayloadNonce]
  split_ifs <;> exact ⟨rfl, rfl, rfl, rfl, fun h => ⟨h.1, h.2⟩⟩

theorem Prepared.quiet {rnd : Entropy} (h : Prepared c rnd s envelope s') : Quiet s s' := by
  cases h with
  | stay => exact Quiet.refl s
  | rotate _ hstep =>
    obtain ⟨_, _, -, -, -, -, hstep⟩ := deriveSendRatchet_eq_ok hstep
    refine ⟨rfl, rfl, rfl, rfl, fun _ => ⟨fun b hb => ?_, fun b hb => ?_⟩⟩
    · obtain rfl := Option.mem_some.mp hb
      exact rnd.length_x25519Private
    · obtain rfl := Option.mem_some.mp hb
      rw [hstep]
      exact c.length_kemKeygen_secret _

theorem Sent.quiet {rnd : Entropy} {m : Message} (h : Sent c w clock rnd m s envelope s') :
    Quiet s s' := by
  rw [h.final_eq]
  exact h.isPrepared.quiet.trans ⟨rfl, rfl, rfl, rfl, fun h => ⟨h.1, h.2⟩⟩

theorem encrypt_quiet (c : Crypto) (w : Wire) (clock : Clock) (rnd : Entropy) (m : Message)
    (hs : HandleSizes s) : Quiet s (endState ((encrypt c w clock rnd m).run s)) := by
  cases hrun : (encrypt c w clock rnd m).run s with
  | ok envelope s' =>
    obtain ⟨hsent⟩ := encrypt_eq_ok hrun
    exact hsent.quiet
  | error e s' =>
    obtain rfl := encrypt_eq_error hs hrun
    exact Quiet.refl s'

theorem exportSealedState_quiet (c : Crypto) (w : Wire) (kek : Except ProtocolError Bytes)
    (rnd : SealEntropy) (n : ℕ) : Keeps Quiet (exportSealedState c w kek rnd n) := by
  intro s
  cases hrun : (exportSealedState c w kek rnd n).run s with
  | ok blob s' =>
    obtain ⟨_, -, -, rfl⟩ := exportSealedState_eq_ok hrun
    exact ⟨rfl, rfl, rfl, rfl, fun h => ⟨h.1, h.2⟩⟩
  | error e s' =>
    obtain rfl := exportSealedState_eq_error hrun
    exact Quiet.refl s'

/-- A setter behind two checks keeps what its write keeps. -/
theorem setter_keeps {R : SessionInner → SessionInner → Prop} [IsPreorder SessionInner R]
    (check : Except ProtocolError Unit) (alive : SessionInner → Except ProtocolError Unit)
    {write : SessionInner → SessionInner} (hwrite : ∀ s, R s (write s)) :
    Keeps R (do lift check; reads alive; modify write : SessionM Unit) :=
  .bind (.lift _) fun _ => .bind (.reads _) fun _ => .modify hwrite

theorem setDeviceId_quiet (deviceId : Bytes) : Keeps Quiet (setDeviceId deviceId) := by
  refine setter_keeps _ _ ?_
  exact fun _ => ⟨rfl, rfl, rfl, rfl, fun h => ⟨h.1, h.2⟩⟩

theorem setSessionTtl_quiet (ttl : Option ℕ) : Keeps Quiet (setSessionTtl ttl) := by
  refine setter_keeps _ _ ?_
  exact fun _ => ⟨rfl, rfl, rfl, rfl, fun h => ⟨h.1, h.2⟩⟩

theorem SessionInv.received (h : SessionInv s) (r : Received c w clock envelope s result s') :
    SessionInv s' := by
  rw [r.final_eq]
  exact ((h.entered r.isEntered).takeMessageKey r.take).quiet (recordReceived_quiet _ _ _ _)

/-! ## Failing decryptions -/

theorem get?_eraseKeys (epoch count index : ℕ) (m : OrdMap Slot Bytes) (e i : ℕ) :
    (eraseKeys epoch count index m).get? (slot e i) =
      if e = epoch ∧ index ≤ i ∧ i < index + count then none else m.get? (slot e i) := by
  induction count generalizing index m with
  | zero =>
    rw [eraseKeys, if_neg]
    omega
  | succ count ih =>
    rw [eraseKeys, ih, OrdMap.get?_erase]
    simp only [slot_inj]
    by_cases hnew : e = epoch ∧ i = index
    · rw [if_pos hnew, if_pos (by omega : e = epoch ∧ index ≤ i ∧ i < index + (count + 1))]
      exact ite_self _
    · rw [if_neg hnew]
      by_cases hin : e = epoch ∧ index + 1 ≤ i ∧ i < index + 1 + count
      · rw [if_pos hin, if_pos (by omega)]
      · rw [if_neg hin, if_neg (by omega)]

/-- Taking a walk back leaves what the walk made room for. -/
theorem walkedBack_eq (h : SessionInv s) (hrc : s.state.recvChain = some rc) (count : ℕ) :
    walkedBack c rc count s = roomFor count s := by
  refine ext_get? fun k => ?_
  rw [← slot_eta k, walkedBack, get?_eraseKeys, get?_insertKeys]
  split_ifs with hin
  · refine (OrdMap.get?_eq_none_iff.mpr fun hmem => ?_).symm
    have hbehind := h.behind _ _ (keys_roomFor_subset count s hmem)
    rw [recvIndex_of_recvChain hrc] at hbehind
    omega
  · rfl

theorem SessionInv.evictAgedSkippedKeys_eq (h : SessionInv s) : evictAgedSkippedKeys s = s := by
  rw [evictAgedSkippedKeys]
  refine (congrArg s.withSkipped (popWhile_of_forall fun k hk => ?_)).trans
    (withSkipped_self s)
  rw [← slot_eta k] at hk
  have := h.recent _ _ hk
  rw [decide_eq_false_iff_not]
  omega

/-- Making room evicts nothing exactly if there is room. -/
theorem SessionInv.roomFor_eq_iff (h : SessionInv s) (hcount : count ≤ maxSkippedMessageKeys) :
    roomFor count s = s.skippedMessageKeys ↔
      s.skippedMessageKeys.size + count ≤ maxSkippedMessageKeys := by
  rw [roomFor, h.evictAgedSkippedKeys_eq]
  constructor
  · intro heq
    have hsize := congrArg OrdMap.size heq
    rw [size_popTo] at hsize
    omega
  · intro hle
    exact popTo_of_size_le (by omega)

/-- The envelope makes `decrypt` walk so far that keys of other messages are evicted. -/
def GapOverflow (c : Crypto) (w : Wire) (clock : Clock) (envelope : SecureEnvelope)
    (s : SessionInner) : Prop :=
  ∃ metadata rc, AheadOfChain c w clock envelope s metadata rc ∧
    maxSkippedMessageKeys <
      s.skippedMessageKeys.size + (metadata.messageIndex - rc.messageIndex)

section

variable (h : SessionInv s) (herr : (decrypt c w clock envelope).run s = .error e s')
include h herr

/-- A failing `decrypt` changes the session exactly if its envelope overflows the cache. -/
theorem SessionInv.decrypt_error_eq_iff :
    s' = s ↔ ¬ GapOverflow c w clock envelope s := by
  constructor
  · rintro rfl ⟨metadata, rc, ha, hover⟩
    have heq := congrArg SessionInner.skippedMessageKeys (ha.decrypt_eq_error herr)
    rw [withSkipped_skippedMessageKeys,
      walkedBack_eq h (checkRecvMessageIndex_eq_ok.mp ha.chain).1] at heq
    exact absurd ((h.roomFor_eq_iff ha.gap).mp heq.symm) (not_le.mpr hover)
  · intro hno
    rcases decrypt_eq_error herr with rfl | ⟨metadata, rc, ha⟩
    · rfl
    · have hle := not_lt.mp fun hover => hno ⟨metadata, rc, ha, hover⟩
      rw [ha.decrypt_eq_error herr, walkedBack_eq h (checkRecvMessageIndex_eq_ok.mp ha.chain).1,
        (h.roomFor_eq_iff ha.gap).mpr hle, withSkipped_self]

/-- A failing `decrypt` can only lose cached keys. -/
theorem SessionInv.decrypt_error :
    ∃ m : OrdMap Slot Bytes, m.keys ⊆ s.skippedMessageKeys.keys ∧ s' = s.withSkipped m := by
  rcases decrypt_eq_error herr with rfl | ⟨metadata, rc, ha⟩
  · exact ⟨_, Finset.Subset.refl _, rfl⟩
  · refine ⟨_, ?_, ha.decrypt_eq_error herr⟩
    rw [walkedBack_eq h (checkRecvMessageIndex_eq_ok.mp ha.chain).1]
    exact keys_roomFor_subset _ s

/-- A failing `decrypt` keeps the invariant. -/
theorem SessionInv.of_decrypt_error : SessionInv s' := by
  obtain ⟨m, hsub, rfl⟩ := h.decrypt_error herr
  exact h.mono rfl le_rfl hsub ⟨h.handleSizes.1, h.handleSizes.2⟩

end

/-! ## Every reachable session satisfies the invariant -/

theorem SessionInv.of_initial (h : Initial c s) : SessionInv s := by
  obtain ⟨args, state, ss, -, h⟩ := h
  simp only [fromHandshakeState, newSession, initializeFromHandshake, except_bind_eq_ok] at h
  obtain ⟨_, -, s₁, ⟨⟨st₁, dh⟩, hdh, ⟨st₂, kyber⟩, hkyber, hs₁⟩, keys, -, h⟩ := h
  cases hs₁
  cases h
  exact ⟨fun e i hmem => absurd hmem (Finset.notMem_empty _),
    fun e i hmem => absurd hmem (Finset.notMem_empty _),
    (takeDhPrivate_eq_ok hdh).2, (takeKyberSecret_eq_ok hkyber).2⟩

theorem SessionInv.resumes (h : SessionInv s) (hr : Resumes s s') : SessionInv s' := by
  refine h.mono hr.recvRatchetEpoch ?_ (by rw [hr.skippedMessageKeys]) hr.handleSizes
  rw [recvIndex, recvIndex, hr.recvChain, Option.map_map]
  exact le_rfl

theorem SessionInv.destroy : SessionInv (destroy s) :=
  ⟨fun _ _ hmem => absurd hmem (Finset.notMem_empty _),
    fun _ _ hmem => absurd hmem (Finset.notMem_empty _),
    ⟨fun _ hb => (by cases hb), fun _ hb => (by cases hb)⟩⟩

/-- A sealed state of a session with a given property. -/
def Sealed (c : Crypto) (w : Wire) (kek : Bytes) (P : SessionInner → Prop) (blob : Bytes) : Prop :=
  ∃ s copy rnd n, P s ∧ exportCopy s = .ok copy ∧ sealCopy c w (.ok kek) rnd n copy = .ok blob

/-- What is restored resumes a session with the property. -/
theorem Sealed.resumes {P : SessionInner → Prop} {blob : Bytes} {n : ℕ} (hc : c.Correct)
    (h : Sealed c w kek P blob) (hrun : fromSealedState c w blob (.ok kek) n = .ok s') :
    ∃ s, P s ∧ Resumes s s' := by
  obtain ⟨s, copy, rnd, m, hP, hcopy, hseal⟩ := h
  exact ⟨s, hP, resumes_of_export hc hcopy hseal hrun⟩

/-- The invariant of a host. -/
structure HostInv (c : Crypto) (w : Wire) (kek : Bytes) (h : Host) : Prop where
  session : SessionInv h.session
  exports : ∀ e ∈ h.exports, Sealed c w kek SessionInv e.blob

variable {h : Host}

theorem HostInv.exec (hc : c.Correct) (hinv : HostInv c w kek h) {a : Action}
    (ha : ∀ e n, a = .restore e n → e ∈ h.exports) : HostInv c w kek (h.exec c w kek a) := by
  have hs := hinv.session
  cases a with
  | encrypt clock rnd m =>
    exact ⟨hs.quiet (encrypt_quiet c w clock rnd m hs.handleSizes), hinv.exports⟩
  | decrypt clock envelope =>
    rw [Host.exec]
    split
    · next result s' hrun =>
      obtain ⟨r⟩ := decrypt_eq_ok.mp hrun
      exact ⟨hs.received r, hinv.exports⟩
    · next e s' hrun => exact ⟨hs.of_decrypt_error hrun, hinv.exports⟩
  | exportSealed rnd n =>
    have hquiet := exportSealedState_quiet c w (.ok kek) rnd n
    rw [Host.exec]
    split
    · next blob s' hrun =>
      obtain ⟨copy, hcopy, hseal, -⟩ := exportSealedState_eq_ok hrun
      refine ⟨hs.quiet (hquiet.of_ok hrun), fun e he => ?_⟩
      rcases List.mem_cons.mp he with rfl | he
      · exact ⟨h.session, copy, rnd, n, hs, hcopy, hseal⟩
      · exact hinv.exports e he
    · next e s' hrun => exact ⟨hs.quiet (hquiet.of_error hrun), hinv.exports⟩
  | restore e n =>
    rw [Host.exec]
    split
    · next s' hrun =>
      obtain ⟨s, hsealed, hr⟩ := (hinv.exports e (ha e n rfl)).resumes hc hrun
      exact ⟨hsealed.resumes hr, hinv.exports⟩
    · exact hinv
  | setDeviceId id => exact ⟨hs.quiet (setDeviceId_quiet id _), hinv.exports⟩
  | setSessionTtl ttl => exact ⟨hs.quiet (setSessionTtl_quiet ttl _), hinv.exports⟩
  | destroy => exact ⟨SessionInv.destroy, hinv.exports⟩
  | evictSeenNonces keep =>
    exact ⟨hs.quiet ⟨rfl, rfl, rfl, rfl, fun h => ⟨h.1, h.2⟩⟩, hinv.exports⟩

/-- The invariant holds along every run that only restores the host's own sealed states. -/
theorem Reachable.hostInv (hc : c.Correct)
    (hpolicy : ∀ h e n, policy h (.restore e n) → e ∈ h.exports)
    (hreach : Reachable c w kek policy h) : HostInv c w kek h := by
  induction hreach with
  | start hinit => exact ⟨SessionInv.of_initial hinit, fun e he => (by cases he)⟩
  | step _ ha ih =>
    refine ih.exec hc fun e n heq => ?_
    subst heq
    exact hpolicy _ e n ha

/-- On every reachable session, a failing `decrypt` leaves everything as it was exactly if its
envelope does not overflow the cache of skipped keys. -/
theorem decrypt_error_unchanged_iff {c : Crypto} {w : Wire} {kek : Bytes} {h : Host}
    (hc : c.Correct) (hreach : Reachable c w kek ownExports h) (clock : Clock)
    (envelope : SecureEnvelope) {e : ProtocolError} {s' : SessionInner}
    (herr : (decrypt c w clock envelope).run h.session = .error e s') :
    s' = h.session ↔ ¬ GapOverflow c w clock envelope h.session :=
  (hreach.hostInv hc fun _ _ _ ha ↦ ha).session.decrypt_error_eq_iff herr

theorem sampleSession_initial (initiator : Bool) :
    Initial .transparent (sampleSession initiator) := by
  have h := sampleSession?_eq initiator
  rw [sampleSession?, except_bind_eq_ok] at h
  obtain ⟨state, hbuild, h⟩ := h
  exact ⟨sampleArgs initiator, state, sampleKyberSecret, hbuild, h⟩

theorem decrypt_error_unchanged_iff_sample :
    ∃ e s', (decrypt Crypto.transparent Wire.plain fixedClock emptyEnvelope).run
        (sampleSession false) = .error e s' ∧
      (s' = sampleSession false ↔
        ¬ GapOverflow Crypto.transparent Wire.plain fixedClock emptyEnvelope
          (sampleSession false)) := by
  obtain ⟨e, s', h⟩ : ∃ e s', (decrypt .transparent Wire.plain fixedClock emptyEnvelope).run
      (sampleSession false) = .error e s' := by
    cases hrun : (decrypt .transparent Wire.plain fixedClock emptyEnvelope).run
        (sampleSession false) with
    | error e s' => exact ⟨e, s', rfl⟩
    | ok result s' =>
      -- the header nonce of an empty envelope has the wrong size
      obtain ⟨r⟩ := decrypt_eq_ok.mp hrun
      have hcheck := r.check
      simp only [checkDecrypt, except_bind_eq_ok, require_eq_ok] at hcheck
      obtain ⟨_, -, _, -, _, -, _, -, _, -, _, -, _, hlen, -⟩ := hcheck
      cases hlen
  have hreach : Reachable .transparent Wire.plain [] ownExports
      (Host.ofSession (sampleSession false)) := .start (sampleSession_initial false)
  exact ⟨e, s', h, decrypt_error_unchanged_iff Crypto.transparent_correct hreach fixedClock
    emptyEnvelope h⟩

/-- A clock that fails when the envelope is stamped. -/
def brokenClock : Clock := { fixedClock with sent := .error (.invalidState "clock went backwards") }

theorem size_insertKeys {chainKey : Bytes} (h : ∀ i, index ≤ i → m.get? (slot epoch i) = none) :
    (insertKeys c epoch count index chainKey m).size = m.size + count := by
  induction count generalizing index chainKey m with
  | zero => rfl
  | succ count ih =>
    rw [insertKeys, ih, size_insert_of_get?_eq_none _ (h index le_rfl)]
    · omega
    · intro i hi
      rw [OrdMap.get?_insert, if_neg, h i (Nat.le_of_succ_le hi)]
      rw [slot_inj]
      omega

/-- The metadata of an envelope does not cover its payload. -/
theorem AheadOfChain.dropPayload {metadata : EnvelopeMetadata}
    (h : AheadOfChain c w clock envelope s metadata rc) :
    AheadOfChain c w clock { envelope with encryptedPayload := [] } s metadata rc :=
  ⟨h.check, h.noHeader, h.epoch, h.previousChainLength, h.opens, h.chain, h.ahead, h.gap⟩

/-- An envelope without a payload never decrypts. -/
theorem decrypt_dropPayload (c : Crypto) (w : Wire) (clock : Clock) (envelope : SecureEnvelope)
    (s : SessionInner) :
    ∃ e s', (decrypt c w clock { envelope with encryptedPayload := [] }).run s = .error e s' := by
  cases hrun : (decrypt c w clock { envelope with encryptedPayload := [] }).run s with
  | error e s' => exact ⟨e, s', rfl⟩
  | ok result s' =>
    obtain ⟨r⟩ := decrypt_eq_ok.mp hrun
    have hopen := r.payload
    simp only [openPayload, except_bind_eq_ok] at hopen
    obtain ⟨_, -, _, hdec, -⟩ := hopen
    exact absurd (AesGcm.decrypt_eq_ok.mp hdec).2.1 (by decide)

/-- The chain of a session that receives. -/
def sampleRecvChain (s : SessionInner) : ChainState := s.state.recvChain.getD ⟨0, [], []⟩

/-- Nonces of the example's messages. -/
def sampleNonce (index : ℕ) : Bytes := payloadNonce (List.replicate noncePrefixBytes 4) 0 index

/-- The peer's message at an index, for a receiver. -/
def sampleSeal (s : SessionInner) (index : ℕ) : Except ProtocolError SecureEnvelope :=
  sealMessage .transparent .plain fixedClock (List.replicate aesGcmNonceBytes 0) sampleMessage index
    (messageKeyOf .transparent (chainKeyAt .transparent (sampleRecvChain s).chainKey
      (index - (sampleRecvChain s).messageIndex))) (sampleNonce index) emptyEnvelope
    (sampleSession true)

/-- What a receiver needs to open it. -/
def CanOpen (s : SessionInner) (index : ℕ) : Prop :=
  let peer := (sampleSession true).state
  let rc := sampleRecvChain s
  (sampleSeal s index).toOption.isSome ∧ peer.sessionId = s.state.sessionId ∧
    peer.identityBindingHash = s.state.identityBindingHash ∧
    peer.sendMetadataKey = s.state.metadataKey ∧ s.state.recvRatchetEpoch = 0 ∧
    index < s.state.maxMessagesPerChain ∧ index ≤ maxMessageIndex ∧
    extractNonceIndex (sampleNonce index) = .ok index ∧ sampleNonce index ∉ s.seenPayloadNonces ∧
    s.state.recvChain.isSome ∧ rc.chainKey.length = chainKeyBytes ∧ rc.messageIndex ≤ index ∧
    index - rc.messageIndex ≤ maxSkippedMessageKeys

instance (s : SessionInner) (index : ℕ) : Decidable (CanOpen s index) :=
  inferInstanceAs (Decidable (_ ∧ _))

theorem CanOpen.exists_honestAhead (h : CanOpen s index) :
    ∃ envelope, HonestAhead .transparent .plain s (sampleRecvChain s)
      (metadataFor sampleMessage index (sampleNonce index)) sampleMessage.payload envelope := by
  obtain ⟨hseal, hid, hbind, hkey, hepoch, hlt, hle, hnonce, hfresh, hsome, hlen, hahead, hgap⟩ := h
  have hchain : s.state.recvChain = some (sampleRecvChain s) := by
    rw [sampleRecvChain, ← Option.get_eq_getD (h := hsome), Option.some_get]
  obtain ⟨hsealed, hplain⟩ := sealMessage_eq_ok (eq_ok_get_toOption hseal) rfl
  rw [hkey] at hsealed
  exact ⟨_, ⟨_, ⟨hid, hbind⟩, hsealed⟩, hplain.hasRatchetHeader, hplain.ratchetEpoch.trans hepoch.symm,
    hplain.previousChainLength, ⟨hlt, hle, hnonce⟩, hfresh, hchain, hlen, hahead, hgap⟩

theorem canReceive_of_decide (h : s.state.version ≠ 0 ∧
    checkInnerExpired s.state fixedClock.expiry = .ok false ∧
    s.state.totalMessagesReceived + 1 ≤ u64Max ∧ s.state.metadataKey.length = metadataKeyBytes ∧
    s.state.maxMessagesPerChain ≠ 0 ∧
    s.state.maxMessagesPerChain ≤ AuraProtocol.maxMessagesPerChain) :
    CanReceive fixedClock s 2000 :=
  ⟨h.1, h.2.1, rfl, h.2.2.1, h.2.2.2.1, h.2.2.2.2⟩

theorem Reachable.decrypts (hreach : Reachable c w kek policy h)
    (hpolicy : policy h (.decrypt clock envelope))
    (hrun : (decrypt c w clock envelope).run h.session = .ok result s') :
    Reachable c w kek policy
      { h with
        session := s'
        delivered := (envelope.ratchetEpoch, result.metadata.messageIndex) :: h.delivered } := by
  have hstep := hreach.step hpolicy
  rwa [Host.exec, hrun] at hstep

/-- The cache of an empty session after a message far ahead. -/
theorem size_afterAhead (c : Crypto) (index : ℕ) (nonce : Bytes) (activityUnix : ℕ)
    (hskipped : s.skippedMessageKeys = ∅) (hindex : rc.messageIndex = 0) :
    (afterAhead c rc index nonce activityUnix s).skippedMessageKeys.size = index := by
  have hroom : roomFor (index - rc.messageIndex) s = ∅ := by
    rw [roomFor, evictAgedSkippedKeys, hskipped]
    rfl
  rw [afterAhead, (recordReceived_quiet _ _ _ _).skippedMessageKeys]
  refine (size_insertKeys fun i _ => ?_).trans ?_
  · rw [hroom, OrdMap.get?_empty]
  · rw [hroom, hindex, size_empty]
    omega

/-- The receiver after a message a thousand messages ahead. -/
def sampleFull : SessionInner :=
  afterAhead .transparent (sampleRecvChain (sampleSession false)) 1000 (sampleNonce 1000) 2000
    (sampleSession false)

/-- Two messages of a peer make a session lose a cached key although the second one fails: the
first is a thousand messages ahead and fills the cache, the second one skips one more message and
has no payload. -/
theorem exists_decrypt_error_evicts :
    ∃ h envelope e s', Reachable Crypto.transparent Wire.plain [] ownExports h ∧
      (decrypt Crypto.transparent Wire.plain fixedClock envelope).run h.session = .error e s' ∧
      s' ≠ h.session ∧ s'.skippedMessageKeys.size < h.session.skippedMessageKeys.size := by
  have hc := Crypto.transparent_correct
  -- the first message fills the cache
  obtain ⟨env, hhonest⟩ := (by decide +kernel : CanOpen (sampleSession false) 1000).exists_honestAhead
  have hreach₀ : Reachable .transparent .plain [] ownExports (Host.ofSession (sampleSession false)) :=
    .start (sampleSession_initial false)
  have hreach := hreach₀.decrypts trivial
    (hhonest.decrypt hc (canReceive_of_decide (by decide +kernel)))
  have hinv : SessionInv sampleFull := (hreach.hostInv hc fun _ _ _ ha ↦ ha).session
  have hsize : sampleFull.skippedMessageKeys.size = 1000 :=
    size_afterAhead .transparent 1000 _ 2000 (by decide +kernel) (by decide +kernel)
  have hindex : (sampleRecvChain sampleFull).messageIndex = 1001 := by decide +kernel
  -- the second one needs room for one more
  obtain ⟨env₁, hhonest₁⟩ := (by decide +kernel : CanOpen sampleFull 1002).exists_honestAhead
  have hahead := (hhonest₁.aheadOfChain hc (canReceive_of_decide (by decide +kernel))).dropPayload
  obtain ⟨e, s', herr⟩ := decrypt_dropPayload .transparent .plain fixedClock env₁ sampleFull
  refine ⟨_, _, e, s', hreach, herr, fun heq ↦ (hinv.decrypt_error_eq_iff herr).mp heq
    ⟨_, _, hahead, ?_⟩, ?_⟩
  · rw [hsize, hindex]
    exact (by decide : maxSkippedMessageKeys < 1000 + (1002 - 1001))
  · change _ < sampleFull.skippedMessageKeys.size
    rw [hahead.decrypt_eq_error herr, withSkipped_skippedMessageKeys,
      walkedBack_eq hinv hhonest₁.chain, hsize, hindex]
    refine lt_of_le_of_lt (size_popTo _ _).le ?_
    exact (Nat.min_le_left _ _).trans_lt (by decide : maxSkippedMessageKeys - (1002 - 1001) < 1000)

end AuraProtocol.Session
