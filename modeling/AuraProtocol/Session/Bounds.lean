import AuraProtocol.Lib.SeenWindow
import AuraProtocol.Session.Lifecycle
import Mathlib.Order.Interval.Finset.Nat

/-!
# How much a session keeps

A session keeps message keys it has skipped, metadata keys of epochs that ended and the
payload nonces it has seen, each with an eviction rule of its own.  `Kept` says of a live
session what these rules come to: the caches are bounded, and the metadata keys are exactly
those of the epochs before the receiving one, as far back as their age limit reaches.  So a
skipped key of an older epoch always has the metadata key that its message needs.

A destroyed session keeps nothing (`Wiped`).  `Reachable.hostKept` carries both along every
run, through failing calls and through sealed states.
-/

namespace AuraProtocol.Session

open Fallible OrdMap

variable {c : Crypto} {w : Wire} {s s' : SessionInner} {envelope : SecureEnvelope} {n : ℕ}
  {kek : Except ProtocolError Bytes} {result : DecryptResult} {m : OrdMap Slot Bytes}

/-! ## The nonces seen -/

/-- The payload nonces that a session remembers. -/
def seenWindow (s : SessionInner) : SeenWindow Bytes :=
  ⟨s.seenPayloadNonces, s.seenPayloadNonceOrder⟩

theorem pruneSeenNonces_eq_evict (set : Finset Bytes) (order : List Bytes) :
    (⟨(pruneSeenNonces set order).1, (pruneSeenNonces set order).2⟩ : SeenWindow Bytes) =
      SeenWindow.evict maxSeenNonces order set := by
  induction order generalizing set with
  | nil => rfl
  | cons oldest order ih =>
    rw [pruneSeenNonces, SeenWindow.evict]
    split_ifs
    · exact ih _
    · rfl

theorem seenWindow_rememberSeenPayloadNonce (nonce : Bytes) (s : SessionInner) :
    seenWindow (rememberSeenPayloadNonce nonce s) =
      (seenWindow s).remember maxSeenNonces nonce := by
  rw [rememberSeenPayloadNonce, SeenWindow.remember]
  by_cases hseen : nonce ∈ s.seenPayloadNonces
  · rw [if_pos hseen, if_pos (show nonce ∈ (seenWindow s).seen from hseen)]
  · rw [if_neg hseen, if_neg (show nonce ∉ (seenWindow s).seen from hseen)]
    exact pruneSeenNonces_eq_evict _ _

/-- The restored cache is built by remembering the stored nonces one by one. -/
theorem rebuildSeenPayloadNonces_ok {l : List Bytes} {set set' : Finset Bytes}
    {order order' : List Bytes}
    (h : rebuildSeenPayloadNonces l set order = .ok (set', order'))
    (hok : SeenWindow.Ok maxSeenNonces ⟨set, order⟩) :
    SeenWindow.Ok maxSeenNonces ⟨set', order'⟩ := by
  induction l generalizing set order with
  | nil =>
    cases h
    exact hok
  | cons nonce l ih =>
    rw [rebuildSeenPayloadNonces, except_seq_eq_ok] at h
    have hremember := hok.remember nonce
    rw [SeenWindow.remember] at hremember
    by_cases hseen : nonce ∈ set
    · rw [if_pos hseen] at h
      exact ih h.2 hok
    · rw [if_neg hseen] at h
      rw [if_neg hseen, ← pruneSeenNonces_eq_evict] at hremember
      exact ih h.2 hremember

/-- A restored session has a window that fits, whatever was stored. -/
theorem seenWindow_of_fromStateInternal {state : ProtocolState}
    (h : fromStateInternal c w state = .ok s) : (seenWindow s).Ok maxSeenNonces := by
  simp only [fromStateInternal, except_bind_eq_ok] at h
  obtain ⟨_, -, _, -, ⟨sc, rc⟩, -, _, -, _, -, skipped, -, _, -, cached, -, ⟨seen, order⟩, hseen,
    ⟨st₁, dhHandle⟩, -, ⟨st₂, kyberHandle⟩, -, h⟩ := h
  cases h
  exact rebuildSeenPayloadNonces_ok hseen SeenWindow.ok_empty

theorem seenWindow_of_fromSealedState {blob : Bytes} (h : fromSealedState c w blob kek n = .ok s) :
    (seenWindow s).Ok maxSeenNonces := by
  simp only [fromSealedState, except_bind_eq_ok] at h
  obtain ⟨_, -, _, -, _, -, _, -, _, -, _, -, _, -, _, -, h⟩ := h
  exact seenWindow_of_fromStateInternal h

/-! ## The metadata keys of ended epochs -/

/-- The cached metadata keys are those of the epochs before the receiving one, as far back as a key
may get. -/
def MetadataCached (s : SessionInner) : Prop :=
  ∀ e, e ∈ s.cachedMetadataKeys.keys ↔
    e < s.state.recvRatchetEpoch ∧ s.state.recvRatchetEpoch ≤ e + (maxMetadataKeyEpochAge + 1)

/-- Keys from a short span are few. -/
theorem size_le_of_span {m : OrdMap ℕ Bytes} {a : ℕ} (h : ∀ k ∈ m.keys, a ≤ k ∧ k < a + n) :
    m.size ≤ n := by
  have hsub : m.keys ⊆ Finset.Ico a (a + n) := fun k hk => Finset.mem_Ico.mpr (h k hk)
  have hcard := Finset.card_le_card hsub
  rwa [card_keys, Nat.card_Ico, Nat.add_sub_cancel_left] at hcard

theorem metadataKeyEpochAge_lt : maxMetadataKeyEpochAge < maxCachedMetadataKeys := by decide

theorem MetadataCached.size_le (h : MetadataCached s) :
    s.cachedMetadataKeys.size ≤ maxCachedMetadataKeys := by
  refine (size_le_of_span (a := s.state.recvRatchetEpoch - (maxMetadataKeyEpochAge + 1))
    fun e he => ?_).trans metadataKeyEpochAge_lt
  have := (h e).mp he
  omega

/-- The metadata keys with that of the epoch that ends, without those that are too old. -/
def retiredKeys (s : SessionInner) : OrdMap ℕ Bytes :=
  (s.cachedMetadataKeys.insert s.state.recvRatchetEpoch s.state.metadataKey).popWhile
    fun epoch => decide (epoch < s.state.recvRatchetEpoch - maxMetadataKeyEpochAge)

theorem mem_keys_retiredKeys (h : MetadataCached s) (e : ℕ) :
    e ∈ (retiredKeys s).keys ↔ e ≤ s.state.recvRatchetEpoch ∧
      s.state.recvRatchetEpoch ≤ e + maxMetadataKeyEpochAge := by
  have hlower : ∀ k k' : ℕ, k ≤ k' →
      decide (k' < s.state.recvRatchetEpoch - maxMetadataKeyEpochAge) = true →
        decide (k < s.state.recvRatchetEpoch - maxMetadataKeyEpochAge) = true := by
    intro k k' hle hk'
    rw [decide_eq_true_iff] at hk' ⊢
    omega
  rw [mem_keys, retiredKeys, OrdMap.get?_popWhile hlower]
  split_ifs with hold
  · rw [decide_eq_true_iff] at hold
    refine iff_of_false (by simp) ?_
    omega
  · rw [decide_eq_true_iff] at hold
    rw [← mem_keys, keys_insert, Finset.mem_insert, h e]
    omega

/-- The key of the epoch that ends joins those young enough to stay; there is always room. -/
theorem cachedMetadataKeys_retireMetadataKey (h : MetadataCached s) :
    (retireMetadataKey s).cachedMetadataKeys = retiredKeys s := by
  refine popTo_of_size_le ((size_le_of_span
    (a := s.state.recvRatchetEpoch - maxMetadataKeyEpochAge) fun e he => ?_).trans
      metadataKeyEpochAge_lt)
  have := (mem_keys_retiredKeys h e).mp he
  omega

theorem MetadataCached.enterRecvEpoch (h : MetadataCached s) (out : RatchetOutput)
    (header : RatchetHeader) :
    MetadataCached (enterRecvEpoch (s.state.recvRatchetEpoch + 1) header
      (installRecvKeys out (retireMetadataKey s))) := by
  intro e
  have hkeys := mem_keys_retiredKeys h e
  rw [← cachedMetadataKeys_retireMetadataKey h] at hkeys
  refine hkeys.trans ?_
  change _ ↔ e < s.state.recvRatchetEpoch + 1 ∧
    s.state.recvRatchetEpoch + 1 ≤ e + (maxMetadataKeyEpochAge + 1)
  omega

/-! ## What a live session keeps -/

/-- What a session that was not destroyed keeps. -/
structure Kept (s : SessionInner) : Prop where
  skipped_size : s.skippedMessageKeys.size ≤ maxSkippedMessageKeys
  metadata : MetadataCached s
  seen : (seenWindow s).Ok maxSeenNonces

/-- A destroyed session keeps nothing. -/
structure Wiped (s : SessionInner) : Prop where
  version : s.state.version = 0
  skipped : s.skippedMessageKeys = ∅
  metadata : s.cachedMetadataKeys = ∅
  seen : seenWindow s = .empty

/-- Neither the version nor the nonces seen change. -/
def Calm (s s' : SessionInner) : Prop :=
  s'.state.version = s.state.version ∧ seenWindow s' = seenWindow s

theorem Calm.refl (s : SessionInner) : Calm s s := ⟨rfl, rfl⟩

theorem Calm.trans {s₁ s₂ s₃ : SessionInner} (h : Calm s₁ s₂) (h' : Calm s₂ s₃) : Calm s₁ s₃ :=
  ⟨h'.1.trans h.1, h'.2.trans h.2⟩

instance : IsPreorder SessionInner Calm where
  refl := .refl
  trans _ _ _ := .trans

theorem Kept.of_quiet (h : Kept s) (hquiet : Quiet s s') (hcalm : Calm s s') : Kept s' where
  skipped_size := by rw [hquiet.skippedMessageKeys]; exact h.skipped_size
  metadata := by
    intro e
    rw [hquiet.cachedMetadataKeys, hquiet.recvRatchetEpoch]
    exact h.metadata e
  seen := by rw [hcalm.2]; exact h.seen

theorem Wiped.of_quiet (h : Wiped s) (hquiet : Quiet s s') (hcalm : Calm s s') : Wiped s' :=
  ⟨hcalm.1.trans h.version, hquiet.skippedMessageKeys.trans h.skipped,
    hquiet.cachedMetadataKeys.trans h.metadata, hcalm.2.trans h.seen⟩

/-! ### Receiving -/

theorem size_insertKeys_le (c : Crypto) (epoch count index : ℕ) (chainKey : Bytes)
    (m : OrdMap Slot Bytes) : (insertKeys c epoch count index chainKey m).size ≤ m.size + count := by
  induction count generalizing index chainKey m with
  | zero => exact le_rfl
  | succ count ih =>
    have hinsert := m.size_insert_le (slot epoch index) (messageKeyOf c chainKey)
    have hrest := ih (index + 1) (nextChainKeyOf c chainKey)
      (m.insert (slot epoch index) (messageKeyOf c chainKey))
    rw [insertKeys]
    omega

section

variable (h : Kept s)
include h

/-- A walk makes room before it caches. -/
theorem Kept.walk (rc : ChainState) {count : ℕ}
    (hcount : count ≤ maxSkippedMessageKeys) (chainKey : Bytes) (index : ℕ) :
    Kept ((cacheAhead c rc count s).setRecvChain chainKey index) where
  skipped_size := by
    have hinsert := size_insertKeys_le c s.state.recvRatchetEpoch count rc.messageIndex rc.chainKey
      (roomFor count s)
    have hroom : (roomFor count s).size ≤ maxSkippedMessageKeys - count := by
      rw [roomFor, size_popTo]
      exact min_le_left _ _
    change (insertKeys c s.state.recvRatchetEpoch count rc.messageIndex rc.chainKey
      (roomFor count s)).size ≤ _
    omega
  metadata := h.metadata
  seen := h.seen

theorem Kept.eraseKey (k : Slot) :
    Kept (s.withSkipped (s.skippedMessageKeys.erase k)) where
  skipped_size := (size_erase_le _ _).trans h.skipped_size
  metadata := h.metadata
  seen := h.seen

theorem Kept.enterRecvEpoch (out : RatchetOutput) (header : RatchetHeader) :
    Kept (enterRecvEpoch (s.state.recvRatchetEpoch + 1) header
      (installRecvKeys out (retireMetadataKey s))) where
  skipped_size := by
    rw [skippedMessageKeys_enterRecvEpoch, size_popTo]
    exact min_le_left _ _
  metadata := h.metadata.enterRecvEpoch out header
  seen := h.seen

theorem Kept.skipPreviousChain {pcl : Option ℕ} {u : Unit}
    (hrun : (skipPreviousChain c pcl).run s = .ok u s') : Kept s' := by
  cases pcl with
  | none =>
    cases hrun
    exact h
  | some pcl =>
    obtain ⟨rc, -, ⟨-, rfl⟩ | ⟨-, hgap, rfl⟩⟩ := skipOldChainKeys_eq_ok.mp hrun
    · exact h
    · exact h.walk rc hgap _ _

theorem Kept.entered {isOldEpoch : Bool} {snapshot : Option RatchetSnapshot}
    (he : Entered c envelope s isOldEpoch snapshot s') : Kept s' := by
  cases he with
  | ratchet _ _ happly =>
    obtain ⟨header, s₁, out, -, hskip, -, -, rfl⟩ := applyRecvRatchet_eq_ok.mp happly
    exact (h.skipPreviousChain hskip).enterRecvEpoch out header
  | current => exact h
  | old => exact h

theorem Kept.takeMessageKey {isOldEpoch : Bool} {i : ℕ} {key : Bytes}
    (hrun : (takeMessageKey c envelope isOldEpoch i).run s = .ok key s') : Kept s' := by
  cases isOldEpoch with
  | true =>
    obtain ⟨-, rfl⟩ := trySkippedKey_eq_ok.mp hrun
    exact h.eraseKey _
  | false =>
    obtain ⟨rc, -, ⟨-, -, rfl⟩ | ⟨-, hgap, -, rfl⟩⟩ := getRecvMessageKey_eq_ok.mp hrun
    · exact h.eraseKey _
    · exact h.walk rc hgap _ _

theorem Kept.recordReceived (nonce : Bytes) (activityUnix totalReceived : ℕ) :
    Kept (recordReceived nonce activityUnix totalReceived s) := by
  have hquiet := recordReceived_quiet nonce activityUnix totalReceived s
  refine ⟨?_, fun e => ?_, ?_⟩
  · rw [hquiet.skippedMessageKeys]
    exact h.skipped_size
  · rw [hquiet.cachedMetadataKeys, hquiet.recvRatchetEpoch]
    exact h.metadata e
  · have hwindow : seenWindow (Session.recordReceived nonce activityUnix totalReceived s) =
        (seenWindow s).remember maxSeenNonces nonce := seenWindow_rememberSeenPayloadNonce nonce s
    rw [hwindow]
    exact h.seen.remember nonce

theorem Kept.received {clock : Clock} (r : Received c w clock envelope s result s') :
    Kept s' := by
  rw [r.final_eq]
  exact ((h.entered r.isEntered).takeMessageKey r.take).recordReceived _ _ _

end

theorem version_ne_zero_of_received {clock : Clock} (r : Received c w clock envelope s result s') :
    s.state.version ≠ 0 := by
  have hcheck := r.check
  rw [checkDecrypt, except_seq_eq_ok, require_eq_ok] at hcheck
  exact hcheck.1

/-- A failing `decrypt` only loses skipped keys. -/
theorem Kept.of_withSkipped (h : Kept s) (hm : m.keys ⊆ s.skippedMessageKeys.keys) :
    Kept (s.withSkipped m) where
  skipped_size := by
    have hcard := Finset.card_le_card hm
    rw [card_keys, card_keys] at hcard
    exact hcard.trans h.skipped_size
  metadata := h.metadata
  seen := h.seen

theorem Wiped.of_withSkipped (h : Wiped s) (hm : m.keys ⊆ s.skippedMessageKeys.keys) :
    Wiped (s.withSkipped m) where
  version := h.version
  skipped := by
    refine ext_get? fun k => ?_
    rw [OrdMap.get?_empty]
    refine OrdMap.get?_eq_none_iff.mpr fun hk => ?_
    rw [h.skipped] at hm
    exact Finset.notMem_empty k (hm hk)
  metadata := h.metadata
  seen := h.seen

/-! ### Sending and sealing -/

theorem Prepared.calm {rnd : Entropy} (h : Prepared c rnd s envelope s') : Calm s s' := by
  cases h with
  | stay => exact Calm.refl s
  | rotate => exact ⟨rfl, rfl⟩

theorem encrypt_calm (c : Crypto) (w : Wire) (clock : Clock) (rnd : Entropy) (m : Message)
    (hs : HandleSizes s) : Calm s (endState ((encrypt c w clock rnd m).run s)) := by
  cases hrun : (encrypt c w clock rnd m).run s with
  | ok envelope s' =>
    obtain ⟨hsent⟩ := encrypt_eq_ok hrun
    rw [hsent.final_eq]
    exact hsent.isPrepared.calm.trans ⟨rfl, rfl⟩
  | error e s' =>
    obtain rfl := encrypt_eq_error hs hrun
    exact Calm.refl s'

theorem exportSealedState_calm (c : Crypto) (w : Wire) (kek : Except ProtocolError Bytes)
    (rnd : SealEntropy) (n : ℕ) : Keeps Calm (exportSealedState c w kek rnd n) := by
  intro s
  cases hrun : (exportSealedState c w kek rnd n).run s with
  | ok blob s' =>
    obtain ⟨_, -, -, rfl⟩ := exportSealedState_eq_ok hrun
    exact ⟨rfl, rfl⟩
  | error e s' =>
    obtain rfl := exportSealedState_eq_error hrun
    exact Calm.refl s'

theorem version_ne_zero_of_export {rnd : SealEntropy} {blob : Bytes}
    (h : (exportSealedState c w kek rnd n).run s = .ok blob s') : s.state.version ≠ 0 := by
  rw [exportSealedState, reads_bind_eq_ok] at h
  obtain ⟨copy, hcopy, -⟩ := h
  rw [checkExport, except_seq_eq_ok, except_seq_eq_ok, require_eq_ok, require_eq_ok] at hcopy
  exact hcopy.2.1

theorem setDeviceId_calm (deviceId : Bytes) : Keeps Calm (setDeviceId deviceId) :=
  setter_keeps _ _ fun _ => ⟨rfl, rfl⟩

theorem setSessionTtl_calm (ttl : Option ℕ) : Keeps Calm (setSessionTtl ttl) :=
  setter_keeps _ _ fun _ => ⟨rfl, rfl⟩

theorem Kept.of_initial (h : Initial c s) : Kept s := by
  obtain ⟨args, state, ss, -, h⟩ := h
  simp only [fromHandshakeState, newSession, initializeFromHandshake, except_bind_eq_ok] at h
  obtain ⟨_, -, s₁, ⟨⟨st₁, dh⟩, -, ⟨st₂, kyber⟩, -, hs₁⟩, keys, -, h⟩ := h
  cases hs₁
  cases h
  refine ⟨Nat.zero_le _, fun e => iff_of_false (Finset.notMem_empty _) ?_, SeenWindow.ok_empty⟩
  rintro ⟨hlt, -⟩
  exact Nat.not_lt_zero e hlt

theorem Kept.resumes (h : Kept s) (hr : Resumes s s') (hseen : (seenWindow s').Ok maxSeenNonces) :
    Kept s' where
  skipped_size := by rw [hr.skippedMessageKeys]; exact h.skipped_size
  metadata := by
    intro e
    rw [hr.cachedMetadataKeys, hr.recvRatchetEpoch]
    exact h.metadata e
  seen := hseen

/-! ## Every run -/

/-- What a host keeps: its session, unless it is destroyed, and its sealed states are within the
bounds. -/
structure HostKept (c : Crypto) (w : Wire) (kek : Bytes) (h : Host) : Prop where
  session : Kept h.session ∨ Wiped h.session
  exports : ∀ e ∈ h.exports, Sealed c w kek Kept e.blob

theorem HostKept.exec {kek : Bytes} {h : Host} (hc : c.Correct) (hinv : HostInv c w kek h)
    (hkept : HostKept c w kek h) {a : Action} (ha : ownExports h a) :
    HostKept c w kek (h.exec c w kek a) := by
  have hquiet : ∀ {s'}, Quiet h.session s' → Calm h.session s' → Kept s' ∨ Wiped s' :=
    fun hq hcalm => hkept.session.imp (·.of_quiet hq hcalm) (·.of_quiet hq hcalm)
  have hsizes := hinv.session.handleSizes
  cases a with
  | encrypt clock rnd m =>
    exact ⟨hquiet (encrypt_quiet c w clock rnd m hsizes) (encrypt_calm c w clock rnd m hsizes),
      hkept.exports⟩
  | decrypt clock envelope =>
    rw [Host.exec]
    split
    · next result s' hrun =>
      obtain ⟨r⟩ := decrypt_eq_ok.mp hrun
      refine ⟨.inl ?_, hkept.exports⟩
      rcases hkept.session with hs | hs
      · exact hs.received r
      · exact absurd hs.version (version_ne_zero_of_received r)
    · next e s' hrun =>
      obtain ⟨m, hm, rfl⟩ := hinv.session.decrypt_error hrun
      exact ⟨hkept.session.imp (·.of_withSkipped hm) (·.of_withSkipped hm), hkept.exports⟩
  | exportSealed rnd n =>
    have hq := exportSealedState_quiet c w (.ok kek) rnd n
    have hcalm := exportSealedState_calm c w (.ok kek) rnd n
    rw [Host.exec]
    split
    · next blob s' hrun =>
      refine ⟨hquiet (hq.of_ok hrun) (hcalm.of_ok hrun), fun e he => ?_⟩
      rcases List.mem_cons.mp he with rfl | he
      · obtain ⟨copy, hcopy, hseal, -⟩ := exportSealedState_eq_ok hrun
        rcases hkept.session with hs | hs
        · exact ⟨h.session, copy, rnd, n, hs, hcopy, hseal⟩
        · exact absurd hs.version (version_ne_zero_of_export hrun)
      · exact hkept.exports e he
    · next e s' hrun =>
      exact ⟨hquiet (hq.of_error hrun) (hcalm.of_error hrun), hkept.exports⟩
  | restore e n =>
    rw [Host.exec]
    split
    · next s' hrun =>
      obtain ⟨s, hs, hr⟩ := (hkept.exports e ha).resumes hc hrun
      exact ⟨.inl (hs.resumes hr (seenWindow_of_fromSealedState hrun)), hkept.exports⟩
    · exact hkept
  | setDeviceId id =>
    exact ⟨hquiet (setDeviceId_quiet id _) (setDeviceId_calm id _), hkept.exports⟩
  | setSessionTtl ttl =>
    exact ⟨hquiet (setSessionTtl_quiet ttl _) (setSessionTtl_calm ttl _), hkept.exports⟩
  | destroy => exact ⟨.inr ⟨rfl, rfl, rfl, rfl⟩, hkept.exports⟩
  | evictSeenNonces keep => exact absurd ha id

theorem Reachable.hostKept {kek : Bytes} {h : Host} (hc : c.Correct)
    (hreach : Reachable c w kek ownExports h) : HostKept c w kek h := by
  induction hreach with
  | start hinit => exact ⟨.inl (Kept.of_initial hinit), fun e he => (by cases he)⟩
  | step hreach ha ih => exact ih.exec hc (hreach.hostInv hc fun _ _ _ ha => ha) ha

/-- In every state that a session reaches, the caches are within their limits, a skipped key is of
one of the last epochs and behind the receiving position, an older one has its metadata key, and
the set of nonces seen is the set of the queue. -/
theorem caches_within_limits {c : Crypto} {w : Wire} {kek : Bytes} {h : Host} (hc : c.Correct)
    (hreach : Reachable c w kek ownExports h) :
    h.session.skippedMessageKeys.size ≤ maxSkippedMessageKeys ∧
    h.session.cachedMetadataKeys.size ≤ maxCachedMetadataKeys ∧
    (∀ e i, slot e i ∈ h.session.skippedMessageKeys.keys →
      e ≤ h.session.state.recvRatchetEpoch ∧
      h.session.state.recvRatchetEpoch ≤ e + maxSkippedKeyEpochAge ∧
      (e = h.session.state.recvRatchetEpoch → i < recvIndex h.session) ∧
      (e < h.session.state.recvRatchetEpoch → e ∈ h.session.cachedMetadataKeys.keys)) ∧
    h.session.seenPayloadNonces = h.session.seenPayloadNonceOrder.toFinset ∧
    h.session.seenPayloadNonceOrder.Nodup ∧
    h.session.seenPayloadNonceOrder.length ≤ maxSeenNonces := by
  have hinv := (hreach.hostInv hc fun _ _ _ ha ↦ ha).session
  have hseen : ∀ {window : SeenWindow Bytes}, window.Ok maxSeenNonces →
      window.seen = window.order.toFinset ∧ window.order.Nodup ∧
        window.order.length ≤ maxSeenNonces := by
    intro window hok
    refine ⟨?_, hok.nodup, hok.length_le⟩
    ext nonce
    rw [List.mem_toFinset, hok.mem_seen]
  rcases (hreach.hostKept hc).session with hs | hs
  · refine ⟨hs.skipped_size, hs.metadata.size_le, fun e i hmem ↦ ?_, hseen hs.seen⟩
    have hbehind := hinv.behind e i hmem
    have hrecent := hinv.recent e i hmem
    have hage : maxSkippedKeyEpochAge = maxMetadataKeyEpochAge := rfl
    refine ⟨by omega, hrecent, fun he ↦ ?_, fun hlt ↦ (hs.metadata e).mpr ⟨hlt, by omega⟩⟩
    rcases hbehind with hlt | ⟨-, hi⟩
    · exact absurd he hlt.ne
    · exact hi
  · refine ⟨by rw [hs.skipped]; exact Nat.zero_le _, by rw [hs.metadata]; exact Nat.zero_le _,
      fun e i hmem ↦ ?_, ?_⟩
    · rw [hs.skipped] at hmem
      exact absurd hmem (Finset.notMem_empty _)
    · exact hseen (hs.seen ▸ SeenWindow.ok_empty)

/-- The host of an example session that has sent a message and was sealed. -/
def sampleSealed : Host :=
  ((Host.ofSession (sampleSession true)).exec Crypto.transparent Wire.plain (List.replicate 32 9)
      (.encrypt fixedClock (sampleEntropy 1) sampleMessage)).exec Crypto.transparent Wire.plain
    (List.replicate 32 9) (.exportSealed sampleSealEntropy 1)

theorem caches_within_limits_sample :
    sampleSealed.exports.length = 1 ∧
      sampleSealed.session.seenPayloadNonces =
        sampleSealed.session.seenPayloadNonceOrder.toFinset := by
  have hreach : Reachable .transparent Wire.plain (List.replicate 32 9) ownExports
      sampleSealed := by
    refine .step (.step (.start (sampleSession_initial true)) ?_) ?_
    · exact trivial
    · exact trivial
  exact ⟨by decide +kernel, (caches_within_limits Crypto.transparent_correct hreach).2.2.2.1⟩

end AuraProtocol.Session
