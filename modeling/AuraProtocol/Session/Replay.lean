import AuraProtocol.Session.Lifecycle

/-!
# No message is delivered twice

A message key is *available* to a session if the session can still derive or look
it up: its epoch is to come, it is ahead on the receiving chain, or it is in the
cache.  No call makes a key available that was not and a delivery uses its key up
(`Received.takes`).  The replay cache of payload nonces plays no part, so
it may forget nonces at any time.

Restoring a sealed state goes back to the keys of the time of its export.  If no
message was delivered in between, that is no step back for the delivered ones.
-/

namespace AuraProtocol.Session

open Fallible

variable {s : SessionInner} {c : Crypto} {w : Wire} {index : ℕ} {kek : Bytes} {h : Host}
  {envelope : SecureEnvelope} {snapshot : Option RatchetSnapshot} {delivered : List (ℕ × ℕ)}
  {s' : SessionInner} {e i : ℕ}

/-- The session can still obtain the key of a message. -/
def Available (s : SessionInner) (epoch index : ℕ) : Prop :=
  s.state.recvRatchetEpoch < epoch ∨
    (epoch = s.state.recvRatchetEpoch ∧ recvIndex s ≤ index) ∨
    slot epoch index ∈ s.skippedMessageKeys.keys

/-! ## Steps that make no key available -/

theorem Quiet.available_iff (h : Quiet s s') (e i : ℕ) :
    Available s' e i ↔ Available s e i := by
  rw [Available, h.recvRatchetEpoch, h.recvIndex, h.skippedMessageKeys, Available]

theorem Resumes.available_iff (h : Resumes s s') (e i : ℕ) :
    Available s' e i ↔ Available s e i := by
  have hindex : recvIndex s' = recvIndex s := by
    rw [recvIndex, recvIndex, h.recvChain, Option.map_map]
    rfl
  rw [Available, h.recvRatchetEpoch, hindex, h.skippedMessageKeys, Available]

theorem available_of_withSkipped {m : OrdMap Slot Bytes} (hsub : m.keys ⊆ s.skippedMessageKeys.keys)
    (h : Available (s.withSkipped m) e i) : Available s e i :=
  h.imp_right (Or.imp_right fun hmem => hsub hmem)

theorem available_of_destroy (h : Available (destroy s) e i) : Available s e i := by
  have hindex : recvIndex (destroy s) = recvIndex s := by
    rw [recvIndex, recvIndex]
    exact congrArg (Option.getD · 0) (Option.map_map _ _ _)
  rcases h with h | ⟨he, hi⟩ | h
  · exact .inl h
  · exact .inr (.inl ⟨he, hindex ▸ hi⟩)
  · exact absurd h (Finset.notMem_empty _)

/-- A walk moves keys from the chain to the cache. -/
theorem available_of_walk {rc : ChainState} {count : ℕ} {chainKey : Bytes}
    (hrc : s.state.recvChain = some rc) (hle : rc.messageIndex + count ≤ index)
    (h : Available ((cacheAhead c rc count s).setRecvChain chainKey index) e i) :
    Available s e i := by
  rcases h with hlt | ⟨he, hi⟩ | hmem
  · exact .inl hlt
  · refine .inr (.inl ⟨he, ?_⟩)
    rw [recvIndex, SessionInner.setRecvChain_recvChain, cacheAhead, SessionInner.withSkipped_state,
      hrc] at hi
    rw [recvIndex_of_recvChain hrc]
    exact (Nat.le_of_add_right_le hle).trans hi
  · rcases mem_keys_insertKeys.mp hmem with ⟨rfl, hi, -⟩ | hmem
    · exact .inr (.inl ⟨rfl, by rwa [recvIndex_of_recvChain hrc]⟩)
    · exact .inr (.inr (keys_roomFor_subset count s hmem))

theorem available_of_enterRecvEpoch {out : RatchetOutput} {header : RatchetHeader}
    (h : Available (enterRecvEpoch (s.state.recvRatchetEpoch + 1) header
      (installRecvKeys out (retireMetadataKey s))) e i) : Available s e i := by
  rcases h with hlt | ⟨rfl, -⟩ | hmem
  · exact .inl ((Nat.lt_succ_self _).trans hlt)
  · exact .inl (Nat.lt_succ_self _)
  · exact .inr (.inr (keys_enterRecvEpoch_subset _ header _ hmem))

theorem available_of_skipPreviousChain {pcl : Option ℕ} {u : Unit}
    (hrun : (skipPreviousChain c pcl).run s = .ok u s') (h : Available s' e i) :
    Available s e i := by
  cases pcl with
  | none =>
    cases hrun
    exact h
  | some pcl =>
    obtain ⟨rc, hrc, ⟨-, rfl⟩ | ⟨hlt, -, rfl⟩⟩ := skipOldChainKeys_eq_ok.mp hrun
    · exact h
    · exact available_of_walk (checkSkipOldChain_eq_ok.mp hrc).1 (by omega) h

theorem Entered.available_of {isOldEpoch : Bool}
    (he : Entered c envelope s isOldEpoch snapshot s') (h : Available s' e i) :
    Available s e i := by
  cases he with
  | ratchet _ _ happly =>
    obtain ⟨header, s₁, out, -, hskip, -, -, rfl⟩ := applyRecvRatchet_eq_ok.mp happly
    exact available_of_skipPreviousChain hskip (available_of_enterRecvEpoch h)
  | current => exact h
  | old => exact h

/-! ## A delivery uses its key up -/

/-- A ratchet envelope is of the epoch it leads to. -/
theorem checkRatchetEnvelope_epoch (h : checkRatchetEnvelope envelope s = .ok ()) :
    envelope.ratchetEpoch = s.state.recvRatchetEpoch + 1 := by
  simp only [checkRatchetEnvelope, except_bind_eq_ok, orError_eq_ok, checkedAdd_eq_some,
    require_eq_ok] at h
  obtain ⟨_, -, _, ⟨-, rfl⟩, _, heq, -⟩ := h
  exact heq

theorem skipPreviousChain_epoch {pcl : Option ℕ} {u : Unit}
    (hrun : (skipPreviousChain c pcl).run s = .ok u s') :
    s'.state.recvRatchetEpoch = s.state.recvRatchetEpoch := by
  cases pcl with
  | none =>
    cases hrun
    rfl
  | some pcl =>
    obtain ⟨rc, -, ⟨-, rfl⟩ | ⟨-, -, rfl⟩⟩ := skipOldChainKeys_eq_ok.mp hrun
    · rfl
    · rfl

/-- Once its epoch is entered, an envelope is of the current epoch or marked as older. -/
theorem Entered.epoch {isOldEpoch : Bool}
    (he : Entered c envelope s isOldEpoch snapshot s') :
    (isOldEpoch = false ∧ envelope.ratchetEpoch = s'.state.recvRatchetEpoch) ∨
      (isOldEpoch = true ∧ envelope.ratchetEpoch < s'.state.recvRatchetEpoch) := by
  cases he with
  | ratchet _ hcheck happly =>
    obtain ⟨header, s₁, out, -, hskip, -, -, rfl⟩ := applyRecvRatchet_eq_ok.mp happly
    refine .inl ⟨rfl, (checkRatchetEnvelope_epoch hcheck).trans ?_⟩
    rw [← skipPreviousChain_epoch hskip]
    rfl
  | current _ hepoch => exact .inl ⟨rfl, hepoch⟩
  | old _ hlt => exact .inr ⟨rfl, hlt⟩

/-- How taking a key out of the state changes what is available: the key goes, no key comes. -/
structure Takes (s s' : SessionInner) (epoch index : ℕ) : Prop where
  available : Available s epoch index
  not_available : ¬ Available s' epoch index
  available_of : ∀ e i, Available s' e i → Available s e i

theorem takes_of_erase {epoch : ℕ} {key : Bytes}
    (hkey : s.skippedMessageKeys.get? (slot epoch index) = some key)
    (hbehind : epoch < s.state.recvRatchetEpoch ∨
      epoch = s.state.recvRatchetEpoch ∧ index < recvIndex s) :
    Takes s (s.withSkipped (s.skippedMessageKeys.erase (slot epoch index))) epoch index where
  available := .inr (.inr (OrdMap.mem_keys_of_get? hkey))
  not_available := by
    rintro (hlt | ⟨heq, hle⟩ | hmem)
    · have hlt : s.state.recvRatchetEpoch < epoch := hlt
      omega
    · have hle : recvIndex s ≤ index := hle
      have heq : epoch = s.state.recvRatchetEpoch := heq
      omega
    · rw [SessionInner.withSkipped_skippedMessageKeys, OrdMap.keys_erase] at hmem
      exact Finset.notMem_erase _ _ hmem
  available_of e i := by
    refine available_of_withSkipped ?_
    rw [OrdMap.keys_erase]
    exact Finset.erase_subset _ _

theorem takes_of_walk {rc : ChainState} {chainKey : Bytes} (hinv : SessionInv s)
    (hrc : s.state.recvChain = some rc) (hle : rc.messageIndex ≤ index) :
    Takes s ((cacheAhead c rc (index - rc.messageIndex) s).setRecvChain chainKey (index + 1))
      s.state.recvRatchetEpoch index where
  available := .inr (.inl ⟨rfl, by rwa [recvIndex_of_recvChain hrc]⟩)
  not_available := by
    rintro (h | ⟨-, h⟩ | h)
    · exact lt_irrefl _ h
    · rw [recvIndex, SessionInner.setRecvChain_recvChain, cacheAhead,
        SessionInner.withSkipped_state, hrc] at h
      exact absurd h (Nat.not_succ_le_self index)
    · rcases mem_keys_insertKeys.mp h with ⟨-, -, hi⟩ | h
      · omega
      · have hbehind := hinv.behind _ _ (keys_roomFor_subset _ s h)
        rw [recvIndex_of_recvChain hrc] at hbehind
        omega
  available_of e i := available_of_walk hrc (by omega)

/-- A delivery uses its key up and makes no other available. -/
theorem Received.takes {clock : Clock} {result : DecryptResult}
    (hinv : SessionInv s) (r : Received c w clock envelope s result s') :
    Takes s s' envelope.ratchetEpoch result.metadata.messageIndex := by
  have hentered := hinv.entered r.isEntered
  have htake : Takes r.entered r.keyed envelope.ratchetEpoch result.metadata.messageIndex := by
    have hrun := r.take
    rcases r.isEntered.epoch with ⟨hold, hepoch⟩ | ⟨hold, hepoch⟩ <;> rw [hold] at hrun
    · rw [hepoch]
      obtain ⟨rc, hrc, ⟨hlt, hkey, heq⟩ | ⟨hle, -, -, heq⟩⟩ := getRecvMessageKey_eq_ok.mp hrun
      · rw [heq]
        refine takes_of_erase hkey (.inr ⟨rfl, ?_⟩)
        rwa [recvIndex_of_recvChain (checkRecvMessageIndex_eq_ok.mp hrc).1]
      · rw [heq]
        exact takes_of_walk hentered (checkRecvMessageIndex_eq_ok.mp hrc).1 hle
    · obtain ⟨hkey, heq⟩ := trySkippedKey_eq_ok.mp hrun
      rw [heq]
      exact takes_of_erase hkey (.inl hepoch)
  have hfinal := (recordReceived_quiet result.metadata.payloadNonce r.activityUnix
    r.totalReceived r.keyed).available_iff
  rw [r.final_eq]
  exact ⟨r.isEntered.available_of htake.available, fun h => htake.not_available ((hfinal _ _).mp h),
    fun e i h => r.isEntered.available_of (htake.available_of e i ((hfinal e i).mp h))⟩

/-! ## Runs -/

/-- Only the latest sealed state is restored. -/
def latestExport (h : Host) : Action → Prop
  | .restore sealedState _ => h.exports.head? = some sealedState
  | _ => True

/-- Only the latest sealed state is restored, and only if no message was delivered since it was
exported. -/
def currentExport (h : Host) : Action → Prop
  | .restore sealedState _ =>
    h.exports.head? = some sealedState ∧ sealedState.after = h.delivered.length
  | _ => True

/-- No delivered message is available. -/
def UsedUp (delivered : List (ℕ × ℕ)) (s : SessionInner) : Prop :=
  ∀ x ∈ delivered, ¬ Available s x.1 x.2

theorem UsedUp.mono (h : UsedUp delivered s)
    (hle : ∀ e i, Available s' e i → Available s e i) : UsedUp delivered s' :=
  fun x hx hav => h x hx (hle x.1 x.2 hav)

theorem UsedUp.cons {epoch : ℕ} (h : UsedUp delivered s)
    (ht : Takes s s' epoch index) : UsedUp ((epoch, index) :: delivered) s' := by
  intro x hx
  rcases List.mem_cons.mp hx with rfl | hx
  · exact ht.not_available
  · exact h.mono ht.available_of x hx

/-- The invariant of runs without a step back. -/
structure ReplayInv (c : Crypto) (w : Wire) (kek : Bytes) (h : Host) : Prop where
  host : HostInv c w kek h
  nodup : h.delivered.Nodup
  usedUp : UsedUp h.delivered h.session
  after_le : ∀ e ∈ h.exports, e.after ≤ h.delivered.length
  /-- A sealed state exported after the last delivery is of a session with the same messages
  used up. -/
  exports : ∀ e ∈ h.exports, e.after = h.delivered.length →
    Sealed c w kek (UsedUp h.delivered) e.blob

section

variable (hinv : ReplayInv c w kek h)
include hinv

/-- A step that delivers and exports nothing and makes no key available. -/
theorem ReplayInv.of_session (hs : SessionInv s)
    (hle : ∀ e i, Available s e i → Available h.session e i) :
    ReplayInv c w kek { h with session := s } :=
  ⟨⟨hs, hinv.host.exports⟩, hinv.nodup, hinv.usedUp.mono hle, hinv.after_le, hinv.exports⟩

theorem ReplayInv.quiet (hq : Quiet h.session s) :
    ReplayInv c w kek { h with session := s } :=
  hinv.of_session (hinv.host.session.quiet hq) fun e i => (hq.available_iff e i).mp

theorem ReplayInv.exported {blob : Bytes}
    (hs : Sealed c w kek SessionInv blob) (hu : Sealed c w kek (UsedUp h.delivered) blob) :
    ReplayInv c w kek
      { h with exports := { blob := blob, after := h.delivered.length } :: h.exports } where
  host := ⟨hinv.host.session, List.forall_mem_cons.mpr ⟨hs, hinv.host.exports⟩⟩
  nodup := hinv.nodup
  usedUp := hinv.usedUp
  after_le := List.forall_mem_cons.mpr ⟨le_rfl, hinv.after_le⟩
  exports := List.forall_mem_cons.mpr ⟨fun _ => hu, hinv.exports⟩

theorem ReplayInv.delivers {epoch : ℕ} (hs : SessionInv s)
    (ht : Takes h.session s epoch index) :
    ReplayInv c w kek
      { h with session := s, delivered := (epoch, index) :: h.delivered } where
  host := ⟨hs, hinv.host.exports⟩
  nodup := List.nodup_cons.mpr ⟨fun hmem => hinv.usedUp _ hmem ht.available, hinv.nodup⟩
  usedUp := hinv.usedUp.cons ht
  after_le e he := (hinv.after_le e he).trans (Nat.le_succ _)
  exports e he hafter := absurd (hinv.after_le e he) (not_le.mpr (hafter ▸ Nat.lt_succ_self _))

theorem ReplayInv.exec (hc : c.Correct) {a : Action}
    (ha : currentExport h a) : ReplayInv c w kek (h.exec c w kek a) := by
  have hs := hinv.host.session
  cases a with
  | encrypt clock rnd m => exact hinv.quiet (encrypt_quiet c w clock rnd m hs.handleSizes)
  | decrypt clock envelope =>
    rw [Host.exec]
    split
    · next result s' hrun =>
      obtain ⟨r⟩ := decrypt_eq_ok.mp hrun
      exact hinv.delivers (hs.received r) (r.takes hs)
    · next err s' hrun =>
      refine hinv.of_session (hs.of_decrypt_error hrun) ?_
      obtain ⟨m, hsub, rfl⟩ := hs.decrypt_error hrun
      exact fun e i => available_of_withSkipped hsub
  | exportSealed rnd n =>
    have hquiet := exportSealedState_quiet c w (.ok kek) rnd n
    rw [Host.exec]
    split
    · next blob s' hrun =>
      obtain ⟨copy, hcopy, hseal, -⟩ := exportSealedState_eq_ok hrun
      exact (hinv.quiet (hquiet.of_ok hrun)).exported ⟨_, copy, rnd, n, hs, hcopy, hseal⟩
        ⟨_, copy, rnd, n, hinv.usedUp, hcopy, hseal⟩
    · next err s' hrun => exact hinv.quiet (hquiet.of_error hrun)
  | restore e n =>
    rw [Host.exec]
    split
    · next s' hrun =>
      have hmem := List.mem_of_head? ha.1
      obtain ⟨s, hsealed, hr⟩ := (hinv.host.exports e hmem).resumes hc hrun
      obtain ⟨s₁, hused, hr₁⟩ := (hinv.exports e hmem ha.2).resumes hc hrun
      exact ⟨⟨hsealed.resumes hr, hinv.host.exports⟩, hinv.nodup,
        hused.mono fun e i => (hr₁.available_iff e i).mp, hinv.after_le, hinv.exports⟩
    · exact hinv
  | setDeviceId id => exact hinv.quiet (setDeviceId_quiet id _)
  | setSessionTtl ttl => exact hinv.quiet (setSessionTtl_quiet ttl _)
  | destroy => exact hinv.of_session SessionInv.destroy fun e i => available_of_destroy
  | evictSeenNonces keep =>
    exact hinv.quiet ⟨rfl, rfl, rfl, rfl, fun h => ⟨h.1, h.2⟩⟩

end

/-- In every run that takes no delivery back, no two deliveries have the same epoch and index. -/
theorem delivered_nodup {c : Crypto} {w : Wire} {kek : Bytes} {h : Host} (hc : c.Correct)
    (hreach : Reachable c w kek currentExport h) : h.delivered.Nodup := by
  have hinv : ReplayInv c w kek h := by
    induction hreach with
    | start hinit =>
      exact ⟨⟨SessionInv.of_initial hinit, fun e he ↦ (by cases he)⟩, List.nodup_nil,
        fun x hx ↦ (by cases hx), fun e he ↦ (by cases he), fun e he ↦ (by cases he)⟩
    | step _ ha ih => exact ih.exec hc ha
  exact hinv.nodup

/-- The key of a host for its sealed states. -/
def sampleKek : Bytes := List.replicate aesKeyBytes 44

/-- A host that exports its session and then receives the peer's first message. -/
def sampleHost : Host :=
  ((Host.ofSession (sampleSession false)).exec Crypto.transparent Wire.plain sampleKek
      (.exportSealed sampleSealEntropy 1)).exec Crypto.transparent Wire.plain sampleKek
    (.decrypt fixedClock (sampleEncrypt (sampleSession true) 51).1)

theorem sampleHost_reachable {policy : Host → Action → Prop}
    (hexport : ∀ h rnd n, policy h (.exportSealed rnd n))
    (hdecrypt : ∀ h clock envelope, policy h (.decrypt clock envelope)) :
    Reachable .transparent Wire.plain sampleKek policy sampleHost :=
  .step (.step (.start (sampleSession_initial false)) (hexport _ _ _)) (hdecrypt _ _ _)

theorem delivered_nodup_sampleHost :
    sampleHost.delivered = [(0, 0)] ∧ sampleHost.delivered.Nodup :=
  ⟨by decide +kernel, delivered_nodup Crypto.transparent_correct
    (sampleHost_reachable (fun _ _ _ ↦ trivial) fun _ _ _ ↦ trivial)⟩

/-! ### Restoring an outdated sealed state -/

/-- The sealed state that the host exported before the message. -/
def outdatedExport : Export := (sampleHost.exports.head?).getD { blob := [], after := 0 }

/-- The host restores that state and receives the message once more. -/
def rewoundHost : Host :=
  (sampleHost.exec Crypto.transparent Wire.plain sampleKek (.restore outdatedExport 1)).exec
    Crypto.transparent Wire.plain sampleKek
      (.decrypt fixedClock (sampleEncrypt (sampleSession true) 51).1)

theorem rewoundHost_delivered : rewoundHost.delivered = [(0, 0), (0, 0)] := by decide +kernel

theorem outdatedExport_latest : sampleHost.exports.head? = some outdatedExport := by
  have hsome : sampleHost.exports.head?.isSome = true := by decide +kernel
  obtain ⟨e, he⟩ := Option.isSome_iff_exists.mp hsome
  rw [outdatedExport, he]
  rfl

/-- Restoring the latest sealed state takes back the deliveries made since its export, and their
messages are delivered once more. -/
theorem exists_delivered_twice :
    ∃ h, Reachable Crypto.transparent Wire.plain sampleKek latestExport h ∧
      ¬ h.delivered.Nodup := by
  refine ⟨rewoundHost, ?_, ?_⟩
  · exact .step (.step (sampleHost_reachable (fun _ _ _ ↦ trivial) fun _ _ _ ↦ trivial)
      outdatedExport_latest) trivial
  · rw [rewoundHost_delivered]
    decide

end AuraProtocol.Session
