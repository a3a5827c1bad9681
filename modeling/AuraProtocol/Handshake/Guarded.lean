import AuraProtocol.Handshake.Once

/-!
# What a failed handshake leaves behind

Every step of `HandshakeResponder::process` before the commit gives the
reservation back when it fails.  The commit itself comes in two halves: the
identity remembers the fingerprint, and then the external guard is asked.  When
the guard refuses, the identity forgets the fingerprint again; but remembering
it may have evicted the oldest entry of a full window, and forgetting does not
bring that back.  An init message that was rejected as a replay before the call
is then accepted after it.
-/

namespace AuraProtocol.Handshake

open Fallible Proto List

variable {c : Crypto} {w : Wire} {now : Except ProtocolError ℕ} {noncePrefix : Bytes}
  {b : PreKeyBundle} {initMessageBytes : Bytes} {max : UInt32} {guard : Option GuardReplies}
  {k k' : IdentityKeys c} {init : HandshakeInit} {r : HandshakeResponder} {e : ProtocolError}
  {size : ℕ}

/-- All checks pass and the guard reserves the fingerprint, but then it refuses to commit it. -/
def CommitFails (w : Wire) (now : Except ProtocolError ℕ) (noncePrefix : Bytes) (b : PreKeyBundle)
    (initMessageBytes : Bytes) (max : UInt32) (guard : Option GuardReplies) (k : IdentityKeys c) :
    Prop :=
  ∃ g commitErr, guard = some g ∧ g.reserve = .ok true ∧ g.commit = .error commitErr ∧
    ∃ init r, Accepts w now noncePrefix b initMessageBytes max k init r

/-- The identity after a refused commit. -/
def refusedState (k : IdentityKeys c) (fingerprint : Bytes) (opkId : Option UInt32) :
    IdentityKeys c :=
  (acceptedState k fingerprint opkId).forgetting fingerprint

theorem processWithReplayGuard_of_refused {g : GuardReplies} {commitErr : ProtocolError}
    (hreserve : g.reserve = .ok true) (hcommit : g.commit = .error commitErr)
    (h : Accepts w now noncePrefix b initMessageBytes max k init r) :
    ∃ e, (processWithReplayGuard c w now noncePrefix b initMessageBytes max (some g)).run k =
      .error e (refusedState k (buildHandshakeInitFingerprint c w init)
        init.oneTimePreKeyId) := by
  have hguard : GuardReserves (some g) := by
    intro g' hg'
    rwa [← Option.some.inj hg']
  rw [processWithReplayGuard_of_accepts hguard h]
  obtain ⟨e, he⟩ := commit_of_refused (length_buildHandshakeInitFingerprint c w init) hcommit
  exact ⟨e, by rw [bind_of_error he, remembering_reserving h.unseen, refusedState]⟩

/-- A failing call either changes nothing or has failed at the guard's commit. -/
theorem processWithReplayGuard_eq_error
    (h : (processWithReplayGuard c w now noncePrefix b initMessageBytes max guard).run k =
      .error e k') :
    k' = k ∨ CommitFails w now noncePrefix b initMessageBytes max guard k ∧
      ∃ init r, Accepts w now noncePrefix b initMessageBytes max k init r ∧
        k' = refusedState k (buildHandshakeInitFingerprint c w init) init.oneTimePreKeyId := by
  obtain ⟨hguard, init, r, hacc⟩ | ⟨e', he⟩ :=
    processWithReplayGuard_cases c w now noncePrefix b initMessageBytes max guard k
  · cases guard with
    | none =>
      rw [processWithReplayGuard_of_commits hguard (fun _ hg => absurd hg (by simp)) hacc] at h
      cases h
    | some g =>
      have hreserve := hguard g rfl
      cases hcommit : g.commit with
      | ok u =>
        rw [processWithReplayGuard_of_commits hguard
          (fun g' hg' => Option.some.inj hg' ▸ hcommit) hacc] at h
        cases h
      | error commitErr =>
        obtain ⟨e', he⟩ := processWithReplayGuard_of_refused hreserve hcommit hacc
        rw [he] at h
        cases h
        exact .inr ⟨⟨g, commitErr, rfl, hreserve, hcommit, init, r, hacc⟩, init, r, hacc, rfl⟩
  · rw [he] at h
    cases h
    exact .inl rfl

section RefusedState

variable {fingerprint : Bytes} {opkId : Option UInt32}

theorem inflight_refusedState (h : k.Unseen fingerprint) :
    (refusedState k fingerprint opkId).inflightHandshakeInitHashes =
      k.inflightHandshakeInitHashes := by
  cases opkId <;> exact Finset.erase_eq_of_notMem h.2

theorem recent_refusedState :
    (refusedState k fingerprint opkId).recentHandshakeInits =
      (k.recentHandshakeInits.remember maxSeenHandshakeInits fingerprint).forget fingerprint := rfl

/-- A refused commit leaves the window alone just when it had room for the fingerprint. -/
theorem recent_refusedState_eq_iff (hok : k.recentHandshakeInits.Ok maxSeenHandshakeInits)
    (h : k.Unseen fingerprint) :
    (refusedState k fingerprint opkId).recentHandshakeInits = k.recentHandshakeInits ↔
      k.recentHandshakeInits.order.length ≠ maxSeenHandshakeInits := by
  rw [recent_refusedState]
  constructor
  · intro heq hfull
    have htail := SeenWindow.order_forget_remember_of_full hok h.1 hfull
    rw [heq] at htail
    have hlen := congrArg List.length htail
    rw [length_tail, hfull] at hlen
    exact absurd hlen (by decide)
  · intro hne
    exact SeenWindow.forget_remember_of_lt hok h.1 (lt_of_le_of_ne hok.length_le hne)

end RefusedState

/-- What the caller expects of a call that fails: the fingerprints are as before, so that nothing
that was rejected becomes acceptable, and no one-time pre-key is lost before the commit. -/
structure KeepsFingerprints (k k' : IdentityKeys c) (commitFailed : Prop) : Prop where
  window : k'.recentHandshakeInits = k.recentHandshakeInits
  inflight : k'.inflightHandshakeInitHashes = k.inflightHandshakeInitHashes
  pool : ¬ commitFailed → k'.oneTimePreKeys = k.oneTimePreKeys
  rejected : ∀ fingerprint, ¬ k.Unseen fingerprint → ¬ k'.Unseen fingerprint

theorem keepsFingerprints_of_eq {commitFailed : Prop}
    (hwindow : k'.recentHandshakeInits = k.recentHandshakeInits)
    (hinflight : k'.inflightHandshakeInitHashes = k.inflightHandshakeInitHashes)
    (hpool : ¬ commitFailed → k'.oneTimePreKeys = k.oneTimePreKeys) :
    KeepsFingerprints k k' commitFailed where
  window := hwindow
  inflight := hinflight
  pool := hpool
  rejected fingerprint hseen := by
    rwa [IdentityKeys.Unseen, hwindow, hinflight]

/-- For every identity, bundle, init message and guard: a failing call keeps the fingerprints
unless it fails at the guard's commit with a full window. -/
theorem failed_process_keeps_iff (hok : k.recentHandshakeInits.Ok maxSeenHandshakeInits) :
    (∀ e k', (processWithReplayGuard c w now noncePrefix b initMessageBytes max guard).run k =
        .error e k' →
      KeepsFingerprints k k' (CommitFails w now noncePrefix b initMessageBytes max guard k)) ↔
    ¬ (CommitFails w now noncePrefix b initMessageBytes max guard k ∧
      k.recentHandshakeInits.order.length = maxSeenHandshakeInits) := by
  constructor
  · rintro hkeeps ⟨hfails, hfull⟩
    obtain ⟨g, commitErr, rfl, hreserve, hcommit, init, r, hacc⟩ := hfails
    obtain ⟨e, he⟩ := processWithReplayGuard_of_refused hreserve hcommit hacc
    exact (recent_refusedState_eq_iff hok hacc.unseen).mp (hkeeps e _ he).window hfull
  · intro hcond e k' h
    obtain rfl | ⟨hfails, init, r, hacc, rfl⟩ := processWithReplayGuard_eq_error h
    · exact keepsFingerprints_of_eq rfl rfl fun _ ↦ rfl
    · have hroom : k.recentHandshakeInits.order.length ≠ maxSeenHandshakeInits :=
        fun hfull ↦ hcond ⟨hfails, hfull⟩
      exact keepsFingerprints_of_eq ((recent_refusedState_eq_iff hok hacc.unseen).mpr hroom)
        (inflight_refusedState hacc.unseen) fun hnot ↦ absurd hfails hnot

/-! ## A full window -/

/-- A window of `size` fingerprints that start with a zero byte. -/
def countedWindow (size : ℕ) : SeenWindow Bytes where
  seen := ((List.range size).map fun n => 0 :: leBytes 31 n).toFinset
  order := (List.range size).map fun n => 0 :: leBytes 31 n

theorem ok_countedWindow (h : size ≤ 256 ^ 31) : (countedWindow size).Ok size where
  nodup := by
    refine List.Nodup.map_on (fun m hm n hn heq => ?_) nodup_range
    exact leBytes_injective ((mem_range.mp hm).trans_le h)
      ((mem_range.mp hn).trans_le h) (List.cons.inj heq).2
  mem_seen _ := mem_toFinset
  length_le := by rw [countedWindow, length_map, length_range]

theorem length_countedWindow (size : ℕ) : (countedWindow size).order.length = size := by
  rw [countedWindow, length_map, length_range]

theorem head?_of_mem_countedWindow {fingerprint : Bytes}
    (h : fingerprint ∈ (countedWindow size).seen) : fingerprint.head? = some 0 := by
  obtain ⟨n, -, rfl⟩ := mem_map.mp (mem_toFinset.mp h)
  rfl

theorem mem_countedWindow (h : 0 < size) : 0 :: leBytes 31 0 ∈ (countedWindow size).seen :=
  mem_toFinset.mpr (mem_map.mpr ⟨0, mem_range.mpr h, rfl⟩)

/-- The oldest of the window occurs nowhere else in it. -/
theorem notMem_tail_countedWindow (h : size ≤ 256 ^ 31) :
    0 :: leBytes 31 0 ∉ (countedWindow size).order.tail := by
  cases size with
  | zero => exact not_mem_nil
  | succ size =>
    have hnodup := (ok_countedWindow h).nodup
    rw [countedWindow, range_succ_eq_map, map_cons] at hnodup ⊢
    exact (nodup_cons.mp hnodup).1

/-- The checks of an init message do not read the window. -/
theorem Accepts.withWindow (h : Accepts w now noncePrefix b initMessageBytes max k init r)
    {window : SeenWindow Bytes} (hnew : buildHandshakeInitFingerprint c w init ∉ window.seen) :
    Accepts w now noncePrefix b initMessageBytes max { k with recentHandshakeInits := window }
      init r where
  bundle := h.bundle
  limit := h.limit
  length := h.length
  decode := h.decode
  unseen := ⟨hnew, h.unseen.2⟩
  card := h.card
  respond := h.respond

/-- A guard that reserves and then cannot commit. -/
def failingGuard : GuardReplies where
  reserve := .ok true
  commit := .error (.invalidState "guard store unavailable")
  release := .ok ()

/-- After a refused commit with a full window the oldest fingerprint is new again. -/
theorem unseen_oldest_refusedState (hmax : size = maxSeenHandshakeInits) {fingerprint : Bytes}
    (hnew : fingerprint ∉ (countedWindow size).seen) (hinflight : k.inflightHandshakeInitHashes = ∅)
    (opkId : Option UInt32) :
    (refusedState { k with recentHandshakeInits := countedWindow size } fingerprint opkId).Unseen
      (0 :: leBytes 31 0) := by
  have hsize : size ≤ 256 ^ 31 := hmax ▸ by decide
  have hok := ok_countedWindow hsize
  have hunseen : IdentityKeys.Unseen { k with recentHandshakeInits := countedWindow size }
      fingerprint := by
    refine ⟨hnew, ?_⟩
    rw [hinflight]
    exact Finset.notMem_empty _
  refine ⟨fun hmem => ?_, ?_⟩
  · rw [recent_refusedState, ← hmax, ((hok.remember fingerprint).forget fingerprint).mem_seen,
      SeenWindow.order_forget_remember_of_full hok hnew (length_countedWindow size)] at hmem
    exact notMem_tail_countedWindow hsize hmem
  · rw [inflight_refusedState hunseen, hinflight]
    exact Finset.notMem_empty _

theorem head?_sampleFingerprint :
    (buildHandshakeInitFingerprint .transparent .protobuf (sampleInit 1)).head? ≠ some 0 := by
  decide +kernel

/-- With a full window a refused commit lets the oldest replay in again. -/
theorem failed_process_evicts :
    ∃ (k k' : IdentityKeys Crypto.transparent) (e : ProtocolError) (fingerprint : Bytes),
      k.recentHandshakeInits.Ok maxSeenHandshakeInits ∧
      (processWithReplayGuard Crypto.transparent .protobuf (.ok 6) []
        (sampleIdentity 2 3 (by decide)).createPublicBundle
        (Handshake.Wire.protobuf.handshakeInit.encode (sampleInit 1)) 1000
        (some failingGuard)).run k = .error e k' ∧
      fingerprint ∈ k.recentHandshakeInits.seen ∧ k'.Unseen fingerprint := by
  obtain ⟨size, hsize⟩ : ∃ size, size = maxSeenHandshakeInits := ⟨_, rfl⟩
  have hnew : buildHandshakeInitFingerprint .transparent .protobuf (sampleInit 1) ∉
      (countedWindow size).seen :=
    fun hmem ↦ head?_sampleFingerprint (head?_of_mem_countedWindow hmem)
  obtain ⟨r, hacc⟩ := accepts_sampleInit 1
  obtain ⟨e, he⟩ := processWithReplayGuard_of_refused
    (show failingGuard.reserve = .ok true from rfl) (show failingGuard.commit = .error _ from rfl)
    (hacc.withWindow hnew)
  exact ⟨_, _, e, 0 :: leBytes 31 0, hsize ▸ ok_countedWindow (hsize ▸ by decide), he,
    mem_countedWindow (hsize ▸ by decide), unseen_oldest_refusedState hsize hnew rfl _⟩

theorem failed_process_keeps_iff_sample :
    (sampleIdentity 2 3 (by decide)).recentHandshakeInits.order.length ≠
        maxSeenHandshakeInits ∧
    ∀ e k', (processWithReplayGuard Crypto.transparent .protobuf (.ok 6) []
        (sampleIdentity 2 3 (by decide)).createPublicBundle
        (Handshake.Wire.protobuf.handshakeInit.encode (sampleInit 1)) 1000
        (some failingGuard)).run (sampleIdentity 2 3 (by decide)) = .error e k' →
      KeepsFingerprints (sampleIdentity 2 3 (by decide)) k'
        (CommitFails .protobuf (.ok 6) [] (sampleIdentity 2 3 (by decide)).createPublicBundle
          (Handshake.Wire.protobuf.handshakeInit.encode (sampleInit 1)) 1000 (some failingGuard)
          (sampleIdentity 2 3 (by decide))) :=
  ⟨by decide, (failed_process_keeps_iff SeenWindow.ok_empty).mpr fun h ↦ absurd h.2 (by decide)⟩

end AuraProtocol.Handshake
