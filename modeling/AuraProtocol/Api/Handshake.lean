import AuraProtocol.Handshake.Agreement
import AuraProtocol.Handshake.Once

/-!
# Sessions through the public API

`AuraProtocol` of `api/mod.rs`: `pre_key_bundle`, `begin_session` and
`accept_session`.  `accept_session` does not take a bundle: it builds the one that
describes the pool at the time of the call, and checks the MAC of the init message
against that.  An initiator's MAC covers the bundle it saw, so its message is
accepted only while the pool is still the one that was published, and the first
accepted init message that names a one-time pre-key changes the pool
(`allAccepted_iff`).  `accept_session_for_bundle` is the way out.
-/

namespace AuraProtocol.Api

open Fallible Proto Handshake List

variable {c : Crypto}

/-- `max_messages` of every `AuraProtocol`. -/
def maxMessages : UInt32 := UInt32.ofNat defaultMessagesPerChain

theorem validateMaxMessages : validateMaxMessagesPerChain maxMessages = .ok () :=
  validateMaxMessagesPerChain_of_le (by decide)

def new (c : Crypto) (e : IdentityKeys.CreateEntropy) (opkCount : ℕ) :
    Except ProtocolError (IdentityKeys c) :=
  IdentityKeys.create c e opkCount

def fromSeed (c : Crypto) (seed membershipId : Bytes) (opkCount : ℕ) :
    Except ProtocolError (IdentityKeys c) :=
  IdentityKeys.createFromMasterKey c seed membershipId opkCount

/-- `AuraProtocol::pre_key_bundle`; encoding into a growing buffer does not fail. -/
def preKeyBundle (w : Wire) (k : IdentityKeys c) : Bytes :=
  w.preKeyBundle.encode k.createPublicBundle

def beginSession (w : Wire) (now : Except ProtocolError ℕ) (e : StartEntropy)
    (peerBundleBytes : Bytes) : IdentityM c (HandshakeInitiator × Bytes) := do
  lift (require (peerBundleBytes.length ≤ maxHandshakeMessageSize)
    (.invalidInput "PreKeyBundle too large"))
  let peerBundle ← lift ((w.preKeyBundle.decode peerBundleBytes).mapError fun err =>
    .decode s!"Failed to decode peer PreKeyBundle: {err}")
  let initiator ← start c w now e peerBundle maxMessages
  pure (initiator, initiator.initBytes)

def acceptSessionForBundleWithReplayGuard (w : Wire) (now : Except ProtocolError ℕ)
    (noncePrefix initBytes localBundleBytes : Bytes) (guard : Option GuardReplies) :
    IdentityM c (HandshakeResponder × Bytes) := do
  lift (require (localBundleBytes.length ≤ maxHandshakeMessageSize)
    (.invalidInput "PreKeyBundle too large"))
  let localBundle ← lift ((w.preKeyBundle.decode localBundleBytes).mapError fun err =>
    .decode s!"Failed to decode local PreKeyBundle: {err}")
  let responder ← processWithReplayGuard c w now noncePrefix localBundle initBytes maxMessages guard
  pure (responder, responder.ackBytes)

def acceptSessionForBundle (w : Wire) (now : Except ProtocolError ℕ)
    (noncePrefix initBytes localBundleBytes : Bytes) :
    IdentityM c (HandshakeResponder × Bytes) :=
  acceptSessionForBundleWithReplayGuard w now noncePrefix initBytes localBundleBytes none

/-- `AuraProtocol::accept_session_with_replay_guard`: the bundle is the current one. -/
def acceptSessionWithReplayGuard (w : Wire) (now : Except ProtocolError ℕ)
    (noncePrefix initBytes : Bytes) (guard : Option GuardReplies) :
    IdentityM c (HandshakeResponder × Bytes) := do
  let k ← get
  acceptSessionForBundleWithReplayGuard w now noncePrefix initBytes (preKeyBundle w k) guard

def acceptSession (w : Wire) (now : Except ProtocolError ℕ) (noncePrefix initBytes : Bytes) :
    IdentityM c (HandshakeResponder × Bytes) :=
  acceptSessionWithReplayGuard w now noncePrefix initBytes none

section spec

variable {w : Wire} {now : Except ProtocolError ℕ} {e : StartEntropy} {b : PreKeyBundle}
  {noncePrefix initBytes : Bytes} {k k' : IdentityKeys c}

theorem beginSession_eq_ok {i : HandshakeInitiator} {bytes : Bytes} :
    (beginSession w now e (w.preKeyBundle.encode b)).run k = .ok (i, bytes) k' ↔
      (w.preKeyBundle.encode b).length ≤ maxHandshakeMessageSize ∧
        (start c w now e b maxMessages).run k = .ok i k' ∧ bytes = i.initBytes := by
  rw [beginSession, require_bind_eq_ok]
  refine and_congr_right fun _ => ?_
  rw [lift_bind_of_ok (mapError_eq_ok.mpr (w.preKeyBundle.decode_encode b)), bind_eq_ok]
  constructor
  · rintro ⟨i', k₁, hstart, h⟩
    cases h
    exact ⟨hstart, rfl⟩
  · rintro ⟨hstart, rfl⟩
    exact ⟨i, k', hstart, rfl⟩

/-- `accept_session` is `process` with the current bundle, if that is not too large. -/
theorem acceptSession_eq_ok {r : HandshakeResponder} {bytes : Bytes} :
    (acceptSession w now noncePrefix initBytes).run k = .ok (r, bytes) k' ↔
      (preKeyBundle w k).length ≤ maxHandshakeMessageSize ∧
        (process c w now noncePrefix k.createPublicBundle initBytes maxMessages).run k = .ok r k' ∧
        bytes = r.ackBytes := by
  rw [acceptSession, acceptSessionWithReplayGuard, get_bind_run,
    acceptSessionForBundleWithReplayGuard, require_bind_eq_ok]
  refine and_congr_right fun _ => ?_
  rw [preKeyBundle, lift_bind_of_ok (mapError_eq_ok.mpr (w.preKeyBundle.decode_encode _)),
    bind_eq_ok]
  constructor
  · rintro ⟨r', k₁, hprocess, h⟩
    cases h
    exact ⟨hprocess, rfl⟩
  · rintro ⟨hprocess, rfl⟩
    exact ⟨r, k', hprocess, rfl⟩

end spec

/-! ## Bundles that are too large

The pool may hold 4096 keys, but an encoded bundle of more than 16384 bytes is rejected before it
is decoded, by initiators and by the owner, and a key costs 36 bytes or more. -/

/-- The checks of `accept_session` on the owner's own bundle. -/
def PassesOwnChecks (w : Wire) (k : IdentityKeys c) : Prop :=
  (preKeyBundle w k).length ≤ maxHandshakeMessageSize ∧
    ∃ b, w.preKeyBundle.decode (preKeyBundle w k) = .ok b ∧ validateBundle c b = .ok ()

/-- An initiator that began a session on a bundle, and the circumstances in which its init
message reaches the responder. -/
structure Attempt (c : Crypto) (w : Wire) (b : PreKeyBundle) where
  before : IdentityKeys c
  after : IdentityKeys c
  entropy : StartEntropy
  beganAt : Except ProtocolError ℕ
  initiator : HandshakeInitiator
  initBytes : Bytes
  began : (beginSession w beganAt entropy (w.preKeyBundle.encode b)).run before =
    .ok (initiator, initBytes) after
  /-- The responder's clock. -/
  acceptedAt : ℕ
  acceptedAt_lt : acceptedAt < 2 ^ 63
  noncePrefix : Bytes

namespace Attempt

variable {w : Wire} {b : PreKeyBundle} (a : Attempt c w b)

/-- The init message of an attempt. -/
def init : HandshakeInit := a.initiator.initMessage

/-- The fingerprint of its init message. -/
def fingerprint : Bytes := buildHandshakeInitFingerprint c w a.init

/-- The key of its MAC. -/
def macKey : Bytes :=
  (initiatorSecrets a.entropy b a.before (ephemeralOf a.entropy a.before)).confirmInit

include a in
theorem valid : ValidBundle c b := (start_eq_ok (beginSession_eq_ok.mp a.began).2.1).1

include a in
theorem length_encode : (w.preKeyBundle.encode b).length ≤ maxHandshakeMessageSize :=
  (beginSession_eq_ok.mp a.began).1

theorem reflexion : a.before.ed25519.publicKey ≠ b.identityEd25519Public :=
  (start_eq_ok (beginSession_eq_ok.mp a.began).2.1).2.2.1

theorem started : Started w a.beganAt a.entropy b maxMessages a.before
    (ephemeralOf a.entropy a.before) a.initiator :=
  (start_eq_ok (beginSession_eq_ok.mp a.began).2.1).2.2.2.2

theorem initBytes_eq : a.initBytes = w.handshakeInit.encode a.init := by
  rw [(beginSession_eq_ok.mp a.began).2.2, a.started.initBytes, init]

theorem init_eq :
    a.init = confirmedInit w a.entropy b maxMessages a.before (ephemeralOf a.entropy a.before) :=
  a.started.initMessage_eq

/-- The one-time pre-key of an attempt is still in the pool. -/
def InPool (k : IdentityKeys c) : Prop := PicksFromPool a.entropy b k

end Attempt

/-- Feeding the init messages to `accept_session`, one after the other, succeeds each time. -/
def AllAccepted (w : Wire) {b : PreKeyBundle} : IdentityKeys c → List (Attempt c w b) → Prop
  | _, [] => True
  | k, a :: as => ∃ out k', (acceptSession w (.ok a.acceptedAt) a.noncePrefix a.initBytes).run k =
      .ok out k' ∧ AllAccepted w k' as

/-- The bundle of an identity with another pool. -/
def bundleWith (k : IdentityKeys c) (opks : List (OneTimePreKey c)) : PreKeyBundle :=
  { k.createPublicBundle with oneTimePreKeys := opks.map OneTimePreKey.toProto }

/-- The HMAC computations that check an init message against some bundles. -/
def macQueries (c : Crypto) (w : Wire) (key : Bytes) (init : HandshakeInit)
    (bs : List PreKeyBundle) : Set (Bytes × Bytes) :=
  {q | q ∈ bs.map (fun b => (transcriptLabel, transcript w b init)) ++
    bs.map fun b => (key, buildTranscriptHash c w b init)}

theorem transcript_mem_macQueries {w : Wire} {key : Bytes} {init : HandshakeInit}
    {bs : List PreKeyBundle} {b : PreKeyBundle} (h : b ∈ bs) :
    (transcriptLabel, transcript w b init) ∈ macQueries c w key init bs :=
  mem_append_left _ (mem_map.mpr ⟨b, h, rfl⟩)

theorem hash_mem_macQueries {w : Wire} {key : Bytes} {init : HandshakeInit}
    {bs : List PreKeyBundle} {b : PreKeyBundle} (h : b ∈ bs) :
    (key, buildTranscriptHash c w b init) ∈ macQueries c w key init bs :=
  mem_append_right _ (mem_map.mpr ⟨b, h, rfl⟩)

/-- The init messages of a list of attempts do not collide when they are checked against what is
left of a pool. -/
def MacsSeparate (w : Wire) {b : PreKeyBundle} (k : IdentityKeys c) (as : List (Attempt c w b)) :
    Prop :=
  ∀ a ∈ as, ∀ opks, opks.Sublist k.oneTimePreKeys →
    Set.InjOn (fun q : Bytes × Bytes => c.hmacSha256 q.1 q.2)
      (macQueries c w a.macKey a.init [b, bundleWith k opks])

section accept

variable {w : Wire} {b : PreKeyBundle} {k k' : IdentityKeys c}
  {a : Attempt c w b} {as : List (Attempt c w b)}

/-- A MAC fits the bundle it was made for only. -/
theorem bundle_eq_of_mac {key : Bytes} {b' : PreKeyBundle} {init : HandshakeInit}
    (hcoll : Set.InjOn (fun q : Bytes × Bytes => c.hmacSha256 q.1 q.2)
      (macQueries c w key init [b, b'])) (hb : ValidBundle c b) (hb' : ValidBundle c b')
    (hinit : init.Sized)
    (hmac : c.hmacSha256 key (buildTranscriptHash c w b init) =
      c.hmacSha256 key (buildTranscriptHash c w b' init)) : b' = b := by
  have hmem : b ∈ [b, b'] := mem_cons_self
  have hmem' : b' ∈ [b, b'] := mem_cons_of_mem _ (mem_singleton_self b')
  have hhash := hcoll (hash_mem_macQueries hmem) (hash_mem_macQueries hmem') hmac
  have htranscript := hcoll (transcript_mem_macQueries hmem) (transcript_mem_macQueries hmem')
    (congrArg Prod.snd hhash)
  exact (transcript_inj (hb.length_encode_lt w) (hb'.length_encode_lt w)
    (length_encode_clearMac_lt hinit w) (length_encode_clearMac_lt hinit w)
    (congrArg Prod.snd htranscript)).1.symm

/-- An honest init message that is accepted was made for the current bundle. -/
theorem createPublicBundle_of_acceptSession (hc : c.Correct) (hb : BuiltFrom k b)
    (hopk : a.InPool k)
    (hcoll : Set.InjOn (fun q : Bytes × Bytes => c.hmacSha256 q.1 q.2)
      (macQueries c w a.macKey a.init [b, k.createPublicBundle]))
    {now : Except ProtocolError ℕ} {noncePrefix : Bytes} {out : HandshakeResponder × Bytes}
    (h : (acceptSession w now noncePrefix a.initBytes).run k = .ok out k') :
    k.createPublicBundle = b ∧ k' = acceptedState k a.fingerprint a.init.oneTimePreKeyId := by
  obtain ⟨-, hprocess, -⟩ := acceptSession_eq_ok.mp h
  obtain ⟨init, hacc, rfl⟩ := process_eq_ok.mp hprocess
  obtain rfl : a.init = init := by
    have hdecode := hacc.decode
    rw [a.initBytes_eq, w.handshakeInit.decode_encode] at hdecode
    exact Except.ok.inj hdecode
  have hr := respond_eq_ok hacc.respond
  refine ⟨bundle_eq_of_mac hcoll a.valid (validateBundle_eq_ok.mp hacc.bundle)
    (validateInitMessage_sized hr.valid) ?_, rfl⟩
  -- the keys do not depend on the pool, so both MACs have the same key
  have hkey : (responderSecrets k (namedOpk k a.init) k.createPublicBundle a.init).confirmInit =
      a.macKey := by
    have hsecrets := responderSecrets_confirmedInit w maxMessages a.before
      (ephemeralOf a.entropy a.before) hc hb hopk
    rw [← a.init_eq] at hsecrets
    rw [Attempt.macKey, ← hsecrets]
    rfl
  have hmac := hr.keyConfirmationMac
  rw [hkey] at hmac
  rw [← hmac, a.init_eq]
  rfl

/-- An honest init message for the current bundle is accepted. -/
theorem acceptSession_of_current (hc : c.Correct) (hk : c.ProperKeys)
    (hcurrent : k.createPublicBundle = b) (a : Attempt c w b) (hunseen : k.Unseen a.fingerprint)
    (hcard : k.inflightHandshakeInitHashes.card < maxInflightHandshakeInits) :
    ∃ out, (acceptSession w (.ok a.acceptedAt) a.noncePrefix a.initBytes).run k =
      .ok out (acceptedState k a.fingerprint a.init.oneTimePreKeyId) := by
  subst hcurrent
  have hmax : validateMaxMessagesPerChain maxMessages = .ok () :=
    validateMaxMessagesPerChain_of_le (by decide)
  obtain ⟨r, hacc⟩ := accepts_of_started hc hk (builtFrom_createPublicBundle k)
    a.valid.oneTimePreKeys_length hmax (picksFromPool_createPublicBundle _ _) a.reflexion
    a.acceptedAt_lt a.noncePrefix a.started hunseen hcard
  refine ⟨(r, r.ackBytes), acceptSession_eq_ok.mpr ⟨a.length_encode, ?_, rfl⟩⟩
  rw [a.initBytes_eq, Attempt.init, ← a.started.initBytes]
  exact process_of_accepts hacc

/-- An accepted init message names a key that is in the pool. -/
theorem Attempt.InPool.of_accepts (h : a.InPool k)
    (hpool : k'.oneTimePreKeys ⊆ k.oneTimePreKeys) {now : Except ProtocolError ℕ}
    {noncePrefix bytes : Bytes} {b' : PreKeyBundle} {max : UInt32} {r : HandshakeResponder}
    (hacc : Accepts w now noncePrefix b' bytes max k' a.init r) : a.InPool k' := by
  intro p hp
  have hid : a.init.oneTimePreKeyId = some p.oneTimePreKeyId := by
    rw [a.init_eq]
    exact congrArg (Option.map _) hp
  obtain ⟨o, ho⟩ := (respond_eq_ok hacc.respond).opk _ hid
  have hmem := mem_of_find?_eq_some ho
  have hoid : o.id = p.oneTimePreKeyId := by simpa using List.find?_some ho
  obtain ⟨o₁, ho₁, rfl⟩ := h p hp
  have hfind := IdentityKeys.findOneTimePreKey_of_mem (hpool hmem)
  rw [hoid] at hfind
  obtain rfl : o₁ = o :=
    Option.some.inj ((IdentityKeys.findOneTimePreKey_of_mem ho₁).symm.trans hfind)
  exact ⟨o₁, hmem, rfl⟩

/-! ## What an accepted init message leaves -/

theorem builtFrom_acceptedState (hb : BuiltFrom k b) (f : Bytes) (id : Option UInt32) :
    BuiltFrom (acceptedState k f id) b := by
  cases id with
  | none => exact ⟨hb.1, hb.2, hb.3, hb.4, hb.5, hb.6, hb.7, hb.8⟩
  | some id => exact ⟨hb.1, hb.2, hb.3, hb.4, hb.5, hb.6, hb.7, hb.8⟩

theorem oneTimePreKeys_acceptedState (f : Bytes) (id : Option UInt32) :
    (acceptedState k f id).oneTimePreKeys.Sublist k.oneTimePreKeys := by
  cases id with
  | none => exact List.Sublist.refl _
  | some id => exact eraseP_sublist

theorem bundleWith_acceptedState (f : Bytes) (id : Option UInt32) (opks : List (OneTimePreKey c)) :
    bundleWith (acceptedState k f id) opks = bundleWith k opks := by
  cases id with
  | none => rfl
  | some id => rfl

theorem inflight_acceptedState (f : Bytes) (id : Option UInt32) :
    (acceptedState k f id).inflightHandshakeInitHashes = k.inflightHandshakeInitHashes := by
  cases id with
  | none => rfl
  | some id => rfl

theorem unseen_acceptedState {f f' : Bytes} (id : Option UInt32) (h : k.Unseen f') (hne : f' ≠ f) :
    (acceptedState k f id).Unseen f' := by
  refine ⟨fun hmem => ?_, ?_⟩
  · rcases SeenWindow.mem_of_mem_remember hmem with heq | hseen
    · exact hne heq
    · exact h.1 hseen
  · rw [inflight_acceptedState]
    exact h.2

theorem MacsSeparate.acceptedState
    (h : MacsSeparate w k (a :: as)) (f : Bytes) (id : Option UInt32) :
    MacsSeparate w (Handshake.acceptedState k f id) as := by
  intro a' ha' opks hopks
  rw [bundleWith_acceptedState]
  exact h a' (mem_cons_of_mem _ ha') opks (hopks.trans (oneTimePreKeys_acceptedState f id))

theorem MacsSeparate.current
    (h : MacsSeparate w k (a :: as)) :
    Set.InjOn (fun q : Bytes × Bytes => c.hmacSha256 q.1 q.2)
      (macQueries c w a.macKey a.init [b, k.createPublicBundle]) :=
  h a mem_cons_self k.oneTimePreKeys (List.Sublist.refl _)

/-- A bundle without one-time pre-keys leaves no choice. -/
theorem pickOpk_of_nil {index : UInt32} (h : b.oneTimePreKeys = []) : pickOpk index b = none := by
  rw [pickOpk, h]
  rfl

/-- Otherwise one is picked. -/
theorem exists_pickOpk (index : UInt32) (h : b.oneTimePreKeys ≠ []) :
    ∃ p, pickOpk index b = some p := by
  have hlt : index.toNat % b.oneTimePreKeys.length < b.oneTimePreKeys.length :=
    Nat.mod_lt _ (length_pos_iff.mpr h)
  exact ⟨_, List.getElem?_eq_getElem hlt⟩

/-- After an init message that named a one-time pre-key the bundle is another one. -/
theorem createPublicBundle_acceptedState_ne (hopk : a.InPool k) (f : Bytes)
    (hopks : b.oneTimePreKeys ≠ []) :
    (acceptedState k f a.init.oneTimePreKeyId).createPublicBundle ≠ k.createPublicBundle := by
  obtain ⟨p, hp⟩ := exists_pickOpk a.entropy.opkIndex hopks
  have hid : a.init.oneTimePreKeyId = some p.oneTimePreKeyId := by
    rw [a.init_eq]
    exact congrArg (Option.map _) hp
  obtain ⟨o, ho, rfl⟩ := hopk p hp
  obtain ⟨l₁, l₂, hl, herase⟩ :=
    IdentityKeys.oneTimePreKeys_eraseOpk (IdentityKeys.findOneTimePreKey_of_mem ho)
  rw [hid]
  intro heq
  have hlen := congrArg (fun b : PreKeyBundle => b.oneTimePreKeys.length) heq
  change ((k.eraseOpk o.id).oneTimePreKeys.map _).length = (k.oneTimePreKeys.map _).length at hlen
  rw [herase, hl] at hlen
  simp only [length_map, length_append, length_cons] at hlen
  omega

/-- A second init message for a bundle with one-time pre-keys is not accepted. -/
theorem not_accepted_twice (hc : c.Correct) (hb : BuiltFrom k b) {a a' : Attempt c w b}
    (hcurrent : k.createPublicBundle = b) (hopk : a.InPool k) (hopk' : a'.InPool k)
    (hopks : b.oneTimePreKeys ≠ []) {f : Bytes}
    (hcoll : Set.InjOn (fun q : Bytes × Bytes => c.hmacSha256 q.1 q.2)
      (macQueries c w a'.macKey a'.init
        [b, (acceptedState k f a.init.oneTimePreKeyId).createPublicBundle]))
    {now : Except ProtocolError ℕ} {noncePrefix : Bytes} {out : HandshakeResponder × Bytes} :
    (acceptSession w now noncePrefix a'.initBytes).run
      (acceptedState k f a.init.oneTimePreKeyId) ≠ .ok out k' := by
  intro h
  obtain ⟨-, hprocess, -⟩ := acceptSession_eq_ok.mp h
  obtain ⟨init, hacc, -⟩ := process_eq_ok.mp hprocess
  obtain rfl : a'.init = init := by
    have hdecode := hacc.decode
    rw [a'.initBytes_eq, w.handshakeInit.decode_encode] at hdecode
    exact Except.ok.inj hdecode
  have hopk₁ := hopk'.of_accepts (oneTimePreKeys_acceptedState f _).subset hacc
  have hcurrent' := (createPublicBundle_of_acceptSession hc (builtFrom_acceptedState hb f _) hopk₁
    hcoll h).1
  exact createPublicBundle_acceptedState_ne hopk f hopks (hcurrent'.trans hcurrent.symm)

end accept

/-- Init messages for a bundle of an identity are all accepted, one after the other, just when
there is none, or the bundle is the current one and there is only one init message or no one-time
pre-key. -/
theorem allAccepted_iff (hc : c.Correct) (hk : c.ProperKeys) {w : Wire} {k : IdentityKeys c}
    {b : PreKeyBundle} (hb : BuiltFrom k b) {as : List (Attempt c w b)}
    (hopk : ∀ a ∈ as, a.InPool k) (hunseen : ∀ a ∈ as, k.Unseen a.fingerprint)
    (hnodup : (as.map Attempt.fingerprint).Nodup)
    (hcard : k.inflightHandshakeInitHashes.card < maxInflightHandshakeInits)
    (hcoll : MacsSeparate w k as) :
    AllAccepted w k as ↔
      as = [] ∨ k.createPublicBundle = b ∧ (as.length = 1 ∨ b.oneTimePreKeys = []) := by
  induction as generalizing k with
  | nil => simp [AllAccepted]
  | cons a as ih =>
    have hopk₁ := hopk a mem_cons_self
    constructor
    · rintro ⟨out, k', h, hrest⟩
      obtain ⟨hcurrent, rfl⟩ := createPublicBundle_of_acceptSession hc hb hopk₁ hcoll.current h
      refine .inr ⟨hcurrent, ?_⟩
      cases as with
      | nil => exact .inl rfl
      | cons a' as =>
        obtain ⟨out', k'', h', -⟩ := hrest
        refine .inr (by_contra fun hopks ↦ ?_)
        exact not_accepted_twice hc hb hcurrent hopk₁
          (hopk a' (mem_cons_of_mem _ mem_cons_self)) hopks
          (hcoll.acceptedState _ _).current h'
    · rintro (h | ⟨hcurrent, hone⟩)
      · cases h
      obtain ⟨out, hout⟩ := acceptSession_of_current hc hk hcurrent a
        (hunseen a mem_cons_self) hcard
      refine ⟨out, _, hout, ?_⟩
      cases as with
      | nil => trivial
      | cons a' as =>
        have hopks : b.oneTimePreKeys = [] := hone.resolve_left (by simp)
        have hid : a.init.oneTimePreKeyId = none := by
          rw [a.init_eq]
          exact congrArg (Option.map _) (pickOpk_of_nil hopks)
        rw [hid]
        rw [map_cons, nodup_cons] at hnodup
        refine (ih (builtFrom_acceptedState hb _ _) ?_ ?_ hnodup.2 ?_ ?_).mpr
          (.inr ⟨hcurrent, .inr hopks⟩)
        · intro x _ p hp
          rw [pickOpk_of_nil hopks] at hp
          cases hp
        · intro x hx
          refine unseen_acceptedState _ (hunseen x (mem_cons_of_mem _ hx)) fun heq ↦ ?_
          exact hnodup.1 (heq ▸ mem_map_of_mem hx)
        · exact hcard
        · exact hcoll.acceptedState _ _

/-- Every other identity can begin a session on a bundle that is not too large. -/
theorem exists_attempt (hc : c.Correct) (hk : c.ProperKeys) {w : Wire} (kI : IdentityKeys c)
    {kR : IdentityKeys c} {b : PreKeyBundle} (hb : BuiltFrom kR b)
    (hlen : b.oneTimePreKeys.length ≤ maxOneTimePreKeysPerBundle)
    (hsize : (w.preKeyBundle.encode b).length ≤ maxHandshakeMessageSize)
    (hne : kI.ed25519.publicKey ≠ kR.ed25519.publicKey) (e : StartEntropy) :
    ∃ a : Attempt c w b, a.before = kI ∧ a.entropy = e := by
  obtain ⟨i, hi⟩ := start_isOk (w := w) (e := e) hc hk hb hlen
    validateMaxMessages hne
    (show 0 < 2 ^ 63 by decide)
  exact ⟨{ before := kI, after := _, entropy := e, beganAt := _, initiator := i
           initBytes := i.initBytes, began := beginSession_eq_ok.mpr ⟨hsize, hi, rfl⟩
           acceptedAt := 1, acceptedAt_lt := by decide, noncePrefix := [] }, rfl, rfl⟩

theorem allAccepted_sample :
    let k := sampleIdentity 2 1 (by decide)
    ∃ a : Attempt Crypto.transparent .protobuf k.createPublicBundle,
      AllAccepted .protobuf k [a] := by
  intro k
  have hb := builtFrom_createPublicBundle k
  have hsize : (preKeyBundle .protobuf k).length ≤ maxHandshakeMessageSize := by decide +kernel
  obtain ⟨a, hbefore, hentropy⟩ := exists_attempt Crypto.transparent_correct
    Crypto.transparent_properKeys (sampleIdentity 1 0 (by decide)) hb (by decide) hsize (by decide)
    (sampleStart 0)
  refine ⟨a, (allAccepted_iff Crypto.transparent_correct Crypto.transparent_properKeys hb ?_ ?_ ?_
    (by decide) ?_).mpr (.inr ⟨rfl, .inl rfl⟩)⟩
  · intro x _
    exact picksFromPool_createPublicBundle _ _
  · intro x _
    exact ⟨Finset.notMem_empty _, Finset.notMem_empty _⟩
  · exact nodup_singleton _
  · intro x hx opks hopks
    obtain rfl := mem_singleton.mp hx
    rw [Attempt.macKey, x.init_eq, hbefore, hentropy]
    obtain rfl | rfl := sublist_singleton.mp hopks
    · exact injOn_of_forall_mem (by decide +kernel)
    · exact injOn_of_forall_mem (by decide +kernel)

/-- Two initiators begin sessions on one bundle with different one-time pre-keys.  The first
init message is accepted and the second is not, although its key is still in the pool. -/
theorem acceptSession_rejects_second :
    let k := sampleIdentity 2 2 (by decide)
    ∃ a a' : Attempt Crypto.transparent .protobuf k.createPublicBundle,
      a.InPool k ∧ a'.InPool k ∧ a.fingerprint ≠ a'.fingerprint ∧
      a.init.oneTimePreKeyId ≠ a'.init.oneTimePreKeyId ∧
      ∃ out k', (acceptSession .protobuf (.ok a.acceptedAt) a.noncePrefix a.initBytes).run k =
          .ok out k' ∧ a'.InPool k' ∧ k'.Unseen a'.fingerprint ∧
        ∀ out' k'', (acceptSession .protobuf (.ok a'.acceptedAt) a'.noncePrefix a'.initBytes).run k'
          ≠ .ok out' k'' := by
  intro k
  have hc := Crypto.transparent_correct
  have hk := Crypto.transparent_properKeys
  have hb := builtFrom_createPublicBundle k
  have hsize : (preKeyBundle .protobuf k).length ≤ maxHandshakeMessageSize := by
    decide +kernel
  obtain ⟨a, hbefore, hentropy⟩ := exists_attempt hc hk (sampleIdentity 1 0 (by decide)) hb
    (by decide) hsize (by decide) (sampleStart 0)
  obtain ⟨a', hbefore', hentropy'⟩ := exists_attempt hc hk (sampleIdentity 3 0 (by decide)) hb
    (by decide) hsize (by decide) (sampleStart 1)
  have hopk : a.InPool k := picksFromPool_createPublicBundle _ _
  have hopk' : a'.InPool k := picksFromPool_createPublicBundle _ _
  have hinit := a.init_eq
  have hinit' := a'.init_eq
  rw [hbefore, hentropy] at hinit
  rw [hbefore', hentropy'] at hinit'
  have hid : a.init.oneTimePreKeyId = some 2 := by
    rw [hinit]
    decide
  have hid' : a'.init.oneTimePreKeyId = some 3 := by
    rw [hinit']
    decide
  have hfp : a.fingerprint ≠ a'.fingerprint := by
    rw [Attempt.fingerprint, Attempt.fingerprint, hinit, hinit']
    decide +kernel
  obtain ⟨out, hout⟩ := acceptSession_of_current hc hk rfl a
    ⟨Finset.notMem_empty _, Finset.notMem_empty _⟩ (by decide)
  refine ⟨a, a', hopk, hopk', hfp, by rw [hid, hid']; decide, out, _, hout, ?_, ?_, ?_⟩
  · intro p hp
    obtain ⟨o, ho, rfl⟩ := hopk' p hp
    have hpid : o.id = 3 := by
      rw [hinit'] at hid'
      rw [hentropy'] at hp
      have : (pickOpk (sampleStart 1).opkIndex k.createPublicBundle).map (·.oneTimePreKeyId) =
        some 3 := hid'
      rw [hp] at this
      exact Option.some.inj this
    refine ⟨o, ?_, rfl⟩
    rw [hid]
    exact (mem_eraseP_of_neg (by simp [hpid])).mpr ho
  · exact unseen_acceptedState _ ⟨Finset.notMem_empty _, Finset.notMem_empty _⟩ hfp.symm
  · intro out' k''
    refine not_accepted_twice hc hb rfl hopk hopk' (by decide) ?_
    rw [Attempt.macKey, hinit', hbefore', hentropy', hid]
    change Set.InjOn _ (macQueries _ _ _ _ [_, (IdentityKeys.eraseOpk _ 2).createPublicBundle])
    exact injOn_of_forall_mem (by decide +kernel)

end AuraProtocol.Api
