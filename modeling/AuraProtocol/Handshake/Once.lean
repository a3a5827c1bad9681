import AuraProtocol.Handshake.Honest

/-!
# Init messages are accepted once

Runs of one responder: calls of `process` with arbitrary bytes and bundles, and
replenishments of the pool.  `Stepped` says what one step can do, and the two
guarantees against replay are derived from it.

* The window of fingerprints keeps a repeated init message out until 16384 others
  have been accepted.
* The one-time pre-key of an accepted init message is gone.  A later key may get
  its id again, since the ids of new keys are only compared with those in the
  pool, but it is another key, and the MAC of the init message does not fit it.

The second point rests on the absence of collisions among the values that the
run computes (`NoCollision`).
-/

namespace AuraProtocol.Handshake

open Fallible Proto List

variable {c : Crypto}

variable {w : Wire} {now : Except ProtocolError ℕ} {noncePrefix initMessageBytes : Bytes}
  {b : PreKeyBundle} {max : UInt32} {r : HandshakeResponder}
  {k : IdentityKeys c} {init : HandshakeInit}

/-! ## Runs of a responder -/

/-- What can happen to the identity of a responder. -/
inductive Event where
  | process (now : Except ProtocolError ℕ) (noncePrefix : Bytes) (localBundle : PreKeyBundle)
      (initMessageBytes : Bytes) (max : UInt32)
  | replenish (entropy : OpkEntropy) (count : ℕ)

/-- The init message that an event makes the responder accept, if any, and the identity
afterwards. -/
def step (w : Wire) (k : IdentityKeys c) : Event → Option HandshakeInit × IdentityKeys c
  | .process now noncePrefix localBundle initMessageBytes max =>
    match (process c w now noncePrefix localBundle initMessageBytes max).run k with
    | .ok _ k' => ((w.handshakeInit.decode initMessageBytes).toOption, k')
    | .error _ k' => (none, k')
  | .replenish entropy count =>
    (none, endState ((IdentityKeys.replenishOneTimePreKeys entropy count).run k))

/-- The identity after some events. -/
def runEvents (w : Wire) (k : IdentityKeys c) (evs : List Event) : IdentityKeys c :=
  evs.foldl (fun k ev => (step w k ev).2) k

/-- The init messages accepted in a run, in order. -/
def acceptedInits (w : Wire) : IdentityKeys c → List Event → List HandshakeInit
  | _, [] => []
  | k, ev :: evs => (step w k ev).1.toList ++ acceptedInits w (step w k ev).2 evs

/-- The one-time pre-keys that an event adds to the pool. -/
def issuedBy (k : IdentityKeys c) : Event → List (OneTimePreKey c)
  | .process .. => []
  | .replenish entropy count =>
    (generateOneTimePreKeysExcluding c entropy count
      (k.oneTimePreKeys.map (·.id)).toFinset).toOption.getD []

/-- The one-time pre-keys added to the pool in a run. -/
def issued (w : Wire) : IdentityKeys c → List Event → List (OneTimePreKey c)
  | _, [] => []
  | k, ev :: evs => issuedBy k ev ++ issued w (step w k ev).2 evs

/-- The bundles a run is given. -/
def bundles : List Event → List PreKeyBundle
  | [] => []
  | .process _ _ localBundle _ _ :: evs => localBundle :: bundles evs
  | .replenish _ _ :: evs => bundles evs

theorem bundles_subset_cons (ev : Event) (evs : List Event) : bundles evs ⊆ bundles (ev :: evs) := by
  cases ev with
  | process => exact subset_cons_self _ _
  | replenish => exact List.Subset.refl _

variable {evs : List Event}

theorem mem_bundles (h : Event.process now noncePrefix b initMessageBytes max ∈ evs) :
    b ∈ bundles evs := by
  induction evs with
  | nil => cases h
  | cons ev evs ih =>
    obtain rfl | h := mem_cons.mp h
    · exact mem_cons_self
    · exact bundles_subset_cons ev evs (ih h)

/-- Identities with the same long-term private keys. -/
structure SameSecrets (k k' : IdentityKeys c) : Prop where
  identityX25519 : k'.identityX25519 = k.identityX25519
  signedPreKey : k'.signedPreKey = k.signedPreKey
  kyber : k'.kyber = k.kyber

theorem SameSecrets.refl (k : IdentityKeys c) : SameSecrets k k := ⟨rfl, rfl, rfl⟩

theorem SameSecrets.trans {k k' k'' : IdentityKeys c} (h : SameSecrets k k')
    (h' : SameSecrets k' k'') : SameSecrets k k'' :=
  ⟨h'.1.trans h.1, h'.2.trans h.2, h'.3.trans h.3⟩

/-- What one event can do. -/
inductive Stepped (w : Wire) (k : IdentityKeys c) :
    Event → Option HandshakeInit → IdentityKeys c → Prop
  | accepted {now : Except ProtocolError ℕ} {noncePrefix : Bytes} {b : PreKeyBundle}
      {initMessageBytes : Bytes} {max : UInt32} {init : HandshakeInit} {r : HandshakeResponder}
      (h : Accepts w now noncePrefix b initMessageBytes max k init r) :
      Stepped w k (.process now noncePrefix b initMessageBytes max) (some init)
        (acceptedState k (buildHandshakeInitFingerprint c w init) init.oneTimePreKeyId)
  | rejected (ev : Event) (h : issuedBy k ev = []) : Stepped w k ev none k
  | replenished {entropy : OpkEntropy} {count : ℕ} {new : List (OneTimePreKey c)}
      (hnodup : ((k.oneTimePreKeys ++ new).map (·.id)).Nodup)
      (h : issuedBy k (.replenish entropy count) = new) :
      Stepped w k (.replenish entropy count) none (k.withOpks new count hnodup)

theorem step_of_accepts
    (h : Accepts w now noncePrefix b initMessageBytes max k init r) :
    step w k (.process now noncePrefix b initMessageBytes max) =
      (some init,
        acceptedState k (buildHandshakeInitFingerprint c w init) init.oneTimePreKeyId) := by
  simp only [step, process_of_accepts h, h.decode]
  rfl

theorem stepped_step (w : Wire) (k : IdentityKeys c) (ev : Event) :
    Stepped w k ev (step w k ev).1 (step w k ev).2 := by
  cases ev with
  | process now noncePrefix b initMessageBytes max =>
    obtain ⟨init, r, h⟩ | ⟨e, he⟩ := process_cases c w now noncePrefix b initMessageBytes max k
    · rw [step_of_accepts h]
      exact .accepted h
    · have hstep : step w k (.process now noncePrefix b initMessageBytes max) = (none, k) := by
        simp only [step, he]
      rw [hstep]
      exact .rejected _ rfl
  | replenish entropy count =>
    change Stepped w k _ none (endState (IdentityKeys.replenishOneTimePreKeys entropy count k))
    rw [IdentityKeys.replenishOneTimePreKeys]
    split
    · next err herr => exact .rejected _ (by rw [issuedBy, herr]; rfl)
    · next new hnew => exact .replenished _ (by rw [issuedBy, hnew]; rfl)

/-- A step keeps the long-term keys, and its pool holds old and new keys only. -/
theorem Stepped.pool {k k' : IdentityKeys c} {ev : Event} {out : Option HandshakeInit}
    (h : Stepped w k ev out k') :
    SameSecrets k k' ∧ k'.oneTimePreKeys.Sublist (k.oneTimePreKeys ++ issuedBy k ev) := by
  cases h with
  | @accepted _ _ _ _ _ init _ h =>
    cases hid : init.oneTimePreKeyId with
    | none => exact ⟨⟨rfl, rfl, rfl⟩, sublist_append_left _ _⟩
    | some id =>
      exact ⟨⟨rfl, rfl, rfl⟩, eraseP_sublist.trans (sublist_append_left _ _)⟩
  | rejected => exact ⟨.refl k, sublist_append_left _ _⟩
  | replenished hnodup hnew =>
    refine ⟨⟨rfl, rfl, rfl⟩, ?_⟩
    rw [hnew]
    exact List.Sublist.refl _

/-! ## The window of fingerprints -/

/-- While a fingerprint is among the newest in the window, no init message with it is
accepted. -/
theorem notMem_take_acceptedInits {f : Bytes} {l : List Bytes}
    (hok : k.recentHandshakeInits.Ok maxSeenHandshakeInits)
    (hl : f :: l <:+ k.recentHandshakeInits.order) {n : ℕ}
    (hn : l.length + n ≤ maxSeenHandshakeInits) :
    ∀ init ∈ (acceptedInits w k evs).take n, buildHandshakeInitFingerprint c w init ≠ f := by
  induction evs generalizing k l n with
  | nil =>
    intro init hinit
    rw [acceptedInits, take_nil] at hinit
    cases hinit
  | cons ev evs ih =>
    have hstep := stepped_step w k ev
    rw [acceptedInits]
    generalize (step w k ev).1 = out at hstep ⊢
    generalize (step w k ev).2 = k' at hstep ⊢
    cases hstep with
    | rejected => exact ih hok hl hn
    | replenished => exact ih (k := k.withOpks _ _ _) hok hl hn
    | @accepted _ _ _ _ _ init₁ _ hacc =>
      cases n with
      | zero =>
        intro init hinit
        cases hinit
      | succ n =>
        intro init hinit
        obtain rfl | hinit := mem_cons.mp hinit
        · rintro rfl
          exact hacc.unseen.1 ((hok.mem_seen _).mpr (hl.mem mem_cons_self))
        · cases n with
          | zero => cases hinit
          | succ n =>
            have hsuffix := SeenWindow.suffix_remember maxSeenHandshakeInits hl
              (by rw [length_cons]; omega) hacc.unseen.1
            have hok' := hok.remember (buildHandshakeInitFingerprint c w init₁)
            refine ih (k := acceptedState k (buildHandshakeInitFingerprint c w init₁)
              init₁.oneTimePreKeyId) (l := l ++ [buildHandshakeInitFingerprint c w init₁])
              hok' hsuffix ?_ init hinit
            rw [length_append, length_singleton]
            omega

/-- An accepted init message comes back only after 16384 others. -/
theorem spacedBy_acceptedInits (evs : List Event)
    (hok : k.recentHandshakeInits.Ok maxSeenHandshakeInits) :
    SpacedBy maxSeenHandshakeInits (acceptedInits w k evs) := by
  induction evs generalizing k with
  | nil => exact spacedBy_nil _
  | cons ev evs ih =>
    have hstep := stepped_step w k ev
    rw [acceptedInits]
    generalize (step w k ev).1 = out at hstep ⊢
    generalize (step w k ev).2 = k' at hstep ⊢
    cases hstep with
    | rejected => exact ih hok
    | replenished => exact ih (k := k.withOpks _ _ _) hok
    | @accepted _ _ _ _ _ init _ hacc =>
      have hok' := hok.remember (buildHandshakeInitFingerprint c w init)
      have hsuffix := SeenWindow.suffix_remember maxSeenHandshakeInits
        (nil_suffix) (by decide) hacc.unseen.1
      refine spacedBy_cons (fun hmem => ?_) (ih (k := acceptedState k _ _) hok')
      exact notMem_take_acceptedInits (k := acceptedState k _ _) (l := []) hok' hsuffix
        (Nat.zero_add _).le init hmem rfl

/-! ## The one-time pre-keys -/

/-- The values that the responder with the long-term keys of `k` computes for an init message
with the given one-time pre-keys and bundles do not collide. -/
structure NoCollision (c : Crypto) (w : Wire) (k : IdentityKeys c) (opks : List (OneTimePreKey c))
    (bs : List PreKeyBundle) (init : HandshakeInit) : Prop where
  /-- Different private keys give different secrets with the ephemeral key. -/
  dh : Set.InjOn (fun sk => c.x25519 sk init.initiatorEphemeralX25519Public)
    {sk | sk ∈ opks.map (·.secretKey)}
  classical : Set.InjOn (classicalShared c)
    {ikm | ikm ∈ opks.map fun o => responderIkm k (some o) init}
  rootKey : Set.InjOn
    (fun classical => rootKeyOf c classical (c.kemDecaps k.kyber.secretKey init.kyberCiphertext))
    {classical | classical ∈ opks.map fun o => classicalShared c (responderIkm k (some o) init)}
  confirmKey : Set.InjOn (fun rootKey => confirmKeyOf c rootKey keyConfirmInitInfo)
    {rootKey | rootKey ∈ opks.map fun o =>
      rootKeyOf c (classicalShared c (responderIkm k (some o) init))
        (c.kemDecaps k.kyber.secretKey init.kyberCiphertext)}
  hmac : Set.InjOn (fun q : Bytes × Bytes => c.hmacSha256 q.1 q.2)
    {q | q ∈ (opks ×ˢ bs).map fun p =>
      ((responderSecrets k (some p.1) p.2 init).confirmInit, buildTranscriptHash c w p.2 init)}

section SameSecrets

variable {k k' : IdentityKeys c} (hk : SameSecrets k k') (opk : Option (OneTimePreKey c))
  (init : HandshakeInit)

include hk

theorem SameSecrets.responderIkm_eq : responderIkm k' opk init = responderIkm k opk init := by
  rw [responderIkm, responderIkm, hk.identityX25519, hk.signedPreKey]

theorem SameSecrets.responderSecrets_eq (b : PreKeyBundle) :
    responderSecrets k' opk b init = responderSecrets k opk b init := by
  rw [responderSecrets, responderSecrets, hk.responderIkm_eq, hk.kyber]

end SameSecrets

theorem NoCollision.mono {k k' : IdentityKeys c} {opks opks' : List (OneTimePreKey c)}
    {bs bs' : List PreKeyBundle} (h : NoCollision c w k opks bs init)
    (hk : SameSecrets k k') (hopks : opks' ⊆ opks) (hbs : bs' ⊆ bs) :
    NoCollision c w k' opks' bs' init := by
  refine ⟨?_, ?_, ?_, ?_, ?_⟩
  · exact h.dh.mono (map_subset _ hopks)
  · simp only [hk.responderIkm_eq]
    exact h.classical.mono (map_subset _ hopks)
  · simp only [hk.responderIkm_eq, hk.kyber]
    exact h.rootKey.mono (map_subset _ hopks)
  · simp only [hk.responderIkm_eq, hk.kyber]
    exact h.confirmKey.mono (map_subset _ hopks)
  · simp only [hk.responderSecrets_eq]
    refine h.hmac.mono (map_subset _ ?_)
    rintro ⟨o, b⟩ hp
    obtain ⟨ho, hb⟩ := pair_mem_product.mp hp
    exact pair_mem_product.mpr ⟨hopks ho, hbs hb⟩

/-- Without collisions the MAC of an init message fits one one-time pre-key only. -/
theorem NoCollision.secretKey_eq {opks : List (OneTimePreKey c)}
    {bs : List PreKeyBundle} (h : NoCollision c w k opks bs init)
    {o o' : OneTimePreKey c} (ho : o ∈ opks) (ho' : o' ∈ opks) {b' : PreKeyBundle} (hb : b ∈ bs)
    (hb' : b' ∈ bs) (hmac : c.hmacSha256 (responderSecrets k (some o) b init).confirmInit
        (buildTranscriptHash c w b init) =
      c.hmacSha256 (responderSecrets k (some o') b' init).confirmInit
        (buildTranscriptHash c w b' init)) : o.secretKey = o'.secretKey := by
  have hquery := h.hmac (mem_map_of_mem (a := (o, b)) (pair_mem_product.mpr ⟨ho, hb⟩))
    (mem_map_of_mem (a := (o', b')) (pair_mem_product.mpr ⟨ho', hb'⟩)) hmac
  have hroot := h.confirmKey (mem_map_of_mem ho) (mem_map_of_mem ho')
    (congrArg Prod.fst hquery)
  have hclassical := h.rootKey (mem_map_of_mem ho) (mem_map_of_mem ho') hroot
  have hikm := h.classical (mem_map_of_mem ho) (mem_map_of_mem ho') hclassical
  exact h.dh (mem_map.mpr ⟨o, ho, rfl⟩) (mem_map.mpr ⟨o', ho', rfl⟩)
    (append_cancel_left hikm)

/-- Where an accepted init message was accepted. -/
theorem exists_of_mem_acceptedInits
    (h : init ∈ acceptedInits w k evs) :
    ∃ k₁ now noncePrefix b initMessageBytes max r,
      Event.process now noncePrefix b initMessageBytes max ∈ evs ∧
        Accepts w now noncePrefix b initMessageBytes max k₁ init r ∧ SameSecrets k k₁ ∧
        k₁.oneTimePreKeys ⊆ k.oneTimePreKeys ++ issued w k evs := by
  induction evs generalizing k with
  | nil => cases h
  | cons ev evs ih =>
    rw [acceptedInits, mem_append] at h
    have hstep := stepped_step w k ev
    rw [issued]
    rcases h with h | h
    · generalize (step w k ev).1 = out at hstep h
      generalize (step w k ev).2 = k' at hstep
      cases hstep with
      | rejected => cases h
      | replenished => cases h
      | @accepted now noncePrefix b initMessageBytes max init₁ r hacc =>
        obtain rfl : init = init₁ := by simpa using h
        exact ⟨k, now, noncePrefix, b, initMessageBytes, max, r, mem_cons_self, hacc, .refl k,
          subset_append_left _ _⟩
    · obtain ⟨k₁, now, noncePrefix, b, initMessageBytes, max, r, hev, hacc, hk, hpool⟩ := ih h
      obtain ⟨hk', hpool'⟩ := hstep.pool
      refine ⟨k₁, now, noncePrefix, b, initMessageBytes, max, r, mem_cons_of_mem _ hev, hacc,
        hk'.trans hk, fun o ho => ?_⟩
      rcases mem_append.mp (hpool ho) with ho | ho
      · rw [← append_assoc]
        exact mem_append_left _ (hpool'.subset ho)
      · exact mem_append_right _ (mem_append_right _ ho)

theorem mem_acceptedInits_of_accepts
    (h : Accepts w now noncePrefix b initMessageBytes max k init r) (evs : List Event) :
    init ∈ acceptedInits w k (.process now noncePrefix b initMessageBytes max :: evs) := by
  rw [acceptedInits, step_of_accepts h]
  exact mem_append_left _ mem_cons_self

/-- An accepted init message that names a one-time pre-key was confirmed with a key of the
pool. -/
theorem Accepts.opk
    (h : Accepts w now noncePrefix b initMessageBytes max k init r) {id : UInt32}
    (hid : init.oneTimePreKeyId = some id) :
    ∃ o, k.findOneTimePreKey id = some o ∧ o ∈ k.oneTimePreKeys ∧
      init.keyConfirmationMac = c.hmacSha256 (responderSecrets k (some o) b init).confirmInit
        (buildTranscriptHash c w b init) := by
  have hr := respond_eq_ok h.respond
  obtain ⟨o, ho⟩ := hr.opk id hid
  have hnamed : namedOpk k init = some o := by rw [namedOpk, hid, Option.bind_some, ho]
  refine ⟨o, ho, mem_of_find?_eq_some ho, ?_⟩
  rw [hr.keyConfirmationMac, hnamed]

/-- Among the keys that are left after an init message was accepted, the one it named does not
occur. -/
theorem secretKey_ne_of_mem_acceptedState {f : Bytes} {id : UInt32}
    {o : OneTimePreKey c} (ho : k.findOneTimePreKey id = some o) {later : List (OneTimePreKey c)}
    (hdistinct : ((k.oneTimePreKeys ++ later).map (·.secretKey)).Nodup) :
    ∀ o' ∈ (acceptedState k f (some id)).oneTimePreKeys ++ later, o'.secretKey ≠ o.secretKey := by
  obtain ⟨l₁, l₂, hpool, herase⟩ := IdentityKeys.oneTimePreKeys_eraseOpk ho
  intro o' ho' heq
  have hmem : o' ∈ l₁ ++ l₂ ++ later := by rwa [← herase]
  rw [hpool, append_assoc, cons_append, map_append, map_cons,
    nodup_middle, nodup_cons, ← map_append, ← append_assoc] at hdistinct
  exact hdistinct.1 (heq ▸ mem_map.mpr ⟨o', hmem, rfl⟩)

/-- An init message that names a one-time pre-key is accepted once. -/
theorem nodup_acceptedInits_of_opk
    (hdistinct : ((k.oneTimePreKeys ++ issued w k evs).map (·.secretKey)).Nodup)
    (hcoll : ∀ init ∈ acceptedInits w k evs,
      NoCollision c w k (k.oneTimePreKeys ++ issued w k evs) (bundles evs) init) :
    ((acceptedInits w k evs).filter (·.oneTimePreKeyId.isSome)).Nodup := by
  induction evs generalizing k with
  | nil => exact nodup_nil
  | cons ev evs ih =>
    have hstep := stepped_step w k ev
    obtain ⟨hk, hpool⟩ := hstep.pool
    rw [acceptedInits] at hcoll ⊢
    rw [issued, ← append_assoc] at hdistinct hcoll
    have hsub := hpool.append_right (issued w (step w k ev).2 evs)
    have hbundles := bundles_subset_cons ev evs
    have hrest := ih (hdistinct.sublist (hsub.map _)) fun init hinit =>
      (hcoll init (mem_append_right _ hinit)).mono hk hsub.subset hbundles
    generalize (step w k ev).1 = out at *
    generalize (step w k ev).2 = k' at *
    cases hstep with
    | rejected => exact hrest
    | replenished => exact hrest
    | @accepted _ _ b _ _ init _ hacc =>
      change (List.filter _ (init :: acceptedInits w _ evs)).Nodup
      cases hid : init.oneTimePreKeyId with
      | none => rwa [filter_cons_of_neg (by simp [hid]), ← hid]
      | some id =>
        rw [hid] at hk hsub hrest hdistinct hcoll
        rw [filter_cons_of_pos (by simp [hid]), nodup_cons]
        refine ⟨fun hmem => ?_, hrest⟩
        obtain ⟨o, ho, hmemo, hmac⟩ := hacc.opk hid
        obtain ⟨k₁, _, _, b₁, _, _, _, hev₁, hacc₁, hk₁, hpool₁⟩ :=
          exists_of_mem_acceptedInits (mem_filter.mp hmem).1
        obtain ⟨o₁, -, hmemo₁, hmac₁⟩ := hacc₁.opk hid
        rw [(hk.trans hk₁).responderSecrets_eq] at hmac₁
        have hnew := hpool₁ hmemo₁
        have heq := (hcoll init (mem_append_left _ (mem_singleton_self init))).secretKey_eq
          (mem_append_left _ (mem_append_left _ hmemo)) (hsub.subset hnew)
          mem_cons_self (hbundles (mem_bundles hev₁)) (hmac.symm.trans hmac₁)
        refine secretKey_ne_of_mem_acceptedState ho ?_ o₁ hnew heq.symm
        rwa [issuedBy, append_nil] at hdistinct

/-- In every run of a responder, an init message that names a one-time pre-key is accepted at
most once, and every other one comes back only after 16384 others. -/
theorem accepted_once {w : Wire} {k : IdentityKeys c} {evs : List Event}
    (hok : k.recentHandshakeInits.Ok maxSeenHandshakeInits)
    (hdistinct : ((k.oneTimePreKeys ++ issued w k evs).map (·.secretKey)).Nodup)
    (hcoll : ∀ init ∈ acceptedInits w k evs,
      NoCollision c w k (k.oneTimePreKeys ++ issued w k evs) (bundles evs) init) :
    ((acceptedInits w k evs).filter (·.oneTimePreKeyId.isSome)).Nodup ∧
      SpacedBy 16384 (acceptedInits w k evs) :=
  ⟨nodup_acceptedInits_of_opk hdistinct hcoll, spacedBy_acceptedInits evs hok⟩

/-- The init message of the sample initiator for a current bundle of the sample responder. -/
def sampleInit (index : UInt32) : HandshakeInit :=
  confirmedInit .protobuf (sampleStart index) (sampleIdentity 2 3 (by decide)).createPublicBundle
    1000 (sampleIdentity 1 0 (by decide)) (.generate _ (sampleStart index).ephemeralPrivate)

/-- The responder gets an init message. -/
def sampleProcess (init : HandshakeInit) : Event :=
  .process (.ok 6) [] (sampleIdentity 2 3 (by decide)).createPublicBundle
    (Handshake.Wire.protobuf.handshakeInit.encode init) 1000

theorem eq_of_mem_sampleProcess {init init' : HandshakeInit}
    (h : Event.process now noncePrefix b initMessageBytes max ∈
      [sampleProcess init, sampleProcess init])
    (hdecode : Handshake.Wire.protobuf.handshakeInit.decode initMessageBytes = .ok init') :
    init' = init := by
  simp only [sampleProcess, mem_cons, Event.process.injEq, not_mem_nil, or_false,
    or_self] at h
  rw [h.2.2.2.1, Codec.decode_encode] at hdecode
  exact (Except.ok.inj hdecode).symm

theorem accepts_sampleInit (index : UInt32) :
    ∃ r, Accepts .protobuf (.ok 6) [] (sampleIdentity 2 3 (by decide)).createPublicBundle
      (Handshake.Wire.protobuf.handshakeInit.encode (sampleInit index)) 1000
      (sampleIdentity 2 3 (by decide)) (sampleInit index) r :=
  accepts_confirmedInit Crypto.transparent_correct Crypto.transparent_properKeys
    (builtFrom_createPublicBundle _) (by decide) (validateMaxMessagesPerChain_of_le (by decide))
    (picksFromPool_createPublicBundle _ _) (by decide) (by decide) []
    ⟨Finset.notMem_empty _, Finset.notMem_empty _⟩ (by decide)

theorem noCollision_sampleInit :
    NoCollision _ .protobuf (sampleIdentity 2 3 (by decide))
      (sampleIdentity 2 3 (by decide)).oneTimePreKeys
      (bundles [sampleProcess (sampleInit 1), sampleProcess (sampleInit 1)]) (sampleInit 1) where
  dh := injOn_of_forall_mem (by decide +kernel)
  classical := injOn_of_forall_mem (by decide +kernel)
  rootKey := injOn_of_forall_mem (by decide +kernel)
  confirmKey := injOn_of_forall_mem (by decide +kernel)
  hmac := injOn_of_forall_mem (by decide +kernel)

theorem accepted_once_sample :
    let k := sampleIdentity 2 3 (by decide)
    let evs := [sampleProcess (sampleInit 1), sampleProcess (sampleInit 1)]
    sampleInit 1 ∈ acceptedInits .protobuf k evs ∧
      ((acceptedInits .protobuf k evs).filter (·.oneTimePreKeyId.isSome)).Nodup ∧
      SpacedBy 16384 (acceptedInits .protobuf k evs) := by
  obtain ⟨r, hr⟩ := accepts_sampleInit 1
  refine ⟨mem_acceptedInits_of_accepts hr _,
    accepted_once SeenWindow.ok_empty (by decide) fun init hinit ↦ ?_⟩
  obtain ⟨_, _, _, _, _, _, _, hev, hacc, -⟩ := exists_of_mem_acceptedInits hinit
  rw [eq_of_mem_sampleProcess hev hacc.decode]
  exact noCollision_sampleInit

end AuraProtocol.Handshake
