import AuraProtocol.Group.Delivery

/-!
# A message from one member to another

Two members of an epoch share the group, the policy, the leaves of the tree, the
metadata key and the sender's chain, each at its own generation (`Peers`).  What
any of the encrypt functions makes of a message, `decrypt` then opens to the same
message (`decrypt_of_encrypting`), as long as the receiver can still reach the
key: its chain follows at most as many generations as the policy lets it skip.

The second part is about a `decrypt` that fails.  The key of the message is taken
out of the store before the payload is read, so a failure of any later check
loses it (`failed_decrypt_keeps_iff`).
-/

namespace AuraProtocol.Group

open Fallible SenderKeyStore

variable {contentType : ContentType} {appMsg : GroupApplicationMessage}

namespace GroupSession

variable {c : Crypto} {wire : Wire} {s s' r : GroupSession}

/-! ## Two members of an epoch -/

variable (c) in
/-- What the sender `s` of a message and its receiver `r` share in an epoch. -/
structure Peers (s r : GroupSession) : Prop where
  groupId : r.groupId = s.groupId
  epoch : r.epoch = s.epoch
  policy : r.securityPolicy = s.securityPolicy
  policy_valid : s.securityPolicy.validate = .ok ()
  leaves : r.tree.leaves = s.tree.leaves
  metadataKey : r.epochKeys.metadataKey = s.epochKeys.metadataKey
  pendingReinit : r.pendingReinit = s.pendingReinit
  ne : s.myLeafIdx ≠ r.myLeafIdx
  /-- The sender's leaf carries the public key of its secret. -/
  identity : ∃ leaf, s.tree.getLeafData s.myLeafIdx = some leaf ∧
    leaf.identityEd25519Public = c.ed25519Public s.myEd25519Secret.1
  /-- Both follow one chain of the sender. -/
  chain : ∃ base, s.senderStore.Tracks c base s.myLeafIdx ∧ r.senderStore.Tracks c base s.myLeafIdx

variable (c) in
/-- What messages leave of a session, in whichever direction they go. -/
def SameEpoch (s s' : GroupSession) : Prop :=
  (∃ senderStore replayWindows lastSentMessageHash,
    s' = { s with senderStore, replayWindows, lastSentMessageHash }) ∧
  ∀ base i, s.senderStore.Tracks c base i → s'.senderStore.Tracks c base i

instance : IsPreorder GroupSession (SameEpoch c) where
  refl _ := ⟨⟨_, _, _, rfl⟩, fun _ _ h => h⟩
  trans _ _ _ h h' := by
    obtain ⟨⟨_, _, _, rfl⟩, htracks⟩ := h
    obtain ⟨⟨_, _, _, rfl⟩, htracks'⟩ := h'
    exact ⟨⟨_, _, _, rfl⟩, fun base i h => htracks' base i (htracks base i h)⟩

theorem sameEpoch_onStore {α : Type} {x : StoreM α}
    (hx : ∀ base i, Keeps (fun store store' => store.Tracks c base i → store'.Tracks c base i) x) :
    Keeps (SameEpoch c) (onStore x) := by
  intro s
  rw [onStore, endState_zoom]
  exact ⟨⟨_, _, _, rfl⟩, fun base i => hx base i s.senderStore⟩

theorem sameEpoch_encrypting (call : Encrypting) (now : Option ℕ) (entropy : MessageEntropy) :
    Keeps (SameEpoch c) (call.run c wire now entropy) := by
  intro s
  rw [call.run_run]
  refine Keeps.bind (.lift _) (fun _ => ?_) s
  exact keeps_encryptInternal (fun i => sameEpoch_onStore fun _ _ => keeps_tracks_nextOwnMessageKey i)
    (fun _ _ => ⟨⟨_, _, _, rfl⟩, fun _ _ h => h⟩) _ _ _ now entropy

/-- Messages in either direction leave two members peers. -/
theorem Peers.of_sameEpoch {r' : GroupSession} (h : Peers c s r) (hs : SameEpoch c s s')
    (hr : SameEpoch c r r') : Peers c s' r' := by
  obtain ⟨⟨_, _, _, rfl⟩, hs⟩ := hs
  obtain ⟨⟨_, _, _, rfl⟩, hr⟩ := hr
  obtain ⟨base, hbase, hbase'⟩ := h.chain
  exact ⟨h.groupId, h.epoch, h.policy, h.policy_valid, h.leaves, h.metadataKey, h.pendingReinit,
    h.ne, h.identity, base, hs _ _ hbase, hr _ _ hbase'⟩

/-! ## The header -/

/-- The receiver reads the sender data that the sender put into a message. -/
theorem openHeader_of_sealMessage (hc : c.Correct) (hk : c.ProperKeys) (hp : Peers c s r)
    (hpending : s.pendingReinit = none) {generation : ℕ} {payload tag message : Bytes}
    {entropy : MessageEntropy}
    (hseal : sealMessage c wire s generation payload tag entropy = .ok message)
    (hsize : message.length ≤ maxGroupMessageSize) :
    ∃ appMsg, openHeader c wire r message =
        .ok (appMsg, ⟨s.myLeafIdx, UInt32.ofNat generation, entropy.reuseGuard.1⟩) ∧
      appMsg.encryptedPayload = payload ∧ appMsg.payloadNonce = entropy.payloadNonce.1 ∧
      appMsg.frankingTag = tag := by
  simp only [sealMessage, except_bind_eq_ok] at hseal
  obtain ⟨aad, haad, encrypted, hencrypt, signature, hsign, hmessage⟩ := hseal
  cases hmessage
  obtain ⟨⟨-, hvalid⟩, hsignature⟩ := signWith_eq_ok.mp hsign
  obtain ⟨leaf, hleaf, hidentity⟩ := hp.identity
  have hleaf' : r.tree.getLeafData s.myLeafIdx = some leaf := by
    rw [RatchetTree.getLeafData, hp.leaves]
    exact hleaf
  refine ⟨{ encryptedSenderData := encrypted
            senderDataNonce := guardNonce entropy.senderDataNonce.1 entropy.reuseGuard.1
            encryptedPayload := payload
            payloadNonce := entropy.payloadNonce.1
            frankingTag := tag
            senderSignature := signature }, ?_, rfl, rfl, rfl⟩
  simp only [openHeader, except_bind_eq_ok, require_eq_ok, mapError_eq_ok,
    wire.message.decode_encode]
  refine ⟨(), hsize, _, rfl, (), require_eq_ok.mpr (hp.pendingReinit.trans hpending), (),
    hp.groupId.symm, (), hp.epoch.symm, ?_⟩
  simp only [except_bind_eq_ok, require_eq_ok, mapError_eq_ok, orError_eq_ok]
  refine ⟨aad, by rw [hp.groupId, hp.epoch]; exact haad, _, ?_, _, wire.senderData.decode_encode _,
    (), hp.ne, leaf, hleaf', (), ?_, rfl⟩
  · rw [hp.metadataKey]
    exact AesGcm.decrypt_of_encrypt hc hencrypt
  · refine verifyWith_eq_ok.mpr ⟨?_, hsignature ▸ c.length_ed25519Sign _ _, ?_, ?_⟩
    · rw [hidentity]
      exact c.length_ed25519Public _
    · rw [hidentity]
      exact hk.ed25519Public_valid _ hvalid
    · rw [hidentity, hp.groupId, hp.epoch, hsignature]
      exact hc.ed25519Verify_ed25519Sign _ _

/-! ## The payload -/

/-- The receiver's clock is inside the lifetime of a disappearing message and the allowed skew. -/
def ClockInside (policy : MessagePolicy) (sent now : Option ℕ) : Prop :=
  policy.contentType.isDisappearing = true → ∃ t₀ t, sent = some t₀ ∧ now = some t ∧
    t₀ ≤ saturatingAdd t maxFutureTimestampSkewSecs ∧ t ≤ saturatingAdd t₀ policy.ttlSeconds

section Payload

variable {content messageKey sealKey : Bytes} {policy : MessagePolicy}
  {actualPlaintext : Option Bytes} {sent now : Option ℕ} {entropy : MessageEntropy}
  {gpt : GroupPlaintext} {tag : Bytes}

/-- What `build_group_plaintext` puts into a message. -/
theorem buildGroupPlaintext_eq_ok
    (h : buildGroupPlaintext c content policy messageKey actualPlaintext sent entropy =
      .ok (gpt, tag)) :
    ∃ t₀ sealedKey sealedContent sealedNonce, sent = some t₀ ∧
      sealContent c policy.contentType messageKey actualPlaintext entropy.sealedNonce.1 =
        .ok (sealedKey, sealedContent, sealedNonce) ∧
      gpt =
        { content := content
          policy := some ⟨policy.contentType.toU32, policy.ttlSeconds, t₀⟩
          frankingKey := if policy.frankable then entropy.frankingKey.1 else []
          sealedContent := sealedContent
          sealedNonce := sealedNonce
          prevMessageHash := []
          referencedMessageId := policy.referencedMessageId
          mentions := policy.mentions
          replyContext := policy.replyContext } ∧
      tag = if policy.frankable then
          frankingMac c entropy.frankingKey.1 policy.contentType content sealedContent sealedNonce
            sealedKey
        else [] := by
  simp only [buildGroupPlaintext, except_bind_eq_ok] at h
  obtain ⟨t₀, hsent, ⟨sealedKey, sealedContent, sealedNonce⟩, hseal, h⟩ := h
  cases h
  exact ⟨t₀, sealedKey, sealedContent, sealedNonce, orError_eq_ok.mp hsent, hseal, rfl, rfl⟩

/-- The sealed part of a message passes the receiver's checks and is opened with the seal key of the
message key. -/
theorem sealContent_eq_ok (hc : c.Correct) {nonce : Bytes} {sealed : Bytes × Bytes × Bytes}
    (h : sealContent c contentType messageKey actualPlaintext nonce = .ok sealed)
    (hkey : sealKeyOf c messageKey = .ok sealKey) :
    validateSealedPayloadFields contentType sealed.2.1 sealed.2.2 = .ok () ∧
      sealed.1 = (if contentType.isSealed then sealKey else []) ∧
      (contentType.isSealed = true → sealed.2.1 ≠ [] ∧ ∃ plaintext,
        actualPlaintext = some plaintext ∧
          AesGcm.decrypt c sealKey sealed.2.2 sealed.2.1 sealedAadSuffix = .ok plaintext) := by
  rw [sealContent] at h
  split_ifs at h with hsealed
  · simp only [except_bind_eq_ok, orError_eq_ok] at h
    obtain ⟨plaintext, hplaintext, sealKey', hkey', ct, hct, h⟩ := h
    cases h
    cases hkey.symm.trans hkey'
    have hdecrypt := AesGcm.decrypt_of_encrypt hc hct
    obtain ⟨⟨-, hnonce⟩, htag, -⟩ := AesGcm.decrypt_eq_ok.mp hdecrypt
    refine ⟨?_, (if_pos hsealed).symm, fun _ => ⟨?_, plaintext, hplaintext, hdecrypt⟩⟩
    · rw [validateSealedPayloadFields, if_pos hsealed, except_seq_eq_ok, require_eq_ok,
        require_eq_ok]
      exact ⟨htag, hnonce⟩
    · rintro rfl
      exact absurd htag (by decide)
  · cases h
    exact ⟨if_neg hsealed, (if_neg hsealed).symm, fun h => absurd h hsealed⟩

theorem checkExpiry_of_clockInside {t₀ : ℕ} (hsent : sent = some t₀)
    (hclock : ClockInside policy sent now) :
    checkExpiry policy.contentType policy.ttlSeconds t₀ now = .ok () := by
  rw [checkExpiry]
  split_ifs with hdisappearing
  · obtain ⟨t₀', t, hsent', hnow, hskew, hlife⟩ := hclock hdisappearing
    cases hsent.symm.trans hsent'
    rw [except_bind_eq_ok]
    refine ⟨t, orError_eq_ok.mpr hnow, ?_⟩
    rw [except_seq_eq_ok, require_eq_ok, require_eq_ok]
    exact ⟨hskew, hlife⟩
  · rfl

/-- The franking tag of the sender passes the receiver's check and `verify_franking`. -/
theorem checkFranking_of_frankable (gpt : GroupPlaintext) {frankable mandatoryFranking : Bool}
    (hkey : gpt.frankingKey = if frankable then entropy.frankingKey.1 else [])
    (htag : tag = if frankable then frankingMac c entropy.frankingKey.1 contentType gpt.content
      gpt.sealedContent gpt.sealedNonce (if contentType.isSealed then sealKey else []) else [])
    (hmandatory : mandatoryFranking = true → frankable = true) :
    ∃ frankingData, checkFranking c contentType gpt sealKey tag mandatoryFranking =
        .ok frankingData ∧
      (frankable = true → ∃ data, frankingData = some data ∧ verifyFranking c data = true) := by
  cases frankable with
  | true =>
    have hnonempty : gpt.frankingKey ≠ [] := by
      rw [← List.length_pos_iff_ne_nil, hkey]
      exact entropy.frankingKey.2.symm ▸ Nat.succ_pos 31
    have htagNonempty : tag ≠ [] := by
      rw [← List.length_pos_iff_ne_nil, htag]
      exact (c.length_hmacSha256 _ _).symm ▸ Nat.succ_pos 31
    have hmac : frankingMac c gpt.frankingKey contentType gpt.content gpt.sealedContent
        gpt.sealedNonce (if contentType.isSealed then sealKey else []) = tag := by
      rw [htag, hkey]
      rfl
    let data : FrankingData :=
      { frankingTag := tag
        frankingKey := gpt.frankingKey
        content := gpt.content
        sealedContent := gpt.sealedContent
        contentType := contentType.toU32
        sealedNonce := gpt.sealedNonce
        sealKey := if contentType.isSealed then sealKey else [] }
    refine ⟨some data, ?_, fun _ => ⟨data, rfl, decide_eq_true hmac⟩⟩
    simp only [checkFranking, if_neg hnonempty, except_seq_eq_ok, require_eq_ok]
    exact ⟨fun h => hnonempty h.2, fun h => htagNonempty h.2, hmac, rfl⟩
  | false =>
    have hempty : gpt.frankingKey = [] := hkey
    refine ⟨none, ?_, fun h => (by cases h)⟩
    simp only [checkFranking, if_pos hempty, except_seq_eq_ok, require_eq_ok]
    exact ⟨fun h => (by cases hmandatory h.1), fun h => h.1 hempty, rfl⟩

/-- The receiver's checks of a plaintext follow from the sender's. -/
theorem parseGroupPlaintext_of_build (hc : c.Correct) {mandatoryFranking : Bool} (prev : Bytes)
    (hbuild : buildGroupPlaintext c content policy messageKey actualPlaintext sent entropy =
      .ok (gpt, tag))
    (hcheck : checkMessagePolicy policy = .ok ()) (hclock : ClockInside policy sent now)
    (hfranking : mandatoryFranking = true → policy.frankable = true)
    (hkey : sealKeyOf c messageKey = .ok sealKey) :
    ∃ parsed, parseGroupPlaintext c { gpt with prevMessageHash := prev } sealKey tag
        mandatoryFranking now = .ok parsed ∧
      parsed.contentType = policy.contentType ∧ parsed.ttlSeconds = policy.ttlSeconds ∧
      (policy.contentType.isSealed = true → ∃ payload plaintext,
        parsed.sealedPayload = some payload ∧ actualPlaintext = some plaintext ∧
          revealSealed c payload = .ok plaintext) ∧
      (policy.frankable = true → ∃ data, parsed.frankingData = some data ∧
        verifyFranking c data = true) := by
  obtain ⟨t₀, sealedKey, sealedContent, sealedNonce, hsent, hseal, rfl, htag⟩ :=
    buildGroupPlaintext_eq_ok hbuild
  obtain ⟨hfields, rfl, hreveal⟩ := sealContent_eq_ok hc hseal hkey
  simp only [checkMessagePolicy, except_seq_eq_ok] at hcheck
  obtain ⟨httl, hreferenced⟩ := hcheck
  have hreferenced' : ¬(policy.contentType.isEditOrDelete = true ∧
      policy.referencedMessageId.length ≠ messageIdBytes) := by
    rintro ⟨hedit, hlen⟩
    rw [if_pos hedit, require_eq_ok] at hreferenced
    exact hlen hreferenced
  obtain ⟨frankingData, hmac, hverify⟩ := checkFranking_of_frankable
    { content := content
      policy := some ⟨policy.contentType.toU32, policy.ttlSeconds, t₀⟩
      frankingKey := if policy.frankable then entropy.frankingKey.1 else []
      sealedContent := sealedContent
      sealedNonce := sealedNonce
      prevMessageHash := prev
      referencedMessageId := policy.referencedMessageId
      mentions := policy.mentions
      replyContext := policy.replyContext } rfl htag hfranking
  refine ⟨{ contentType := policy.contentType
            sealedPayload := if policy.contentType.isSealed = true ∧ sealedContent ≠ [] then
              some ⟨content, sealedContent, sealedNonce, sealKey⟩ else none
            frankingData := frankingData
            ttlSeconds := policy.ttlSeconds
            sentTimestamp := t₀ }, ?_, rfl, rfl, fun hsealed => ?_, hverify⟩
  · simp only [parseGroupPlaintext, except_bind_eq_ok, require_eq_ok]
    exact ⟨policy.contentType, ContentType.tryFromWire_toU32 _, (), hfields, (), httl, (),
      checkExpiry_of_clockInside hsent hclock, frankingData, hmac, (), hreferenced', rfl⟩
  · obtain ⟨hne, plaintext, hplaintext, hdecrypt⟩ := hreveal hsealed
    exact ⟨_, plaintext, if_pos ⟨hsealed, hne⟩, hplaintext, hdecrypt⟩

theorem effectivePolicy_eq (group : GroupSecurityPolicy) (policy : MessagePolicy) :
    effectivePolicy group policy =
      { policy with frankable := policy.frankable || group.mandatoryFranking } := by
  rw [effectivePolicy]
  cases group.mandatoryFranking <;> cases hfrankable : policy.frankable <;> simp [← hfrankable]

theorem validateAnnotationsAgainstTree_congr {t t' : RatchetTree} (h : t'.leaves = t.leaves)
    (content : Bytes) (mentions : List GroupMention) (replyContext : Option GroupReplyContext) :
    validateAnnotationsAgainstTree t' content mentions replyContext =
      validateAnnotationsAgainstTree t content mentions replyContext := by
  have hget : t'.getLeafData = t.getLeafData := funext fun i => by
    rw [RatchetTree.getLeafData, RatchetTree.getLeafData, h]
  unfold validateAnnotationsAgainstTree
  rw [hget]

/-- The generations of an epoch fit into the wire's `u32`. -/
theorem toNat_generation {policy : GroupSecurityPolicy} (h : policy.validate = .ok ())
    {generation : ℕ} (hlt : generation < policy.effectiveMaxMessagesPerEpoch) :
    (UInt32.ofNat generation).toNat = generation := by
  simp only [GroupSecurityPolicy.validate, except_seq_eq_ok, require_eq_ok] at h
  have hmax : policy.effectiveMaxMessagesPerEpoch ≤ 100000 := h.2.2.1
  rw [UInt32.toNat_ofNat']
  exact Nat.mod_eq_of_lt (by omega)

/-- The receiver opens the payload that the sender encrypted, with the sender's message key. -/
theorem openPayload_of_build (hc : c.Correct) (hp : Peers c s r) {chain : SenderKeyChain}
    {aad encryptedPayload reuseGuard : Bytes}
    (hlimit : chain.generation < s.securityPolicy.effectiveMaxMessagesPerEpoch)
    (hannotations : validateAnnotationsAgainstTree s.tree content policy.mentions
      policy.replyContext = .ok ())
    (hbuild : buildGroupPlaintext c content (effectivePolicy s.securityPolicy policy)
      (chain.messageKey c) actualPlaintext sent entropy = .ok (gpt, tag))
    (hcheck : checkMessagePolicy policy = .ok ()) (hclock : ClockInside policy sent now)
    (haad : buildPayloadAad s.groupId s.epoch s.myLeafIdx chain.generation = .ok aad)
    (hencrypt : AesGcm.encrypt c (chain.messageKey c) entropy.payloadNonce.1 (MessagePadding.pad
      (wire.plaintext.encode { gpt with prevMessageHash := s.lastSentMessageHash })) aad =
        .ok encryptedPayload) (hpayload : appMsg.encryptedPayload = encryptedPayload)
    (hnonce : appMsg.payloadNonce = entropy.payloadNonce.1) (htag : appMsg.frankingTag = tag) :
    ∃ result, openPayload c wire r appMsg
        ⟨s.myLeafIdx, UInt32.ofNat chain.generation, reuseGuard⟩ (chain.messageKey c) now =
          .ok result ∧
      result.plaintext = content ∧ result.contentType = policy.contentType ∧
      result.ttlSeconds = policy.ttlSeconds ∧ result.mentions = policy.mentions ∧
      result.replyContext = policy.replyContext ∧
      result.referencedMessageId = policy.referencedMessageId ∧
      result.senderLeafIndex = s.myLeafIdx ∧
      (policy.contentType.isSealed = true → ∃ payload plaintext,
        result.sealedPayload = some payload ∧ actualPlaintext = some plaintext ∧
          revealSealed c payload = .ok plaintext) ∧
      (policy.frankable = true ∨ s.securityPolicy.mandatoryFranking = true →
        ∃ data, result.frankingData = some data ∧ verifyFranking c data = true) := by
  have hgeneration := toNat_generation hp.policy_valid hlimit
  have hsealKey : sealKeyOf c (chain.messageKey c) = .ok _ :=
    HkdfSha256.expand_eq c (by decide) (by decide) (c.length_hkdfExpand _ _ _).ge _
  rw [effectivePolicy_eq] at hbuild
  obtain ⟨t₀, _, _, _, -, -, hgpt, -⟩ := buildGroupPlaintext_eq_ok hbuild
  obtain ⟨parsed, hparsed, htype, httl, hsealed, hfranking⟩ := parseGroupPlaintext_of_build hc
    s.lastSentMessageHash hbuild hcheck hclock
    (fun h => (congrArg (policy.frankable || ·) h).trans (Bool.or_true _)) hsealKey
  have hcontent : gpt.content = content := hgpt ▸ rfl
  have hmentions : gpt.mentions = policy.mentions := hgpt ▸ rfl
  have hreply : gpt.replyContext = policy.replyContext := hgpt ▸ rfl
  have hreferenced : gpt.referencedMessageId = policy.referencedMessageId := hgpt ▸ rfl
  refine ⟨{ plaintext := gpt.content
            senderLeafIndex := s.myLeafIdx
            generation := UInt32.ofNat chain.generation
            contentType := parsed.contentType
            sealedPayload := parsed.sealedPayload
            frankingData := parsed.frankingData
            ttlSeconds := parsed.ttlSeconds
            sentTimestamp := parsed.sentTimestamp
            prevMessageHash := s.lastSentMessageHash
            messageId := computeMessageId c r.groupId r.epoch s.myLeafIdx
              (UInt32.ofNat chain.generation).toNat
            referencedMessageId := gpt.referencedMessageId
            mentions := gpt.mentions
            replyContext := gpt.replyContext }, ?_, hcontent, htype, httl, hmentions, hreply,
    hreferenced, rfl, hsealed, fun h => hfranking ((Bool.or_eq_true _ _).mpr h)⟩
  simp only [openPayload, except_bind_eq_ok, mapError_eq_ok]
  refine ⟨aad, ?_, _, ?_, _, hsealKey, _, MessagePadding.unpad_pad _,
    { gpt with prevMessageHash := s.lastSentMessageHash }, wire.plaintext.decode_encode _, (), ?_,
    parsed, ?_, rfl⟩
  · rw [hp.groupId, hp.epoch, hgeneration]
    exact haad
  · rw [hpayload, hnonce]
    exact AesGcm.decrypt_of_encrypt hc hencrypt
  · rw [validateAnnotationsAgainstTree_congr hp.leaves, hcontent, hmentions, hreply]
    exact hannotations
  · rw [htag, hp.policy]
    exact hparsed

end Payload

/-! ## The whole way -/

variable (c) in
/-- The receiver can still get the key of a generation, and its window lets the message in. -/
def Expects (r : GroupSession) (sender generation : ℕ) : Prop :=
  (r.windowOf sender).isDuplicateOrTooOld (UInt32.ofNat generation) = false ∧
    ∃ key, r.senderStore.Offers c sender generation key

/-- `decrypt` from its parts. -/
theorem decrypt_of_parts {messageBytes key : Bytes} {now : Option ℕ} {senderData : GroupSenderData}
    {result : GroupDecryptResult}
    (hheader : openHeader c wire r messageBytes =
      .ok (appMsg, senderData))
    (hwindow : (r.windowOf senderData.senderLeafIndex).isDuplicateOrTooOld
      senderData.generation = false)
    (hkey : r.senderStore.Offers c senderData.senderLeafIndex senderData.generation.toNat key)
    (hpayload : openPayload c wire r appMsg senderData key now = .ok result) :
    ∃ r', (decrypt c wire messageBytes now).run r = .ok result r' := by
  obtain ⟨store, hrun⟩ := offers_iff.mp hkey
  have h : (decrypt c wire messageBytes now).run r = _ := decrypt_run messageBytes now r
  simp only [hheader, hwindow, Bool.false_eq_true, if_false, hrun, hpayload] at h
  exact ⟨_, h⟩

/-- What a member sends, another one that expects the message receives: the content, the policy, the
sealed plaintext, and franking data that verify. -/
theorem decrypt_of_encrypting (hc : c.Correct) (hk : c.ProperKeys) (hp : Peers c s r)
    (call : Encrypting) {sent : Option ℕ} (now : Option ℕ) {entropy : MessageEntropy}
    {message : Bytes}
    (hrun : (call.run c wire sent entropy).run s = .ok message s')
    (hsize : message.length ≤ maxGroupMessageSize) (hclock : ClockInside call.policy sent now)
    (hexpects : ∀ chain, s.senderStore.getChain s.myLeafIdx = some chain →
      Expects c r s.myLeafIdx chain.generation) :
    ∃ result r', (decrypt c wire message now).run r = .ok result r' ∧
      result.plaintext = call.content wire ∧ result.contentType = call.policy.contentType ∧
      result.ttlSeconds = call.policy.ttlSeconds ∧ result.mentions = call.policy.mentions ∧
      result.replyContext = call.policy.replyContext ∧
      result.referencedMessageId = call.policy.referencedMessageId ∧
      result.senderLeafIndex = s.myLeafIdx ∧
      (call.policy.contentType.isSealed = true → ∃ payload plaintext,
        result.sealedPayload = some payload ∧ call.actualPlaintext = some plaintext ∧
          revealSealed c payload = .ok plaintext) ∧
      (call.policy.frankable = true ∨ s.securityPolicy.mandatoryFranking = true →
        ∃ data, result.frankingData = some data ∧ verifyFranking c data = true) := by
  rw [call.run_run] at hrun
  obtain ⟨_, -, hrun⟩ := lift_bind_eq_ok.mp hrun
  obtain ⟨chain, gpt, tag, aad, encryptedPayload, hpending, hcheck, hannotations, hchain, hlimit,
    hbuild, haad, hencrypt, hseal, -⟩ := encryptInternal_eq_ok hrun
  obtain ⟨appMsg, hheader, hpayload, hnonce, htag⟩ :=
    openHeader_of_sealMessage hc hk hp hpending hseal hsize
  obtain ⟨result, hopen, hresult⟩ := openPayload_of_build hc hp hlimit hannotations hbuild hcheck
    hclock haad hencrypt hpayload hnonce htag
  obtain ⟨hwindow, key, hkey⟩ := hexpects chain hchain
  -- both stores follow one chain, so the receiver's key is the sender's
  obtain ⟨base, ⟨⟨n, hn⟩, -⟩, hbase⟩ := hp.chain
  have hkeys : key = chain.messageKey c := by
    rw [hbase.offers hkey]
    cases hn.symm.trans hchain
    rw [SenderKeyChain.keyAt, SenderKeyChain.generation_walk, Nat.add_sub_cancel_left]
  subst hkeys
  obtain ⟨r', hdecrypt⟩ := decrypt_of_parts hheader hwindow
    (by rw [toNat_generation hp.policy_valid hlimit]; exact hkey) hopen
  exact ⟨result, r', hdecrypt, hresult⟩

/-! ## A failed decryption -/

variable (c wire) in
/-- Whether a message can be decrypted at a clock reading. -/
def Decrypts (s : GroupSession) (messageBytes : Bytes) (now : Option ℕ) : Prop :=
  ∃ result s', (decrypt c wire messageBytes now).run s = .ok result s'

variable (c wire) in
/-- Two sessions that read messages alike, apart from the keys they have. -/
structure ReadsAlike (s s₁ : GroupSession) : Prop where
  header : ∀ m, openHeader c wire s₁ m = openHeader c wire s m
  window : ∀ i, s₁.windowOf i = s.windowOf i
  payload : ∀ appMsg senderData key now,
    openPayload c wire s₁ appMsg senderData key now = openPayload c wire s appMsg senderData key now

variable {s₁ : GroupSession} {m : Bytes} {now : Option ℕ}

theorem ReadsAlike.refl (s : GroupSession) : ReadsAlike c wire s s :=
  ⟨fun _ => rfl, fun _ => rfl, fun _ _ _ _ => rfl⟩

theorem readsAlike_lookedUp (s : GroupSession) (i : ℕ) (store : SenderKeyStore) :
    ReadsAlike c wire s (s.lookedUp i store) := by
  refine ⟨fun _ => rfl, fun j => ?_, fun _ _ _ _ => rfl⟩
  change ((s.replayWindows.insert i (s.windowOf i)).get? j).getD .default = s.windowOf j
  rw [OrdMap.get?_insert]
  split_ifs with h
  · rw [h, Option.getD_some]
  · rfl

theorem ReadsAlike.decrypts_iff (h : ReadsAlike c wire s s₁) : Decrypts c wire s₁ m now ↔
    ∃ appMsg senderData key result, openHeader c wire s m = .ok (appMsg, senderData) ∧
      (s.windowOf senderData.senderLeafIndex).isDuplicateOrTooOld senderData.generation = false ∧
      s₁.senderStore.Offers c senderData.senderLeafIndex senderData.generation.toNat key ∧
      openPayload c wire s appMsg senderData key now = .ok result := by
  constructor
  · rintro ⟨result, s', hrun⟩
    obtain ⟨appMsg, senderData, key, store, hheader, hwindow, hkey, hpayload, -⟩ :=
      decrypt_eq_ok hrun
    exact ⟨appMsg, senderData, key, result, (h.header m).symm.trans hheader,
      h.window _ ▸ hwindow, offers_iff.mpr ⟨store, hkey⟩,
      (h.payload _ _ _ _).symm.trans hpayload⟩
  · rintro ⟨appMsg, senderData, key, result, hheader, hwindow, hkey, hpayload⟩
    exact ⟨result, decrypt_of_parts ((h.header m).trans hheader)
      ((h.window _).symm ▸ hwindow) hkey ((h.payload _ _ _ _).trans hpayload)⟩

/-- How `decrypt` fails: before it has the key of the message, and then no clock reading would help
and no key is lost; or on reading the payload, and then the key is gone. -/
theorem decrypt_eq_error {e : ProtocolError}
    (h : (decrypt c wire m now).run s = .error e s₁) : ReadsAlike c wire s s₁ ∧
      ((s₁.senderStore = s.senderStore ∧ ∀ now', ¬ Decrypts c wire s m now') ∨
      ∃ appMsg senderData key, openHeader c wire s m = .ok (appMsg, senderData) ∧
        (getMessageKey c senderData.senderLeafIndex
          senderData.generation.toNat).run s.senderStore = .ok key s₁.senderStore) := by
  have hno : (∀ appMsg senderData key, openHeader c wire s m = .ok (appMsg, senderData) →
      (s.windowOf senderData.senderLeafIndex).isDuplicateOrTooOld senderData.generation = false →
      ¬ s.senderStore.Offers c senderData.senderLeafIndex senderData.generation.toNat key) →
      ∀ now', ¬ Decrypts c wire s m now' := by
    rintro h now' hd
    obtain ⟨appMsg, senderData, key, _, hheader, hwindow, hkey, -⟩ :=
      (ReadsAlike.refl s).decrypts_iff.mp hd
    exact h appMsg senderData key hheader hwindow hkey
  rw [decrypt_run] at h
  split at h
  · rename_i hheader
    cases h
    exact ⟨.refl s, .inl ⟨rfl, hno fun _ _ _ h => by cases hheader.symm.trans h⟩⟩
  · rename_i appMsg senderData hheader
    split_ifs at h with hdup
    · cases h
      refine ⟨readsAlike_lookedUp s _ _, .inl ⟨rfl, hno fun _ _ _ h hwindow => ?_⟩⟩
      cases hheader.symm.trans h
      cases hdup.symm.trans hwindow
    split at h
    · rename_i store hkey
      cases h
      rcases getMessageKey_run (c := c) s.senderStore senderData.senderLeafIndex
        senderData.generation.toNat with ⟨_, -, hrun⟩ | ⟨-, ⟨_, -, -, hrun⟩ | ⟨-, _, hrun⟩⟩
      · cases hkey.symm.trans hrun
      · cases hkey.symm.trans hrun
      · cases hkey.symm.trans hrun
        refine ⟨readsAlike_lookedUp s _ _, .inl ⟨rfl, hno fun _ _ _ h _ hoffers => ?_⟩⟩
        cases hheader.symm.trans h
        obtain ⟨_, hrun'⟩ := offers_iff.mp hoffers
        cases hrun.symm.trans hrun'
    · rename_i key store hkey
      split at h
      · cases h
        exact ⟨readsAlike_lookedUp s _ _, .inr ⟨appMsg, senderData, key, hheader, hkey⟩⟩
      · cases h

deriving instance DecidableEq for SenderKeyChain

/-- The state in which a computation fails. -/
def onFailure {α : Type} (x : SessionM α) (s : GroupSession) : Except ProtocolError GroupSession :=
  match x.run s with
  | .ok _ _ => .error (.generic "no failure")
  | .error _ s' => .ok s'

theorem onFailure_eq_ok {α : Type} {x : SessionM α} :
    onFailure x s = .ok s' ↔ ∃ e, x.run s = .error e s' := by
  rw [onFailure]
  cases x.run s <;> simp

/-- Two members at the start of an epoch. -/
def AtStart (s r : GroupSession) : Prop :=
  r.groupId = s.groupId ∧ r.epoch = s.epoch ∧ r.securityPolicy = s.securityPolicy ∧
    s.securityPolicy = .shield ∧ r.tree.leaves = s.tree.leaves ∧
    r.epochKeys.metadataKey = s.epochKeys.metadataKey ∧ r.pendingReinit = s.pendingReinit ∧
    s.myLeafIdx ≠ r.myLeafIdx ∧
    (s.tree.getLeafData s.myLeafIdx).map (·.identityEd25519Public) =
      some (Crypto.transparent.ed25519Public s.myEd25519Secret.1) ∧
    (s.senderStore.getChain s.myLeafIdx).isSome = true ∧
    r.senderStore.getChain s.myLeafIdx = s.senderStore.getChain s.myLeafIdx ∧
    s.senderStore.skippedKeys = ∅ ∧ r.senderStore.skippedKeys = ∅ ∧
    r.replayWindows.get? s.myLeafIdx = none

instance (s r : GroupSession) : Decidable (AtStart s r) := inferInstanceAs (Decidable (_ ∧ _))

theorem AtStart.peers (h : AtStart s r) : Peers .transparent s r := by
  obtain ⟨hgroup, hepoch, hpolicy, hshield, hleaves, hkey, hpending, hne, hidentity, hsome, hchain,
    hskipped, hskipped', -⟩ := h
  obtain ⟨chain, hown⟩ := Option.isSome_iff_exists.mp hsome
  exact ⟨hgroup, hepoch, hpolicy, hshield ▸ GroupSecurityPolicy.validate_presets.1, hleaves, hkey,
    hpending, hne, Option.map_eq_some_iff.mp hidentity, chain,
    tracks_self hown hskipped,
    tracks_self (hchain.trans hown) hskipped'⟩

/-- Sends a message at the time 1000. -/
def sampleSend (call : Encrypting) (b : UInt8) (s : GroupSession) :
    Except ProtocolError (Bytes × GroupSession) :=
  onCopy (call.run Crypto.transparent Wire.plain (some 1000) (sampleMessageEntropy b)) s

/-- Receives a message. -/
def sampleReceive (m : Bytes) (now : ℕ) : SessionM GroupDecryptResult :=
  decrypt Crypto.transparent Wire.plain m (some now)

/-- Messages from the creator of a group to the member that joined: one that arrives, one that
disappears, and one that comes after five that are lost. -/
def sampleExchange : Except ProtocolError Unit := do
  let (sender, receiver) ← samplePair? .shield
  require (AtStart sender receiver) (.generic "not at the start of an epoch")
  let (message, _) ← sampleSend (.plain [1, 2, 3]) 31 sender
  require (message.length ≤ maxGroupMessageSize) (.generic "too large")
  let (fading, _) ← sampleSend (.disappearing [4] 60) 32 sender
  let (_, _) ← onCopy (sampleReceive fading 1000) receiver
  let receiver₁ ← onFailure (sampleReceive fading 0) receiver
  let _ ← onFailure (sampleReceive fading 1000) receiver₁
  let (_, sender₁) ← sampleSend (.plain [1]) 41 sender
  let (_, sender₂) ← sampleSend (.plain [1]) 42 sender₁
  let (_, sender₃) ← sampleSend (.plain [1]) 43 sender₂
  let (_, sender₄) ← sampleSend (.plain [1]) 44 sender₃
  let (_, sender₅) ← sampleSend (.plain [1]) 45 sender₄
  let (last, _) ← sampleSend (.plain [1]) 46 sender₅
  require (last.length ≤ maxGroupMessageSize) (.generic "too large")
  let _ ← onFailure (sampleReceive last 1000) receiver

theorem sampleExchange_isSome : sampleExchange.toOption.isSome = true := by decide +kernel

theorem reachable_samplePair {policy : GroupSecurityPolicy} {pair : GroupSession × GroupSession}
    (h : samplePair? policy = .ok pair) : Reachable .transparent Wire.plain pair.1 ∧
      Reachable .transparent Wire.plain pair.2 := by
  simp only [samplePair?, except_bind_eq_ok] at h
  obtain ⟨created, hcreated, ⟨keyPackage, _, _⟩, -, ⟨⟨commit, welcome⟩, creator⟩, hadd, joined,
    hjoined, h⟩ := h
  cases h
  refine ⟨?_, .initial (.welcomed hjoined)⟩
  refine (Reachable.initial (.created hcreated)).of_perform (a := .commit (.addMember keyPackage
    { nonce := sampleBytes aesGcmNonceBytes 23, joiner := sampleSealEntropy 24 })
    (samplePathEntropy 22)) (map_eq_ok.mpr ⟨[commit, welcome], ?_, rfl⟩)
  exact bind_of_ok (onCopy_eq_ok.mp hadd)

section Send

variable {call : Encrypting} {b : UInt8} {sending : Bytes × GroupSession}
  (h : sampleSend call b s = .ok sending)

include h

theorem run_of_sampleSend :
    (call.run .transparent Wire.plain (some 1000) (sampleMessageEntropy b)).run s =
      .ok sending.1 sending.2 := onCopy_eq_ok.mp h

theorem reachable_sampleSend (hs : Reachable .transparent Wire.plain s) :
    Reachable .transparent Wire.plain sending.2 :=
  hs.of_perform (a := .encrypt call (some 1000) (sampleMessageEntropy b))
    (map_eq_ok.mpr ⟨sending.1, run_of_sampleSend h, rfl⟩)

theorem peers_sampleSend (hp : Peers .transparent s r) :
    Peers .transparent sending.2 r :=
  hp.of_sameEpoch ((sameEpoch_encrypting call _ _).of_ok (run_of_sampleSend h)) (refl r)

end Send

/-- What the samples show: the two members, a message that fits, a message that is lost by a failed
decryption, and one that comes too far ahead. -/
theorem sampleExchange_spec : ∃ sender receiver,
    AtStart sender receiver ∧ Reachable .transparent Wire.plain sender ∧
    Reachable .transparent Wire.plain receiver ∧
    (∃ message sender', ((Encrypting.plain [1, 2, 3]).run .transparent Wire.plain (some 1000)
        (sampleMessageEntropy 31)).run sender = .ok message sender' ∧
      message.length ≤ maxGroupMessageSize) ∧
    (∃ m e receiver₁, Decrypts .transparent Wire.plain receiver m (some 1000) ∧
      (decrypt .transparent Wire.plain m (some 0)).run receiver = .error e receiver₁ ∧
      ¬ Decrypts .transparent Wire.plain receiver₁ m (some 1000)) ∧
    ∃ sender₅ message sender', Peers .transparent sender₅ receiver ∧
      Reachable .transparent Wire.plain sender₅ ∧
      ((Encrypting.plain [1]).run .transparent Wire.plain (some 1000)
        (sampleMessageEntropy 46)).run sender₅ = .ok message sender' ∧
      message.length ≤ maxGroupMessageSize ∧
      ¬ Decrypts .transparent Wire.plain receiver message (some 1000) := by
  have hfails : ∀ {r r' : GroupSession} {m : Bytes} {now : ℕ},
      onFailure (sampleReceive m now) r = .ok r' →
        ¬ Decrypts .transparent Wire.plain r m (some now) := by
    rintro r r' m now h ⟨result, r'', hrun⟩
    obtain ⟨e, he⟩ := onFailure_eq_ok.mp h
    cases he.symm.trans hrun
  have h := eq_ok_get_toOption sampleExchange_isSome
  simp only [sampleExchange, except_bind_eq_ok, require_eq_ok] at h
  obtain ⟨⟨sender, receiver⟩, hpair, _, hstart, ⟨message, sender'⟩, hsend, _, hsize, ⟨fading, _⟩, -,
    ⟨_, _⟩, hreceive, receiver₁, hfail, _, hlost, ⟨_, _⟩, h₁, ⟨_, _⟩, h₂, ⟨_, _⟩, h₃, ⟨_, _⟩, h₄,
    ⟨_, sender₅⟩, h₅, ⟨last, sender₆⟩, h₆, _, hsize₆, _, hfar, -⟩ := h
  obtain ⟨hsender, hreceiver⟩ := reachable_samplePair hpair
  have hreachable := reachable_sampleSend h₅ (reachable_sampleSend h₄ (reachable_sampleSend h₃
    (reachable_sampleSend h₂ (reachable_sampleSend h₁ hsender))))
  have hpeers := peers_sampleSend h₅ (peers_sampleSend h₄ (peers_sampleSend h₃
    (peers_sampleSend h₂ (peers_sampleSend h₁ hstart.peers))))
  obtain ⟨e, he⟩ := onFailure_eq_ok.mp hfail
  exact ⟨sender, receiver, hstart, hsender, hreceiver, ⟨message, sender', run_of_sampleSend hsend,
    hsize⟩, ⟨fading, e, receiver₁, ⟨_, _, onCopy_eq_ok.mp hreceive⟩, he, hfails hlost⟩,
    sender₅, last, sender₆, hpeers, hreachable, run_of_sampleSend h₆, hsize₆, hfails hfar⟩

theorem decrypt_of_encrypting_sample :
    ∃ s r message result r', Peers Crypto.transparent s r ∧
      (decrypt Crypto.transparent Wire.plain message none).run r = .ok result r' ∧
      result.plaintext = [1, 2, 3] := by
  obtain ⟨s, r, hstart, hs, -, ⟨message, s', hrun, hsize⟩, -⟩ := sampleExchange_spec
  have hp := hstart.peers
  obtain ⟨-, -, -, -, -, -, -, -, -, -, hsame, -, hskipped, hwindow⟩ := hstart
  obtain ⟨chain, _, _, _, _, -, -, -, hchain, hlimit, -⟩ := encryptInternal_eq_ok hrun
  have hreaches : chain.Reaches chain.generation := by
    refine ⟨le_rfl, ?_, by omega⟩
    rwa [(hs.wf Crypto.transparent_correct).maxGeneration _ (mem_of_getChain hchain)]
  have hexpects : Expects .transparent r s.myLeafIdx chain.generation := by
    refine ⟨?_, _, .inr ⟨?_, chain, hsame.trans hchain, hreaches, rfl⟩⟩
    · rw [windowOf, hwindow]
      rfl
    · rw [hskipped]
      rfl
  obtain ⟨result, r', hdecrypt, hplaintext, -⟩ := decrypt_of_encrypting
    Crypto.transparent_correct Crypto.transparent_properKeys hp (.plain [1, 2, 3]) none hrun hsize
    (fun h ↦ by cases h) fun chain' hchain' ↦ by cases hchain.symm.trans hchain'; exact hexpects
  exact ⟨s, r, message, result, r', hp, hdecrypt, hplaintext⟩

/-- A receiver that missed more messages than it may skip does not receive the next one. -/
theorem decrypt_too_far_ahead :
    ∃ s r s' message, Reachable Crypto.transparent Wire.plain s ∧
      Reachable Crypto.transparent Wire.plain r ∧ Peers Crypto.transparent s r ∧
      ((Encrypting.plain [1]).run Crypto.transparent Wire.plain (some 1000)
        (sampleMessageEntropy 46)).run s = .ok message s' ∧
      message.length ≤ maxGroupMessageSize ∧
      ClockInside (Encrypting.plain [1]).policy (some 1000) (some 1000) ∧
      ¬ Decrypts Crypto.transparent Wire.plain r message (some 1000) := by
  obtain ⟨_, r, -, -, hr, -, -, s, message, s', hp, hs, hrun, hsize, hfar⟩ := sampleExchange_spec
  exact ⟨s, r, s', message, hs, hr, hp, hrun, hsize, fun h ↦ (by cases h), hfar⟩

variable (c wire) in
/-- A run of a session, with the names of the messages that it sends. -/
inductive Sends : GroupSession → List MessageName → Prop
  | nil (s : GroupSession) : Sends s []
  | send {call : Encrypting} {s s' now entropy message chain generation l}
      (h : (call.run c wire now entropy).run s = .ok message s')
      (hchain : s.senderStore.getChain s.myLeafIdx = some chain)
      (hgeneration : chain.generation = UInt32.toNat generation) (hrest : Sends s' l) :
      Sends s ((s.epoch, s.myLeafIdx, generation) :: l)
  | other {s l} (a : Action) (hrest : Sends (a.exec c wire s) l) : Sends s l

/-- The key of a message that is sent was not spent before, and it is then. -/
theorem gone_of_send {call : Encrypting} {now : Option ℕ} {entropy : MessageEntropy}
    {message : Bytes} {chain : SenderKeyChain} {generation : UInt32}
    (hwf : s.senderStore.Wf s.securityPolicy)
    (h : (call.run c wire now entropy).run s = .ok message s')
    (hchain : s.senderStore.getChain s.myLeafIdx = some chain)
    (hgeneration : chain.generation = generation.toNat) :
    ¬ Gone s (s.epoch, s.myLeafIdx, generation) ∧ Gone s' (s.epoch, s.myLeafIdx, generation) := by
  rw [call.run_run] at h
  obtain ⟨_, -, h⟩ := lift_bind_eq_ok.mp h
  obtain ⟨_, _, _, _, _, -, -, -, hchain', -, -, -, -, -, rfl⟩ := encryptInternal_eq_ok h
  cases hchain.symm.trans hchain'
  constructor
  · rintro (hlt | ⟨-, hspent⟩)
    · exact lt_irrefl _ hlt
    · exact (hspent.2 chain hchain).ne hgeneration.symm
  · refine .inr ⟨rfl, Option.eq_none_iff_forall_ne_some.mpr fun key hkey => ?_, fun next hnext => ?_⟩
    · obtain ⟨_, hchain', hlt⟩ := hwf.skipped _ _ key hkey
      cases hchain.symm.trans hchain'
      exact hlt.ne hgeneration.symm
    · cases (getChain_setChain_self hchain).symm.trans hnext
      rw [SenderKeyChain.generation_walk, hgeneration]
      exact Nat.lt_succ_self _

end GroupSession

end AuraProtocol.Group
