import AuraProtocol.Group.Lifecycle
import AuraProtocol.Relay.Roster

/-!
# Messages at the relay

`validate_group_message_for_relay_strict` of `api/relay.rs` checks a group message with the
roster, without the keys of the group, and binds it to a sender.  A member's `decrypt` checks the
same signature over the same bytes, so a message that a member accepts from a leaf passes the
relay for that leaf, with one exception: the relay compares the version in front of the message,
which `decrypt` does not look at and the signature does not cover (`relay_passes_decrypted_iff`).
-/

namespace AuraProtocol.Relay

open Fallible AuraProtocol.Group

variable (c : Crypto) (wire : Group.Wire) {msg : GroupMessage} {app : GroupApplicationMessage}

/-! ## The checks of the relay -/

/-- `append_len_prefixed` of the relay: what it appends. -/
def appendLenPrefixed (bytes : Bytes) : Except ProtocolError Bytes := do
  require (bytes.length < 2 ^ 32) (.invalidInput "length prefix exceeds u32")
  .ok (lenPrefixed bytes)

/-- `build_app_signature_input` of the relay. -/
def buildAppSignatureInput (groupId : Bytes) (epoch : ℕ) (appMsg : GroupApplicationMessage) :
    Except ProtocolError Bytes := do
  let groupId ← appendLenPrefixed groupId
  let encryptedSenderData ← appendLenPrefixed appMsg.encryptedSenderData
  let senderDataNonce ← appendLenPrefixed appMsg.senderDataNonce
  let encryptedPayload ← appendLenPrefixed appMsg.encryptedPayload
  let payloadNonce ← appendLenPrefixed appMsg.payloadNonce
  let frankingTag ← appendLenPrefixed appMsg.frankingTag
  .ok (groupMessageSignatureInfo ++ leBytes 4 groupProtocolVersion ++ leBytes 8 epoch ++ groupId ++
    encryptedSenderData ++ senderDataNonce ++ encryptedPayload ++ payloadNonce ++ frankingTag)

/-- The match on the content in `validate_group_message_for_relay_core` and its callers. -/
def applicationOf (msg : GroupMessage) : Except ProtocolError GroupApplicationMessage :=
  match msg.content with
  | some (.application app) => .ok app
  | _ => .error (.groupProtocol "Expected application message content")

def validateGroupMessageForRelayCore (messageBytes : Bytes) (roster : GroupRoster) :
    Except ProtocolError GroupMessage := do
  require (messageBytes.length ≤ maxGroupMessageSize) (.invalidInput "GroupMessage too large")
  let msg ← (wire.message.decode messageBytes).mapError fun e => .decode s!"GroupMessage decode: {e}"
  require (msg.version = groupProtocolVersion) (.groupProtocol
    (s!"GroupMessage protocol version mismatch: expected {groupProtocolVersion}, " ++
      s!"got {msg.version}"))
  require (msg.groupId = roster.groupId) (.groupProtocol "GroupMessage group_id mismatch")
  require (msg.epoch = roster.epoch) (.groupProtocol
    s!"GroupMessage epoch mismatch: expected {roster.epoch}, got {msg.epoch}")
  let _ ← applicationOf msg
  .ok msg

def validateGroupMessageForRelayStrict (messageBytes : Bytes) (roster : GroupRoster)
    (senderLeafIndex : ℕ) (expectedSenderIdentityEd25519 : Bytes) :
    Except ProtocolError Unit := do
  let msg ← validateGroupMessageForRelayCore wire messageBytes roster
  let app ← applicationOf msg
  let sender ← orError (roster.findMember senderLeafIndex) (.groupMembership
    s!"Sender leaf {senderLeafIndex} is not a group member")
  bindSenderIdentity sender expectedSenderIdentityEd25519
  let signatureInput ← buildAppSignatureInput msg.groupId msg.epoch { app with senderSignature := [] }
  verifyEd25519Message c sender.identityEd25519Public app.senderSignature signatureInput
    "Sender Ed25519 signature verification failed"

/-! ## Rosters of a group -/

/-- What a roster has about the member of a leaf. -/
def memberRecord (leafIndex : ℕ) (leaf : LeafData) : GroupMemberRecord where
  leafIndex := leafIndex
  identityEd25519Public := leaf.identityEd25519Public
  identityX25519Public := leaf.identityX25519Public
  credential := leaf.credential

/-- The roster has the group id, the epoch and the members of a session. -/
structure RosterOf (s : GroupSession) (roster : GroupRoster) : Prop where
  groupId : roster.groupId = s.groupId
  epoch : roster.epoch = s.epoch
  members : ∀ i, roster.findMember i = (s.tree.getLeafData i).map (memberRecord i)

/-- The members of a list of leaves, which starts at some index. -/
def memberRecords : ℕ → List (Option LeafData) → List GroupMemberRecord
  | _, [] => []
  | i, none :: leaves => memberRecords (i + 1) leaves
  | i, some leaf :: leaves => memberRecord i leaf :: memberRecords (i + 1) leaves

theorem find?_memberRecords_of_lt {i start : ℕ} (h : i < start) (leaves : List (Option LeafData)) :
    (memberRecords start leaves).find? (fun m => m.leafIndex = i) = none := by
  induction leaves generalizing start with
  | nil => rfl
  | cons leaf leaves ih =>
    cases leaf with
    | none => exact ih (h.trans (Nat.lt_succ_self start))
    | some leaf =>
      rw [memberRecords, List.find?_cons_of_neg (by simp [memberRecord, h.ne'])]
      exact ih (h.trans (Nat.lt_succ_self start))

theorem find?_memberRecords (start i : ℕ) (leaves : List (Option LeafData)) :
    (memberRecords start leaves).find? (fun m => m.leafIndex = start + i) =
      leaves[i]?.join.map (memberRecord (start + i)) := by
  induction leaves generalizing start i with
  | nil => rfl
  | cons leaf leaves ih =>
    cases i with
    | zero =>
      cases leaf with
      | none => exact find?_memberRecords_of_lt (Nat.lt_succ_self start) leaves
      | some leaf => simp [memberRecords, memberRecord]
    | succ i =>
      have hshift : start + (i + 1) = start + 1 + i := by omega
      rw [hshift, List.getElem?_cons_succ, ← ih]
      cases leaf with
      | none => rfl
      | some leaf =>
        have hne : start ≠ start + 1 + i := by omega
        exact List.find?_cons_of_neg (by simp [memberRecord, hne])

/-- The roster of a session. -/
def rosterOf (s : GroupSession) : GroupRoster := ⟨s.groupId, s.epoch, memberRecords 0 s.tree.leaves⟩

theorem rosterOf_rosterOf (s : GroupSession) : RosterOf s (rosterOf s) := by
  refine ⟨rfl, rfl, fun i => ?_⟩
  have hfind := find?_memberRecords 0 i s.tree.leaves
  rwa [Nat.zero_add] at hfind

/-! ## Accepted by a member, passed by the relay -/

variable {c wire} {s s' : GroupSession} {roster : GroupRoster} {messageBytes : Bytes}

/-- The signed byte strings of an application message have at most some length. -/
def FieldsWithin (limit : ℕ) (app : GroupApplicationMessage) : Prop :=
  app.encryptedSenderData.length ≤ limit ∧ app.senderDataNonce.length ≤ limit ∧
    app.encryptedPayload.length ≤ limit ∧ app.payloadNonce.length ≤ limit ∧
    app.frankingTag.length ≤ limit

instance (limit : ℕ) (app : GroupApplicationMessage) : Decidable (FieldsWithin limit app) :=
  inferInstanceAs (Decidable (_ ∧ _))

/-- The byte strings of an application message are not longer than the bytes it was decoded from. -/
structure DecodesWithin (wire : Group.Wire) (messageBytes : Bytes) : Prop where
  within : ∀ msg app, wire.message.decode messageBytes = .ok msg →
    msg.content = some (.application app) → FieldsWithin messageBytes.length app

theorem appendLenPrefixed_eq_ok {bytes out : Bytes} :
    appendLenPrefixed bytes = .ok out ↔ bytes.length < 2 ^ 32 ∧ out = lenPrefixed bytes := by
  rw [appendLenPrefixed, except_seq_eq_ok, require_eq_ok, Except.ok.injEq, eq_comm]

/-- Within the sizes of a message both signature inputs are the same. -/
theorem buildAppSignatureInput_eq (hwithin : DecodesWithin wire messageBytes)
    (hsize : messageBytes.length ≤ maxGroupMessageSize)
    (hdecode : wire.message.decode messageBytes = .ok msg)
    (happ : msg.content = some (.application app)) {groupId : Bytes}
    (hgroup : groupId.length = groupIdBytes) (epoch : ℕ) :
    buildAppSignatureInput groupId epoch { app with senderSignature := [] } =
      .ok (GroupSession.buildAppSignatureInput groupId epoch { app with senderSignature := [] }) := by
  obtain ⟨hdata, hdataNonce, hpayload, hpayloadNonce, htag⟩ := hwithin.within msg app hdecode happ
  have hmax : maxGroupMessageSize < 2 ^ 32 := by decide
  have hid : groupIdBytes < 2 ^ 32 := by decide
  simp only [buildAppSignatureInput, except_bind_eq_ok, appendLenPrefixed_eq_ok]
  exact ⟨_, ⟨by omega, rfl⟩, _, ⟨by omega, rfl⟩, _, ⟨by omega, rfl⟩, _, ⟨by omega, rfl⟩, _,
    ⟨by omega, rfl⟩, _, ⟨by omega, rfl⟩, rfl⟩

/-- What `decrypt` checked of a message before it looked at any key of the sender. -/
structure Opened (c : Crypto) (wire : Group.Wire) (s : GroupSession) (messageBytes : Bytes)
    (msg : GroupMessage) (app : GroupApplicationMessage) (senderData : GroupSenderData)
    (leaf : LeafData) : Prop where
  size : messageBytes.length ≤ maxGroupMessageSize
  decode : wire.message.decode messageBytes = .ok msg
  groupId : msg.groupId = s.groupId
  epoch : msg.epoch = s.epoch
  content : msg.content = some (.application app)
  length_groupId : s.groupId.length = groupIdBytes
  sender : s.tree.getLeafData senderData.senderLeafIndex = some leaf
  signature : Verifies c leaf.identityEd25519Public app.senderSignature
    (GroupSession.buildAppSignatureInput s.groupId s.epoch { app with senderSignature := [] })

theorem opened_of_openHeader {senderData : GroupSenderData}
    (h : GroupSession.openHeader c wire s messageBytes = .ok (app, senderData)) :
    ∃ msg leaf, Opened c wire s messageBytes msg app senderData leaf := by
  simp only [GroupSession.openHeader, except_bind_eq_ok, require_eq_ok, mapError_eq_ok] at h
  obtain ⟨_, hsize, msg, hdecode, _, -, _, hgroup, _, hepoch, h⟩ := h
  split at h
  · rename_i app' happ
    simp only [except_bind_eq_ok, require_eq_ok, mapError_eq_ok, orError_eq_ok] at h
    obtain ⟨aad, haad, _, -, data, -, _, -, leaf, hleaf, _, hsign, heq⟩ := h
    obtain ⟨rfl, rfl⟩ := Prod.mk.inj (Except.ok.inj heq)
    exact ⟨msg, leaf, hsize, hdecode, hgroup, hepoch, happ,
      require_eq_ok.mp (except_seq_eq_ok.mp haad).1, hleaf, verifyWith_eq_ok.mp hsign⟩
  · cases h

theorem applicationOf_eq_ok :
    applicationOf msg = .ok app ↔ msg.content = some (.application app) := by
  rw [applicationOf]
  split
  · rename_i app' happ
    rw [happ, Except.ok.injEq, Option.some.injEq, Content.application.injEq]
  · rename_i hnone
    exact ⟨fun h => (by cases h), fun h => absurd h (hnone app)⟩

theorem validateGroupMessageForRelayCore_eq_ok :
    validateGroupMessageForRelayCore wire messageBytes roster = .ok msg ↔
      messageBytes.length ≤ maxGroupMessageSize ∧ wire.message.decode messageBytes = .ok msg ∧
        msg.version = groupProtocolVersion ∧ msg.groupId = roster.groupId ∧
        msg.epoch = roster.epoch ∧ ∃ app, msg.content = some (.application app) := by
  simp only [validateGroupMessageForRelayCore, except_bind_eq_ok, require_eq_ok, mapError_eq_ok,
    applicationOf_eq_ok, Except.ok.injEq]
  constructor
  · rintro ⟨_, hsize, msg', hdecode, _, hversion, _, hgroup, _, hepoch, app, happ, rfl⟩
    exact ⟨hsize, hdecode, hversion, hgroup, hepoch, app, happ⟩
  · rintro ⟨hsize, hdecode, hversion, hgroup, hepoch, app, happ⟩
    exact ⟨(), hsize, msg, hdecode, (), hversion, (), hgroup, (), hepoch, app, happ, rfl⟩

/-- A message that a member accepts from a leaf passes the relay for that leaf and its identity
exactly if the version in front of it is the current one. -/
theorem relay_passes_decrypted_iff {now : Option ℕ} {result : GroupDecryptResult}
    {identity : Bytes} (hroster : RosterOf s roster) (hwithin : DecodesWithin wire messageBytes)
    (hdecrypt : (GroupSession.decrypt c wire messageBytes now).run s = .ok result s')
    (hidentity : (s.tree.getLeafData result.senderLeafIndex).map (·.identityEd25519Public) =
      some identity) :
    validateGroupMessageForRelayStrict c wire messageBytes roster result.senderLeafIndex identity =
        .ok () ↔
      ∃ msg, wire.message.decode messageBytes = .ok msg ∧ msg.version = groupProtocolVersion := by
  obtain ⟨app, senderData, key, store, hheader, -, -, hpayload, -⟩ :=
    GroupSession.decrypt_eq_ok hdecrypt
  obtain ⟨msg, leaf, hopened⟩ := opened_of_openHeader hheader
  have hsender := (GroupSession.openPayload_eq_ok hpayload).1
  rw [hsender] at hidentity ⊢
  rw [hopened.sender] at hidentity
  cases hidentity
  simp only [validateGroupMessageForRelayStrict, except_bind_eq_ok,
    validateGroupMessageForRelayCore_eq_ok]
  constructor
  · rintro ⟨msg', ⟨-, hdecode, hversion, -⟩, -⟩
    exact ⟨msg', hdecode, hversion⟩
  · rintro ⟨msg', hdecode, hversion⟩
    cases hopened.decode.symm.trans hdecode
    refine ⟨msg, ⟨hopened.size, hdecode, hversion, hopened.groupId.trans hroster.groupId.symm,
      hopened.epoch.trans hroster.epoch.symm, app, hopened.content⟩, app,
      applicationOf_eq_ok.mpr hopened.content, memberRecord senderData.senderLeafIndex leaf, ?_, (),
      require_eq_ok.mpr rfl, GroupSession.buildAppSignatureInput s.groupId s.epoch
        { app with senderSignature := [] }, ?_, verifyWith_eq_ok.mpr hopened.signature⟩
    · rw [orError_eq_ok, hroster.members, hopened.sender]
      rfl
    · rw [hopened.groupId, hopened.epoch]
      exact buildAppSignatureInput_eq hwithin hopened.size hopened.decode hopened.content
        hopened.length_groupId s.epoch

/-! ## A message of another version -/

/-- A member of the example group receives a message, and the same message under another version;
both come from leaf 0, and the relay is asked about both. -/
def sampleRelayed : Except ProtocolError Unit := do
  let (sender, receiver) ← samplePair? .standard
  let (message, _) ← onCopy (GroupSession.encrypt .transparent .plain [1, 2, 3] (some 1000)
    (GroupSession.sampleMessageEntropy 31)) sender
  let msg ← (Group.Wire.plain.message.decode message).mapError .decode
  let app ← applicationOf msg
  require (msg.version = groupProtocolVersion ∧ FieldsWithin message.length app)
    (.generic "not a message")
  let identity ← orError ((receiver.tree.getLeafData 0).map (·.identityEd25519Public))
    (.generic "no sender")
  let (result, _) ← onCopy (GroupSession.decrypt .transparent .plain message (some 1000)) receiver
  require (result.senderLeafIndex = 0) (.generic "another sender")
  let altered := Group.Wire.plain.message.encode { msg with version := 7 }
  let (result', _) ← onCopy (GroupSession.decrypt .transparent .plain altered (some 1000)) receiver
  require (result'.senderLeafIndex = 0 ∧
      (validateGroupMessageForRelayStrict .transparent .plain altered (rosterOf receiver) 0
        identity).isOk = false)
    (.generic "passed")

theorem sampleRelayed_isSome : sampleRelayed.toOption.isSome = true := by decide +kernel

/-- What the example shows. -/
theorem sampleRelayed_spec : ∃ s message altered identity,
    (s.tree.getLeafData 0).map (·.identityEd25519Public) = some identity ∧
    DecodesWithin .plain message ∧
    (∃ msg, Group.Wire.plain.message.decode message = .ok msg ∧
      msg.version = groupProtocolVersion) ∧
    (∃ result s', (GroupSession.decrypt .transparent .plain message (some 1000)).run s =
      .ok result s' ∧ result.senderLeafIndex = 0) ∧
    (∃ result s', (GroupSession.decrypt .transparent .plain altered (some 1000)).run s =
      .ok result s' ∧ result.senderLeafIndex = 0) ∧
    validateGroupMessageForRelayStrict .transparent .plain altered (rosterOf s) 0 identity ≠
      .ok () := by
  have h := eq_ok_get_toOption sampleRelayed_isSome
  simp only [sampleRelayed, except_bind_eq_ok, require_eq_ok, mapError_eq_ok, orError_eq_ok,
    applicationOf_eq_ok, onCopy_eq_ok] at h
  obtain ⟨⟨sender, receiver⟩, -, ⟨message, _⟩, -, msg, hdecode, app, happ, _, ⟨hversion, hwithin⟩,
    identity, hidentity, ⟨result, s'⟩, hdecrypt, _, hsender, ⟨result', s''⟩, hdecrypt', hsender',
    hrejects⟩ := h
  refine ⟨receiver, message, _, identity, hidentity, ⟨fun msg' app' hdecode' happ' => ?_⟩,
    ⟨msg, hdecode, hversion⟩, ⟨result, s', hdecrypt, hsender⟩, ⟨result', s'', hdecrypt', hsender'⟩,
    fun hok => ?_⟩
  · cases hdecode.symm.trans hdecode'
    cases happ.symm.trans happ'
    exact hwithin
  · rw [hok] at hrejects
    cases hrejects

theorem relay_rejects_decrypted : ∃ s roster messageBytes result s' identity,
    RosterOf s roster ∧
    (GroupSession.decrypt .transparent .plain messageBytes (some 1000)).run s = .ok result s' ∧
    (s.tree.getLeafData result.senderLeafIndex).map (·.identityEd25519Public) = some identity ∧
    validateGroupMessageForRelayStrict .transparent .plain messageBytes roster
      result.senderLeafIndex identity ≠ .ok () := by
  obtain ⟨s, -, altered, identity, hidentity, -, -, -, ⟨result, s', hdecrypt, hsender⟩, hrejects⟩ :=
    sampleRelayed_spec
  refine ⟨s, rosterOf s, altered, result, s', identity, rosterOf_rosterOf s, hdecrypt, ?_, ?_⟩
  · rw [hsender, hidentity]
  · rwa [hsender]

theorem relay_passes_decrypted_sample : ∃ s roster messageBytes result s' identity,
    RosterOf s roster ∧
    (GroupSession.decrypt .transparent .plain messageBytes (some 1000)).run s = .ok result s' ∧
    validateGroupMessageForRelayStrict .transparent .plain messageBytes roster
      result.senderLeafIndex identity = .ok () := by
  obtain ⟨s, message, -, identity, hidentity, hwithin, hversion, ⟨result, s', hdecrypt, hsender⟩, -⟩ :=
    sampleRelayed_spec
  refine ⟨s, rosterOf s, message, result, s', identity, rosterOf_rosterOf s, hdecrypt, ?_⟩
  refine (relay_passes_decrypted_iff (rosterOf_rosterOf s) hwithin hdecrypt ?_).mpr hversion
  rw [hsender, hidentity]

end AuraProtocol.Relay
