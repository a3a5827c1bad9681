import AuraProtocol.Crypto.Instance
import AuraProtocol.Voip.CallKeys

/-!
# Agreement on the keys of a call

What the two parties of a call share once the callee has accepted and the caller has
finished.  Undisturbed, they hold mirrored keys.  With the messages rewritten on the way,
what each side believes about the call is still the same, because each side has checked a
signature of the other over it: the fields of a signed message have fixed sizes, so the
message determines them.

Each side checks the signature with the other's identity key, which it knows.  That nobody
else can sign with that key is a hypothesis about the two signatures that were delivered.
-/

namespace AuraProtocol.Voip

open Fallible KyberInterop List

variable {c : Crypto} {secret publicKey kyberKey peerKyberPublic rawCallId eph ct peerPublic signature
  mac kemRandom : Bytes} {callId : CallId} {context : CallInitAuthContext}
  {screenShare localScreenShare : Option ScreenShareMetadata} {ephSecret : Key}
  {context' : CallInitAuthContext}

/-! ## Signed messages determine their fields -/

@[simp] theorem length_callInitAuthContext (context : CallInitAuthContext) :
    (callInitAuthContext context).length = 17 := by
  simp [callInitAuthContext]

theorem callInitAuthContext_injective
    (h : callInitAuthContext context = callInitAuthContext context') : context = context' := by
  have hfield : ∀ {n m : UInt32}, leBytes 4 n.toNat = leBytes 4 m.toNat → n = m := by
    intro n m hbytes
    exact UInt32.toNat_inj.mp (leBytes_injective n.toNat_lt m.toNat_lt hbytes)
  simp only [callInitAuthContext, append_assoc] at h
  obtain ⟨hversion, h⟩ := append_inj h (by simp)
  obtain ⟨hmedia, h⟩ := append_inj h (by simp)
  obtain ⟨hinterval, h⟩ := append_inj h (by simp)
  obtain ⟨hrekey, hshield⟩ := append_inj h (by simp)
  have hflag : ∀ a b : Bool, [if a then (1 : UInt8) else 0] = [if b then 1 else 0] → a = b := by
    decide
  have hmedia' : context.mediaType = context'.mediaType :=
    Int32.toBitVec_inj.mp (congrArg UInt32.toBitVec (hfield hmedia))
  cases context
  cases context'
  rw [CallInitAuthContext.mk.injEq]
  exact ⟨hfield hversion, hmedia', hfield hinterval, hfield hrekey, hflag _ _ hshield⟩

/-- A signed call message determines the call, the ephemeral key, the ciphertext and the
context. -/
theorem callSignatureMessage_inj {callId' : CallId} {eph' ct' message : Bytes}
    {screenShare' : Option ScreenShareMetadata} (heph : eph.length = eph'.length)
    (hct : ct.length = ct'.length)
    (h : callSignatureMessage callId eph ct context screenShare = .ok message)
    (h' : callSignatureMessage callId' eph' ct' context' screenShare' = .ok message) :
    callId = callId' ∧ eph = eph' ∧ ct = ct' ∧ context = context' := by
  obtain ⟨tail, -, hmessage⟩ := except_bind_eq_ok.mp h
  obtain ⟨tail', -, hmessage'⟩ := except_bind_eq_ok.mp h'
  have heq := (Except.ok.inj hmessage).trans (Except.ok.inj hmessage').symm
  simp only [callMaterialMessage, append_assoc] at heq
  obtain ⟨hid, heq⟩ := append_inj heq (callId.2.trans callId'.2.symm)
  obtain ⟨heph', heq⟩ := append_inj heq heph
  obtain ⟨hct', heq⟩ := append_inj heq hct
  obtain ⟨hcontext, -⟩ := append_inj heq (by simp)
  exact ⟨Subtype.ext hid, heph', hct', callInitAuthContext_injective hcontext⟩

theorem verifyCallSignature_eq_ok :
    verifyCallSignatureWithContext c publicKey callId eph ct signature context screenShare =
        .ok () ↔
      publicKey.length = ed25519PublicKeyBytes ∧ signature.length = ed25519SignatureBytes ∧
        c.ed25519KeyValid publicKey = true ∧
          ∃ message, callSignatureMessage callId eph ct context screenShare = .ok message ∧
            c.ed25519Verify publicKey message signature = true := by
  simp only [verifyCallSignatureWithContext, ↓except_seq_eq_ok, except_bind_eq_ok, require_eq_ok,
    exists_const]

/-! ## The three functions of the exchange -/

theorem callerInit_eq_ok {out : CallInitOutput} :
    callerInit c secret publicKey peerKyberPublic context screenShare callId ephSecret kemRandom =
        .ok out ↔
      ∃ kem, encapsulate c peerKyberPublic kemRandom = .ok kem ∧
        ∃ signature, signCallMaterialWithContext c secret callId (c.x25519Public ephSecret.1) kem.1
          context screenShare = .ok signature ∧
        ⟨callId, c.x25519Public ephSecret.1, kem.1, publicKey, signature,
          computeKeyConfirmMacWithContext c kem.2 voipKeyConfirmCallerInfo callId context, ephSecret,
          kem.2⟩ = out := by
  simp only [callerInit, except_bind_eq_ok, Except.ok.injEq]

theorem calleeAccept_eq_ok {out : CallAcceptOutput} :
    calleeAccept c secret publicKey kyberKey peerKyberPublic rawCallId eph ct peerPublic signature
        mac context screenShare localScreenShare ephSecret kemRandom = .ok out ↔
      ∃ callId : CallId, rawCallId = callId.1 ∧
        verifyCallSignatureWithContext c peerPublic callId eph ct signature context screenShare =
          .ok () ∧
        ∃ callerSs, decapsulate c ct kyberKey = .ok callerSs ∧
        mac = computeKeyConfirmMacWithContext c callerSs voipKeyConfirmCallerInfo callId context ∧
        ∃ classicalSs, computeDh c ephSecret.1 eph "callee_eph × caller_eph" = .ok classicalSs ∧
        ∃ kem, encapsulate c peerKyberPublic kemRandom = .ok kem ∧
        ∃ own, signCallMaterialWithContext c secret callId (c.x25519Public ephSecret.1) kem.1 context
          localScreenShare = .ok own ∧
        ⟨c.x25519Public ephSecret.1, kem.1, publicKey, own, computeKeyConfirmMacWithContext c
            (combineHybridSecrets c classicalSs (callerSs ++ kem.2) voipRootSecretInfo).1
            voipKeyConfirmCalleeInfo callId context,
          deriveCallKeys c (combineHybridSecrets c classicalSs (callerSs ++ kem.2)
            voipRootSecretInfo) callId false context.shieldMode⟩ = out := by
  simp only [calleeAccept, ↓except_seq_eq_ok, except_bind_eq_ok, require_eq_ok, checkCallId_eq_ok,
    Except.ok.injEq]

theorem callerFinish_eq_ok {init : CallInitOutput} {keys : CallKeyMaterial} :
    callerFinish c init kyberKey rawCallId eph ct peerPublic signature mac context screenShare =
        .ok keys ↔
      ∃ callId : CallId, rawCallId = callId.1 ∧
        verifyCallSignatureWithContext c peerPublic callId eph ct signature context screenShare =
          .ok () ∧
        ∃ classicalSs, computeDh c init.ephemeralX25519Private.1 eph "caller_eph × callee_eph" =
          .ok classicalSs ∧
        ∃ calleeSs, decapsulate c ct kyberKey = .ok calleeSs ∧
        mac = computeKeyConfirmMacWithContext c
          (combineHybridSecrets c classicalSs (init.kyberSharedSecret ++ calleeSs)
            voipRootSecretInfo).1 voipKeyConfirmCalleeInfo callId context ∧
        deriveCallKeys c (combineHybridSecrets c classicalSs (init.kyberSharedSecret ++ calleeSs)
          voipRootSecretInfo) callId true context.shieldMode = keys := by
  simp only [callerFinish, ↓except_seq_eq_ok, except_bind_eq_ok, require_eq_ok, checkCallId_eq_ok,
    Except.ok.injEq]

/-! ## Agreement -/

/-- The identity keys of a party. -/
structure CallParty where
  ed25519Secret : Bytes
  kyberSeed : Bytes

namespace CallParty

/-- The verifying key of a party. -/
def ed25519Public (c : Crypto) (p : CallParty) : Bytes := c.ed25519Public p.ed25519Secret

/-- The decapsulation key of a party. -/
def kyberSecret (c : Crypto) (p : CallParty) : Bytes := (c.kemKeygen p.kyberSeed).1

/-- The encapsulation key of a party. -/
def kyberPublic (c : Crypto) (p : CallParty) : Bytes := (c.kemKeygen p.kyberSeed).2

end CallParty

/-- What a party believes about a call it has set up. -/
structure CallView where
  callId : Bytes
  authContext : CallInitAuthContext
  callerEphemeral : Bytes
  calleeEphemeral : Bytes
  callerCiphertext : Bytes
  calleeCiphertext : Bytes

/-- The fields of a call message on the wire. -/
structure CallMessage where
  callId : Bytes
  ephemeralX25519Public : Bytes
  kyberCiphertext : Bytes
  signature : Bytes
  keyConfirmationMac : Bytes

/-- The message of an init. -/
def CallInitOutput.message (init : CallInitOutput) : CallMessage :=
  ⟨init.callId.1, init.ephemeralX25519Public, init.kyberCiphertext, init.signature,
    init.keyConfirmationMac⟩

/-- The message of an accept. -/
def CallAcceptOutput.message (accept : CallAcceptOutput) (callId : Bytes) : CallMessage :=
  ⟨callId, accept.ephemeralX25519Public, accept.kyberCiphertext, accept.signature,
    accept.keyConfirmationMac⟩

/-- The message that the signature of a call message is checked for. -/
def CallMessage.signatureMessage (received : CallMessage) (context : CallInitAuthContext)
    (screenShare : Option ScreenShareMetadata) : Except ProtocolError Bytes := do
  let callId ← checkCallId received.callId
  callSignatureMessage callId received.ephemeralX25519Public received.kyberCiphertext context
    screenShare

/-- A delivered signature is not forged: it verifies for the checked message only if the owner of
the key signed that message. -/
def Unforged (c : Crypto) (publicKey signature : Bytes) (checked signed : Except ProtocolError Bytes) :
    Prop :=
  ∀ message, checked = .ok message → c.ed25519Verify publicKey message signature = true →
    signed = .ok message

section Exchange

variable (c) (caller callee : CallParty)

/-- The caller starts a call. -/
def startCall (context : CallInitAuthContext) (screenShare : Option ScreenShareMetadata)
    (callId : CallId) (ephSecret : Key) (kemRandom : Bytes) : Except ProtocolError CallInitOutput :=
  callerInit c caller.ed25519Secret (caller.ed25519Public c) (callee.kyberPublic c) context
    screenShare callId ephSecret kemRandom

/-- The callee accepts the init it received. -/
def acceptCall (received : CallMessage) (context : CallInitAuthContext)
    (peerScreenShare localScreenShare : Option ScreenShareMetadata) (ephSecret : Key)
    (kemRandom : Bytes) : Except ProtocolError CallAcceptOutput :=
  calleeAccept c callee.ed25519Secret (callee.ed25519Public c) (callee.kyberSecret c)
    (caller.kyberPublic c) received.callId received.ephemeralX25519Public received.kyberCiphertext
    (caller.ed25519Public c) received.signature received.keyConfirmationMac context peerScreenShare
    localScreenShare ephSecret kemRandom

/-- The caller finishes with the accept it received. -/
def finishCall (init : CallInitOutput) (received : CallMessage) (context : CallInitAuthContext)
    (peerScreenShare : Option ScreenShareMetadata) : Except ProtocolError CallKeyMaterial :=
  callerFinish c init (caller.kyberSecret c) received.callId received.ephemeralX25519Public
    received.kyberCiphertext (callee.ed25519Public c) received.signature
    received.keyConfirmationMac context peerScreenShare

end Exchange

section Agreement

variable {caller callee : CallParty} {ephCaller ephCallee : Key} {kemCaller kemCallee : Bytes}
  {init : CallInitOutput} {accept : CallAcceptOutput} {keys : CallKeyMaterial}
  {received received' : CallMessage} {calleeContext callerContext : CallInitAuthContext}
  {calleePeerShare calleeShare callerPeerShare : Option ScreenShareMetadata}

/-- What the callee believes after it has accepted. -/
def calleeView (received : CallMessage) (context : CallInitAuthContext) (accept : CallAcceptOutput) :
    CallView :=
  ⟨received.callId, context, received.ephemeralX25519Public, accept.ephemeralX25519Public,
    received.kyberCiphertext, accept.kyberCiphertext⟩

/-- What the caller believes after it has finished. -/
def callerView (init : CallInitOutput) (received : CallMessage) (context : CallInitAuthContext) :
    CallView :=
  ⟨received.callId, context, init.ephemeralX25519Public, received.ephemeralX25519Public,
    init.kyberCiphertext, received.kyberCiphertext⟩

section

variable (hc : c.Correct)
    (hinit : startCall c caller callee context screenShare callId ephCaller kemCaller = .ok init)
    (haccept : acceptCall c caller callee received calleeContext calleePeerShare calleeShare ephCallee
      kemCallee = .ok accept)
    (hfinish : finishCall c caller callee init received' callerContext callerPeerShare = .ok keys)
include hinit haccept hfinish

include hc in
/-- Parties with the same view of a call hold mirrored keys. -/
theorem mirror_of_view_eq
    (hview : calleeView received calleeContext accept = callerView init received' callerContext) :
    keys = accept.keyMaterial.mirror := by
  obtain ⟨kem, hkem, sigInit, -, rfl⟩ := callerInit_eq_ok.mp hinit
  obtain ⟨id, hid, -, callerSs, hdecaps, -, classicalSs, hdh, kem', hkem', sigAccept, -, rfl⟩ :=
    calleeAccept_eq_ok.mp haccept
  obtain ⟨id', hid', -, classicalSs', hdh', calleeSs, hdecaps', -, rfl⟩ :=
    callerFinish_eq_ok.mp hfinish
  obtain ⟨hcall, hcontext, heph, heph', hct, hct'⟩ := CallView.mk.inj hview
  -- the secrets each side computes are those the other side chose
  have hclassical : classicalSs = classicalSs' := by
    rw [heph] at hdh
    rw [← heph'] at hdh'
    rw [← (computeDh_eq_ok.mp hdh).2.2.2, ← (computeDh_eq_ok.mp hdh').2.2.2]
    exact hc.dh_comm _ _
  have hcallerSs : callerSs = kem.2 := by
    rw [hct] at hdecaps
    exact Except.ok.inj (hdecaps.symm.trans (decapsulate_of_encapsulate hc hkem))
  have hcalleeSs : calleeSs = kem'.2 := by
    rw [← hct'] at hdecaps'
    exact Except.ok.inj (hdecaps'.symm.trans (decapsulate_of_encapsulate hc hkem'))
  have hid'' : id = id' := Subtype.ext (hid.symm.trans (hcall.trans hid'))
  subst hclassical hcallerSs hcalleeSs hid''
  change calleeContext = callerContext at hcontext
  subst hcontext
  exact deriveCallKeys_not c _ _ false _

/-- If both sides succeed, each on a signature of the other, they have the same view of the call,
and it is the caller's own. -/
theorem views_agree
    (hcaller : Unforged c (caller.ed25519Public c) received.signature
      (received.signatureMessage calleeContext calleePeerShare)
      (init.message.signatureMessage context screenShare))
    (hcallee : Unforged c (callee.ed25519Public c) received'.signature
      (received'.signatureMessage callerContext callerPeerShare)
      ((accept.message received.callId).signatureMessage calleeContext calleeShare)) :
    calleeView received calleeContext accept = callerView init received' callerContext ∧
      received'.callId = callId.1 ∧ callerContext = context := by
  obtain ⟨kem, hkem, sigInit, -, rfl⟩ := callerInit_eq_ok.mp hinit
  obtain ⟨id, hid, hverify, callerSs, hdecaps, -, classicalSs, hdh, kem', hkem', sigAccept, -,
    rfl⟩ := calleeAccept_eq_ok.mp haccept
  obtain ⟨id', hid', hverify', classicalSs', hdh', calleeSs, hdecaps', -, -⟩ :=
    callerFinish_eq_ok.mp hfinish
  obtain ⟨-, -, -, message, hmessage, hsignature⟩ := verifyCallSignature_eq_ok.mp hverify
  obtain ⟨-, -, -, message', hmessage', hsignature'⟩ := verifyCallSignature_eq_ok.mp hverify'
  have hchecked : received.signatureMessage calleeContext calleePeerShare = .ok message :=
    except_bind_eq_ok.mpr ⟨id, checkCallId_eq_ok.mpr hid, hmessage⟩
  have hchecked' : received'.signatureMessage callerContext callerPeerShare = .ok message' :=
    except_bind_eq_ok.mpr ⟨id', checkCallId_eq_ok.mpr hid', hmessage'⟩
  obtain ⟨signedId, hsignedId, hsigned⟩ :=
    except_bind_eq_ok.mp (hcaller message hchecked hsignature)
  obtain ⟨signedId', hsignedId', hsigned'⟩ :=
    except_bind_eq_ok.mp (hcallee message' hchecked' hsignature')
  -- ephemeral keys and ciphertexts have their fixed sizes on both sides
  have hephLen : received.ephemeralX25519Public.length = (c.x25519Public ephCaller.1).length := by
    rw [(computeDh_eq_ok.mp hdh).1.2, c.length_x25519Public]
    rfl
  have hephLen' : received'.ephemeralX25519Public.length = (c.x25519Public ephCallee.1).length := by
    rw [(computeDh_eq_ok.mp hdh').1.2, c.length_x25519Public]
    rfl
  have hkemLen : ∀ {pk r : Bytes} {out : Bytes × Bytes},
      encapsulate c pk r = .ok out → out.1.length = kyberCiphertextBytes := by
    intro pk r out hout
    rw [(encapsulate_eq_ok.mp hout).2.2]
    exact c.length_kemEncaps_ciphertext _ _
  have hctLen : received.kyberCiphertext.length = kem.1.length :=
    (decapsulate_eq_ok.mp hdecaps).1.trans (hkemLen hkem).symm
  have hctLen' : received'.kyberCiphertext.length = kem'.1.length :=
    (decapsulate_eq_ok.mp hdecaps').1.trans (hkemLen hkem').symm
  obtain ⟨heqId, heqEph, heqCt, heqContext⟩ :=
    callSignatureMessage_inj hephLen hctLen hmessage hsigned
  obtain ⟨heqId', heqEph', heqCt', heqContext'⟩ :=
    callSignatureMessage_inj hephLen' hctLen' hmessage' hsigned'
  -- the caller signed its own call identifier, the callee the one it received
  have hown : id = callId := heqId.trans (Subtype.ext (checkCallId_eq_ok.mp hsignedId).symm)
  have hown' : id' = id :=
    heqId'.trans (Subtype.ext ((checkCallId_eq_ok.mp hsignedId').symm.trans hid))
  subst hown hown' heqContext heqContext'
  refine ⟨?_, hid', rfl⟩
  rw [calleeView, callerView, heqEph, heqCt, heqEph', heqCt', hid, hid']

end

/-! ## The exchange as a whole -/

/-- Keys, context and call identifier of an example call. -/
def sampleCaller : CallParty := ⟨List.replicate 64 1, [1]⟩

@[inherit_doc sampleCaller]
def sampleCallee : CallParty := ⟨List.replicate 64 2, [2]⟩

@[inherit_doc sampleCaller]
def sampleContext : CallInitAuthContext := ⟨2, 4, 512, 60, true⟩

@[inherit_doc sampleCaller]
def sampleCallId : CallId := ⟨List.replicate 32 9, rfl⟩

@[inherit_doc sampleCaller]
def sampleShare : ScreenShareMetadata := ⟨1920, 1080, 30, some (ascii "av1")⟩

/-- The example call, up to the caller's keys. -/
def sampleCall (ephemeral ephemeral' : Key) : Except ProtocolError CallKeyMaterial := do
  let init ← startCall .transparent sampleCaller sampleCallee sampleContext (some sampleShare)
    sampleCallId ephemeral [5]
  let accept ← acceptCall .transparent sampleCaller sampleCallee init.message sampleContext
    (some sampleShare) none ephemeral' [6]
  finishCall .transparent sampleCaller sampleCallee init (accept.message sampleCallId.1)
    sampleContext none

end Agreement

end AuraProtocol.Voip
