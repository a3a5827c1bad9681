import AuraProtocol.Voip.Runs

/-!
# Delivery of frames between two sessions

Two sessions with mirrored keys send frames to each other over a channel that may lose,
reorder and duplicate them; there is no rekey.  The frames of one direction form a stream:
its media keys are the chain of one initial key, its header key and nonce prefix are fixed.

The receiver's ratchet stands in the generation of the last frame it accepted, and its replay
window for the counters it accepted.  A frame of the stream is accepted exactly if its counter
passes the window and its generation is not behind the receiver's nor more than eight ahead,
and then it gives the header and the payload that were sent.
-/

namespace AuraProtocol.Voip

open Fallible Function

variable {header : FrameHeader} {payload : Bytes} {frame : EncryptedFrame} {out : DecryptedFrame}

/-! ## Streams -/

/-- What one direction of a call is encrypted with. -/
structure Stream where
  callId : CallId
  mediaKey : Key
  headerKey : Key
  noncePrefix : NoncePrefix

/-- A frame with what it was made from. -/
structure SentFrame where
  header : FrameHeader
  payload : Bytes
  frame : EncryptedFrame

namespace Stream

variable {c : Crypto} {σ : Stream} {f : SentFrame} {s s' : VoipSession} {generation : ℕ}

/-- The ratchet of a stream in some generation. -/
def ratchet (c : Crypto) (σ : Stream) (generation : ℕ) : MediaKeyRatchet :=
  ratchetAt c σ.mediaKey σ.noncePrefix generation

/-- The frame belongs to the stream: it was encrypted with the stream's keys of its generation and
counter. -/
structure Carries (c : Crypto) (σ : Stream) (f : SentFrame) : Prop where
  callId : f.frame.callId = σ.callId.1
  ssrc : f.header.ssrc = f.frame.ssrc
  payload : MediaCrypto.encryptFrame c
    ((σ.ratchet c f.frame.ratchetGeneration).frameKey c f.frame.frameCounter) σ.noncePrefix
    f.frame.frameCounter f.payload (buildFrameAad σ.callId f.frame.ssrc f.frame.frameCounter
      f.frame.ratchetGeneration) = .ok f.frame.encryptedPayload
  header : MediaCrypto.encryptHeader c σ.headerKey σ.noncePrefix f.frame.frameCounter
    f.header.serialize = .ok f.frame.encryptedHeader

/-- The session sends on the stream, in some generation. -/
structure Sends (c : Crypto) (σ : Stream) (s : VoipSession) : Prop where
  callId : s.callId = σ.callId
  headerKey : s.headerKeySend = σ.headerKey
  ratchet : ∃ generation, s.sendRatchet = σ.ratchet c generation

/-- The session receives the stream, in the given generation. -/
structure Receives (c : Crypto) (σ : Stream) (generation : ℕ) (s : VoipSession) : Prop where
  active : s.state = .active
  callId : s.callId = σ.callId
  headerKey : s.headerKeyRecv = σ.headerKey
  ratchet : s.recvRatchet = σ.ratchet c generation

section

variable (hc : c.Correct) (hf : σ.Carries c f) (hs : σ.Receives c generation s)
include hc hf hs

/-- A frame of the stream passes the size checks. -/
theorem Carries.checkDecrypt : checkDecrypt f.frame s = .ok () := by
  have hpayload := MediaCrypto.length_of_encryptFrame hc hf.payload
  have hheader : f.frame.encryptedHeader.length ≤ maxVoipEncryptedHeaderSize := by
    rw [MediaCrypto.length_of_encryptHeader hc hf.header, FrameHeader.length_serialize]
    decide
  rw [Voip.checkDecrypt, except_seq_eq_ok, except_seq_eq_ok, except_seq_eq_ok, require_eq_ok,
    require_eq_ok, require_eq_ok, require_eq_ok, hs.callId]
  exact ⟨hs.active, hf.callId, hpayload, hheader⟩

/-- Opening a frame of the stream depends on its generation only. -/
theorem Carries.openFrame_iff {opened : FrameHeader × Bytes × RatchetSnapshot} :
    openFrame c f.frame s = .ok opened ↔
      (generation ≤ f.frame.ratchetGeneration ∧
        f.frame.ratchetGeneration ≤ generation + maxSkippedRatchetGenerations) ∧
      opened = (f.header, f.payload, (σ.ratchet c f.frame.ratchetGeneration).snapshot) := by
  have hpayload := MediaCrypto.decryptFrame_of_encryptFrame hc hf.payload
  have hheader := MediaCrypto.decryptHeader_of_encryptHeader hc hf.header
  have hparse := FrameHeader.deserialize_serialize f.header
  rw [openFrame, hs.ratchet, hs.callId, hs.headerKey, except_bind_eq_ok]
  constructor
  · rintro ⟨⟨mediaKey, snapshot⟩, hkey, h⟩
    obtain ⟨hrange, hout⟩ := speculativeFrameKey_ratchetAt.mp hkey
    obtain ⟨rfl, rfl⟩ := Prod.mk.inj hout
    obtain ⟨payload, hpayload', h⟩ := except_bind_eq_ok.mp h
    obtain rfl := Except.ok.inj (hpayload.symm.trans hpayload')
    obtain ⟨headerBytes, hheader', h⟩ := except_bind_eq_ok.mp h
    obtain rfl := Except.ok.inj (hheader.symm.trans hheader')
    obtain ⟨header, hparse', h⟩ := except_bind_eq_ok.mp h
    obtain rfl := Except.ok.inj (hparse.symm.trans hparse')
    obtain ⟨-, h⟩ := except_seq_eq_ok.mp h
    exact ⟨hrange, (Except.ok.inj h).symm⟩
  · rintro ⟨hrange, rfl⟩
    refine ⟨_, speculativeFrameKey_ratchetAt.mpr ⟨hrange, rfl⟩, ?_⟩
    refine except_bind_eq_ok.mpr ⟨_, hpayload, except_bind_eq_ok.mpr ⟨_, hheader, ?_⟩⟩
    exact except_bind_eq_ok.mpr ⟨_, hparse, except_seq_eq_ok.mpr ⟨require_eq_ok.mpr hf.ssrc, rfl⟩⟩

/-- When a receiver accepts a frame of the stream, and what it gets. -/
theorem Carries.decryptFrame_iff :
    (decryptFrame c f.frame).run s = .ok out s' ↔
      (s.replayWindow.check f.frame.frameCounter = true ∧
        generation ≤ f.frame.ratchetGeneration ∧
          f.frame.ratchetGeneration ≤ generation + maxSkippedRatchetGenerations) ∧
      out = ⟨f.header, f.payload, f.frame.frameCounter, f.frame.ratchetGeneration⟩ ∧
        s' = s.accept f.frame.frameCounter (σ.ratchet c f.frame.ratchetGeneration).snapshot := by
  rw [decryptFrame_eq_ok]
  constructor
  · rintro ⟨-, hpass, opened, hopen, rfl, rfl⟩
    obtain ⟨hrange, rfl⟩ := (hf.openFrame_iff hc hs).mp hopen
    exact ⟨⟨hpass, hrange⟩, rfl, rfl⟩
  · rintro ⟨⟨hpass, hrange⟩, rfl, rfl⟩
    exact ⟨hf.checkDecrypt hc hs, hpass, _, (hf.openFrame_iff hc hs).mpr ⟨hrange, rfl⟩, rfl, rfl⟩

end

/-- A receiver that accepted a frame stands in the frame's generation. -/
theorem Receives.accept (hs : σ.Receives c generation s) (frameCounter target : ℕ) :
    σ.Receives c target (s.accept frameCounter (σ.ratchet c target).snapshot) := by
  refine ⟨hs.active, hs.callId, hs.headerKey, ?_⟩
  change s.recvRatchet.commitSnapshot _ = _
  rw [hs.ratchet]
  exact commitSnapshot_ratchetAt target

/-- A ratchet step keeps to the stream. -/
theorem Sends.advanceIfDue (hs : σ.Sends c s) (h : (Voip.advanceIfDue c).run s = .ok () s') :
    σ.Sends c s' := by
  rcases advanceIfDue_eq_ok.mp h with ⟨-, rfl⟩ | ⟨-, r, hr, rfl⟩
  · exact hs
  · obtain ⟨generation, hratchet⟩ := hs.ratchet
    rw [hratchet] at hr
    exact ⟨hs.callId, hs.headerKey, generation + 1, advanceGeneration_ratchetAt hr⟩

/-- A frame that a sender returns belongs to the stream. -/
theorem Sends.carries (hs : σ.Sends c s) (hssrc : header.ssrc = s.ssrc)
    (h : sealFrame c header payload s = .ok frame) : σ.Carries c ⟨header, payload, frame⟩ := by
  obtain ⟨encryptedPayload, encryptedHeader, hpayload, hheader, rfl⟩ := sealFrame_eq_ok.mp h
  obtain ⟨generation, hratchet⟩ := hs.ratchet
  rw [VoipSession.mediaKey, hratchet, hs.callId] at hpayload
  rw [hratchet, hs.headerKey] at hheader
  refine ⟨congrArg Subtype.val hs.callId, hssrc, ?_, hheader⟩
  change MediaCrypto.encryptFrame c ((σ.ratchet c s.sendRatchet.generation).frameKey c _) _ _ _
    (buildFrameAad _ _ _ s.sendRatchet.generation) = _
  rw [hratchet]
  exact hpayload

end Stream

/-- Sending does not touch the receiving side of a session. -/
def SameReceiving (s s' : VoipSession) : Prop :=
  s'.state = s.state ∧ s'.callId = s.callId ∧ s'.headerKeyRecv = s.headerKeyRecv ∧
    s'.recvRatchet = s.recvRatchet ∧ s'.replayWindow = s.replayWindow

section Frames

variable {c : Crypto} {s s' : VoipSession}

theorem SameReceiving.of_advanceIfDue (h : (advanceIfDue c).run s = .ok () s') :
    SameReceiving s s' := by
  rcases advanceIfDue_eq_ok.mp h with ⟨-, rfl⟩ | ⟨-, r, -, rfl⟩ <;> exact ⟨rfl, rfl, rfl, rfl, rfl⟩

theorem SameReceiving.of_encryptFrame (header : FrameHeader) (payload : Bytes) (s : VoipSession) :
    SameReceiving s (endState ((encryptFrame c header payload).run s)) := by
  cases hrun : (encryptFrame c header payload).run s with
  | ok frame s' =>
    obtain ⟨-, s₁, hadvance, -, rfl⟩ := encryptFrame_eq_ok.mp hrun
    have hsame : SameReceiving s s₁ := .of_advanceIfDue hadvance
    exact hsame
  | error e s' =>
    rcases state_of_encryptFrame_error hrun with rfl | ⟨-, hadvance, -⟩
    · exact ⟨rfl, rfl, rfl, rfl, rfl⟩
    · exact SameReceiving.of_advanceIfDue hadvance

theorem Stream.Receives.congr {σ : Stream} {generation : ℕ} (hs : σ.Receives c generation s)
    (h : SameReceiving s s') : σ.Receives c generation s' :=
  ⟨h.1.trans hs.active, h.2.1.trans hs.callId, h.2.2.1.trans hs.headerKey,
    h.2.2.2.1.trans hs.ratchet⟩

end Frames

/-! ## Two sessions -/

/-- The other side of a call. -/
def CallRole.peer : CallRole → CallRole
  | .caller => .callee
  | .callee => .caller

/-- Two sessions, the frames each has sent, and the frames each has accepted, newest first. -/
structure Conversation where
  session : CallRole → VoipSession
  sent : CallRole → List SentFrame
  accepted : CallRole → List DecryptedFrame

/-- What happens in a conversation: a side encrypts a frame, or some frame the other side has sent
reaches it. -/
inductive Event where
  | send (role : CallRole) (header : FrameHeader) (payload : Bytes)
  | deliver (role : CallRole) (index : ℕ)

namespace Conversation

/-- A conversation of two new sessions. -/
def start (caller callee : VoipSession) : Conversation where
  session
    | .caller => caller
    | .callee => callee
  sent _ := []
  accepted _ := []

/-- One step of a conversation. -/
def step (c : Crypto) (k : Conversation) : Event → Conversation
  | .send role header payload =>
    match (encryptFrame c header payload).run (k.session role) with
    | .ok frame s =>
      { k with
        session := update k.session role s
        sent := update k.sent role (k.sent role ++ [⟨header, payload, frame⟩]) }
    | .error _ s => { k with session := update k.session role s }
  | .deliver role index =>
    match (k.sent role.peer)[index]? with
    | none => k
    | some f =>
      match (decryptFrame c f.frame).run (k.session role) with
      | .ok out s =>
        { k with
          session := update k.session role s
          accepted := update k.accepted role (out :: k.accepted role) }
      | .error _ s => { k with session := update k.session role s }

/-- A whole conversation. -/
def exec (c : Crypto) (k : Conversation) (events : List Event) : Conversation :=
  events.foldl (step c) k

end Conversation

/-- The counters of the accepted frames. -/
def acceptedCounters (accepted : List DecryptedFrame) : Finset ℕ :=
  (accepted.map (·.frameCounter)).toFinset

/-- The generation of the frame accepted last. -/
def lastGeneration : List DecryptedFrame → ℕ
  | [] => 0
  | f :: _ => f.ratchetGeneration

/-- What one side of a conversation keeps: it sends on its own stream and receives the other's, in
the generation and with the counters of the frames it accepted. -/
structure SideOk (c : Crypto) (own peer : Stream) (s : VoipSession) (sent : List SentFrame)
    (accepted : List DecryptedFrame) : Prop where
  sends : own.Sends c s
  receives : peer.Receives c (lastGeneration accepted) s
  tracks : s.replayWindow.Tracks (acceptedCounters accepted)
  carries : ∀ f ∈ sent, own.Carries c f

namespace SideOk

variable {c : Crypto} {own peer : Stream} {s s' : VoipSession} {sent : List SentFrame}
  {accepted : List DecryptedFrame}

section

variable (h : SideOk c own peer s sent accepted)
include h

theorem encryptFrame_ok
    (hrun : (encryptFrame c header payload).run s = .ok frame s') :
    SideOk c own peer s' (sent ++ [⟨header, payload, frame⟩]) accepted := by
  have hsame : SameReceiving s s' := by
    have := SameReceiving.of_encryptFrame (c := c) header payload s
    rwa [hrun] at this
  obtain ⟨hcheck, s₁, hadvance, hseal, rfl⟩ := encryptFrame_eq_ok.mp hrun
  have hsends : own.Sends c s₁ := h.sends.advanceIfDue hadvance
  have hssrc : header.ssrc = s₁.ssrc := by
    rcases advanceIfDue_eq_ok.mp hadvance with ⟨-, rfl⟩ | ⟨-, r, -, rfl⟩ <;>
      exact (checkEncrypt_eq_ok.mp hcheck).2.1
  refine ⟨⟨hsends.callId, hsends.headerKey, hsends.ratchet⟩, h.receives.congr hsame,
    by rw [hsame.2.2.2.2]; exact h.tracks, fun f hf => ?_⟩
  rcases List.mem_append.mp hf with hold | hnew
  · exact h.carries f hold
  · rw [List.mem_singleton.mp hnew]
    exact hsends.carries hssrc hseal

theorem encryptFrame_error {e : ProtocolError}
    (hrun : (encryptFrame c header payload).run s = .error e s') :
    SideOk c own peer s' sent accepted := by
  rcases state_of_encryptFrame_error hrun with rfl | ⟨-, hadvance, -⟩
  · exact h
  · have hsame := SameReceiving.of_advanceIfDue hadvance
    exact ⟨h.sends.advanceIfDue hadvance, h.receives.congr hsame,
      by rw [hsame.2.2.2.2]; exact h.tracks, h.carries⟩

theorem decryptFrame_ok (hc : c.Correct) {f : SentFrame}
    (hf : peer.Carries c f) (hrun : (decryptFrame c f.frame).run s = .ok out s') :
    SideOk c own peer s' sent (out :: accepted) := by
  obtain ⟨⟨hpass, -⟩, rfl, rfl⟩ := (hf.decryptFrame_iff hc h.receives).mp hrun
  have hset : acceptedCounters (⟨f.header, f.payload, f.frame.frameCounter,
      f.frame.ratchetGeneration⟩ :: accepted) =
      insert f.frame.frameCounter (acceptedCounters accepted) := List.toFinset_cons
  refine ⟨⟨h.sends.callId, h.sends.headerKey, h.sends.ratchet⟩, h.receives.accept _ _, ?_, h.carries⟩
  rw [hset]
  exact h.tracks.mark hpass

theorem decryptFrame_error {e : ProtocolError}
    (hrun : (decryptFrame c frame).run s = .error e s') : SideOk c own peer s' sent accepted := by
  rcases state_of_decryptFrame_error hrun with rfl | rfl
  · exact h
  · exact ⟨⟨h.sends.callId, h.sends.headerKey, h.sends.ratchet⟩,
      ⟨h.receives.active, h.receives.callId, h.receives.headerKey, h.receives.ratchet⟩, h.tracks,
      h.carries⟩

end

end SideOk

/-- Both sides of a conversation are in order. -/
def Conversation.Ok (c : Crypto) (σ : CallRole → Stream) (k : Conversation) : Prop :=
  ∀ role, SideOk c (σ role) (σ role.peer) (k.session role) (k.sent role) (k.accepted role)

namespace Conversation

variable {c : Crypto} {σ : CallRole → Stream} {k : Conversation}

/-- A step of one side is a matter of that side. -/
theorem Ok.update (h : k.Ok c σ) {role : CallRole} {s : VoipSession} {sent : List SentFrame}
    {accepted : List DecryptedFrame}
    (hside : SideOk c (σ role) (σ role.peer) s sent accepted) :
    Ok c σ ⟨update k.session role s, update k.sent role sent,
      update k.accepted role accepted⟩ := by
  intro other
  by_cases hrole : other = role
  · subst hrole
    simpa only [update_self] using hside
  · simpa only [update_of_ne hrole] using h other

theorem step_ok (hc : c.Correct) (h : k.Ok c σ) (event : Event) : (k.step c event).Ok c σ := by
  cases event with
  | send role header payload =>
    rw [step]
    cases hrun : (encryptFrame c header payload).run (k.session role) with
    | ok frame s =>
      have hside := h.update ((h role).encryptFrame_ok hrun)
      rwa [update_eq_self] at hside
    | error e s =>
      have hside := h.update ((h role).encryptFrame_error hrun)
      rwa [update_eq_self, update_eq_self] at hside
  | deliver role index =>
    rw [step]
    cases hget : (k.sent role.peer)[index]? with
    | none => exact h
    | some f =>
      have hf : (σ role.peer).Carries c f :=
        (h role.peer).carries f (List.mem_of_getElem? hget)
      dsimp only
      cases hrun : (decryptFrame c f.frame).run (k.session role) with
      | ok out s =>
        have hside := h.update ((h role).decryptFrame_ok hc hf hrun)
        rwa [update_eq_self] at hside
      | error e s =>
        have hside := h.update ((h role).decryptFrame_error hrun)
        rwa [update_eq_self, update_eq_self] at hside

theorem exec_ok (hc : c.Correct) (h : k.Ok c σ) (events : List Event) :
    (k.exec c events).Ok c σ := by
  induction events generalizing k with
  | nil => exact h
  | cons event events ih => exact ih (step_ok hc h event)

/-! ## Mirrored sessions -/

/-- The streams of two sessions with mirrored keys. -/
def streams (callId : CallId) (keys : CallKeyMaterial) : CallRole → Stream
  | .caller => ⟨callId, keys.mediaKeySend, keys.headerKeySend, keys.noncePrefixSend⟩
  | .callee => ⟨callId, keys.mediaKeyRecv, keys.headerKeyRecv, keys.noncePrefixRecv⟩

variable {keys : CallKeyMaterial} {rawCallId : Bytes} {interval interval' rekey rekey' : ℕ}
  {shield shield' : Bool} {share share' : Option ScreenShareMetadata} {now now' : ℕ}
  {ssrc ssrc' : UInt32} {caller callee : VoipSession}

theorem start_ok (c : Crypto)
    (hcaller : fromKeyMaterial rawCallId .caller keys interval rekey shield share now ssrc =
      .ok caller)
    (hcallee : fromKeyMaterial rawCallId .callee keys.mirror interval' rekey' shield' share' now'
      ssrc' = .ok callee) :
    ∃ callId, (start caller callee).Ok c (streams callId keys) := by
  obtain ⟨callId, hid, -, rfl⟩ := fromKeyMaterial_eq_ok.mp hcaller
  obtain ⟨callId', hid', -, rfl⟩ := fromKeyMaterial_eq_ok.mp hcallee
  obtain rfl : callId = callId' := Subtype.ext (hid.symm.trans hid')
  refine ⟨callId, fun role => ?_⟩
  cases role <;>
    exact ⟨⟨rfl, rfl, 0, rfl⟩, ⟨rfl, rfl, rfl, rfl⟩, ReplayWindow.tracks_new,
      fun f hf => (by cases hf)⟩

/-- Whatever was lost, reordered or duplicated so far: a frame that reaches the other side is
accepted exactly if its counter is new and less than the window size below the largest accepted
one, and its generation is at least that of the frame accepted last and at most eight more.  What
is accepted is the header and the payload that were sent. -/
theorem delivery_over_run (hc : c.Correct)
    (hcaller : fromKeyMaterial rawCallId .caller keys interval rekey shield share now ssrc =
      .ok caller)
    (hcallee : fromKeyMaterial rawCallId .callee keys.mirror interval' rekey' shield' share' now'
      ssrc' = .ok callee)
    (events : List Event) (role : CallRole) {f : SentFrame}
    (hf : f ∈ ((start caller callee).exec c events).sent role.peer) :
    ((∃ out s', (decryptFrame c f.frame).run (((start caller callee).exec c events).session role) =
        .ok out s') ↔
      f.frame.frameCounter ∉
        acceptedCounters (((start caller callee).exec c events).accepted role) ∧
      (acceptedCounters (((start caller callee).exec c events).accepted role) = ∅ ∨
        (acceptedCounters (((start caller callee).exec c events).accepted role)).sup id -
          f.frame.frameCounter < windowSize) ∧
      lastGeneration (((start caller callee).exec c events).accepted role) ≤
        f.frame.ratchetGeneration ∧
      f.frame.ratchetGeneration ≤
        lastGeneration (((start caller callee).exec c events).accepted role) + 8) ∧
    ∀ out s', (decryptFrame c f.frame).run (((start caller callee).exec c events).session role) =
        .ok out s' → out.header = f.header ∧ out.payload = f.payload := by
  obtain ⟨callId, hstart⟩ := start_ok c hcaller hcallee
  have hok := exec_ok hc hstart events
  have hcarries : (streams callId keys role.peer).Carries c f := (hok role.peer).carries f hf
  constructor
  · rw [← tracks_iff_max, ← and_assoc, ← (hok role).tracks.check_iff]
    constructor
    · rintro ⟨out, s', hrun⟩
      exact ((hcarries.decryptFrame_iff hc (hok role).receives).mp hrun).1
    · intro h
      exact ⟨_, _, (hcarries.decryptFrame_iff hc (hok role).receives).mpr ⟨h, rfl, rfl⟩⟩
  · intro out s' hrun
    obtain ⟨-, rfl, -⟩ := (hcarries.decryptFrame_iff hc (hok role).receives).mp hrun
    exact ⟨rfl, rfl⟩

/-- Three frames of the caller, of which the first was delivered. -/
def sampleEvents : List Event :=
  [.send .caller ⟨96, 17, 0, 0⟩ [1], .deliver .callee 0, .send .caller ⟨96, 17, 160, 1⟩ [2],
   .send .caller ⟨96, 17, 320, 2⟩ [3]]

/-- The example call after these events. -/
def sampleConversation : Conversation :=
  (start (sampleSession .caller) (sampleSession .callee)).exec .transparent sampleEvents

theorem delivery_over_run_sample :
    ∃ f ∈ sampleConversation.sent .caller, f.frame.ratchetGeneration = 1 ∧
      ∃ out s', (decryptFrame .transparent f.frame).run (sampleConversation.session .callee) =
        .ok out s' ∧ out.header = f.header ∧ out.payload = f.payload := by
  have hsent : (sampleConversation.sent .caller)[2]?.map
      (fun f ↦ (f.frame.frameCounter, f.frame.ratchetGeneration)) = some (2, 1) := by
    decide +kernel
  have haccepted : (sampleConversation.accepted .callee).map
      (fun f ↦ (f.frameCounter, f.ratchetGeneration)) = [(0, 0)] := by decide +kernel
  obtain ⟨f, hget, hnumbers⟩ := Option.map_eq_some_iff.mp hsent
  obtain ⟨hcounter, hgeneration⟩ := Prod.mk.inj hnumbers
  have hmem : f ∈ sampleConversation.sent .caller := List.mem_of_getElem? hget
  have hmem' : f ∈ ((start (sampleSession .caller) (sampleSession .callee)).exec .transparent
      sampleEvents).sent CallRole.callee.peer := by
    rw [CallRole.peer, ← sampleConversation]
    exact hmem
  have hmirror := fromKeyMaterial_sampleSession .callee
  rw [sampleKeys_callee] at hmirror
  obtain ⟨hiff, hout⟩ := delivery_over_run Crypto.transparent_correct
    (fromKeyMaterial_sampleSession .caller) hmirror sampleEvents .callee hmem'
  rw [← sampleConversation] at hiff hout
  obtain ⟨g, hg⟩ := List.map_eq_singleton_iff.mp haccepted
  obtain ⟨hcounter', hgeneration'⟩ := Prod.mk.inj hg.2
  rw [hg.1, hcounter, hgeneration] at hiff
  obtain ⟨out, s', hrun⟩ := hiff.mpr
    (by simp [acceptedCounters, lastGeneration, hcounter', hgeneration', windowSize])
  exact ⟨f, hmem, hgeneration, out, s', hrun, hout out s' hrun⟩

end Conversation

end AuraProtocol.Voip
