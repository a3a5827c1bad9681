import AuraProtocol.Core
import AuraProtocol.Lib.Fallible
import AuraProtocol.Lib.Optimistic

/-!
# Calls on the relay

The relay's side of a call, from `api/relay.rs`: it keeps a record of every call and
forwards a signal to the other participant if the record allows it.  The records are in a
store that many handlers share; a handler reads the record, decides, and exchanges it for
the next one if it is still the one it read.  `process_voip_signal` is written here as the
tree of its store calls, so that the handlers can be interleaved call by call.

`Served` says what the relay is for: the transitions of the record of one call, one for
each kind of signal.
-/

namespace AuraProtocol.Relay

open Fallible Optimistic Attempt

def voipCallInitTimeoutSecs : ℕ := 30
def voipCallActiveIdleTimeoutSecs : ℕ := 5 * 60
def voipCallMaxLifetimeSecs : ℕ := 24 * 60 * 60
def maxVoipCallCompareExchangeRetries : ℕ := 8

/-! ## Signals and records -/

inductive VoipSignalType where
  | unspecified
  | callInit
  | callAccept
  | callReject
  | callEnd
  | rekey
  | rekeyAck
  deriving DecidableEq, Repr

/-- The number a signal type is sent as. -/
def VoipSignalType.toInt : VoipSignalType → ℤ
  | .unspecified => 0
  | .callInit => 1
  | .callAccept => 2
  | .callReject => 3
  | .callEnd => 4
  | .rekey => 5
  | .rekeyAck => 6

theorem VoipSignalType.toInt_injective : Function.Injective VoipSignalType.toInt := by
  intro a b h
  cases a <;> cases b <;> first | rfl | exact absurd h (by decide)

/-- `VoipEnvelope`, the fields the call handlers read.  The signal type is the number on the wire,
which need not be one of the known ones. -/
structure VoipEnvelope where
  senderDeviceId : Bytes
  recipientDeviceId : Bytes
  signalType : ℤ
  callId : Bytes
  deriving DecidableEq, Repr

inductive CallLifecycleState where
  | initiated
  | active
  | rekeying
  | ended
  deriving DecidableEq, Repr

structure ActiveCall where
  callId : Bytes
  callerDeviceId : Bytes
  calleeDeviceId : Bytes
  state : CallLifecycleState
  startedAt : ℕ
  lastActivityAt : ℕ
  rekeyGeneration : ℕ
  pendingRekeyFrom : Option Bytes
  deriving DecidableEq, Repr

namespace ActiveCall

def new (callId callerDeviceId calleeDeviceId : Bytes) (startedAt : ℕ) : ActiveCall where
  callId := callId
  callerDeviceId := callerDeviceId
  calleeDeviceId := calleeDeviceId
  state := .initiated
  startedAt := startedAt
  lastActivityAt := startedAt
  rekeyGeneration := 0
  pendingRekeyFrom := none

def peerDeviceId (call : ActiveCall) (senderDeviceId : Bytes) : Option Bytes :=
  if senderDeviceId = call.callerDeviceId then some call.calleeDeviceId
  else if senderDeviceId = call.calleeDeviceId then some call.callerDeviceId
  else none

/-- `ActiveCall::is_expired`; the differences are saturating. -/
def isExpired (call : ActiveCall) (serverTimestamp : ℕ) : Bool :=
  if voipCallMaxLifetimeSecs < serverTimestamp - call.startedAt then true
  else
    match call.state with
    | .initiated => voipCallInitTimeoutSecs < serverTimestamp - call.lastActivityAt
    | .active | .rekeying => voipCallActiveIdleTimeoutSecs < serverTimestamp - call.lastActivityAt
    | .ended => true

def touch (call : ActiveCall) (serverTimestamp : ℕ) : ActiveCall :=
  { call with lastActivityAt := serverTimestamp }

end ActiveCall

inductive VoipRelayAction where
  | forward (target : Bytes)
  | forwardAndRemove (target : Bytes)
  deriving DecidableEq, Repr

def VoipRelayAction.targetDeviceId : VoipRelayAction → Bytes
  | .forward target => target
  | .forwardAndRemove target => target

/-- A handler: store calls that can fail, with an outcome. -/
abbrev Handler := Attempt ProtocolError Bytes ActiveCall

/-- A `VoipCallStore`, with the contract of `compare_exchange_call`.  An exchange that returns an
error has changed nothing. -/
abbrev VoipCallStore := Store ProtocolError Bytes ActiveCall ActiveCall.callId

/-- `VoipCallStore::find_call`. -/
def findCall (callId : Bytes) : Handler (Option ActiveCall) := Attempt.find callId

/-- `VoipCallStore::compare_exchange_call`. -/
def compareExchangeCall (current next : Option ActiveCall) : Handler Bool :=
  Attempt.exchange current next

/-! ## Handling a signal -/

def validateCallInitForRelay (envelope : VoipEnvelope) : Except ProtocolError Unit := do
  require (envelope.signalType = VoipSignalType.callInit.toInt)
    (.voipCall "expected VOIP_SIGNAL_CALL_INIT")
  require (envelope.senderDeviceId ≠ envelope.recipientDeviceId)
    (.voipCall "caller and callee device_id must differ")

def validateCallSignalForRelay (envelope : VoipEnvelope) : Handler ActiveCall := do
  let found ← findCall envelope.callId
  let call ← check (orError found (.voipCall "call not found"))
  let expectedTarget ← check (orError (call.peerDeviceId envelope.senderDeviceId)
    (.voipCall "sender is not a participant of this call"))
  check (require (envelope.recipientDeviceId = expectedTarget)
    (.voipCall "recipient is not the peer participant of this call"))
  pure call

/-- The other participant, for a sender that is one. -/
def otherParticipant (envelope : VoipEnvelope) (call : ActiveCall) : Bytes :=
  if envelope.senderDeviceId = call.callerDeviceId then call.calleeDeviceId
  else call.callerDeviceId

/-- The retry loop of `process_voip_signal`, with the number of rounds left. -/
def signalLoop (envelope : VoipEnvelope) (serverTimestamp : ℕ) : ℕ → Handler VoipRelayAction
  | 0 => throw (.invalidState "VoIP call state changed concurrently; retry signal")
  | rounds + 1 => do
    let call ← validateCallSignalForRelay envelope
    if call.isExpired serverTimestamp then
      if ← compareExchangeCall (some call) none then
        throw (.voipCall "call expired on relay")
      else signalLoop envelope serverTimestamp rounds
    else if envelope.signalType = VoipSignalType.callAccept.toInt then do
      check (require (envelope.senderDeviceId = call.calleeDeviceId)
        (.voipCall "only callee can accept"))
      check (require (call.state = .initiated)
        (.voipCall "call accept is only valid for initiated calls"))
      let next := { call with state := .active, pendingRekeyFrom := none }
      if ← compareExchangeCall (some call) (some (next.touch serverTimestamp)) then
        pure (.forward call.callerDeviceId)
      else signalLoop envelope serverTimestamp rounds
    else if envelope.signalType = VoipSignalType.callReject.toInt then do
      check (require (envelope.senderDeviceId = call.calleeDeviceId)
        (.voipCall "only callee can reject"))
      check (require (call.state = .initiated)
        (.voipCall "call reject is only valid for initiated calls"))
      if ← compareExchangeCall (some call) none then
        pure (.forwardAndRemove call.callerDeviceId)
      else signalLoop envelope serverTimestamp rounds
    else if envelope.signalType = VoipSignalType.callEnd.toInt then do
      check (require (call.state ≠ .ended) (.voipCall "call already ended"))
      if ← compareExchangeCall (some call) none then
        pure (.forwardAndRemove (otherParticipant envelope call))
      else signalLoop envelope serverTimestamp rounds
    else if envelope.signalType = VoipSignalType.rekey.toInt then do
      check (require (call.state = .active) (.voipCall "rekey is only valid for active calls"))
      let next := { call with state := .rekeying, pendingRekeyFrom := some envelope.senderDeviceId }
      if ← compareExchangeCall (some call) (some (next.touch serverTimestamp)) then
        pure (.forward (otherParticipant envelope call))
      else signalLoop envelope serverTimestamp rounds
    else if envelope.signalType = VoipSignalType.rekeyAck.toInt then do
      check (require (call.state = .rekeying) (.voipCall "rekey ack is only valid during rekeying"))
      let pendingRekeyFrom ← check (orError call.pendingRekeyFrom
        (.voipCall "missing pending rekey initiator for rekey ack"))
      check (require (envelope.senderDeviceId ≠ pendingRekeyFrom)
        (.voipCall "rekey ack must come from the non-initiating peer"))
      check (require (envelope.recipientDeviceId = pendingRekeyFrom)
        (.voipCall "rekey ack recipient does not match pending rekey initiator"))
      check (require (call.rekeyGeneration + 1 < 2 ^ 32)
        (.voipCall "relay rekey generation overflow"))
      let next := { call with
        state := .active, rekeyGeneration := call.rekeyGeneration + 1, pendingRekeyFrom := none }
      if ← compareExchangeCall (some call) (some (next.touch serverTimestamp)) then
        pure (.forward (otherParticipant envelope call))
      else signalLoop envelope serverTimestamp rounds
    else do
      check (require (call.state ≠ .ended) (.voipCall "call already ended"))
      throw (.voipCall "unknown VoIP signal type")

def processVoipSignal (envelope : VoipEnvelope) (serverTimestamp : ℕ) :
    Handler VoipRelayAction :=
  if envelope.signalType = VoipSignalType.callInit.toInt then do
    check (validateCallInitForRelay envelope)
    let newCall := ActiveCall.new envelope.callId envelope.senderDeviceId
      envelope.recipientDeviceId serverTimestamp
    if ← compareExchangeCall none (some newCall) then
      pure (.forward envelope.recipientDeviceId)
    else throw (.voipCall "call_id already exists")
  else signalLoop envelope serverTimestamp maxVoipCallCompareExchangeRetries
/-! ## What the relay is for -/

/-- A signal, and the time on the relay's clock when it is handled. -/
structure Signal where
  envelope : VoipEnvelope
  serverTimestamp : ℕ
  deriving DecidableEq, Repr

variable {σ : Signal} {call : ActiveCall}

namespace Signal

/-- The handler of a signal. -/
def handler (σ : Signal) : Handler VoipRelayAction :=
  processVoipSignal σ.envelope σ.serverTimestamp

/-- The signal is of the given type. -/
def IsA (σ : Signal) (type : VoipSignalType) : Prop := σ.envelope.signalType = type.toInt

instance (σ : Signal) (type : VoipSignalType) : Decidable (σ.IsA type) :=
  inferInstanceAs (Decidable (_ = _))

theorem IsA.eq {type type' : VoipSignalType} (h : σ.IsA type) (h' : σ.IsA type') : type = type' :=
  VoipSignalType.toInt_injective (h.symm.trans h')

/-- The signal is about this call, and goes from one participant to the other. -/
structure Concerns (σ : Signal) (call : ActiveCall) : Prop where
  callId : call.callId = σ.envelope.callId
  peer : call.peerDeviceId σ.envelope.senderDeviceId = some σ.envelope.recipientDeviceId

theorem Concerns.otherParticipant (h : σ.Concerns call) :
    otherParticipant σ.envelope call = σ.envelope.recipientDeviceId := by
  have hpeer := h.peer
  rw [ActiveCall.peerDeviceId] at hpeer
  rw [Relay.otherParticipant]
  split_ifs at hpeer ⊢ <;> exact Option.some.inj hpeer

/-- A signal of the callee goes to the caller. -/
theorem Concerns.callerDeviceId (h : σ.Concerns call)
    (hcallee : σ.envelope.senderDeviceId = call.calleeDeviceId) :
    call.callerDeviceId = σ.envelope.recipientDeviceId := by
  have hpeer := h.peer
  rw [ActiveCall.peerDeviceId] at hpeer
  split_ifs at hpeer with hcaller
  · exact (hcaller.symm.trans hcallee).trans (Option.some.inj hpeer)
  · exact Option.some.inj hpeer

/-- A sender is one of the participants. -/
theorem Concerns.participant (h : σ.Concerns call) :
    σ.envelope.senderDeviceId = call.callerDeviceId ∨
      σ.envelope.senderDeviceId = call.calleeDeviceId := by
  have hpeer := h.peer
  rw [ActiveCall.peerDeviceId] at hpeer
  split_ifs at hpeer with hcaller hcallee
  · exact .inl hcaller
  · exact .inr hcallee

end Signal

/-- The transitions of the record of a call, and what the relay does for each of them. -/
inductive Served (σ : Signal) : Option ActiveCall → Option ActiveCall → VoipRelayAction → Prop
  | init (htype : σ.IsA .callInit)
      (hne : σ.envelope.senderDeviceId ≠ σ.envelope.recipientDeviceId) :
      Served σ none
        (some (.new σ.envelope.callId σ.envelope.senderDeviceId σ.envelope.recipientDeviceId
          σ.serverTimestamp))
        (.forward σ.envelope.recipientDeviceId)
  | accept {call : ActiveCall} (htype : σ.IsA .callAccept) (hcall : σ.Concerns call)
      (hlive : call.isExpired σ.serverTimestamp = false)
      (hcallee : σ.envelope.senderDeviceId = call.calleeDeviceId)
      (hstate : call.state = .initiated) :
      Served σ (some call)
        (some { call with
          state := .active, pendingRekeyFrom := none, lastActivityAt := σ.serverTimestamp })
        (.forward σ.envelope.recipientDeviceId)
  | reject {call : ActiveCall} (htype : σ.IsA .callReject) (hcall : σ.Concerns call)
      (hlive : call.isExpired σ.serverTimestamp = false)
      (hcallee : σ.envelope.senderDeviceId = call.calleeDeviceId)
      (hstate : call.state = .initiated) :
      Served σ (some call) none (.forwardAndRemove σ.envelope.recipientDeviceId)
  | hangUp {call : ActiveCall} (htype : σ.IsA .callEnd) (hcall : σ.Concerns call)
      (hlive : call.isExpired σ.serverTimestamp = false) :
      Served σ (some call) none (.forwardAndRemove σ.envelope.recipientDeviceId)
  | rekey {call : ActiveCall} (htype : σ.IsA .rekey) (hcall : σ.Concerns call)
      (hlive : call.isExpired σ.serverTimestamp = false) (hstate : call.state = .active) :
      Served σ (some call)
        (some { call with
          state := .rekeying
          pendingRekeyFrom := some σ.envelope.senderDeviceId
          lastActivityAt := σ.serverTimestamp })
        (.forward σ.envelope.recipientDeviceId)
  | ack {call : ActiveCall} (htype : σ.IsA .rekeyAck) (hcall : σ.Concerns call)
      (hlive : call.isExpired σ.serverTimestamp = false) (hstate : call.state = .rekeying)
      (hpending : call.pendingRekeyFrom = some σ.envelope.recipientDeviceId)
      (hother : σ.envelope.senderDeviceId ≠ σ.envelope.recipientDeviceId)
      (hroom : call.rekeyGeneration + 1 < 2 ^ 32) :
      Served σ (some call)
        (some { call with
          state := .active
          rekeyGeneration := call.rekeyGeneration + 1
          pendingRekeyFrom := none
          lastActivityAt := σ.serverTimestamp })
        (.forward σ.envelope.recipientDeviceId)

/-- The error of a handler that found a call expired and removed it. -/
def expiredError : ProtocolError := .voipCall "call expired on relay"

/-- An exchange of a handler that goes through: a transition with its outcome, or the removal of an
expired call. -/
inductive Settles (σ : Signal) :
    Option ActiveCall → Option ActiveCall → Except ProtocolError VoipRelayAction → Prop
  | served {current next : Option ActiveCall} {action : VoipRelayAction}
      (h : Served σ current next action) : Settles σ current next (.ok action)
  | expired {call : ActiveCall} (hcall : σ.Concerns call)
      (hexpired : call.isExpired σ.serverTimestamp = true) :
      Settles σ (some call) none (.error expiredError)

/-- Without an exchange that goes through a handler fails. -/
def Fails (result : Except ProtocolError VoipRelayAction) : Prop := ∃ e, result = .error e

theorem fails_error (e : ProtocolError) : Fails (.error e) := ⟨e, rfl⟩

/-! ## The handler does what the relay is for -/

/-- After the checks a handler knows that the signal is about the call. -/
theorem commits_validateCallSignal_bind {f : ActiveCall → Handler VoipRelayAction}
    (h : ∀ call, σ.Concerns call → Attempt.Commits ActiveCall.callId (Settles σ) Fails (f call)) :
    Attempt.Commits ActiveCall.callId (Settles σ) Fails
      (validateCallSignalForRelay σ.envelope >>= f) := by
  simp only [validateCallSignalForRelay, bind_assoc, pure_bind]
  refine commits_find_bind fails_error fun found hfound => ?_
  refine commits_check_bind fails_error fun call hcall => ?_
  refine commits_check_bind fails_error fun target htarget => ?_
  refine commits_check_bind fails_error fun _ hrecipient => ?_
  rw [orError_eq_ok] at hcall htarget
  rw [require_eq_ok] at hrecipient
  exact h call ⟨hfound call hcall, by rw [htarget, hrecipient]⟩

theorem commits_signalLoop (σ : Signal) (rounds : ℕ) :
    Attempt.Commits ActiveCall.callId (Settles σ) Fails
      (signalLoop σ.envelope σ.serverTimestamp rounds) := by
  induction rounds with
  | zero => exact commits_throw (fails_error _)
  | succ rounds ih =>
    rw [signalLoop]
    refine commits_validateCallSignal_bind fun call hcall => ?_
    by_cases hlive : call.isExpired σ.serverTimestamp = true
    · rw [if_pos hlive]
      exact commits_exchange_ite (a := .error expiredError) fails_error (.expired hcall hlive) ih
    rw [if_neg hlive]
    rw [Bool.not_eq_true] at hlive
    split_ifs with haccept hreject hend hrekey hack
    · refine commits_check_bind fails_error fun _ hcallee => ?_
      refine commits_check_bind fails_error fun _ hstate => ?_
      rw [require_eq_ok] at hcallee hstate
      have hserved := Served.accept haccept hcall hlive hcallee hstate
      rw [← hcall.callerDeviceId hcallee] at hserved
      exact commits_exchange_ite (a := .ok _) fails_error (.served hserved) ih
    · refine commits_check_bind fails_error fun _ hcallee => ?_
      refine commits_check_bind fails_error fun _ hstate => ?_
      rw [require_eq_ok] at hcallee hstate
      rw [hcall.callerDeviceId hcallee]
      exact commits_exchange_ite (a := .ok _) fails_error
        (.served (.reject hreject hcall hlive hcallee hstate)) ih
    · refine commits_check_bind fails_error fun _ _ => ?_
      rw [hcall.otherParticipant]
      exact commits_exchange_ite (a := .ok _) fails_error
        (.served (.hangUp hend hcall hlive)) ih
    · refine commits_check_bind fails_error fun _ hstate => ?_
      rw [require_eq_ok] at hstate
      rw [hcall.otherParticipant]
      exact commits_exchange_ite (a := .ok _) fails_error
        (.served (.rekey hrekey hcall hlive hstate)) ih
    · refine commits_check_bind fails_error fun _ hstate => ?_
      refine commits_check_bind fails_error fun initiator hpending => ?_
      refine commits_check_bind fails_error fun _ hother => ?_
      refine commits_check_bind fails_error fun _ hrecipient => ?_
      refine commits_check_bind fails_error fun _ hroom => ?_
      rw [require_eq_ok] at hstate hother hrecipient hroom
      rw [orError_eq_ok] at hpending
      subst hrecipient
      rw [hcall.otherParticipant]
      exact commits_exchange_ite (a := .ok _) fails_error
        (.served (.ack hack hcall hlive hstate hpending hother hroom)) ih
    · refine commits_check_bind fails_error fun _ _ => ?_
      exact commits_throw (fails_error _)

/-- Every exchange of a handler that goes through is a transition, and ends the handler. -/
theorem commits_handler (σ : Signal) :
    Attempt.Commits ActiveCall.callId (Settles σ) Fails σ.handler := by
  rw [Signal.handler, processVoipSignal]
  split_ifs with htype
  · refine commits_check_bind fails_error fun _ hinit => ?_
    simp only [validateCallInitForRelay, except_seq_eq_ok, require_eq_ok] at hinit
    exact commits_exchange_ite (a := .ok _) fails_error (.served (.init htype hinit.2))
      (commits_throw (fails_error _))
  · exact commits_signalLoop σ _

/-- A transition is one of the call the signal names. -/
theorem Settles.keyOfExchange {current next : Option ActiveCall}
    {result : Except ProtocolError VoipRelayAction} (h : Settles σ current next result) :
    keyOfExchange ActiveCall.callId current next = some σ.envelope.callId := by
  cases h with
  | served h => cases h <;> first | rfl | exact congrArg some ‹σ.Concerns _›.callId
  | expired hcall _ => exact congrArg some hcall.callId

/-- What is forwarded goes to the peer of the sender in the call. -/
theorem Served.peerDeviceId {current next : Option ActiveCall} {action : VoipRelayAction}
    (h : Served σ current next action) :
    ∃ call, (current = some call ∨ next = some call) ∧
      call.peerDeviceId σ.envelope.senderDeviceId = some action.targetDeviceId := by
  cases h with
  | init htype hne => exact ⟨_, .inr rfl, if_pos rfl⟩
  | accept htype hcall hlive hcallee hstate => exact ⟨_, .inl rfl, hcall.peer⟩
  | reject htype hcall hlive hcallee hstate => exact ⟨_, .inl rfl, hcall.peer⟩
  | hangUp htype hcall hlive => exact ⟨_, .inl rfl, hcall.peer⟩
  | rekey htype hcall hlive hstate => exact ⟨_, .inl rfl, hcall.peer⟩
  | ack htype hcall hlive hstate hpending hother hroom => exact ⟨_, .inl rfl, hcall.peer⟩

end AuraProtocol.Relay
