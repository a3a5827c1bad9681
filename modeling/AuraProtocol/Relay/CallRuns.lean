import AuraProtocol.Relay.Calls

/-!
# Concurrent call handlers

Any number of handlers of call signals at once, over any store that keeps the contract of
`compare_exchange_call`, interleaved store call by store call.  The log of a schedule lists
the store calls, last one first, with the records before and after each.

The state of one call is followed by `CallOk`: it relates the record of the call to the
store calls made since its last init.
-/

namespace AuraProtocol.Relay

open Optimistic Function List

variable {σ : Signal} {number : ℕ} {call : ActiveCall} {type : VoipSignalType}
  {e : CallEvent} {id : Bytes}

/-- One store call of a handler. -/
abbrev CallEvent := Event Signal Bytes ActiveCall (Except ProtocolError VoipRelayAction)

/-- What all the handlers together did so far. -/
abbrev CallSchedule (S : VoipCallStore) :=
  Schedule S Signal (Except ProtocolError VoipRelayAction)

/-- Starts handlers and lets them run, in the given order. -/
def runSignals (S : VoipCallStore) (s₀ : S.State) (actions : List (Action Signal)) :
    CallSchedule S :=
  Schedule.exec (fun σ : Signal => σ.handler.run) s₀ actions

namespace CallEvent

/-- The call the signal of a handler names. -/
def callId (e : CallEvent) : Bytes := e.input.envelope.callId

/-- A handler returned successfully with this store call. -/
def forwards (e : CallEvent) : Bool :=
  match e.result with
  | some (.ok _) => true
  | _ => false

/-- A signal of the given type for the given call was forwarded. -/
def succeeded (id : Bytes) (type : VoipSignalType) (e : CallEvent) : Bool :=
  e.forwards && decide (e.callId = id ∧ e.input.IsA type)

/-- An expired call was removed. -/
def Expires (e : CallEvent) : Prop :=
  ∃ call, e.before e.callId = some call ∧ call.isExpired e.input.serverTimestamp = true ∧
    e.after = update e.before e.callId none

/-- The call was ended, rejected or removed as expired. -/
def Closes (id : Bytes) (e : CallEvent) : Prop :=
  succeeded id .callEnd e = true ∨ succeeded id .callReject e = true ∨ e.callId = id ∧ e.Expires

/-- A successful handler has changed the record of its call by one transition; any other store call
has changed nothing, unless it has removed an expired call. -/
structure Atomic (e : CallEvent) : Prop where
  ok : ∀ action, e.result = some (.ok action) →
    ∃ next, Served e.input (e.before e.callId) next action ∧
      e.after = update e.before e.callId next
  other : e.forwards = false → e.after = e.before ∨ e.Expires

end CallEvent

open CallEvent

/-- The store calls since the last successful init of a call, last one first. -/
def sinceInit (id : Bytes) (log : List CallEvent) : List CallEvent :=
  log.takeWhile fun e => !succeeded id .callInit e

theorem sinceInit_cons_of_init (log : List CallEvent)
    (h : succeeded id .callInit e = true) : sinceInit id (e :: log) = [] := by
  rw [sinceInit, takeWhile_cons, h]
  rfl

theorem sinceInit_cons_of_not (log : List CallEvent)
    (h : succeeded id .callInit e = false) :
    sinceInit id (e :: log) = e :: sinceInit id log := by
  rw [sinceInit, takeWhile_cons, h]
  rfl

/-! ## One call -/

/-- What holds between the record of a call and the store calls since its init. -/
structure CallOk (id : Bytes) (record : Option ActiveCall) (since : List CallEvent) : Prop where
  rekeying_iff : ∀ call, record = some call →
    (call.state = .rekeying ↔ call.pendingRekeyFrom ≠ none)
  participant : ∀ call, record = some call → ∀ device, call.pendingRekeyFrom = some device →
    device = call.callerDeviceId ∨ device = call.calleeDeviceId
  generation : ∀ call, record = some call →
    call.rekeyGeneration = since.countP (succeeded id .rekeyAck)
  fresh : ∀ call, record = some call → call.state = .initiated →
    since.countP (succeeded id .callAccept) = 0
  accepts : since.countP (succeeded id .callAccept) ≤ 1
  closed : ∀ e ∈ since, e.Closes id → record = none

namespace CallOk

variable {id : Bytes} {record : Option ActiveCall} {since : List CallEvent} {e : CallEvent}

theorem start (id : Bytes) : CallOk id none [] where
  rekeying_iff _ h := by cases h
  participant _ h := by cases h
  generation _ h := by cases h
  fresh _ h := by cases h
  accepts := Nat.zero_le 1
  closed _ h := by cases h

/-- A store call that neither forwards nor closes anything of the call. -/
theorem quiet (h : CallOk id record since) (hack : succeeded id .rekeyAck e = false)
    (haccept : succeeded id .callAccept e = false) (hcloses : ¬ e.Closes id) :
    CallOk id record (e :: since) where
  rekeying_iff := h.rekeying_iff
  participant := h.participant
  generation call hcall := by
    rw [countP_cons_of_neg (by rw [hack]; decide)]
    exact h.generation call hcall
  fresh call hcall hstate := by
    rw [countP_cons_of_neg (by rw [haccept]; decide)]
    exact h.fresh call hcall hstate
  accepts := by
    rw [countP_cons_of_neg (by rw [haccept]; decide)]
    exact h.accepts
  closed e' he' hcloses' := by
    rcases mem_cons.mp he' with rfl | he'
    · exact absurd hcloses' hcloses
    · exact h.closed e' he' hcloses'

/-- The call is removed. -/
theorem remove (h : CallOk id record since) (haccept : succeeded id .callAccept e = false) :
    CallOk id none (e :: since) where
  rekeying_iff _ hcall := by cases hcall
  participant _ hcall := by cases hcall
  generation _ hcall := by cases hcall
  fresh _ hcall := by cases hcall
  accepts := by
    rw [countP_cons_of_neg (by rw [haccept]; decide)]
    exact h.accepts
  closed _ _ _ := rfl

/-- The record of a live call changes; the call is no longer a fresh one. -/
theorem advance {call' : ActiveCall} (h : CallOk id (some call) since) (hcloses : ¬ e.Closes id)
    (hrekeying : call'.state = .rekeying ↔ call'.pendingRekeyFrom ≠ none)
    (hparticipant : ∀ device, call'.pendingRekeyFrom = some device →
      device = call'.callerDeviceId ∨ device = call'.calleeDeviceId)
    (hgeneration : call'.rekeyGeneration =
      call.rekeyGeneration + if succeeded id .rekeyAck e then 1 else 0)
    (hstate : call'.state ≠ .initiated)
    (haccept : succeeded id .callAccept e = true → call.state = .initiated) :
    CallOk id (some call') (e :: since) where
  rekeying_iff := by
    rintro _ ⟨⟩
    exact hrekeying
  participant := by
    rintro _ ⟨⟩
    exact hparticipant
  generation := by
    rintro _ ⟨⟩
    rw [hgeneration, h.generation call rfl, countP_cons]
  fresh := by
    rintro _ ⟨⟩ hinitiated
    exact absurd hinitiated hstate
  accepts := by
    rw [countP_cons]
    split_ifs with hsucceeded
    · rw [h.fresh call rfl (haccept hsucceeded)]
    · exact h.accepts
  closed e' he' hcloses' := by
    rcases mem_cons.mp he' with rfl | he'
    · exact absurd hcloses' hcloses
    · cases h.closed e' he' hcloses'

/-- A live call has not been closed since its init. -/
theorem not_closes (h : CallOk id (some call) since) : ∀ e ∈ since, ¬ e.Closes id := by
  intro e he hcloses
  cases h.closed e he hcloses

end CallOk

/-- Events of other calls say nothing about this one. -/
theorem succeeded_of_ne (h : e.callId ≠ id) (type : VoipSignalType) :
    succeeded id type e = false := by
  rw [succeeded, decide_eq_false fun h' => h h'.1, Bool.and_false]

/-- Nor do events in which no handler succeeded. -/
theorem succeeded_of_not_forwards (h : e.forwards = false) (id : Bytes)
    (type : VoipSignalType) : succeeded id type e = false := by
  rw [succeeded, h, Bool.false_and]

/-- A signal succeeds as a signal of its own type. -/
theorem succeeded_of_isA (hforwards : e.forwards = true)
    (hid : e.callId = id) (htype : e.input.IsA type) : succeeded id type e = true := by
  rw [succeeded, hforwards, Bool.true_and]
  exact decide_eq_true ⟨hid, htype⟩

/-- It does not succeed as one of another type. -/
theorem succeeded_of_isA_ne (htype : e.input.IsA type) (id : Bytes)
    (other : VoipSignalType) (hne : other ≠ type) : succeeded id other e = false := by
  rw [succeeded, decide_eq_false fun h => hne (h.2.eq htype), Bool.and_false]

theorem not_closes_of_quiet (hforwards : e.forwards = false)
    (hsame : e.after = e.before) : ¬ e.Closes id := by
  rintro (h | h | ⟨-, call, hcall, -, hafter⟩)
  · rw [succeeded_of_not_forwards hforwards] at h
    cases h
  · rw [succeeded_of_not_forwards hforwards] at h
    cases h
  · rw [hsame] at hafter
    rw [hafter, update_self] at hcall
    cases hcall

/-- A signal other than an end or a reject that is served does not close the call. -/
theorem not_closes_of_served (hid : e.callId = id)
    (htype : e.input.IsA type) (hend : VoipSignalType.callEnd ≠ type)
    (hreject : VoipSignalType.callReject ≠ type) (hbefore : e.before id = some call)
    (hlive : call.isExpired e.input.serverTimestamp = false) : ¬ e.Closes id := by
  rintro (h | h | ⟨-, call', hcall', hexpired, -⟩)
  · rw [succeeded_of_isA_ne htype id _ hend] at h
    cases h
  · rw [succeeded_of_isA_ne htype id _ hreject] at h
    cases h
  · rw [hid, hbefore] at hcall'
    cases hcall'
    rw [hlive] at hexpired
    cases hexpired

/-- A transition keeps the record in step with the store calls. -/
theorem CallOk.served {log : List CallEvent}
    {current next : Option ActiveCall} {action : VoipRelayAction}
    (h : CallOk id current (sinceInit id log)) (hserved : Served e.input current next action)
    (hforwards : e.forwards = true) (hid : e.callId = id) (hbefore : e.before id = current) :
    CallOk id next (sinceInit id (e :: log)) := by
  cases hserved with
  | init htype hne =>
    rw [sinceInit_cons_of_init log (succeeded_of_isA hforwards hid htype)]
    refine ⟨?_, ?_, ?_, fun _ _ _ => rfl, Nat.zero_le 1, fun e' he' => by cases he'⟩
    · rintro _ ⟨⟩
      exact iff_of_false (by rintro ⟨⟩) fun hpending => hpending rfl
    · rintro _ ⟨⟩ device ⟨⟩
    · rintro _ ⟨⟩
      rfl
  | accept htype hcall hlive hcallee hstate =>
    have hno := succeeded_of_isA_ne htype id
    rw [sinceInit_cons_of_not log (hno _ (by decide))]
    refine h.advance ?_ ?_ ?_ ?_ (by rintro ⟨⟩) fun _ => hstate
    · exact not_closes_of_served hid htype (by decide) (by decide) hbefore hlive
    · exact iff_of_false (by rintro ⟨⟩) fun hpending => hpending rfl
    · rintro device ⟨⟩
    · rw [hno _ (by decide)]
      rfl
  | reject htype hcall hlive hcallee hstate =>
    have hno := succeeded_of_isA_ne htype id
    rw [sinceInit_cons_of_not log (hno _ (by decide))]
    exact h.remove (hno _ (by decide))
  | hangUp htype hcall hlive =>
    have hno := succeeded_of_isA_ne htype id
    rw [sinceInit_cons_of_not log (hno _ (by decide))]
    exact h.remove (hno _ (by decide))
  | rekey htype hcall hlive hstate =>
    have hno := succeeded_of_isA_ne htype id
    rw [sinceInit_cons_of_not log (hno _ (by decide))]
    refine h.advance ?_ ?_ ?_ ?_ (by rintro ⟨⟩) fun haccept => ?_
    · exact not_closes_of_served hid htype (by decide) (by decide) hbefore hlive
    · exact iff_of_true rfl (Option.some_ne_none _)
    · rintro device ⟨⟩
      exact hcall.participant
    · rw [hno _ (by decide)]
      rfl
    · rw [hno _ (by decide)] at haccept
      cases haccept
  | ack htype hcall hlive hstate hpending hother hroom =>
    have hno := succeeded_of_isA_ne htype id
    rw [sinceInit_cons_of_not log (hno _ (by decide))]
    refine h.advance ?_ ?_ ?_ ?_ (by rintro ⟨⟩) fun haccept => ?_
    · exact not_closes_of_served hid htype (by decide) (by decide) hbefore hlive
    · exact iff_of_false (by rintro ⟨⟩) fun hpending' => hpending' rfl
    · rintro device ⟨⟩
    · rw [if_pos (succeeded_of_isA hforwards hid htype)]
    · rw [hno _ (by decide)] at haccept
      cases haccept

/-! ## All calls -/

/-- What holds of the records and the log at any time. -/
structure CallsOk (records : Bytes → Option ActiveCall) (log : List CallEvent) : Prop where
  follows : Schedule.Follows (fun _ => none) log records
  atomic : ∀ e ∈ log, e.Atomic
  calls : ∀ id, CallOk id (records id) (sinceInit id log)
  quiet : ∀ later e earlier, log = later ++ e :: earlier → e.forwards = true →
    ¬ e.input.IsA .callInit → ∀ e' ∈ sinceInit e.callId earlier, ¬ e'.Closes e.callId

namespace CallsOk

variable {records : Bytes → Option ActiveCall} {log : List CallEvent}

theorem start : CallsOk (fun _ => none) [] where
  follows := rfl
  atomic _ he := by cases he
  calls := CallOk.start
  quiet later _ _ hlog := by cases later <;> cases hlog

section

variable (h : CallsOk records log)
include h

/-- One more store call, with what has to be shown of it. -/
theorem cons {next : Bytes → Option ActiveCall}
    (hbefore : e.before = records) (hafter : e.after = next) (hatomic : e.Atomic)
    (hcall : CallOk e.callId (next e.callId) (sinceInit e.callId (e :: log)))
    (hother : ∀ id, id ≠ e.callId → next id = records id)
    (hquiet : e.forwards = true → ¬ e.input.IsA .callInit →
      ∀ e' ∈ sinceInit e.callId log, ¬ e'.Closes e.callId) : CallsOk next (e :: log) where
  follows := ⟨hafter, hbefore ▸ h.follows⟩
  atomic e' he' := by
    rcases mem_cons.mp he' with rfl | he'
    · exact hatomic
    · exact h.atomic e' he'
  calls id := by
    by_cases hid : id = e.callId
    · subst hid
      exact hcall
    · have hno := succeeded_of_ne (e := e) (Ne.symm hid)
      rw [hother id hid, sinceInit_cons_of_not log (hno _)]
      refine (h.calls id).quiet (hno _) (hno _) ?_
      rintro (hcloses | hcloses | ⟨hcallId, -⟩)
      · rw [hno] at hcloses
        cases hcloses
      · rw [hno] at hcloses
        cases hcloses
      · exact hid hcallId.symm
  quiet later e' earlier hlog hforwards hinit := by
    rcases cons_eq_append_iff.mp hlog with ⟨rfl, heq⟩ | ⟨later', rfl, heq⟩
    · cases heq
      exact hquiet hforwards hinit
    · exact h.quiet later' e' earlier heq hforwards hinit

/-- A transition. -/
theorem served {next : Option ActiveCall} {action : VoipRelayAction}
    (hserved : Served σ (records σ.envelope.callId) next action) :
    CallsOk (update records σ.envelope.callId next)
      (⟨number, σ, records, update records σ.envelope.callId next, some (.ok action)⟩ ::
        log) := by
  refine h.cons rfl rfl ⟨?_, ?_⟩ ?_ (fun id hne => update_of_ne hne ..) fun _ hinit => ?_
  · rintro _ ⟨⟩
    exact ⟨next, hserved, rfl⟩
  · rintro ⟨⟩
  · change CallOk _ (update records σ.envelope.callId next σ.envelope.callId) _
    rw [update_self]
    exact (h.calls _).served hserved rfl rfl rfl
  · -- any signal but an init needs a record, so the call has not been closed
    have hok := h.calls σ.envelope.callId
    change ∀ e' ∈ sinceInit σ.envelope.callId log, _
    generalize records σ.envelope.callId = current at hserved hok
    cases hserved with
    | init htype hne => exact absurd htype hinit
    | accept htype hcall hlive hcallee hstate => exact hok.not_closes
    | reject htype hcall hlive hcallee hstate => exact hok.not_closes
    | hangUp htype hcall hlive => exact hok.not_closes
    | rekey htype hcall hlive hstate => exact hok.not_closes
    | ack htype hcall hlive hstate hpending hother hroom => exact hok.not_closes

/-- The removal of an expired call. -/
theorem expired (hrecord : records σ.envelope.callId = some call)
    (hexpired : call.isExpired σ.serverTimestamp = true) :
    CallsOk (update records σ.envelope.callId none)
      (⟨number, σ, records, update records σ.envelope.callId none,
        some (.error expiredError)⟩ :: log) := by
  refine h.cons rfl rfl ⟨?_, ?_⟩ ?_ (fun id hne => update_of_ne hne ..) ?_
  · rintro _ ⟨⟩
  · exact fun _ => .inr ⟨call, hrecord, hexpired, rfl⟩
  · change CallOk _ (update records σ.envelope.callId none σ.envelope.callId) _
    rw [update_self, sinceInit_cons_of_not log (succeeded_of_not_forwards rfl _ _)]
    exact (h.calls _).remove (succeeded_of_not_forwards rfl _ _)
  · rintro ⟨⟩

/-- A store call that changes nothing. -/
theorem unchanged {result : Option (Except ProtocolError VoipRelayAction)}
    (hfails : ∀ a, result = some a → Fails a) :
    CallsOk records (⟨number, σ, records, records, result⟩ :: log) := by
  have hforwards : forwards ⟨number, σ, records, records, result⟩ = false := by
    cases result with
    | none => rfl
    | some a =>
      obtain ⟨e, rfl⟩ := hfails a rfl
      rfl
  refine h.cons rfl rfl ⟨fun action haction => ?_, fun _ => .inl rfl⟩ ?_ (fun _ _ => rfl)
    fun hforwards' => ?_
  · obtain ⟨e, he⟩ := hfails _ haction
    cases he
  · have hno := succeeded_of_not_forwards hforwards
    rw [sinceInit_cons_of_not log (hno _ _)]
    exact (h.calls _).quiet (hno _ _) (hno _ _) (not_closes_of_quiet hforwards rfl)
  · rw [hforwards] at hforwards'
    cases hforwards'

end

/-- It holds after every schedule that started with no calls. -/
theorem runSignals {S : VoipCallStore} {s₀ : S.State} (hstart : S.records s₀ = fun _ => none)
    (actions : List (Action Signal)) :
    CallsOk (S.records (runSignals S s₀ actions).store) (runSignals S s₀ actions).log := by
  refine Schedule.invariant (T := Settles) (E := fun _ => Fails) (P := CallsOk)
    (fun h => ⟨_, h.keyOfExchange⟩) commits_handler (hstart ▸ start) ?_ ?_ actions
  · intro R log number σ key next a h hsettles hkey
    obtain rfl := Option.some.inj (hsettles.keyOfExchange.symm.trans hkey)
    generalize hrecord : R σ.envelope.callId = current at hsettles
    cases hsettles with
    | served hserved => exact h.served (hrecord ▸ hserved)
    | expired hcall hexpired => exact h.expired hrecord hexpired
  · intro R log number σ result h hfails
    exact h.unchanged hfails

end CallsOk

/-! ## The relay under concurrency -/

/-- Whatever the store, as long as it keeps the contract of `compare_exchange_call`, and however
the store calls of the handlers are interleaved: every store call is atomic in the sense of
`CallEvent.Atomic`, starts from the records the one before left, and is the last one of its handler
if the handler returns with it.  What is forwarded goes to the sender's peer.  A record is rekeying
exactly while a participant's rekey is pending, it counts the acks since the init, at most one
accept succeeds for it, and once the call is closed nothing is forwarded until the next init. -/
theorem calls_over_schedule (S : VoipCallStore) (s₀ : S.State)
    (hstart : S.records s₀ = fun _ ↦ none) (actions : List (Action Signal)) :
    let run := runSignals S s₀ actions
    let log : List CallEvent := run.log
    (∀ e ∈ log, e.Atomic) ∧
    Schedule.Follows (fun _ ↦ none) log (S.records run.store) ∧
    log.Pairwise (fun later earlier ↦
      earlier.result.isSome → earlier.number ≠ later.number) ∧
    (∀ e ∈ log, ∀ action, e.result = some (.ok action) →
      ∃ call, (e.before e.callId = some call ∨ e.after e.callId = some call) ∧
        call.peerDeviceId e.input.envelope.senderDeviceId = some action.targetDeviceId) ∧
    (∀ id call, S.records run.store id = some call →
      (call.state = .rekeying ↔ call.pendingRekeyFrom ≠ none) ∧
      (∀ device, call.pendingRekeyFrom = some device →
        device = call.callerDeviceId ∨ device = call.calleeDeviceId) ∧
      call.rekeyGeneration = (sinceInit id log).countP (succeeded id .rekeyAck)) ∧
    (∀ id, (sinceInit id log).countP (succeeded id .callAccept) ≤ 1) ∧
    ∀ later e earlier, log = later ++ e :: earlier → e.forwards = true →
      ¬ e.input.IsA .callInit → ∀ e' ∈ sinceInit e.callId earlier, ¬ e'.Closes e.callId := by
  intro run log
  have hok := CallsOk.runSignals hstart actions
  refine ⟨hok.atomic, hok.follows, Schedule.silent_after_result s₀ actions, ?_, ?_, ?_, hok.quiet⟩
  · intro e he action haction
    obtain ⟨next, hserved, hafter⟩ := (hok.atomic e he).ok action haction
    obtain ⟨call, hcall, hpeer⟩ := hserved.peerDeviceId
    refine ⟨call, hcall.imp_right fun hnext ↦ ?_, hpeer⟩
    rw [hafter, update_self, hnext]
  · intro id call hcall
    have hid := hok.calls id
    exact ⟨hid.rekeying_iff call hcall, hid.participant call hcall, hid.generation call hcall⟩
  · exact fun id ↦ (hok.calls id).accepts

/-- A signal between the two devices of the example. -/
def sampleSignal (type : VoipSignalType) (fromCaller : Bool) (serverTimestamp : ℕ) : Signal where
  envelope :=
    { senderDeviceId := if fromCaller then [1] else [2]
      recipientDeviceId := if fromCaller then [2] else [1]
      signalType := type.toInt
      callId := [9] }
  serverTimestamp := serverTimestamp

/-- A call is set up, and both devices rekey at once: the two handlers read the same record, and
the second exchange fails.  The first rekey is acknowledged. -/
def sampleActions : List (Action Signal) :=
  [.start (sampleSignal .callInit true 100), .resume 0,
    .start (sampleSignal .callAccept false 101), .resume 1, .resume 1,
    .start (sampleSignal .rekey true 110), .start (sampleSignal .rekey false 110),
    .resume 2, .resume 3, .resume 2, .resume 3, .resume 3,
    .start (sampleSignal .rekeyAck false 111), .resume 4, .resume 4]

theorem calls_over_schedule_sample :
    let run := runSignals (Store.memory ProtocolError ActiveCall.callId) (fun _ ↦ none)
      sampleActions
    run.log.filterMap (·.result) =
        [.ok (.forward [1]), .error (.voipCall "rekey is only valid for active calls"),
          .ok (.forward [2]), .ok (.forward [1]), .ok (.forward [2])] ∧
      (∀ e ∈ run.log, CallEvent.Atomic e) ∧
      ∀ id, (sinceInit id run.log).countP (succeeded id .callAccept) ≤ 1 := by
  intro run
  obtain ⟨hatomic, -, -, -, -, haccepts, -⟩ := calls_over_schedule
    (Store.memory ProtocolError ActiveCall.callId) (fun _ ↦ none) rfl sampleActions
  exact ⟨by decide +kernel, hatomic, haccepts⟩

end AuraProtocol.Relay
