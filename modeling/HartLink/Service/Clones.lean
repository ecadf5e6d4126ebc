import HartLink.Service.Cooldown

/-!
# Clones of a managed session

Clones share one health state behind a lock, and their calls overlap.  Every
section that holds the lock is one event here, with the clock reading it uses;
between two sections of a call any other call may run, end, or be dropped.  The
history of recorded outcomes explains the shared state: the run of outages at
its end is the failure count, and a cooldown reaches no further than the
configured period after the last of them.
-/

namespace HartLink.Service

open HartLink.Foundation
open HartLink.Operation

/-! ## Snapshots -/

structure DeviceHealthSnapshot where
  successes : UInt64
  failures : UInt64
  consecutiveTransportFailures : UInt32
  cooldownActivations : UInt64
  cooldownRejections : UInt64
  cooldownRemaining : Nat
  learnedResponse : Option Nat
  adaptiveAttempts : UInt64
  adaptiveFallbacks : UInt64
  deriving DecidableEq, Repr

/-- Reading the state also ends a cooldown that has run out. -/
def HealthState.snapshot (state : HealthState) (now : Nat) :
    DeviceHealthSnapshot × HealthState :=
  let remaining := state.cooldownUntil.elim 0 (· - now)
  let state :=
    if remaining = 0 then { state with cooldownUntil := none } else state
  ({ successes := state.successes
     failures := state.failures
     consecutiveTransportFailures := state.consecutiveTransportFailures
     cooldownActivations := state.cooldownActivations
     cooldownRejections := state.cooldownRejections
     cooldownRemaining := remaining
     learnedResponse := state.learnedResponse
     adaptiveAttempts := state.adaptiveAttempts
     adaptiveFallbacks := state.adaptiveFallbacks }, state)

/-! ## Calls of clones -/

/-- Where a call stands between two sections that hold the lock. -/
inductive CallStage where
  | entered
  | admitted
  | plain
  | chosen
  | fast
  | fallingBack
  | fallback
  deriving DecidableEq, Repr

structure OpenCall where
  command : CommandCode
  policy : RetryPolicy
  bypass : Bool
  stage : CallStage
  deriving DecidableEq, Repr

/-- What a call has recorded; an outage carries the reading of the clock. -/
inductive RecordedOutcome where
  | success
  | failure
  | outage (recordedAt : Nat)
  deriving DecidableEq, Repr

def RecordedOutcome.isOutage : RecordedOutcome → Bool
  | .outage _ => true
  | _ => false

/-- The shared state, the open calls and what was recorded, newest first. -/
structure CloneState where
  health : HealthState := {}
  calls : List (Option OpenCall) := []
  history : List RecordedOutcome := []
  deriving DecidableEq, Repr

/-- The calls of any clone, their sections, and dropped calls. -/
inductive CloneEvent where
  | execute (command : CommandCode) (policy : RetryPolicy)
  | probe (command : CommandCode) (policy : RetryPolicy)
  | checkCooldown (ticket now : Nat)
  | adaptiveTimeout (ticket : Nat)
  | countAttempt (ticket : Nat)
  | requestEnds (ticket : Nat) (result : Except SessionError Unit)
      (elapsed logicalElapsed now : Nat)
  | countFallback (ticket : Nat)
  | drop (ticket : Nat)
  | snapshot (now : Nat)
  deriving DecidableEq, Repr

/-- What the caller sees when its call has ended, or of a snapshot. -/
inductive CloneAnswer where
  | returns (result : Except ManagedSessionError Unit)
  | snapshot (taken : DeviceHealthSnapshot)
  deriving DecidableEq, Repr

namespace CloneState

def call? (state : CloneState) (ticket : Nat) : Option OpenCall :=
  (state.calls[ticket]?).join

def enter (state : CloneState) (call : OpenCall) : CloneState :=
  { state with calls := state.calls ++ [some call] }

def moveTo (state : CloneState) (ticket : Nat) (call : OpenCall)
    (stage : CallStage) : CloneState :=
  { state with calls := state.calls.set ticket (some { call with stage }) }

def close (state : CloneState) (ticket : Nat) : CloneState :=
  { state with calls := state.calls.set ticket none }

def recordSuccess (managed : ManagedDeviceSession) (state : CloneState)
    (elapsed : Nat) (command : CommandCode) : CloneState :=
  { state with
    health := state.health.recordSuccess managed.options elapsed command
    history := .success :: state.history }

def recordFailure (managed : ManagedDeviceSession) (state : CloneState)
    (now : Nat) (error : SessionError) : CloneState :=
  { state with
    health := managed.recordFailure now state.health error
    history := (if isTransportOutage error then .outage now else .failure) ::
      state.history }

end CloneState

namespace ManagedDeviceSession

def endCall (managed : ManagedDeviceSession) (state : CloneState)
    (ticket : Nat) (call : OpenCall) (result : Except SessionError Unit)
    (elapsed now : Nat) : CloneState × Option CloneAnswer :=
  match result with
  | .ok _ =>
      ((state.recordSuccess managed elapsed call.command).close ticket,
        some (.returns (.ok ())))
  | .error error =>
      ((state.recordFailure managed now error).close ticket,
        some (.returns (.error (.session error))))

def callEvent (managed : ManagedDeviceSession) (state : CloneState)
    (ticket : Nat) (call : OpenCall) (event : CloneEvent) :
    Option (CloneState × Option CloneAnswer) :=
  match event, call.stage with
  | .checkCooldown _ now, .entered =>
      match state.health.checkCooldown call.bypass now with
      | (.error error, health) =>
          some ({ state with health }.close ticket,
            some (.returns (.error error)))
      | (.ok _, health) =>
          some ({ state with health }.moveTo ticket call .admitted, none)
  | .adaptiveTimeout _, .admitted =>
      match managed.adaptiveTimeout state.health call.command call.policy with
      | none => some (state.moveTo ticket call .plain, none)
      | some _ => some (state.moveTo ticket call .chosen, none)
  | .countAttempt _, .chosen =>
      let health := { state.health with
        adaptiveAttempts := saturatingNext state.health.adaptiveAttempts }
      some ({ state with health }.moveTo ticket call .fast, none)
  | .requestEnds _ result elapsed _ now, .plain =>
      some (managed.endCall state ticket call result elapsed now)
  | .requestEnds _ result elapsed logicalElapsed now, .fast =>
      match result with
      | .ok _ => some (managed.endCall state ticket call result elapsed now)
      | .error error =>
          -- Only a response timeout with time left leads to a fallback.
          if isResponseTimeout error ∧
              call.policy.totalTimeout - logicalElapsed ≠ 0 then
            some (state.moveTo ticket call .fallingBack, none)
          else some (managed.endCall state ticket call result elapsed now)
  | .countFallback _, .fallingBack =>
      let health := { state.health with
        adaptiveFallbacks := saturatingNext state.health.adaptiveFallbacks }
      some ({ state with health }.moveTo ticket call .fallback, none)
  | .requestEnds _ result elapsed _ now, .fallback =>
      some (managed.endCall state ticket call result elapsed now)
  | .drop _, _ => some (state.close ticket, none)
  | _, _ => none

def cloneStep (managed : ManagedDeviceSession) (state : CloneState)
    (event : CloneEvent) : Option (CloneState × Option CloneAnswer) :=
  match event with
  | .execute command policy =>
      some (state.enter { command, policy, bypass := false, stage := .entered },
        none)
  | .probe command policy =>
      if registeredReadOnly command then
        some (state.enter
          { command, policy, bypass := true, stage := .entered }, none)
      else
        some (state, some (.returns (.error (.unsafeProbe command.get))))
  | .snapshot now =>
      let (taken, health) := state.health.snapshot now
      some ({ state with health }, some (.snapshot taken))
  | .checkCooldown ticket _ | .adaptiveTimeout ticket | .countAttempt ticket
  | .requestEnds ticket _ _ _ _ | .countFallback ticket | .drop ticket =>
      (state.call? ticket).bind fun call =>
        managed.callEvent state ticket call event

def cloneNext (managed : ManagedDeviceSession) (state : CloneState)
    (event : CloneEvent) : Option CloneState :=
  (managed.cloneStep state event).map Prod.fst

/-! ## A call on its own -/

def courseEvents (managed : ManagedDeviceSession) (state : HealthState)
    (call : ManagedCall) : List CloneEvent :=
  let passage := call.passage
  let elapsed := passage.first.endedAt - passage.first.startedAt
  let logicalElapsed := passage.first.endedAt - passage.logicalStarted
  match managed.adaptiveTimeout state call.operation.command call.policy with
  | none =>
      let run := managed.session.execute passage.first call.operation
        call.queue call.policy
      [.adaptiveTimeout 0, .requestEnds 0 (run.result.map fun _ => ())
        elapsed logicalElapsed passage.recordedAt]
  | some fastTimeout =>
      let run := managed.fastRun call.operation call.queue call.policy
        fastTimeout passage
      let first := [.adaptiveTimeout 0, .countAttempt 0,
        .requestEnds 0 (run.result.map fun _ => ()) elapsed logicalElapsed
          passage.recordedAt]
      match run.result with
      | .ok _ => first
      | .error error =>
          if isResponseTimeout error ∧ remaining call.policy passage ≠ 0 then
            let run := managed.fallbackRun call.operation call.queue
              call.policy passage
            first ++ [.countFallback 0, .requestEnds 0
              (run.result.map fun _ => ())
              (passage.fallback.endedAt - passage.fallback.startedAt)
              logicalElapsed passage.recordedAt]
          else first

def aloneEvents (managed : ManagedDeviceSession) (state : HealthState)
    (call : ManagedCall) : List CloneEvent :=
  let command := call.operation.command
  let check : CloneEvent := .checkCooldown 0 call.passage.checkedAt
  if call.probe ∧ ¬ registeredReadOnly command then
    [.probe command call.policy]
  else
    (if call.probe then .probe command call.policy
      else .execute command call.policy) ::
      match state.checkCooldown call.probe call.passage.checkedAt with
      | (.error _, _) => [check]
      | (.ok _, state) => check :: managed.courseEvents state call

/-! ## What an event does to the shared state -/

/-- Nothing is recorded, and a cooldown is left alone or ended. -/
structure Quiet (state next : CloneState) : Prop where
  history : next.history = state.history
  failures : next.health.consecutiveTransportFailures =
    state.health.consecutiveTransportFailures
  activations : next.health.cooldownActivations =
    state.health.cooldownActivations
  cooldown : next.health.cooldownUntil = state.health.cooldownUntil ∨
    next.health.cooldownUntil = none

inductive CloneChange (managed : ManagedDeviceSession) (state : CloneState) :
    CloneEvent → CloneState → Option CloneAnswer → Prop
  | quiet {event : CloneEvent} {next : CloneState}
      {answer : Option CloneAnswer} (hquiet : Quiet state next)
      (hanswer : ∀ remaining,
        answer ≠ some (.returns (.error (.coolingDown remaining)))) :
      CloneChange managed state event next answer
  | rejected {ticket now expiry : Nat} {next : CloneState}
      {answer : Option CloneAnswer} (hquiet : Quiet state next)
      (hexpiry : state.health.cooldownUntil = some expiry)
      (hnow : now < expiry) :
      CloneChange managed state (.checkCooldown ticket now) next answer
  | success {event : CloneEvent} {ticket elapsed : Nat}
      {command : CommandCode} :
      CloneChange managed state event
        ((state.recordSuccess managed elapsed command).close ticket)
        (some (.returns (.ok ())))
  | failure {ticket closed elapsed logicalElapsed now : Nat}
      {error : SessionError} :
      CloneChange managed state
        (.requestEnds ticket (.error error) elapsed logicalElapsed now)
        ((state.recordFailure managed now error).close closed)
        (some (.returns (.error (.session error))))

theorem cloneChange_endCall (managed : ManagedDeviceSession)
    (state : CloneState) (ticket named : Nat) (call : OpenCall)
    (result : Except SessionError Unit) (elapsed logicalElapsed now : Nat) :
    CloneChange managed state
      (.requestEnds named result elapsed logicalElapsed now)
      (managed.endCall state ticket call result elapsed now).1
      (managed.endCall state ticket call result elapsed now).2 := by
  cases result with
  | ok value => exact .success
  | error error => exact .failure

theorem cloneChange_checkCooldown {managed : ManagedDeviceSession}
    {state next : CloneState} {ticket named now : Nat} {call : OpenCall}
    {answer : Option CloneAnswer} (hstage : call.stage = .entered)
    (h : managed.callEvent state ticket call (.checkCooldown named now) =
      some (next, answer)) :
    CloneChange managed state (.checkCooldown named now) next answer := by
  simp only [callEvent, hstage] at h
  rcases state.health.checkCooldown_cases call.bypass now with
    ⟨expiry, -, hexpiry, hnow, hcheck⟩ | ⟨expiry, hcheck, hkept⟩
  · rw [hcheck] at h
    simp only [Option.some.injEq, Prod.mk.injEq] at h
    obtain ⟨rfl, rfl⟩ := h
    exact .rejected ⟨rfl, rfl, rfl, .inl rfl⟩ hexpiry hnow
  · rw [hcheck] at h
    simp only [Option.some.injEq, Prod.mk.injEq] at h
    obtain ⟨rfl, rfl⟩ := h
    refine .quiet ⟨rfl, rfl, rfl, ?_⟩ (by simp)
    rcases hkept with rfl | ⟨rfl, -⟩
    · exact .inl rfl
    · exact .inr rfl

/-- Moving a call on without recording anything. -/
theorem cloneChange_of_eq {managed : ManagedDeviceSession}
    {state next moved : CloneState} {event : CloneEvent}
    {answer : Option CloneAnswer}
    (h : some (moved, none) = some (next, answer))
    (hquiet : Quiet state moved) :
    CloneChange managed state event next answer := by
  simp only [Option.some.injEq, Prod.mk.injEq] at h
  obtain ⟨rfl, rfl⟩ := h
  exact .quiet hquiet (by simp)

theorem cloneChange_requestEnds {managed : ManagedDeviceSession}
    {state next : CloneState} {ticket named elapsed logicalElapsed now : Nat}
    {call : OpenCall} {result : Except SessionError Unit}
    {answer : Option CloneAnswer}
    (h : managed.callEvent state ticket call
      (.requestEnds named result elapsed logicalElapsed now) =
        some (next, answer)) :
    CloneChange managed state
      (.requestEnds named result elapsed logicalElapsed now) next answer := by
  have hends := cloneChange_endCall managed state ticket named call result
    elapsed logicalElapsed now
  have hsame (hcall : some (managed.endCall state ticket call result elapsed
      now) = some (next, answer)) : CloneChange managed state
      (.requestEnds named result elapsed logicalElapsed now) next answer := by
    injection hcall with hcall
    rwa [hcall] at hends
  cases hstage : call.stage with
  | plain => exact hsame (by simpa only [callEvent, hstage] using h)
  | fallback => exact hsame (by simpa only [callEvent, hstage] using h)
  | fast =>
      simp only [callEvent, hstage] at h
      cases result with
      | ok value => exact hsame h
      | error error =>
          simp only at h
          split_ifs at h with hback
          · exact cloneChange_of_eq h ⟨rfl, rfl, rfl, .inl rfl⟩
          · exact hsame h
  | _ => simp [callEvent, hstage] at h

theorem cloneChange_callEvent {managed : ManagedDeviceSession}
    {state next : CloneState} {ticket : Nat} {call : OpenCall}
    {event : CloneEvent} {answer : Option CloneAnswer}
    (h : managed.callEvent state ticket call event = some (next, answer)) :
    CloneChange managed state event next answer := by
  cases event with
  | checkCooldown named now =>
      cases hstage : call.stage with
      | entered => exact cloneChange_checkCooldown hstage h
      | _ => simp [callEvent, hstage] at h
  | adaptiveTimeout named =>
      cases hstage : call.stage with
      | admitted =>
          simp only [callEvent, hstage] at h
          cases htimeout : managed.adaptiveTimeout state.health call.command
              call.policy with
          | none =>
              rw [htimeout] at h
              exact cloneChange_of_eq h ⟨rfl, rfl, rfl, .inl rfl⟩
          | some timeout =>
              rw [htimeout] at h
              exact cloneChange_of_eq h ⟨rfl, rfl, rfl, .inl rfl⟩
      | _ => simp [callEvent, hstage] at h
  | countAttempt named =>
      cases hstage : call.stage with
      | chosen =>
          simp only [callEvent, hstage] at h
          exact cloneChange_of_eq h ⟨rfl, rfl, rfl, .inl rfl⟩
      | _ => simp [callEvent, hstage] at h
  | countFallback named =>
      cases hstage : call.stage with
      | fallingBack =>
          simp only [callEvent, hstage] at h
          exact cloneChange_of_eq h ⟨rfl, rfl, rfl, .inl rfl⟩
      | _ => simp [callEvent, hstage] at h
  | requestEnds named result elapsed logicalElapsed now =>
      exact cloneChange_requestEnds h
  | drop named =>
      simp only [callEvent] at h
      exact cloneChange_of_eq h ⟨rfl, rfl, rfl, .inl rfl⟩
  | _ => simp [callEvent] at h

theorem quiet_snapshot (state : CloneState) (now : Nat) :
    Quiet state { state with health := (state.health.snapshot now).2 } := by
  unfold HealthState.snapshot
  dsimp only
  split_ifs
  · exact ⟨rfl, rfl, rfl, .inr rfl⟩
  · exact ⟨rfl, rfl, rfl, .inl rfl⟩

theorem cloneChange_of_step {managed : ManagedDeviceSession}
    {state next : CloneState} {event : CloneEvent}
    {answer : Option CloneAnswer}
    (h : managed.cloneStep state event = some (next, answer)) :
    CloneChange managed state event next answer := by
  have hcall (ticket : Nat) (hbind : (state.call? ticket).bind
      (fun call => managed.callEvent state ticket call event) =
        some (next, answer)) :
      CloneChange managed state event next answer := by
    obtain ⟨call, -, hevent⟩ := Option.bind_eq_some_iff.mp hbind
    exact cloneChange_callEvent hevent
  cases event with
  | execute command policy =>
      exact cloneChange_of_eq h ⟨rfl, rfl, rfl, .inl rfl⟩
  | probe command policy =>
      simp only [cloneStep] at h
      split_ifs at h
      · exact cloneChange_of_eq h ⟨rfl, rfl, rfl, .inl rfl⟩
      · simp only [Option.some.injEq, Prod.mk.injEq] at h
        obtain ⟨rfl, rfl⟩ := h
        exact .quiet ⟨rfl, rfl, rfl, .inl rfl⟩ (by simp)
  | snapshot now =>
      simp only [cloneStep, Option.some.injEq, Prod.mk.injEq] at h
      obtain ⟨rfl, rfl⟩ := h
      exact .quiet (quiet_snapshot state now) (by simp)
  | checkCooldown ticket now => exact hcall ticket h
  | adaptiveTimeout ticket => exact hcall ticket h
  | countAttempt ticket => exact hcall ticket h
  | requestEnds ticket result elapsed logicalElapsed now =>
      exact hcall ticket h
  | countFallback ticket => exact hcall ticket h
  | drop ticket => exact hcall ticket h

/-! ## The history explains the shared state -/

def outageRun (history : List RecordedOutcome) : Nat :=
  leadingCount RecordedOutcome.isOutage history

/-- The newest outcome is an outage, recorded at this instant. -/
def LastOutage (history : List RecordedOutcome) (recordedAt : Nat) : Prop :=
  history.head? = some (.outage recordedAt)

structure Explains (managed : ManagedDeviceSession)
    (state : CloneState) : Prop where
  failures : state.health.consecutiveTransportFailures.toNat =
    min (outageRun state.history) (2 ^ 32 - 1)
  cooldown : ∀ expiry, state.health.cooldownUntil = some expiry →
    managed.options.failureThreshold.val.toNat ≤ outageRun state.history ∧
      ∃ recordedAt, LastOutage state.history recordedAt ∧
        expiry ≤ recordedAt + managed.options.cooldown

section Explained

variable {managed : ManagedDeviceSession} {state next : CloneState}

theorem Explains.quiet (h : managed.Explains state)
    (hquiet : Quiet state next) : managed.Explains next := by
  refine ⟨?_, ?_⟩
  · rw [hquiet.failures, hquiet.history]
    exact h.failures
  · intro expiry hexpiry
    rw [hquiet.history]
    rcases hquiet.cooldown with hsame | hnone
    · exact h.cooldown expiry (hsame.symm.trans hexpiry)
    · rw [hnone] at hexpiry
      contradiction

theorem explains_recordSuccess (elapsed : Nat) (command : CommandCode) :
    managed.Explains (state.recordSuccess managed elapsed command) := by
  have hfailures : (state.health.recordSuccess managed.options elapsed
      command).consecutiveTransportFailures = 0 := by
    unfold HealthState.recordSuccess
    split_ifs <;> rfl
  refine ⟨?_, ?_⟩
  · simp [CloneState.recordSuccess, hfailures, outageRun, leadingCount,
      RecordedOutcome.isOutage]
  · intro expiry hexpiry
    simp only [CloneState.recordSuccess,
      HealthState.cooldownUntil_recordSuccess] at hexpiry
    contradiction

theorem explains_recordFailure_other (now : Nat) {error : SessionError}
    (hother : isTransportOutage error = false) :
    managed.Explains (state.recordFailure managed now error) := by
  have hrecord : (state.recordFailure managed now
      error).health.consecutiveTransportFailures = 0 ∧
      (state.recordFailure managed now error).health.cooldownUntil = none :=
    HealthState.recordFailure_other hother
  refine ⟨?_, ?_⟩
  · rw [hrecord.1]
    simp [CloneState.recordFailure, hother, outageRun, leadingCount,
      RecordedOutcome.isOutage]
  · intro expiry hexpiry
    rw [hrecord.2] at hexpiry
    contradiction

/-- An outage extends the run, and may start the cooldown anew. -/
theorem Explains.recordFailure_outage (h : managed.Explains state)
    (now : Nat) {error : SessionError}
    (houtage : isTransportOutage error = true) :
    managed.Explains (state.recordFailure managed now error) := by
  have hfailures := h.failures
  have hrun : outageRun (state.recordFailure managed now error).history =
      outageRun state.history + 1 := by
    simp only [CloneState.recordFailure, houtage, if_true, outageRun,
      leadingCount]
    rw [List.takeWhile_cons_of_pos rfl, List.length_cons]
  have hnext := toNat_saturatingNext32
    state.health.consecutiveTransportFailures
  obtain ⟨hcount, hcooldown⟩ : (state.recordFailure managed now
      error).health.consecutiveTransportFailures =
        saturatingNext32 state.health.consecutiveTransportFailures ∧
      (state.recordFailure managed now error).health.cooldownUntil =
        if managed.options.failureThreshold.val.toNat ≤
            (saturatingNext32
              state.health.consecutiveTransportFailures).toNat then
          checkedAdd managed.session.link.horizon now managed.options.cooldown
        else state.health.cooldownUntil :=
    HealthState.recordFailure_outage houtage
  have hthreshold := managed.options.failureThreshold.val.toNat_lt
  refine ⟨?_, ?_⟩
  · rw [hcount, hnext, hrun]
    omega
  · intro expiry hexpiry
    rw [hcooldown] at hexpiry
    split_ifs at hexpiry with hreached
    · refine ⟨by omega, now, ?_, ?_⟩
      · simp [LastOutage, CloneState.recordFailure, houtage]
      · unfold checkedAdd at hexpiry
        split_ifs at hexpiry
        injection hexpiry with hexpiry
        omega
    · -- A cooldown that was active before has already reached the threshold.
      have := (h.cooldown expiry hexpiry).1
      omega

theorem explains_step {event : CloneEvent}
    (hstep : managed.cloneNext state event = some next)
    (h : managed.Explains state) : managed.Explains next := by
  obtain ⟨⟨moved, answer⟩, hmoved, rfl⟩ := Option.map_eq_some_iff.mp hstep
  cases cloneChange_of_step hmoved with
  | quiet hquiet hanswer => exact h.quiet hquiet
  | rejected hquiet hexpiry hnow => exact h.quiet hquiet
  | success =>
      exact (explains_recordSuccess _ _).quiet ⟨rfl, rfl, rfl, .inl rfl⟩
  | @failure _ _ _ _ now error =>
      have hrecorded :
          managed.Explains (state.recordFailure managed now error) := by
        cases houtage : isTransportOutage error with
        | false => exact explains_recordFailure_other now houtage
        | true => exact h.recordFailure_outage now houtage
      exact hrecorded.quiet ⟨rfl, rfl, rfl, .inl rfl⟩

theorem explains_initial : managed.Explains {} := by
  refine ⟨rfl, ?_⟩
  intro expiry hexpiry
  contradiction

/-! ## Rejections and activations -/

theorem outages_of_run {history : List RecordedOutcome} {count : Nat}
    (h : count ≤ outageRun history) :
    count ≤ history.length ∧
      ∀ outcome ∈ history.take count, outcome.isOutage = true := by
  have hlength := leadingCount_le_length RecordedOutcome.isOutage history
  refine ⟨h.trans hlength, ?_⟩
  intro outcome hmem
  obtain ⟨index, hindex, hget⟩ := List.mem_iff_getElem.mp hmem
  rw [List.length_take] at hindex
  rw [List.getElem_take] at hget
  exact getElem?_of_leadingCount _ history index
    (by unfold outageRun at h; omega) outcome
    (List.getElem?_eq_some_iff.mpr ⟨by omega, hget⟩)

theorem activations_recordFailure {now : Nat} {error : SessionError}
    (h : (managed.recordFailure now state.health error).cooldownActivations ≠
      state.health.cooldownActivations) (expiry : Nat)
    (hexpiry : state.health.cooldownUntil = some expiry) : expiry ≤ now := by
  by_contra hactive
  apply h
  simp only [ManagedDeviceSession.recordFailure, HealthState.recordFailure,
    hexpiry, Option.any_some, gt_iff_lt]
  split_ifs <;> simp_all

end Explained

/--
Cooldown is sound for any number of clones and any order of their sections: the
failure count is the run of outages at the end of the recorded history, an
active cooldown follows at least the threshold of them and ends at most the
configured period after the last, calls are rejected only then, and only an
inactive cooldown is counted as activated.
-/
theorem cooldown_of_clones_sound (managed : ManagedDeviceSession)
    (events : List CloneEvent) (state : CloneState)
    (hrun : runSteps managed.cloneNext {} events = some state) :
    state.health.consecutiveTransportFailures.toNat =
        min (outageRun state.history) (2 ^ 32 - 1) ∧
      (∀ expiry, state.health.cooldownUntil = some expiry →
        managed.options.failureThreshold.val.toNat ≤
            outageRun state.history ∧
          ∃ recordedAt, LastOutage state.history recordedAt ∧
            expiry ≤ recordedAt + managed.options.cooldown) ∧
      ∀ event next answer,
        managed.cloneStep state event = some (next, answer) →
        (∀ remaining,
          answer = some (.returns (.error (.coolingDown remaining))) →
          (managed.options.failureThreshold.val.toNat ≤
              state.history.length ∧
            ∀ outcome ∈ state.history.take
              managed.options.failureThreshold.val.toNat,
              outcome.isOutage = true) ∧
          ∃ ticket now recordedAt, event = .checkCooldown ticket now ∧
            LastOutage state.history recordedAt ∧
            now < recordedAt + managed.options.cooldown) ∧
        (next.health.cooldownActivations ≠
            state.health.cooldownActivations →
          ∃ ticket error elapsed logicalElapsed now,
            event = .requestEnds ticket (.error error) elapsed
              logicalElapsed now ∧
            ∀ expiry, state.health.cooldownUntil = some expiry →
              expiry ≤ now) := by
  have hexplains : managed.Explains state :=
    runSteps_invariant explains_step hrun explains_initial
  refine ⟨hexplains.failures, hexplains.cooldown, ?_⟩
  intro event next answer hstep
  cases cloneChange_of_step hstep with
  | quiet hquiet hanswer =>
      exact ⟨fun remaining h => absurd h (hanswer remaining),
        fun h => absurd hquiet.activations h⟩
  | @rejected ticket now expiry _ _ hquiet hexpiry hnow =>
      refine ⟨?_, fun h => absurd hquiet.activations h⟩
      intro remaining _
      obtain ⟨hthreshold, recordedAt, hlast, hbound⟩ :=
        hexplains.cooldown expiry hexpiry
      exact ⟨outages_of_run hthreshold, ticket, now, recordedAt, rfl, hlast,
        by omega⟩
  | @success _ ticket elapsed command =>
      refine ⟨by simp, fun h => absurd ?_ h⟩
      simp only [CloneState.recordSuccess, CloneState.close,
        HealthState.recordSuccess]
      split_ifs <;> rfl
  | @failure ticket closed elapsed logicalElapsed now error =>
      refine ⟨by simp, fun h => ⟨ticket, error, elapsed, logicalElapsed, now,
        rfl, ?_⟩⟩
      exact activations_recordFailure h

def overlappingOutages : List CloneEvent :=
  let command := readPrimaryValue.command
  let timeout : Except SessionError Unit :=
    .error (.exchange (.runner .responseTimeout))
  [0, 1, 2].flatMap (fun ticket => [.execute command RetryPolicy.default,
      .checkCooldown ticket 0, .adaptiveTimeout ticket]) ++
    [2, 0, 1].map (fun ticket => .requestEnds ticket timeout 100 100 200) ++
    [.execute command RetryPolicy.default]

/-- What they leave behind: cooldown is on, and a fourth call has entered. -/
def overlappedState : CloneState :=
  { health :=
      { failures := 3
        consecutiveTransportFailures := 3
        cooldownActivations := 1
        cooldownUntil := some 10000000200 }
    calls := [none, none, none, some
      { command := readPrimaryValue.command
        policy := RetryPolicy.default, bypass := false, stage := .entered }]
    history := [.outage 200, .outage 200, .outage 200] }

/-- The fourth call is rejected, after as many outages as the threshold. -/
theorem cooldown_of_clones_sound_overlapping :
    runSteps sampleManaged.cloneNext {} overlappingOutages =
        some overlappedState ∧
      (sampleManaged.cloneStep overlappedState (.checkCooldown 3 300)).map
          Prod.snd =
        some (some (.returns (.error (.coolingDown 9999999900)))) ∧
      ∃ recordedAt, LastOutage overlappedState.history recordedAt ∧
        300 < recordedAt + sampleManaged.options.cooldown := by
  have hrun : runSteps sampleManaged.cloneNext {} overlappingOutages =
      some overlappedState := by decide +kernel
  refine ⟨hrun, by decide +kernel, ?_⟩
  obtain ⟨-, -, hsteps⟩ :=
    cooldown_of_clones_sound sampleManaged overlappingOutages overlappedState
      hrun
  obtain ⟨-, ticket, now, recordedAt, hevent, hlast, hbefore⟩ :=
    (hsteps (.checkCooldown 3 300) _ _ rfl).1 9999999900 rfl
  injection hevent with _ hnow
  subst hnow
  exact ⟨recordedAt, hlast, hbefore⟩

/-! ## An uninterrupted call -/

def aloneAt (health : HealthState) (call : ManagedCall) (stage : CallStage) :
    CloneState :=
  { health
    calls := [some { command := call.operation.command
                     policy := call.policy, bypass := call.probe, stage }] }

section Alone

variable {managed : ManagedDeviceSession} {health checked : HealthState}
  {call : ManagedCall}

theorem cloneNext_checkCooldown_ok {now : Nat}
    (hcheck : health.checkCooldown call.probe now = (.ok (), checked)) :
    managed.cloneNext (aloneAt health call .entered) (.checkCooldown 0 now) =
      some (aloneAt checked call .admitted) := by
  simp [cloneNext, cloneStep, callEvent, CloneState.call?, CloneState.moveTo,
    aloneAt, hcheck]

theorem cloneNext_checkCooldown_error {error : ManagedSessionError} {now : Nat}
    (hcheck : health.checkCooldown call.probe now = (.error error, checked)) :
    managed.cloneNext (aloneAt health call .entered) (.checkCooldown 0 now) =
      some { health := checked, calls := [none] } := by
  simp [cloneNext, cloneStep, callEvent, CloneState.call?, CloneState.close,
    aloneAt, hcheck]

theorem cloneNext_adaptiveTimeout :
    managed.cloneNext (aloneAt health call .admitted) (.adaptiveTimeout 0) =
      some (aloneAt health call
        (match managed.adaptiveTimeout health call.operation.command
            call.policy with
          | none => .plain
          | some _ => .chosen)) := by
  cases htimeout : managed.adaptiveTimeout health call.operation.command
      call.policy with
  | none =>
      simp [cloneNext, cloneStep, callEvent, CloneState.call?,
        CloneState.moveTo, aloneAt, htimeout]
  | some timeout =>
      simp [cloneNext, cloneStep, callEvent, CloneState.call?,
        CloneState.moveTo, aloneAt, htimeout]

/-- The events can be taken, and this health state is left behind. -/
def LeavesAlone (managed : ManagedDeviceSession) (state : CloneState)
    (events : List CloneEvent) (health : HealthState) : Prop :=
  ∃ final, runSteps managed.cloneNext state events = some final ∧
    final.health = health

theorem leavesAlone_cons {state next : CloneState} {event : CloneEvent}
    {events : List CloneEvent}
    (hstep : managed.cloneNext state event = some next)
    (h : managed.LeavesAlone next events health) :
    managed.LeavesAlone state (event :: events) health := by
  obtain ⟨final, hfinal, hhealth⟩ := h
  refine ⟨final, ?_, hhealth⟩
  rw [runSteps, hstep]
  exact hfinal

theorem leavesAlone_requestEnds {stage : CallStage}
    (hstage : stage = .plain ∨ stage = .fallback)
    (result : Except SessionError call.Output)
    (elapsed logicalElapsed now : Nat) :
    managed.LeavesAlone (aloneAt health call stage)
      [.requestEnds 0 (result.map fun _ => ()) elapsed logicalElapsed now]
      (managed.finish now elapsed call.operation.command health result).2 := by
  rcases hstage with rfl | rfl
  · cases result with
    | ok value => exact ⟨_, rfl, rfl⟩
    | error error => exact ⟨_, rfl, rfl⟩
  · cases result with
    | ok value => exact ⟨_, rfl, rfl⟩
    | error error => exact ⟨_, rfl, rfl⟩

/-- A first request with this result does not lead to a fallback. -/
def Settles (call : ManagedCall)
    (result : Except SessionError call.Output) : Prop :=
  result ≠ .error (.exchange (.runner .responseTimeout)) ∨
    remaining call.policy call.passage = 0

theorem Settles.not_fallback {result : Except SessionError call.Output}
    (h : Settles call result) {error : SessionError}
    (hresult : result = .error error) :
    ¬ (isResponseTimeout error = true ∧
      remaining call.policy call.passage ≠ 0) := by
  rintro ⟨htimedOut, hleft⟩
  rw [(isResponseTimeout_iff error).mp htimedOut] at hresult
  rcases h with h | h
  · exact h hresult
  · exact hleft h

theorem leavesAlone_settled (result : Except SessionError call.Output)
    (elapsed now : Nat) (hsettled : Settles call result) :
    managed.LeavesAlone (aloneAt health call .fast)
      [.requestEnds 0 (result.map fun _ => ()) elapsed
        (call.passage.first.endedAt - call.passage.logicalStarted) now]
      (managed.finish now elapsed call.operation.command health result).2 := by
  cases result with
  | ok value => exact ⟨_, rfl, rfl⟩
  | error error =>
      have hends : managed.cloneNext (aloneAt health call .fast)
          (.requestEnds 0 (.error error) elapsed
            (call.passage.first.endedAt - call.passage.logicalStarted) now) =
            some (((aloneAt health call .fast).recordFailure managed now
              error).close 0) := by
        have hnot := hsettled.not_fallback rfl
        unfold remaining at hnot
        simp only [cloneNext, cloneStep, callEvent, CloneState.call?, aloneAt,
          endCall]
        simp [hnot]
      exact leavesAlone_cons hends ⟨_, rfl, rfl⟩

theorem leavesAlone_fallback (result : Except SessionError call.Output)
    (elapsed again now : Nat)
    (hleft : 0 < remaining call.policy call.passage) :
    managed.LeavesAlone (aloneAt health call .fast)
      [.requestEnds 0 (.error (.exchange (.runner .responseTimeout))) elapsed
          (call.passage.first.endedAt - call.passage.logicalStarted) now,
        .countFallback 0,
        .requestEnds 0 (result.map fun _ => ()) again
          (call.passage.first.endedAt - call.passage.logicalStarted) now]
      (managed.finish now again call.operation.command
        { health with
          adaptiveFallbacks := saturatingNext health.adaptiveFallbacks }
        result).2 := by
  have hfallsBack : managed.cloneNext (aloneAt health call .fast)
      (.requestEnds 0 (.error (.exchange (.runner .responseTimeout))) elapsed
        (call.passage.first.endedAt - call.passage.logicalStarted) now) =
        some (aloneAt health call .fallingBack) := by
    have htimedOut : isResponseTimeout
        (.exchange (.runner .responseTimeout)) = true := rfl
    unfold remaining at hleft
    simp [cloneNext, cloneStep, callEvent, CloneState.call?, aloneAt,
      CloneState.moveTo, htimedOut, hleft.ne']
  exact leavesAlone_cons hfallsBack (leavesAlone_cons rfl
    (leavesAlone_requestEnds (.inr rfl) result again _ now))

theorem leavesAlone_course
    (hcheck : health.checkCooldown call.probe call.passage.checkedAt =
      (.ok (), checked)) :
    managed.LeavesAlone (aloneAt checked call .admitted)
      (managed.courseEvents checked call)
      (managed.executeInner health call.operation call.queue call.policy
        call.probe call.passage).state := by
  have hchosen : managed.cloneNext (aloneAt checked call .admitted)
      (.adaptiveTimeout 0) = some (aloneAt checked call _) :=
    cloneNext_adaptiveTimeout
  have hcourse : managed.Course checked call.operation call.queue call.policy
      call.passage (managed.executeInner health call.operation call.queue
        call.policy call.probe call.passage) := executeInner_course hcheck
  cases hcourse with
  | plain timeout first fallback ends =>
      rw [timeout] at hchosen
      have hstate := congrArg Prod.snd ends
      dsimp only at hstate
      rw [hstate]
      simp only [courseEvents, timeout]
      exact leavesAlone_cons hchosen
        (leavesAlone_requestEnds (.inl rfl) _ _ _ _)
  | fast fastTimeout timeout settled first fallback ends =>
      rw [timeout] at hchosen
      have hstate := congrArg Prod.snd ends
      dsimp only at hstate
      rw [hstate]
      have hsettled : managed.LeavesAlone (aloneAt
          { checked with
            adaptiveAttempts := saturatingNext checked.adaptiveAttempts }
          call .fast) _ _ := leavesAlone_settled _
        (call.passage.first.endedAt - call.passage.first.startedAt)
        call.passage.recordedAt settled
      simp only [courseEvents, timeout]
      cases hresult : (managed.fastRun call.operation call.queue call.policy
          fastTimeout call.passage).result with
      | ok value =>
          rw [hresult] at hsettled
          simp only [conclude, hresult]
          exact leavesAlone_cons hchosen (leavesAlone_cons rfl hsettled)
      | error error =>
          have hnot := Settles.not_fallback settled hresult
          rw [hresult] at hsettled
          simp only [conclude, hresult, if_neg hnot]
          exact leavesAlone_cons hchosen (leavesAlone_cons rfl hsettled)
  | fallsBack fastTimeout timeout timedOut left first fallback ends =>
      rw [timeout] at hchosen
      have hstate := congrArg Prod.snd ends
      dsimp only at hstate
      rw [hstate]
      simp only [courseEvents, timeout, timedOut]
      have hleft : isResponseTimeout (.exchange (.runner .responseTimeout)) =
          true ∧ remaining call.policy call.passage ≠ 0 := ⟨rfl, left.ne'⟩
      rw [if_pos hleft]
      exact leavesAlone_cons hchosen (leavesAlone_cons rfl
        (leavesAlone_fallback _ _ _ _ left))

theorem cloneNext_enter (state : HealthState)
    (hsafe : ¬ (call.probe = true ∧
      ¬ registeredReadOnly call.operation.command = true)) :
    managed.cloneNext { health := state }
      (if call.probe then .probe call.operation.command call.policy
        else .execute call.operation.command call.policy) =
      some (aloneAt state call .entered) := by
  cases hprobe : call.probe with
  | false => simp [cloneNext, cloneStep, CloneState.enter, aloneAt, hprobe]
  | true =>
      have hregistered : registeredReadOnly call.operation.command = true := by
        by_contra hnot
        exact hsafe ⟨hprobe, hnot⟩
      simp [cloneNext, cloneStep, CloneState.enter, aloneAt, hprobe,
        hregistered]

theorem state_run_of_safe (state : HealthState)
    (hsafe : ¬ (call.probe = true ∧
      ¬ registeredReadOnly call.operation.command = true)) :
    (call.run managed state).state = (managed.executeInner state
      call.operation call.queue call.policy call.probe call.passage).state := by
  unfold ManagedCall.run
  cases hprobe : call.probe with
  | false => simp [execute]
  | true => simp_all [probe]

end Alone

theorem health_aloneEvents (managed : ManagedDeviceSession)
    (state : HealthState) (call : ManagedCall) :
    managed.LeavesAlone { health := state } (managed.aloneEvents state call)
      (call.run managed state).state := by
  unfold aloneEvents
  by_cases hunsafe : call.probe = true ∧
      ¬ registeredReadOnly call.operation.command = true
  · rw [if_pos hunsafe]
    refine ⟨{ health := state }, ?_, ?_⟩
    · simp [runSteps, cloneNext, cloneStep, hunsafe.2]
    · simp [ManagedCall.run, probe, hunsafe.1, hunsafe.2]
  · rw [if_neg hunsafe, state_run_of_safe state hunsafe]
    apply leavesAlone_cons (cloneNext_enter state hunsafe)
    rcases state.checkCooldown_cases call.probe call.passage.checkedAt with
      ⟨expiry, -, -, -, hcheck⟩ | ⟨expiry, hcheck, -⟩
    · rw [hcheck, executeInner_rejected hcheck]
      exact leavesAlone_cons (cloneNext_checkCooldown_error hcheck)
        ⟨_, rfl, rfl⟩
    · rw [hcheck]
      exact leavesAlone_cons (cloneNext_checkCooldown_ok hcheck)
        (leavesAlone_course hcheck)

end ManagedDeviceSession

end HartLink.Service
