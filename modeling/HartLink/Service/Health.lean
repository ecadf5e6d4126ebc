import HartLink.Service.Session

/-!
# Managed sessions

A managed session watches the outcomes of its operations.  Consecutive
transport outages open a cooldown, in which ordinary calls fail locally, and
successful reads teach a response time, from which later reads derive a short
first attempt.  Every section of the source that holds the lock is one function
on `HealthState`; `executeInner` puts them in order with the clock readings of
one call, its `Passage`.
-/

namespace HartLink.Service

open HartLink.Foundation
open HartLink.Wire
open HartLink.Operation

/-! ## Options -/

structure AdaptiveTiming where
  minimum : Nat
  maximum : Nat
  margin : Nat
  deriving DecidableEq, Repr

inductive DeviceHealthConfigError where
  | zeroAdaptiveTimeout
  | adaptiveOrder
  | adaptiveLimit
  | cooldownLimit
  deriving DecidableEq, Repr

namespace AdaptiveTiming

protected def default : AdaptiveTiming :=
  { minimum := 100000000, maximum := 5000000000, margin := 50000000 }

def validate (timing : AdaptiveTiming) :
    Except DeviceHealthConfigError Unit :=
  if timing.minimum = 0 ∨ timing.maximum = 0 then .error .zeroAdaptiveTimeout
  else if timing.minimum > timing.maximum then .error .adaptiveOrder
  else if timing.maximum > maximumRetryDuration ∨
      timing.margin > maximumRetryDuration then
    .error .adaptiveLimit
  else .ok ()

end AdaptiveTiming

structure DeviceHealthOptions where
  failureThreshold : { threshold : UInt8 // threshold ≠ 0 }
  cooldown : Nat
  adaptive : Option AdaptiveTiming
  deriving DecidableEq, Repr

namespace DeviceHealthOptions

protected def default : DeviceHealthOptions :=
  { failureThreshold := ⟨3, by decide⟩
    cooldown := 10000000000
    adaptive := some .default }

def validate (options : DeviceHealthOptions) :
    Except DeviceHealthConfigError Unit :=
  if options.cooldown > maximumRetryDuration then .error .cooldownLimit
  else
    match options.adaptive with
    | some adaptive => adaptive.validate
    | none => .ok ()

theorem validate_default : DeviceHealthOptions.default.validate = .ok () := by
  decide

theorem positive_of_validate {options : DeviceHealthOptions}
    {adaptive : AdaptiveTiming} (h : options.validate = .ok ())
    (hadaptive : options.adaptive = some adaptive) :
    0 < adaptive.minimum ∧ 0 < adaptive.maximum := by
  simp only [validate, hadaptive, AdaptiveTiming.validate] at h
  split_ifs at h with hcooldown hzero
  omega

end DeviceHealthOptions

/-! ## The state -/

/-- `saturating_add(1)` on the counters. -/
def saturatingNext (value : UInt64) : UInt64 :=
  if value = 18446744073709551615 then value else value + 1

/-- `saturating_add(1)` on the run of outages. -/
def saturatingNext32 (value : UInt32) : UInt32 :=
  if value = 4294967295 then value else value + 1

structure HealthState where
  successes : UInt64 := 0
  failures : UInt64 := 0
  consecutiveTransportFailures : UInt32 := 0
  cooldownActivations : UInt64 := 0
  cooldownRejections : UInt64 := 0
  cooldownUntil : Option Nat := none
  learnedResponse : Option Nat := none
  adaptiveAttempts : UInt64 := 0
  adaptiveFallbacks : UInt64 := 0
  deriving DecidableEq, Repr

inductive ManagedSessionError where
  | coolingDown (remaining : Nat)
  | unsafeProbe (command : UInt16)
  | session (error : SessionError)
  deriving DecidableEq, Repr

def registeredReadOnly (command : CommandCode) : Bool :=
  (commandDescriptor command).any (·.safety = .readOnly)

def isResponseTimeout : SessionError → Bool
  | .exchange (.runner .responseTimeout) => true
  | _ => false

def isTransportOutage : SessionError → Bool
  | .exchange (.runner .responseTimeout) => true
  | .exchange (.runner .sendTimeout) => true
  | .exchange (.runner (.channel _)) => true
  | .exchange (.runner .runnerStopped) => true
  | _ => false

/-- The largest `Duration`, in nanoseconds. -/
def maximumDuration : Nat := (2 ^ 64 - 1) * 1000000000 + 999999999

/-- The products saturate in 128 bits, the quotient in 64 bits. -/
def smoothedDuration (previous : Option Nat) (sample : Nat) : Nat :=
  match previous with
  | none => sample
  | some previous =>
      min (min (min (previous * 3) (2 ^ 128 - 1) + sample) (2 ^ 128 - 1) / 4)
        (2 ^ 64 - 1)

theorem isResponseTimeout_iff (error : SessionError) :
    isResponseTimeout error = true ↔
      error = .exchange (.runner .responseTimeout) := by
  unfold isResponseTimeout
  split <;> simp_all

namespace HealthState

def checkCooldown (state : HealthState) (bypass : Bool) (now : Nat) :
    Except ManagedSessionError Unit × HealthState :=
  if bypass then (.ok (), state)
  else
    match state.cooldownUntil with
    | none => (.ok (), state)
    | some expiry =>
        if expiry < now then (.ok (), { state with cooldownUntil := none })
        else if expiry - now = 0 then
          (.ok (), { state with cooldownUntil := none })
        else
          (.error (.coolingDown (expiry - now)), { state with
            cooldownRejections := saturatingNext state.cooldownRejections })

theorem checkCooldown_cases (state : HealthState) (bypass : Bool)
    (now : Nat) :
    (∃ expiry, bypass = false ∧ state.cooldownUntil = some expiry ∧
      now < expiry ∧ state.checkCooldown bypass now =
        (.error (.coolingDown (expiry - now)), { state with
          cooldownRejections := saturatingNext state.cooldownRejections })) ∨
    ∃ expiry, state.checkCooldown bypass now =
        (.ok (), { state with cooldownUntil := expiry }) ∧
      (expiry = state.cooldownUntil ∨ expiry = none ∧ bypass = false ∧
        ∀ earlier, state.cooldownUntil = some earlier → earlier ≤ now) := by
  unfold checkCooldown
  cases bypass with
  | true => exact .inr ⟨state.cooldownUntil, by simp⟩
  | false =>
      simp only [Bool.false_eq_true, if_false]
      cases hexpiry : state.cooldownUntil with
      | none => exact .inr ⟨none, by simp [← hexpiry]⟩
      | some expiry =>
          simp only
          split_ifs with hpast hzero
          · exact .inr ⟨none, rfl, .inr ⟨rfl, trivial, by simp; omega⟩⟩
          · exact .inr ⟨none, rfl, .inr ⟨rfl, trivial, by simp; omega⟩⟩
          · exact .inl ⟨expiry, trivial, rfl, by omega, rfl⟩

def recordSuccess (options : DeviceHealthOptions) (state : HealthState)
    (elapsed : Nat) (command : CommandCode) : HealthState :=
  let state := { state with
    successes := saturatingNext state.successes
    consecutiveTransportFailures := 0
    cooldownUntil := none }
  if registeredReadOnly command ∧ options.adaptive.isSome then
    { state with
      learnedResponse := some (smoothedDuration state.learnedResponse elapsed) }
  else state

def recordFailure (options : DeviceHealthOptions) (horizon now : Nat)
    (state : HealthState) (error : SessionError) : HealthState :=
  let state := { state with failures := saturatingNext state.failures }
  if isTransportOutage error then
    let state := { state with
      consecutiveTransportFailures :=
        saturatingNext32 state.consecutiveTransportFailures }
    if state.consecutiveTransportFailures ≥
        options.failureThreshold.val.toUInt32 then
      let alreadyActive := state.cooldownUntil.any (· > now)
      { state with
        cooldownActivations :=
          if alreadyActive then state.cooldownActivations
          else saturatingNext state.cooldownActivations
        cooldownUntil := checkedAdd horizon now options.cooldown }
    else state
  else
    { state with consecutiveTransportFailures := 0, cooldownUntil := none }

end HealthState

/-! ## Managed sessions -/

/-- The constructors of the source all validate the options. -/
structure ManagedDeviceSession where
  session : DeviceSession
  options : DeviceHealthOptions
  valid : options.validate = .ok ()

/-- The surroundings of one call: how the link handles its requests, and when. -/
structure Passage where
  checkedAt : Nat
  logicalStarted : Nat
  first : Handling
  fallback : Handling
  recordedAt : Nat

/-- How a managed call ends, with the transmissions of its two requests. -/
structure ManagedRun (Output : Type) where
  result : Except ManagedSessionError Output
  state : HealthState
  first : List Transmission := []
  fallback : List Transmission := []

def ManagedRun.transmissions {Output : Type} (run : ManagedRun Output) :
    List Transmission :=
  run.first ++ run.fallback

namespace ManagedDeviceSession

variable {Output : Type}

def adaptiveTimeout (managed : ManagedDeviceSession) (state : HealthState)
    (command : CommandCode) (policy : RetryPolicy) : Option Nat :=
  if policy.transportRetries = 0 ∨ ¬ registeredReadOnly command then none
  else
    match managed.options.adaptive, state.learnedResponse with
    | some adaptive, some learned =>
        let candidate := min (max adaptive.minimum (min adaptive.maximum
          (min (learned + adaptive.margin) maximumDuration)))
          policy.responseTimeout
        if candidate < policy.responseTimeout then some candidate else none
    | _, _ => none

/-- A short first attempt is chosen: everything `adaptive_timeout` asks for. -/
def Adapts (managed : ManagedDeviceSession) (state : HealthState)
    (command : CommandCode) (policy : RetryPolicy) : Prop :=
  policy.transportRetries ≠ 0 ∧ registeredReadOnly command = true ∧
    ∃ adaptive learned, managed.options.adaptive = some adaptive ∧
      state.learnedResponse = some learned ∧
      max adaptive.minimum (min adaptive.maximum
        (min (learned + adaptive.margin) maximumDuration)) <
          policy.responseTimeout

theorem adaptiveTimeout_eq_none_iff (managed : ManagedDeviceSession)
    (state : HealthState) (command : CommandCode) (policy : RetryPolicy) :
    managed.adaptiveTimeout state command policy = none ↔
      ¬ managed.Adapts state command policy := by
  unfold adaptiveTimeout Adapts
  by_cases hretries : policy.transportRetries = 0
  · simp [hretries]
  cases hcommand : registeredReadOnly command with
  | false => simp
  | true =>
      cases managed.options.adaptive with
      | none => simp [hretries]
      | some adaptive =>
          cases state.learnedResponse with
          | none => simp [hretries]
          | some learned => simp [hretries]

theorem adaptiveTimeout_congr {managed : ManagedDeviceSession}
    {state other : HealthState} (h : other.learnedResponse =
      state.learnedResponse) (command : CommandCode) (policy : RetryPolicy) :
    managed.adaptiveTimeout other command policy =
      managed.adaptiveTimeout state command policy := by
  unfold adaptiveTimeout
  rw [h]

def fastPolicy (policy : RetryPolicy) (fastTimeout : Nat) : RetryPolicy :=
  { policy with transportRetries := 0, responseTimeout := fastTimeout }

/-- `saturating_sub(1)` leaves a zero as it is. -/
def fallbackPolicy (policy : RetryPolicy) (remaining : Nat) : RetryPolicy :=
  { policy with
    transportRetries :=
      if policy.transportRetries = 0 then 0 else policy.transportRetries - 1
    responseTimeout := min policy.responseTimeout remaining
    totalTimeout := remaining }

def recordFailure (managed : ManagedDeviceSession) (now : Nat)
    (state : HealthState) (error : SessionError) : HealthState :=
  state.recordFailure managed.options managed.session.link.horizon now error

def finish (managed : ManagedDeviceSession) (now elapsed : Nat)
    (command : CommandCode) (state : HealthState)
    (result : Except SessionError Output) :
    Except ManagedSessionError Output × HealthState :=
  match result with
  | .ok value =>
      (.ok value, state.recordSuccess managed.options elapsed command)
  | .error error =>
      (.error (.session error), managed.recordFailure now state error)

def remaining (policy : RetryPolicy) (passage : Passage) : Nat :=
  policy.totalTimeout - (passage.first.endedAt - passage.logicalStarted)

def fastRun (managed : ManagedDeviceSession)
    (operation : DeviceOperation Output) (queue : QueueId)
    (policy : RetryPolicy) (fastTimeout : Nat) (passage : Passage) :
    CallRun SessionError Output :=
  managed.session.execute passage.first operation queue
    (fastPolicy policy fastTimeout)

def fallbackRun (managed : ManagedDeviceSession)
    (operation : DeviceOperation Output) (queue : QueueId)
    (policy : RetryPolicy) (passage : Passage) :
    CallRun SessionError Output :=
  managed.session.execute passage.fallback operation queue
    (fallbackPolicy policy (remaining policy passage))

/-- What an adaptive call does when its first request has timed out. -/
def fallBack (managed : ManagedDeviceSession) (state : HealthState)
    (operation : DeviceOperation Output) (queue : QueueId)
    (policy : RetryPolicy) (passage : Passage) (first : List Transmission)
    (error : SessionError) : ManagedRun Output :=
  if remaining policy passage = 0 then
    ⟨.error (.session error),
      managed.recordFailure passage.recordedAt state error, first, []⟩
  else
    let state := { state with
      adaptiveFallbacks := saturatingNext state.adaptiveFallbacks }
    let run := managed.fallbackRun operation queue policy passage
    let (result, state) := managed.finish passage.recordedAt
      (passage.fallback.endedAt - passage.fallback.startedAt)
      operation.command state run.result
    ⟨result, state, first, run.transmissions⟩

def executeInner (managed : ManagedDeviceSession) (state : HealthState)
    (operation : DeviceOperation Output) (queue : QueueId)
    (policy : RetryPolicy) (bypassCooldown : Bool) (passage : Passage) :
    ManagedRun Output :=
  match state.checkCooldown bypassCooldown passage.checkedAt with
  | (.error error, state) => ⟨.error error, state, [], []⟩
  | (.ok _, state) =>
      let elapsed := passage.first.endedAt - passage.first.startedAt
      match managed.adaptiveTimeout state operation.command policy with
      | none =>
          let run := managed.session.execute passage.first operation queue
            policy
          let (result, state) := managed.finish passage.recordedAt elapsed
            operation.command state run.result
          ⟨result, state, run.transmissions, []⟩
      | some fastTimeout =>
          let state := { state with
            adaptiveAttempts := saturatingNext state.adaptiveAttempts }
          let run := managed.fastRun operation queue policy fastTimeout passage
          match run.result with
          | .ok value =>
              ⟨.ok value, state.recordSuccess managed.options elapsed
                operation.command, run.transmissions, []⟩
          | .error error =>
              if isResponseTimeout error then
                managed.fallBack state operation queue policy passage
                  run.transmissions error
              else
                ⟨.error (.session error),
                  managed.recordFailure passage.recordedAt state error,
                  run.transmissions, []⟩

def execute (managed : ManagedDeviceSession) (state : HealthState)
    (operation : DeviceOperation Output) (queue : QueueId)
    (policy : RetryPolicy) (passage : Passage) : ManagedRun Output :=
  managed.executeInner state operation queue policy false passage

def probe (managed : ManagedDeviceSession) (state : HealthState)
    (operation : DeviceOperation Output) (queue : QueueId)
    (policy : RetryPolicy) (passage : Passage) : ManagedRun Output :=
  if registeredReadOnly operation.command then
    managed.executeInner state operation queue policy true passage
  else ⟨.error (.unsafeProbe operation.command.get), state, [], []⟩

/-! ## The course of a call -/

/-- What a call records when one of its requests has ended. -/
def conclude (managed : ManagedDeviceSession) (passage : Passage)
    (handling : Handling) (command : CommandCode) (state : HealthState)
    (run : CallRun SessionError Output) :
    Except ManagedSessionError Output × HealthState :=
  managed.finish passage.recordedAt (handling.endedAt - handling.startedAt)
    command state run.result

/-- How a call goes on when cooldown lets it through. -/
inductive Course (managed : ManagedDeviceSession) (state : HealthState)
    (operation : DeviceOperation Output) (queue : QueueId)
    (policy : RetryPolicy) (passage : Passage) (run : ManagedRun Output) : Prop
  | plain
      (timeout : managed.adaptiveTimeout state operation.command policy = none)
      (first : run.first = (managed.session.execute passage.first operation
        queue policy).transmissions)
      (fallback : run.fallback = [])
      (ends : (run.result, run.state) = managed.conclude passage passage.first
        operation.command state
        (managed.session.execute passage.first operation queue policy))
  | fast (fastTimeout : Nat)
      (timeout : managed.adaptiveTimeout state operation.command policy =
        some fastTimeout)
      (settled : (managed.fastRun operation queue policy fastTimeout
          passage).result ≠ .error (.exchange (.runner .responseTimeout)) ∨
        remaining policy passage = 0)
      (first : run.first = (managed.fastRun operation queue policy
        fastTimeout passage).transmissions)
      (fallback : run.fallback = [])
      (ends : (run.result, run.state) = managed.conclude passage passage.first
        operation.command
        { state with adaptiveAttempts := saturatingNext state.adaptiveAttempts }
        (managed.fastRun operation queue policy fastTimeout passage))
  | fallsBack (fastTimeout : Nat)
      (timeout : managed.adaptiveTimeout state operation.command policy =
        some fastTimeout)
      (timedOut : (managed.fastRun operation queue policy fastTimeout
        passage).result = .error (.exchange (.runner .responseTimeout)))
      (left : 0 < remaining policy passage)
      (first : run.first = (managed.fastRun operation queue policy
        fastTimeout passage).transmissions)
      (fallback : run.fallback = (managed.fallbackRun operation queue policy
        passage).transmissions)
      (ends : (run.result, run.state) = managed.conclude passage
        passage.fallback operation.command
        { state with
          adaptiveAttempts := saturatingNext state.adaptiveAttempts
          adaptiveFallbacks := saturatingNext state.adaptiveFallbacks }
        (managed.fallbackRun operation queue policy passage))

theorem executeInner_rejected {managed : ManagedDeviceSession}
    {state checked : HealthState} {operation : DeviceOperation Output}
    {queue : QueueId} {policy : RetryPolicy} {bypass : Bool}
    {passage : Passage} {error : ManagedSessionError}
    (h : state.checkCooldown bypass passage.checkedAt =
      (.error error, checked)) :
    managed.executeInner state operation queue policy bypass passage =
      ⟨.error error, checked, [], []⟩ := by
  simp only [executeInner, h]

theorem executeInner_course {managed : ManagedDeviceSession}
    {state checked : HealthState} {operation : DeviceOperation Output}
    {queue : QueueId} {policy : RetryPolicy} {bypass : Bool}
    {passage : Passage}
    (h : state.checkCooldown bypass passage.checkedAt = (.ok (), checked)) :
    managed.Course checked operation queue policy passage
      (managed.executeInner state operation queue policy bypass passage) := by
  simp only [executeInner, h]
  cases htimeout : managed.adaptiveTimeout checked operation.command
      policy with
  | none => exact .plain htimeout rfl rfl rfl
  | some fastTimeout =>
      simp only
      cases hresult : (managed.fastRun operation queue policy fastTimeout
          passage).result with
      | ok value =>
          refine .fast fastTimeout htimeout (.inl (by simp [hresult])) rfl rfl
            ?_
          simp only [conclude, hresult, finish]
      | error error =>
          simp only
          split_ifs with htimedOut
          · rw [isResponseTimeout_iff] at htimedOut
            subst htimedOut
            unfold fallBack
            simp only
            split_ifs with hleft
            · refine .fast fastTimeout htimeout (.inr hleft) rfl rfl ?_
              simp only [conclude, hresult, finish]
            · exact .fallsBack fastTimeout htimeout hresult
                (Nat.pos_of_ne_zero hleft) rfl rfl rfl
          · refine .fast fastTimeout htimeout (.inl ?_) rfl rfl ?_
            · intro hother
              rw [hresult] at hother
              injection hother with hother
              exact htimedOut ((isResponseTimeout_iff error).mpr hother)
            · simp only [conclude, hresult, finish]

end ManagedDeviceSession

end HartLink.Service
