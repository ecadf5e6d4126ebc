import HartLink.Operation.Request

/-!
# The data of a serialized link

Retry policies, jobs, counters, errors and events shared by the clients and the
runner of one physical link.  Instants and durations are natural numbers of
nanoseconds; `horizon` is the last instant the runtime clock can represent.
-/

namespace HartLink.Service

open HartLink.Foundation
open HartLink.Wire
open HartLink.Operation

structure QueueId where
  get : UInt16
  deriving DecidableEq, Repr

/-- `Instant::checked_add`. -/
def checkedAdd (horizon instant delay : Nat) : Option Nat :=
  if instant + delay ≤ horizon then some (instant + delay) else none

/-! ## Retry policies -/

def maximumRetryDuration : Nat := 24 * 60 * 60 * 1000000000

def maximumTransmitPrefix : Nat := 4096

structure RetryPolicy where
  transportRetries : UInt8
  busyRetries : UInt8
  delayedResponsePolls : UInt8
  retryDelay : Nat
  responseTimeout : Nat
  totalTimeout : Nat
  deriving DecidableEq, Repr

inductive RetryPolicyError where
  | responseTimeout
  | totalTimeout
  | deadlineOverflow
  | responseDeadlineOverflow
  | retryDelayOverflow
  | responseTimeoutLimit
  | totalTimeoutLimit
  | retryDelayLimit
  deriving DecidableEq, Repr

namespace RetryPolicy

def default : RetryPolicy :=
  { transportRetries := 1
    busyRetries := 2
    delayedResponsePolls := 8
    retryDelay := 50000000
    responseTimeout := 1600000000
    totalTimeout := 8000000000 }

def validate (policy : RetryPolicy) : Except RetryPolicyError Unit :=
  if policy.responseTimeout = 0 then .error .responseTimeout
  else if policy.totalTimeout = 0 then .error .totalTimeout
  else .ok ()

def validateRuntime (policy : RetryPolicy) (horizon now : Nat) :
    Except RetryPolicyError Unit := do
  policy.validate
  if policy.responseTimeout > maximumRetryDuration then
    .error .responseTimeoutLimit
  else if policy.totalTimeout > maximumRetryDuration then
    .error .totalTimeoutLimit
  else if policy.retryDelay > maximumRetryDuration then
    .error .retryDelayLimit
  else if (checkedAdd horizon now policy.responseTimeout).isNone then
    .error .responseDeadlineOverflow
  else if (checkedAdd horizon now policy.totalTimeout).isNone then
    .error .deadlineOverflow
  else if (checkedAdd horizon now policy.retryDelay).isNone then
    .error .retryDelayOverflow
  else .ok ()

theorem validateRuntime_ok_iff (policy : RetryPolicy)
    (horizon now : Nat) :
    policy.validateRuntime horizon now = .ok () ↔
      (0 < policy.responseTimeout ∧ 0 < policy.totalTimeout) ∧
      (policy.responseTimeout ≤ maximumRetryDuration ∧
        policy.totalTimeout ≤ maximumRetryDuration ∧
        policy.retryDelay ≤ maximumRetryDuration) ∧
      now + policy.responseTimeout ≤ horizon ∧
        now + policy.totalTimeout ≤ horizon ∧
        now + policy.retryDelay ≤ horizon := by
  have hoverflow : ∀ delay, (checkedAdd horizon now delay).isNone = true ↔
      horizon < now + delay := by
    intro delay
    unfold checkedAdd
    split_ifs <;> simp <;> omega
  unfold validateRuntime validate
  by_cases hresponse : policy.responseTimeout = 0
  · simp [hresponse, bind, Except.bind]
  by_cases htotal : policy.totalTimeout = 0
  · simp [hresponse, htotal, bind, Except.bind]
  simp only [hresponse, htotal, if_false, bind, Except.bind, hoverflow]
  split_ifs <;> simp <;> omega

/-- Accepted wherever the clock has a day left for the deadlines. -/
def Executable (policy : RetryPolicy) : Prop :=
  ∀ horizon now, now + maximumRetryDuration ≤ horizon →
    policy.validateRuntime horizon now = .ok ()

theorem executable_iff (policy : RetryPolicy) :
    policy.Executable ↔
      (0 < policy.responseTimeout ∧ 0 < policy.totalTimeout) ∧
      policy.responseTimeout ≤ maximumRetryDuration ∧
      policy.totalTimeout ≤ maximumRetryDuration ∧
      policy.retryDelay ≤ maximumRetryDuration := by
  constructor
  · intro h
    obtain ⟨hpositive, hlimits, -⟩ := (policy.validateRuntime_ok_iff _ _).mp
      (h maximumRetryDuration 0 (Nat.zero_add _).le)
    exact ⟨hpositive, hlimits⟩
  · rintro ⟨hpositive, hlimits⟩ horizon now hroom
    rw [validateRuntime_ok_iff]
    exact ⟨hpositive, hlimits, by omega⟩

end RetryPolicy

/-! ## Errors -/

inductive IoErrorKind where
  | timedOut
  | other
  deriving DecidableEq, Repr

inductive ChannelError where
  | io (kind : IoErrorKind)
  | serial
  | closed
  | timeout (operation : String)
  | configuration (reason : String)
  | protocol (reason : String)
  deriving DecidableEq, Repr

inductive StartError where
  | commandDenied (command : UInt16) (safety : OperationSafety)
      (queue : QueueId)
  | unknownQueue (queue : QueueId)
  | full
  | closed
  | deadline
  | retryPolicy (error : RetryPolicyError)
  | operation (error : OperationError)
  | transmitPrefix (length : Nat)
  deriving DecidableEq, Repr

/-- The errors that the runner itself produces. -/
inductive ExchangeError where
  | deadline
  | responseTimeout
  | sendTimeout
  | busy (responseCode : UInt8)
  | delayedResponse (responseCode : UInt8)
  | channel (error : ChannelError)
  | wire (error : WireError)
  | operation (error : OperationError)
  | runnerStopped
  deriving DecidableEq, Repr

def errorReason : ExchangeError → String
  | .deadline => "end-to-end deadline"
  | .responseTimeout => "response timeout"
  | .sendTimeout => "send timeout"
  | .busy _ => "transient device rejection"
  | .delayedResponse _ => "delayed response"
  | .channel _ => "transport"
  | .wire _ => "link-layer frame"
  | .operation _ => "application format"
  | .runnerStopped => "runner stopped"

/-! ## Events and counters -/

inductive RetryCause where
  | transport
  | busy
  | delayedResponse
  deriving DecidableEq, Repr

inductive LinkEvent where
  | queued (id : UInt64) (command : CommandCode) (queue : QueueId)
  | denied (command : UInt16) (safety : OperationSafety) (queue : QueueId)
  | started (id : UInt64) (command : CommandCode)
  | echoDiscarded (id : UInt64)
  | unsolicited (reply : DeviceReply)
  | staleFrame (id : UInt64) (command : CommandCode)
  | lateResponse (reply : DeviceReply)
  | rejectedFrame (id : UInt64) (error : WireError)
  | idleRejectedFrame (error : WireError)
  | channelStopped (reason : String)
  | cancelled (id : UInt64)
  | coalesced (id leaderId : UInt64)
  | retrying (id : UInt64) (attempt : UInt8) (cause : RetryCause)
  | completed (id : UInt64)
  | failed (id : UInt64) (reason : String)
  deriving DecidableEq, Repr

structure Counters where
  started : UInt64 := 0
  completed : UInt64 := 0
  failed : UInt64 := 0
  cancelled : UInt64 := 0
  coalesced : UInt64 := 0
  denied : UInt64 := 0
  nextId : UInt64 := 0
  deriving DecidableEq, Repr

/-! ## Jobs -/

/-- Names one oneshot channel between a waiter and the runner. -/
abbrev ReplyId := Nat

structure Job where
  id : UInt64
  request : Request
  transmitPrefix : Bytes
  policy : RetryPolicy
  deadline : Nat
  reply : Option ReplyId
  deriving DecidableEq, Repr

end HartLink.Service
