import HartLink.Operation.Codec
import HartLink.Service.QueueSet
import HartLink.Service.Retry
import HartLink.Service.Admission

/-!
# Operations on one identified device

A device session turns an operation into a request for its device, hands the
request to the shared link and decodes the reply.  What the queues, the runner,
the channel and the device do with the request is its `Handling`: the readings
of the clock and whether the job was refused, dropped, coalesced or exchanged.
-/

namespace HartLink.Service

open HartLink.Foundation
open HartLink.Wire
open HartLink.Operation

/-! ## Operations -/

/-- The trait `Operation`; its provided methods are the default fields. -/
structure DeviceOperation (Output : Type) where
  command : CommandCode
  retrySafety : OperationSafety :=
    (commandDescriptor command).elim .action (·.safety)
  encodeRequest : Except CodecError Bytes
  decodeReply : DeviceReply → Except CodecError Output
  request : Address → Except CodecError Request := fun address =>
    encodeRequest.map fun data =>
      { Request.new address command data with retrySafety := some retrySafety }

def rawOperation (command : CommandCode) (data : Bytes)
    (retrySafety : OperationSafety) : DeviceOperation DeviceReply :=
  { command, retrySafety, encodeRequest := .ok data
    decodeReply := fun reply =>
      if reply.command ≠ command then
        .error (.operation (.commandMismatch command.get reply.command.get))
      else .ok reply
    request := fun address =>
      let maximum := if command.isExpanded then 253 else 255
      if data.length > maximum then
        .error (.requestLength command.get data.length)
      else
        .ok { Request.new address command data with
          retrySafety := some retrySafety } }

/-! ## Errors -/

/-- What a request ends with when it is not answered. -/
inductive RequestError where
  | commandDenied (command : UInt16) (safety : OperationSafety)
      (queue : QueueId)
  | unknownQueue (queue : QueueId)
  | retryPolicy (error : RetryPolicyError)
  | transmitPrefix (length : Nat)
  | runner (error : ExchangeError)
  deriving DecidableEq, Repr

def mapQueuePushError : QueuePushError → StartError
  | .full => .full
  | .closed => .closed
  | .deadline => .deadline
  | .unknown queue => .unknownQueue queue

def startToExchangeError : StartError → RequestError
  | .commandDenied command safety queue => .commandDenied command safety queue
  | .unknownQueue queue => .unknownQueue queue
  | .deadline => .runner .deadline
  | .retryPolicy error => .retryPolicy error
  | .operation error => .runner (.operation error)
  | .transmitPrefix length => .transmitPrefix length
  | .closed => .runner .runnerStopped
  | .full => .runner .runnerStopped

inductive SessionError where
  | exchange (error : RequestError)
  | operation (error : CodecError)
  | address (error : WireError)
  | preambles (count : UInt8)
  deriving DecidableEq, Repr

/-! ## Requests on the shared link -/

def retryAllowance (safety : OperationSafety) (policy : RetryPolicy) :
    RetryCause → Nat
  | .transport =>
      if safety = .action then 0 else policy.transportRetries.toNat
  | .busy => policy.busyRetries.toNat
  | .delayedResponse => policy.delayedResponsePolls.toNat

theorem retryLimit_eq (job : Job) (cause : RetryCause) :
    retryLimit job cause =
      retryAllowance (resolvedSafety job.request) job.policy cause := by
  cases cause with
  | transport =>
      simp only [retryLimit, transportLimit, retryAllowance]
      split_ifs <;> rfl
  | busy => rfl
  | delayedResponse => rfl

/-- What becomes of a job that a client has made. -/
inductive Delivery where
  | refused (error : QueuePushError)
  | expired
  | stopped
  | coalesced (reply : DeviceReply)
  | exchanged (now : Nat) (surroundings : Nat → Attempt) (port : LinkPort)

/--
The surroundings of one request: the caller's stopwatch, the readings of the
clock in `make_job`, the shared counters, the new oneshot channel and the
delivery.
-/
structure Handling where
  startedAt : Nat
  checkedAt : Nat
  acceptedAt : Nat
  counters : Counters
  reply : ReplyId
  delivery : Delivery
  endedAt : Nat

/-- A client, the queues of its link and the clock of its runtime. -/
structure SharedLink where
  client : LinkClient
  queues : List QueueId
  horizon : Nat

/-- How a call ends, and the transmissions made for it. -/
structure CallRun (Error Output : Type) where
  result : Except Error Output
  transmissions : List Transmission

namespace SharedLink

def deliver (link : SharedLink) (handling : Handling) (job : Job) :
    CallRun RequestError DeviceReply :=
  match handling.delivery with
  | .refused error =>
      ⟨.error (startToExchangeError (mapQueuePushError error)), []⟩
  | .expired => ⟨.error (.runner .deadline), []⟩
  | .stopped => ⟨.error (.runner .runnerStopped), []⟩
  | .coalesced reply => ⟨.ok reply, []⟩
  | .exchanged now surroundings port =>
      let run := exchange link.horizon now job surroundings port
      ⟨run.result.mapError .runner, run.transmissions⟩

/-- `resolve_queue` and `make_job`, as a start calls them. -/
def makeJob (link : SharedLink) (handling : Handling) (request : Request)
    (requested : QueueId) (policy : RetryPolicy) : Except StartError Job :=
  match link.client.resolveQueue link.queues request requested with
  | .error error => .error error
  | .ok queue =>
      (link.client.makeJob ⟨link.horizon, handling.checkedAt,
        handling.acceptedAt, handling.reply⟩ handling.counters request []
        queue policy).1

def request (link : SharedLink) (handling : Handling) (request : Request)
    (queue : QueueId) (policy : RetryPolicy) :
    CallRun RequestError DeviceReply :=
  match link.makeJob handling request queue policy with
  | .error error => ⟨.error (startToExchangeError error), []⟩
  | .ok job => link.deliver handling job

/-! ## Jobs that are made -/

def Admits (link : SharedLink) (request : Request) (requested : QueueId) :
    Prop :=
  ∃ queue, link.client.resolveQueue link.queues request requested =
      .ok queue ∧
    link.client.commandPolicy.admits (commandContext request queue) = true

structure Makes (link : SharedLink) (handling : Handling) (request : Request)
    (requested : QueueId) (policy : RetryPolicy) (job : Job) : Prop where
  valid : request.validate = .ok ()
  admitted : link.Admits request requested
  request_eq : job.request = request
  policy_eq : job.policy = policy
  deadline_eq : job.deadline = handling.acceptedAt + policy.totalTimeout
  runtime : policy.validateRuntime link.horizon handling.checkedAt = .ok ()
  representable : handling.acceptedAt + policy.totalTimeout ≤ link.horizon

theorem makeJob_ok {link : SharedLink} {handling : Handling}
    {request : Request} {requested : QueueId} {policy : RetryPolicy}
    {job : Job} (h : link.makeJob handling request requested policy =
      .ok job) :
    link.Makes handling request requested policy job := by
  unfold makeJob at h
  split at h
  · contradiction
  next queue hqueue =>
    obtain ⟨hvalid, hadmits, hrequest, -, hpolicy, -⟩ :=
      LinkClient.makeJob_ok h
    unfold LinkClient.makeJob at h
    split at h
    · contradiction
    next hruntime =>
      split at h
      · contradiction
      simp only at h
      split_ifs at h
      split at h
      · contradiction
      next deadline hdeadline =>
        simp only [Except.ok.injEq] at h
        subst h
        unfold checkedAdd at hdeadline
        split_ifs at hdeadline with hfits
        injection hdeadline with hdeadline
        exact ⟨hvalid, ⟨queue, hqueue, hadmits⟩, hrequest, hpolicy,
          hdeadline.symm, hruntime, hfits⟩

theorem exists_makeJob {link : SharedLink} {handling : Handling}
    {request : Request} {requested : QueueId} {policy : RetryPolicy}
    (hvalid : request.validate = .ok ()) (h : link.Admits request requested)
    (hruntime : policy.validateRuntime link.horizon handling.checkedAt =
      .ok ())
    (hdeadline : handling.acceptedAt + policy.totalTimeout ≤ link.horizon) :
    ∃ job, link.makeJob handling request requested policy = .ok job := by
  obtain ⟨queue, hqueue, hadmits⟩ := h
  simp [makeJob, hqueue, LinkClient.makeJob, hruntime, hvalid, hadmits,
    checkedAdd, hdeadline, maximumTransmitPrefix]

end SharedLink

/-! ## Jobs that are exchanged -/

theorem exchange_of_valid {horizon now : Nat} {job : Job}
    (hnow : now < job.deadline) (hvalid : job.request.validate = .ok ())
    (surroundings : Nat → Attempt) (port : LinkPort) :
    exchange horizon now job surroundings port =
      exchangeLoop horizon job job.request.frame
        (job.transmitPrefix ++ job.request.frame.encoding) surroundings
        maximumAttempts 0 now {} port := by
  obtain ⟨hframe, hencode⟩ := Request.toFrame_of_validate hvalid
  unfold exchange
  rw [if_neg (Nat.not_le.mpr hnow)]
  simp only [hframe, hencode]

/-! ## Sessions -/

structure SessionProfile where
  address : Address
  requestPreambles : UInt8
  deriving DecidableEq, Repr

structure DeviceSession where
  link : SharedLink
  profile : SessionProfile

namespace DeviceSession

variable {Output : Type}

def request (session : DeviceSession) (operation : DeviceOperation Output) :
    Except CodecError Request :=
  (operation.request session.profile.address).map fun request =>
    { request with preambles := session.profile.requestPreambles }

def decode (operation : DeviceOperation Output) :
    Except RequestError DeviceReply → Except SessionError Output
  | .error error => .error (.exchange error)
  | .ok reply => (operation.decodeReply reply).mapError .operation

def execute (session : DeviceSession) (handling : Handling)
    (operation : DeviceOperation Output) (queue : QueueId)
    (policy : RetryPolicy) : CallRun SessionError Output :=
  match session.request operation with
  | .error error => ⟨.error (.operation error), []⟩
  | .ok request =>
      let run := session.link.request handling request queue policy
      ⟨decode operation run.result, run.transmissions⟩

/-- The link takes the request that the operation makes. -/
structure Sends (session : DeviceSession)
    (operation : DeviceOperation Output) (queue : QueueId)
    (request : Request) : Prop where
  request_eq : session.request operation = .ok request
  valid : request.validate = .ok ()
  admitted : session.link.Admits request queue

/-- The call reaches the channel: its job is made and exchanged. -/
structure Exchanges (session : DeviceSession) (handling : Handling)
    (operation : DeviceOperation Output) (queue : QueueId)
    (policy : RetryPolicy) (request : Request) (job : Job)
    (run : ExchangeRun) : Prop where
  request_eq : session.request operation = .ok request
  makes : session.link.Makes handling request queue policy job
  exchanged : ∃ now surroundings port,
    handling.delivery = .exchanged now surroundings port ∧
      run = exchange session.link.horizon now job surroundings port
  execute_eq : session.execute handling operation queue policy =
    ⟨decode operation (run.result.mapError .runner), run.transmissions⟩

theorem execute_cases (session : DeviceSession) (handling : Handling)
    (operation : DeviceOperation Output) (queue : QueueId)
    (policy : RetryPolicy) :
    (∃ result, session.execute handling operation queue policy =
        ⟨result, []⟩ ∧
      result ≠ .error (.exchange (.runner .responseTimeout))) ∨
    ∃ request job run, session.Exchanges handling operation queue policy
      request job run := by
  cases hrequest : session.request operation with
  | error error =>
      refine .inl ⟨.error (.operation error), ?_, by simp⟩
      simp only [execute, hrequest]
  | ok request =>
      cases hjob : session.link.makeJob handling request queue policy with
      | error error =>
          refine .inl ⟨.error (.exchange (startToExchangeError error)), ?_,
            ?_⟩
          · simp only [execute, hrequest, SharedLink.request, hjob, decode]
          · cases error <;> simp [startToExchangeError]
      | ok job =>
          have hexecute : session.execute handling operation queue policy =
              ⟨decode operation (session.link.deliver handling job).result,
                (session.link.deliver handling job).transmissions⟩ := by
            simp only [execute, hrequest, SharedLink.request, hjob]
          cases hdelivery : handling.delivery with
          | refused error =>
              simp only [SharedLink.deliver, hdelivery] at hexecute
              refine .inl ⟨_, hexecute, ?_⟩
              cases error <;> simp [decode, startToExchangeError,
                mapQueuePushError]
          | expired =>
              simp only [SharedLink.deliver, hdelivery] at hexecute
              exact .inl ⟨_, hexecute, by simp [decode]⟩
          | stopped =>
              simp only [SharedLink.deliver, hdelivery] at hexecute
              exact .inl ⟨_, hexecute, by simp [decode]⟩
          | coalesced reply =>
              simp only [SharedLink.deliver, hdelivery] at hexecute
              refine .inl ⟨_, hexecute, ?_⟩
              cases hdecode : operation.decodeReply reply <;>
                simp [decode, hdecode, Except.mapError]
          | exchanged now surroundings port =>
              simp only [SharedLink.deliver, hdelivery] at hexecute
              exact .inr ⟨request, job, _, hrequest,
                SharedLink.makeJob_ok hjob,
                ⟨now, surroundings, port, hdelivery, rfl⟩, hexecute⟩

end DeviceSession

end HartLink.Service
