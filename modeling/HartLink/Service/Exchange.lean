import HartLink.Service.Link

/-!
# One exchange on the channel

The runner's side of the channel and the functions that use it: the event loops
of an attempt, of idle input and of the drain after a timeout, and the retry
loop of one job.  The channel, the device and the clock are the surroundings: an
attempt is given what its calls of `send` and `receive` return and when, and the
readings of the clock.
-/

namespace HartLink.Service

open HartLink.Foundation
open HartLink.Wire
open HartLink.Operation

/-! ## The runner's side of the channel -/

/-- What a call of `receive` returns: `read` bytes of the buffer, or an error. -/
inductive Received where
  | read (fragment : Bytes)
  | error (error : ChannelError)
  deriving DecidableEq, Repr

structure Arrival where
  instant : Nat
  received : Received
  deriving DecidableEq, Repr

structure Sent where
  instant : Nat
  error : Option ChannelError
  deriving DecidableEq, Repr

/--
The decoder and the channel of a runner.  `sent`, `decoded`, `skipped`,
`published` and `events` record the calls of `send`, the decoder's output, the
part of it that no loop looked at, the calls of the burst hub and the observer
events, in order.
-/
structure LinkPort where
  decoder : FrameDecoder
  readBufferSize : Nat
  burstHub : Bool
  channelUsable : Bool := true
  sent : List Bytes := []
  decoded : List DecodeEvent := []
  skipped : List DecodeEvent := []
  published : List DeviceReply := []
  events : List LinkEvent := []
  deriving DecidableEq, Repr

namespace LinkPort

def emit (port : LinkPort) (event : LinkEvent) : LinkPort :=
  { port with events := port.events ++ [event] }

def publish (port : LinkPort) (reply : DeviceReply) : LinkPort :=
  if port.burstHub then { port with published := port.published ++ [reply] }
  else port

def push (port : LinkPort) (fragment : Bytes) :
    List DecodeEvent × LinkPort :=
  let (events, decoder) := port.decoder.push fragment
  (events, { port with decoder, decoded := port.decoded ++ events })

def unusable (port : LinkPort) : LinkPort :=
  { port with channelUsable := false }

end LinkPort

def isReceiveTimeout : ChannelError → Bool
  | .timeout _ => true
  | .io .timedOut => true
  | _ => false

/-! ## An attempt -/

def isEcho (requestFrame frame : Frame) : Bool :=
  frame.kind = .request ∧ frame.wireCommand = requestFrame.wireCommand ∧
    frame.address = requestFrame.address ∧
    frame.physicalLayer = requestFrame.physicalLayer ∧
    frame.expansion = requestFrame.expansion ∧
    frame.payload = requestFrame.payload

def answers (requestFrame : Frame) (reply : DeviceReply) : Bool :=
  reply.command = logicalCommand requestFrame ∧
    reply.address = requestFrame.address ∧
    reply.physicalLayer = requestFrame.physicalLayer ∧
    reply.frameExpansion = requestFrame.expansion

namespace LinkPort

/-- The body of the event loop of `exchange_once`. -/
def acceptEvent (id : UInt64) (requestFrame : Frame) (port : LinkPort)
    (event : DecodeEvent) : LinkPort × Option DeviceReply :=
  match event with
  | .rejected error => (port.emit (.rejectedFrame id error), none)
  | .frame frame =>
      if isEcho requestFrame frame then
        (port.emit (.echoDiscarded id), none)
      else
        match DeviceReply.fromFrame frame with
        | .error _ => (port, none)
        | .ok reply =>
            if reply.burst then
              ((port.publish reply).emit (.unsolicited reply), none)
            else if answers requestFrame reply then (port, some reply)
            else (port.emit (.staleFrame id reply.command), none)

/-- The event loop: it returns at the first answer, also inside a batch. -/
def acceptEvents (id : UInt64) (requestFrame : Frame) :
    LinkPort → List DecodeEvent → LinkPort × Option DeviceReply
  | port, [] => (port, none)
  | port, event :: events =>
      match acceptEvent id requestFrame port event with
      | (port, some reply) =>
          ({ port with skipped := port.skipped ++ events }, some reply)
      | (port, none) => acceptEvents id requestFrame port events

/-- The receive loop of `exchange_once`; a list that ends stays silent. -/
def awaitReply (id : UInt64) (requestFrame : Frame) (deadline : Nat) :
    LinkPort → List Arrival → LinkPort × Except ExchangeError DeviceReply
  | port, [] => (port, .error .responseTimeout)
  | port, ⟨instant, .error error⟩ :: _ =>
      if deadline < instant then (port, .error .responseTimeout)
      else if isReceiveTimeout error then (port, .error .responseTimeout)
      else (port.unusable, .error (.channel error))
  | port, ⟨instant, .read fragment⟩ :: arrivals =>
      if deadline < instant then (port, .error .responseTimeout)
      else if fragment.length = 0 then
        (port.unusable, .error (.channel .closed))
      else if fragment.length > port.readBufferSize then
        (port.unusable, .error (.channel (.configuration
          "channel returned more bytes than the receive buffer can hold")))
      else
        let (events, port) := port.push fragment
        match acceptEvents id requestFrame port events with
        | (port, some reply) => (port, .ok reply)
        | (port, none) => awaitReply id requestFrame deadline port arrivals

def exchangeOnce (port : LinkPort) (id : UInt64) (requestFrame : Frame)
    (encoded : Bytes) (deadline : Nat) (sent : Sent)
    (arrivals : List Arrival) : LinkPort × Except ExchangeError DeviceReply :=
  let port := { port with sent := port.sent ++ [encoded] }
  if deadline < sent.instant then (port.unusable, .error .sendTimeout)
  else
    match sent.error with
    | some error => (port.unusable, .error (.channel error))
    | none => awaitReply id requestFrame deadline port arrivals

/-! ## Idle input and the drain -/

def idleEvent (port : LinkPort) (event : DecodeEvent) : LinkPort :=
  match event with
  | .rejected error => port.emit (.idleRejectedFrame error)
  | .frame frame =>
      match DeviceReply.fromFrame frame with
      | .error _ => port
      | .ok reply =>
          if reply.burst then
            (port.publish reply).emit (.unsolicited reply)
          else port.emit (.lateResponse reply)

/-- Returns whether the channel can still be used. -/
def processIdleInput (port : LinkPort) (result : Received) :
    LinkPort × Bool :=
  match result with
  | .error error =>
      if isReceiveTimeout error then (port, true)
      else if error = .closed then
        (port.emit (.channelStopped "channel closed"), false)
      else (port.emit (.channelStopped "channel error"), false)
  | .read fragment =>
      if fragment.length = 0 then
        (port.emit (.channelStopped "channel closed"), false)
      else if fragment.length > port.readBufferSize then
        (port.emit (.channelStopped "invalid receive length"), false)
      else
        let (events, port) := port.push fragment
        (events.foldl idleEvent port, true)

def drainLoop (deadline : Nat) : LinkPort → List Arrival → LinkPort
  | port, [] => port
  | port, ⟨instant, received⟩ :: arrivals =>
      if deadline < instant then port
      else
        match port.processIdleInput received with
        | (port, true) => drainLoop deadline port arrivals
        | (port, false) => port.unusable

def drainLateResponses (port : LinkPort) (horizon now guard : Nat)
    (arrivals : List Arrival) : LinkPort :=
  if guard = 0 then port
  else
    match checkedAdd horizon now guard with
    | none => port
    | some deadline => drainLoop deadline port arrivals

end LinkPort

/-! ## The retry loop -/

/-- The surroundings of one attempt and of the code up to the next one. -/
structure Attempt where
  startedAt : Nat
  sent : Sent
  arrivals : List Arrival
  pausedAt : Nat
  checkedAt : Nat
  deriving DecidableEq, Repr

def exchangeDeadline (horizon startedAt : Nat) (job : Job) : Nat :=
  min ((checkedAdd horizon startedAt job.policy.responseTimeout).getD
    job.deadline) job.deadline

def waitBeforeRetry (horizon pausedAt delay deadline : Nat) :
    Except ExchangeError Unit :=
  if delay = 0 then .ok ()
  else
    match checkedAdd horizon pausedAt delay with
    | none => .error .deadline
    | some wake => if wake ≥ deadline then .error .deadline else .ok ()

def isRetryableTransportError (error : ExchangeError) : Bool :=
  error = .responseTimeout

def transportLimit (job : Job) : UInt8 :=
  if resolvedSafety job.request = .action then 0
  else job.policy.transportRetries

def saturatingSucc (value : UInt8) : UInt8 :=
  if value = 255 then 255 else value + 1

structure Retries where
  attemptNumber : UInt8 := 1
  transport : UInt8 := 0
  busy : UInt8 := 0
  delayed : UInt8 := 0
  deriving DecidableEq, Repr

inductive Verdict where
  | finish (result : Except ExchangeError DeviceReply)
  | retry (cause : RetryCause) (retries : Retries) (paused : Bool)

def judgeAttempt (job : Job) (retries : Retries)
    (attempt : Except ExchangeError DeviceReply) : Verdict :=
  match attempt with
  | .ok reply =>
      if reply.responseCode = 32 then
        if retries.busy ≥ job.policy.busyRetries then
          .finish (.error (.busy reply.responseCode))
        else
          .retry .busy { retries with
            busy := saturatingSucc retries.busy
            attemptNumber := saturatingSucc retries.attemptNumber } true
      else if reply.responseCode = 33 ∨ reply.responseCode = 34 then
        if retries.delayed ≥ job.policy.delayedResponsePolls then
          .finish (.error (.delayedResponse reply.responseCode))
        else
          .retry .delayedResponse { retries with
            delayed := saturatingSucc retries.delayed
            attemptNumber := saturatingSucc retries.attemptNumber } true
      else .finish (.ok reply)
  | .error error =>
      if isRetryableTransportError error ∧
          retries.transport < transportLimit job then
        .retry .transport { retries with
          transport := saturatingSucc retries.transport
          attemptNumber := saturatingSucc retries.attemptNumber } false
      else .finish (.error error)

/--
One transmission of a job: the last reading of the clock before it, and how its
attempt ended.
-/
structure Transmission where
  checkedAt : Nat
  outcome : Except ExchangeError DeviceReply

structure ExchangeRun where
  result : Except ExchangeError DeviceReply
  port : LinkPort
  transmissions : List Transmission

def ExchangeRun.prepend (first : Transmission) (run : ExchangeRun) :
    ExchangeRun :=
  { run with transmissions := first :: run.transmissions }

inductive Turn where
  | over (result : Except ExchangeError DeviceReply)
  | again (retries : Retries)

def turn (horizon : Nat) (job : Job) (attempt : Attempt) (retries : Retries)
    (outcome : Except ExchangeError DeviceReply) (port : LinkPort) :
    LinkPort × Turn :=
  match judgeAttempt job retries outcome with
  | .finish result => (port, .over result)
  | .retry cause retries paused =>
      let port := port.emit (.retrying job.id retries.attemptNumber cause)
      let wait :=
        if paused then
          waitBeforeRetry horizon attempt.pausedAt job.policy.retryDelay
            job.deadline
        else .ok ()
      match wait with
      | .error error => (port, .over (.error error))
      | .ok _ =>
          if attempt.checkedAt ≥ job.deadline then
            (port, .over (.error .deadline))
          else (port, .again retries)

/--
The loop of `exchange` from one attempt on.  The first number bounds the
attempts; `exchangeLoop_maximumAttempts` shows that the initial bound is never
reached.
-/
def exchangeLoop (horizon : Nat) (job : Job) (frame : Frame)
    (encoded : Bytes) (surroundings : Nat → Attempt) :
    Nat → Nat → Nat → Retries → LinkPort → ExchangeRun
  | 0, _, _, _, port => ⟨.error .deadline, port, []⟩
  | bound + 1, index, checkedAt, retries, port =>
      let attempt := surroundings index
      let (port, outcome) := port.exchangeOnce job.id frame encoded
        (exchangeDeadline horizon attempt.startedAt job) attempt.sent
        attempt.arrivals
      match turn horizon job attempt retries outcome port with
      | (port, .over result) => ⟨result, port, [⟨checkedAt, outcome⟩]⟩
      | (port, .again retries) =>
          (exchangeLoop horizon job frame encoded surroundings bound
            (index + 1) attempt.checkedAt retries port).prepend
              ⟨checkedAt, outcome⟩

/-- One attempt more than three byte-sized retry limits allow repeats. -/
def maximumAttempts : Nat := 1 + 3 * 255

def exchange (horizon now : Nat) (job : Job)
    (surroundings : Nat → Attempt) (port : LinkPort) : ExchangeRun :=
  if now ≥ job.deadline then ⟨.error .deadline, port, []⟩
  else
    match job.request.toFrame with
    | .error error => ⟨.error (.operation error), port, []⟩
    | .ok frame =>
        match frame.encode with
        | .error error => ⟨.error (.wire error), port, []⟩
        | .ok frameBytes =>
            exchangeLoop horizon job frame (job.transmitPrefix ++ frameBytes)
              surroundings maximumAttempts 0 now {} port

/-! ## A request for the identity of a device -/

def identifyRequest : Request := .new (.Polling 0 .primary) ⟨0⟩ []

def identifyResponse : Frame :=
  { preambles := 2, kind := .response, physicalLayer := .fsk
    address := .Polling 0 .primary, expansion := [], wireCommand := 0
    payload := [0, 0], repair := none }

def identifyReply : DeviceReply :=
  { address := .Polling 0 .primary, command := ⟨0⟩, responseCode := 0
    deviceStatus := 0, data := [], burst := false, physicalLayer := .fsk
    responsePreambles := 2, frameExpansion := [] }

end HartLink.Service
