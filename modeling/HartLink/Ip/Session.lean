import HartLink.Ip.Packet

/-!
# HART-IP sessions

The operations of a packet session over a byte stream.  A function of the
session either returns or is interrupted at one of its awaits: by the timer
around one read or write, by the timer around a whole exchange, or because the
caller drops its future.  Every change made before the interruption stays.
-/

namespace HartLink.Ip

open HartLink.Foundation
open HartLink.Operation

inductive AwaitPoint where
  | write
  | flush
  | header
  | body
  | discard
  deriving DecidableEq, Repr

/--
The durations of the two timers only decide when they run out, which is given
with the awaits of the stream.
-/
structure IpSession where
  stream : Duplex AwaitPoint
  nextSequence : UInt16 := 1
  maximumBody : Nat := 8192
  protocolVersion : UInt8 := 1
  isOpen : Bool := false
  published : List IpPacket := []
  publishedBytes : Nat := 0
  maximumPublished : Nat := 128
  maximumPublishedBytes : Nat := 1024 * 1024
  maximumUnmatched : Nat := 16
  publishedDropped : UInt64 := 0
  unmatchedSkipped : UInt64 := 0
  usable : Bool := true
  deriving DecidableEq, Repr

/-- How a future of the session ends. -/
inductive Flow (α : Type) where
  | returned (result : Except IpError α)
  | interrupted (interruption : Interruption)

def Flow.map {α β : Type} (transform : α → β) : Flow α → Flow β
  | .returned result => .returned (result.map transform)
  | .interrupted interruption => .interrupted interruption

namespace IpSession

def new (stream : Duplex AwaitPoint) : IpSession := { stream }

def unusable (session : IpSession) : IpSession :=
  { session with usable := false }

def under (awaits : List Await) (session : IpSession) : IpSession :=
  { session with stream := session.stream.under awaits }

/-- A transfer on the stream with `.await?`. -/
def awaited {α β : Type} (session : IpSession)
    (transfer : Duplex AwaitPoint × Outcome α)
    (next : IpSession → α → IpSession × Flow β) : IpSession × Flow β :=
  let session := { session with stream := transfer.1 }
  match transfer.2 with
  | .done value => next session value
  | .failed error => (session, .returned (.error (.io error)))
  | .interrupted interruption => (session, .interrupted interruption)

/-! ## Packets -/

def writePacket (encoded : Bytes) (stream : Duplex AwaitPoint) :
    Duplex AwaitPoint × Outcome Unit :=
  match stream.writeAll .write encoded with
  | (stream, .done _) => stream.flush .flush
  | (stream, outcome) => (stream, outcome)

def send (session : IpSession) (messageType : MessageType)
    (messageId : UInt8) (body : Bytes) : IpSession × Flow UInt16 :=
  if ¬ session.usable then (session, .returned (.error .streamUnusable))
  else if body.length > maximumIpBodyBytes then
    (session, .returned (.error (.length body.length)))
  else
    let sequence := session.nextSequence
    let packet : IpPacket :=
      { version := session.protocolVersion, messageType, messageId
        status := 0, sequence, body }
    match packet.encode with
    | .error error => (session, .returned (.error error))
    | .ok encoded =>
        match writePacket encoded session.stream with
        | (stream, .done _) =>
            ({ session with stream, nextSequence := session.nextSequence + 1 },
              .returned (.ok sequence))
        | (stream, .failed error) =>
            ({ session with stream, usable := false },
              .returned (.error (.io error)))
        | (stream, .interrupted .innerTimer) =>
            ({ session with stream, usable := false },
              .returned (.error (.timeout "write")))
        | (stream, .interrupted interruption) =>
            ({ session with stream }, .interrupted interruption)

def receiveUnbounded (session : IpSession) : IpSession × Flow IpPacket :=
  session.awaited (session.stream.readExact .header headerSize)
    fun session header =>
      let total := declaredLength header
      if total < headerSize then
        (session, .returned (.error (.packetLength total headerSize)))
      else
        let bodyLen := total - headerSize
        if bodyLen > session.maximumBody then
          session.awaited (session.stream.discardExact .discard 1024 bodyLen)
            fun session _ => (session, .returned (.error (.bodyLimit bodyLen)))
        else
          session.awaited (session.stream.readExact .body bodyLen)
            fun session body =>
              (session, .returned (IpPacket.decode (header ++ body)
                session.maximumBody))

def receive (session : IpSession) : IpSession × Flow IpPacket :=
  if ¬ session.usable then (session, .returned (.error .streamUnusable))
  else
    match session.receiveUnbounded with
    | (session, .returned (.error (.io error))) =>
        (session.unusable, .returned (.error (.io error)))
    | (session, .returned (.error (.packetLength declared actual))) =>
        (session.unusable, .returned (.error (.packetLength declared actual)))
    | (session, .interrupted .innerTimer) =>
        (session.unusable, .returned (.error (.timeout "read")))
    | (session, flow) => (session, flow)

/-! ## Published packets -/

def makeRoom (maximumPublished maximumBytes bytes : Nat) :
    List IpPacket → Nat → UInt64 → List IpPacket × Nat × UInt64
  | [], held, dropped => ([], held, dropped)
  | packet :: packets, held, dropped =>
      if (packet :: packets).length ≥ maximumPublished ∨
          held + bytes > maximumBytes then
        makeRoom maximumPublished maximumBytes bytes packets
          (held - packet.body.length) (saturatingAdd dropped 1)
      else (packet :: packets, held, dropped)

def retainPublished (session : IpSession) (packet : IpPacket) : IpSession :=
  let bytes := packet.body.length
  if session.maximumPublished = 0 ∨ session.maximumPublishedBytes = 0 ∨
      bytes > session.maximumPublishedBytes then
    { session with
      publishedDropped := saturatingAdd session.publishedDropped 1 }
  else
    let (published, held, dropped) :=
      makeRoom session.maximumPublished session.maximumPublishedBytes bytes
        session.published session.publishedBytes session.publishedDropped
    { session with
      published := published ++ [packet]
      publishedBytes := held + bytes
      publishedDropped := dropped }

def takePublished (session : IpSession) : Option IpPacket × IpSession :=
  match session.published with
  | [] => (none, session)
  | packet :: published =>
      (some packet, { session with
        published
        publishedBytes := session.publishedBytes - packet.body.length })

def maximumIpPublishedPackets : Nat := 4096

def maximumIpPublishedBytes : Nat := 64 * 1024 * 1024

/-- The oldest packets give way until the rest is within the limits. -/
def shedExcess (maximumPublished maximumBytes : Nat) :
    List IpPacket → Nat → UInt64 → List IpPacket × Nat × UInt64
  | [], held, dropped =>
      ([], if held > maximumBytes then 0 else held, dropped)
  | packet :: packets, held, dropped =>
      if (packet :: packets).length > maximumPublished ∨
          held > maximumBytes then
        shedExcess maximumPublished maximumBytes packets
          (held - packet.body.length) (saturatingAdd dropped 1)
      else (packet :: packets, held, dropped)

def enforcePublishedLimits (session : IpSession) : IpSession :=
  let (published, publishedBytes, publishedDropped) :=
    shedExcess session.maximumPublished session.maximumPublishedBytes
      session.published session.publishedBytes session.publishedDropped
  { session with published, publishedBytes, publishedDropped }

def withMaximumPublished (session : IpSession) (maximumPublished : Nat) :
    IpSession :=
  { session with
    maximumPublished :=
      min maximumPublished maximumIpPublishedPackets }.enforcePublishedLimits

def withMaximumPublishedBytes (session : IpSession)
    (maximumPublishedBytes : Nat) : IpSession :=
  { session with
    maximumPublishedBytes := min maximumPublishedBytes
      maximumIpPublishedBytes }.enforcePublishedLimits

/-! ## Exchanges -/

/-- The end of an exchange at the packet that answers it. -/
def verdict (packet : IpPacket) : Except IpError IpPacket :=
  if packet.messageType = .nak then .error (.remoteStatus packet.status)
  else if packet.messageType ≠ .response then
    .error (.unexpectedMessageType packet.messageType)
  else if packet.status ≠ 0 then .error (.remoteStatus packet.status)
  else .ok packet

/--
The receive loop of an exchange.  Every packet takes at least a header from the
input, so the first number, a bound for the packets, is never reached when it
exceeds the length of the input.
-/
def exchangeLoop (sequence : UInt16) (messageId : UInt8) :
    Nat → Nat → IpSession → IpSession × Flow IpPacket
  | 0, _, session => (session, .returned (.error .sequence))
  | bound + 1, unmatched, session =>
      match session.receive with
      | (session, .interrupted interruption) =>
          (session, .interrupted interruption)
      | (session, .returned (.error error)) =>
          (session, .returned (.error error))
      | (session, .returned (.ok packet)) =>
          if packet.version ≠ session.protocolVersion then
            (session, .returned (.error (.protocolVersion
              session.protocolVersion packet.version)))
          else if packet.messageType = .publish then
            exchangeLoop sequence messageId bound unmatched
              (session.retainPublished packet)
          else if packet.sequence ≠ sequence ∨
              packet.messageId ≠ messageId then
            let session := { session with
              unmatchedSkipped := saturatingAdd session.unmatchedSkipped 1 }
            if unmatched + 1 > session.maximumUnmatched then
              (session, .returned (.error .sequence))
            else
              exchangeLoop sequence messageId bound (unmatched + 1) session
          else (session, .returned (verdict packet))

def exchangeUncheckedWithoutTotalTimeout (session : IpSession)
    (messageId : UInt8) (body : Bytes) : IpSession × Flow IpPacket :=
  match session.send .request messageId body with
  | (session, .interrupted interruption) => (session, .interrupted interruption)
  | (session, .returned (.error error)) => (session, .returned (.error error))
  | (session, .returned (.ok sequence)) =>
      exchangeLoop sequence messageId (session.stream.input.length + 1) 0
        session

def exchangeUnchecked (session : IpSession) (messageId : UInt8)
    (body : Bytes) : IpSession × Flow IpPacket :=
  match session.exchangeUncheckedWithoutTotalTimeout messageId body with
  | (session, .interrupted .outerTimer) =>
      (session.unusable, .returned (.error (.timeout "exchange")))
  | (session, flow) => (session, flow)

/-! ## Logical sessions -/

def sessionInitiate : UInt8 := 0

def sessionClose : UInt8 := 1

def keepAliveId : UInt8 := 2

def tokenPassingPdu : UInt8 := 3

/-- The body of a session request: the primary master and a time. -/
def initiateBody (milliseconds : Nat) : Bytes :=
  [1, UInt8.ofNat (milliseconds / 2 ^ 24), UInt8.ofNat (milliseconds / 2 ^ 16),
    UInt8.ofNat (milliseconds / 2 ^ 8), UInt8.ofNat milliseconds]

def opened (isOpen : Bool) (exchange : IpSession × Flow IpPacket) :
    IpSession × Flow IpPacket :=
  match exchange with
  | (session, .returned (.ok response)) =>
      ({ session with isOpen }, .returned (.ok response))
  | other => other

def openSession (session : IpSession) (milliseconds : Nat) :
    IpSession × Flow IpPacket :=
  if session.isOpen then (session, .returned (.error .alreadyOpen))
  else if milliseconds ≥ 2 ^ 32 then
    (session, .returned (.error .inactivityTimeout))
  else
    opened true
      (session.exchangeUnchecked sessionInitiate (initiateBody milliseconds))

def request (session : IpSession) (messageId : UInt8) (body : Bytes) :
    IpSession × Flow IpPacket :=
  if ¬ session.isOpen then (session, .returned (.error .notOpen))
  else session.exchangeUnchecked messageId body

def keepAlive (session : IpSession) : IpSession × Flow IpPacket :=
  session.request keepAliveId []

def tokenPassing (session : IpSession) (body : Bytes) :
    IpSession × Flow IpPacket :=
  session.request tokenPassingPdu body

def closeSession (session : IpSession) : IpSession × Flow IpPacket :=
  if ¬ session.isOpen then (session, .returned (.error .notOpen))
  else opened false (session.exchangeUnchecked sessionClose [])

end IpSession

/-! ## Calls -/

inductive Call where
  | send (messageType : MessageType) (messageId : UInt8) (body : Bytes)
  | receive
  | openSession (milliseconds : Nat)
  | request (messageId : UInt8) (body : Bytes)
  | keepAlive
  | tokenPassing (body : Bytes)
  | closeSession
  deriving DecidableEq, Repr

inductive Answer where
  | sequence (value : UInt16)
  | packet (packet : IpPacket)
  deriving DecidableEq, Repr

def withoutOuterTimer : Await → Await
  | .interrupted .outerTimer moved => .interrupted .dropped moved
  | await => await

namespace IpSession

def act (session : IpSession) (awaits : List Await) :
    Call → IpSession × Flow Answer
  | .send messageType messageId body =>
      Prod.map id (Flow.map .sequence)
        ((session.under (awaits.map withoutOuterTimer)).send messageType
          messageId body)
  | .receive =>
      Prod.map id (Flow.map .packet)
        (session.under (awaits.map withoutOuterTimer)).receive
  | .openSession milliseconds =>
      Prod.map id (Flow.map .packet)
        ((session.under awaits).openSession milliseconds)
  | .request messageId body =>
      Prod.map id (Flow.map .packet)
        ((session.under awaits).request messageId body)
  | .keepAlive =>
      Prod.map id (Flow.map .packet) (session.under awaits).keepAlive
  | .tokenPassing body =>
      Prod.map id (Flow.map .packet) ((session.under awaits).tokenPassing body)
  | .closeSession =>
      Prod.map id (Flow.map .packet) (session.under awaits).closeSession

/-- What was to happen at further awaits is over when the call ends. -/
def perform (session : IpSession) (call : Call × List Await) :
    IpSession × Flow Answer :=
  Prod.map (under []) id (session.act call.2 call.1)

def performs (session : IpSession) :
    List (Call × List Await) → IpSession × List (Flow Answer)
  | [] => (session, [])
  | call :: calls =>
      let (session, flow) := session.perform call
      let (session, flows) := session.performs calls
      (session, flow :: flows)

end IpSession

end HartLink.Ip
