import HartLink.Command.Text

/-!
# Sessions and snapshots

A session is opened by the identity that the device at an address reports; from
then on its operations go to the long address of the device.  A snapshot keeps
the failure of one command beside the values of the others.
-/

namespace HartLink.Command

open HartLink.Foundation
open HartLink.Wire
open HartLink.Operation
open HartLink.Service

/-! ## Calls on a link -/

/-- A shared link with the defaults of its client. -/
structure HostLink extends SharedLink where
  defaultQueue : QueueId
  defaultRetry : RetryPolicy

/-- The errors of a call that encodes its request and decodes the reply. -/
inductive ExecuteError where
  | request (error : RequestError)
  | operation (error : CodecError)
  deriving DecidableEq, Repr

def HostLink.execute {Output : Type} (link : HostLink) (handling : Handling)
    (address : Address) (operation : DeviceOperation Output) (queue : QueueId)
    (policy : RetryPolicy) : CallRun ExecuteError Output :=
  match operation.request address with
  | .error error => ⟨.error (.operation error), []⟩
  | .ok request =>
      let run := link.request handling request queue policy
      ⟨do
        let reply ← run.result.mapError .request
        (operation.decodeReply reply).mapError .operation, run.transmissions⟩

/-! ## Opening a session -/

/-- What opening a session ends with when it fails. -/
inductive OpeningError where
  | exchange (error : ExecuteError)
  | operation (error : CodecError)
  | address (error : WireError)
  | preambles (count : UInt8)
  deriving DecidableEq, Repr

structure IdentifiedSession where
  link : HostLink
  identity : DeviceIdentity
  profile : SessionProfile

namespace IdentifiedSession

def toDeviceSession (session : IdentifiedSession) : DeviceSession where
  link := session.link.toSharedLink
  profile := session.profile

def fromIdentity (link : HostLink) (address : Address)
    (identity : DeviceIdentity) : Except OpeningError IdentifiedSession :=
  let requestPreambles := max identity.requestPreambles 2
  match address with
  | .Polling _ master =>
      match identity.uniqueAddress master with
      | .error error => .error (.address error)
      | .ok address =>
          .ok { link, identity, profile := { address, requestPreambles } }
  | .Unique .. =>
      .ok { link, identity, profile := { address, requestPreambles } }

def identify (link : HostLink) (handling : Handling) (address : Address)
    (policy : RetryPolicy) : CallRun OpeningError IdentifiedSession :=
  let run := link.execute handling address readDeviceIdentity
    link.defaultQueue policy
  ⟨do
    let identity ← run.result.mapError .exchange
    fromIdentity link address identity, run.transmissions⟩

def identifyDefault (link : HostLink) (handling : Handling)
    (address : Address) : CallRun OpeningError IdentifiedSession :=
  identify link handling address link.defaultRetry

def identifyWithPreambles (link : HostLink) (handling : Handling)
    (address : Address) (preambles : UInt8) (policy : RetryPolicy) :
    CallRun OpeningError IdentifiedSession :=
  if preambles < 2 ∨ 40 < preambles then ⟨.error (.preambles preambles), []⟩
  else
    match readDeviceIdentity.request address with
    | .error error => ⟨.error (.operation error), []⟩
    | .ok request =>
        let run := link.request handling { request with preambles }
          link.defaultQueue policy
        ⟨do
          let reply ← run.result.mapError fun error =>
            .exchange (.request error)
          let identity ←
            (readDeviceIdentity.decodeReply reply).mapError .operation
          fromIdentity link address identity, run.transmissions⟩

def executeDefault {Output : Type} (session : IdentifiedSession)
    (handling : Handling) (operation : DeviceOperation Output) :
    CallRun SessionError Output :=
  session.toDeviceSession.execute handling operation
    session.link.defaultQueue session.link.defaultRetry

end IdentifiedSession

/-! ## Snapshots -/

structure SnapshotOptions where
  processValues : Bool
  tags : Bool
  diagnostics : Bool
  deriving DecidableEq, Repr

/-- A failure keeps the error itself, where the source keeps its text. -/
inductive SnapshotField (Value : Type) where
  | notRequested
  | unsupported (reason : String)
  | value (value : Value)
  | error (command : CommandCode) (error : SessionError)
  deriving DecidableEq, Repr

namespace SnapshotField

variable {Value : Type}

def isError : SnapshotField Value → Bool
  | .error .. => true
  | _ => false

end SnapshotField

def capture {Value : Type} (command : CommandCode)
    (result : Except SessionError Value) : SnapshotField Value :=
  match result with
  | .ok value => .value value
  | .error error => .error command error

structure DeviceSnapshot where
  capturedAt : Nat
  identity : DeviceIdentity
  profile : SessionProfile
  primaryValue : SnapshotField PrimaryValue
  loopSignal : SnapshotField LoopSignal
  dynamicValues : SnapshotField DynamicValues
  tag : SnapshotField TagDescriptorDate
  longTag : SnapshotField String
  additionalStatus : SnapshotField AdditionalStatus

def DeviceSnapshot.hasErrors (snapshot : DeviceSnapshot) : Bool :=
  snapshot.primaryValue.isError || snapshot.loopSignal.isError ||
    snapshot.dynamicValues.isError || snapshot.tag.isError ||
    snapshot.longTag.isError || snapshot.additionalStatus.isError

namespace IdentifiedSession

def captureIf {Value : Type} (session : IdentifiedSession)
    (handlings : CommandCode → Handling) (requested : Bool)
    (operation : DeviceOperation Value) :
    SnapshotField Value × List Transmission :=
  if requested then
    let run := session.executeDefault (handlings operation.command) operation
    (capture operation.command run.result, run.transmissions)
  else (.notRequested, [])

/-- `capture_snapshot`, with the transmissions that it makes. -/
def captureSnapshot (session : IdentifiedSession) (capturedAt : Nat)
    (handlings : CommandCode → Handling) (options : SnapshotOptions) :
    DeviceSnapshot × List Transmission :=
  let primaryValue :=
    session.captureIf handlings options.processValues readPrimaryValue
  let loopSignal :=
    session.captureIf handlings options.processValues readLoopSignal
  let dynamicValues :=
    session.captureIf handlings options.processValues readDynamicValues
  let tag := session.captureIf handlings options.tags readTagDescriptorDate
  let longTag :=
    if !options.tags then (.notRequested, [])
    else if session.identity.universalRevision < 6 then
      (.unsupported "long tag requires HART 6 or newer", [])
    else session.captureIf handlings true readLongTag
  let additionalStatus :=
    session.captureIf handlings options.diagnostics readAdditionalStatus
  ({ capturedAt, identity := session.identity, profile := session.profile
     primaryValue := primaryValue.1, loopSignal := loopSignal.1
     dynamicValues := dynamicValues.1, tag := tag.1, longTag := longTag.1
     additionalStatus := additionalStatus.1 },
    primaryValue.2 ++ loopSignal.2 ++ dynamicValues.2 ++ tag.2 ++
      longTag.2 ++ additionalStatus.2)

/-! ## Sessions that are opened -/

theorem fromIdentity_ok {link : HostLink} {address : Address}
    {identity : DeviceIdentity} {session : IdentifiedSession}
    (h : fromIdentity link address identity = .ok session) :
    session.link = link ∧ session.identity = identity ∧
      session.profile.requestPreambles = max identity.requestPreambles 2 ∧
      session.profile.address.master = address.master ∧
      ∃ expandedType deviceId, session.profile.address =
        .Unique expandedType deviceId address.master := by
  unfold fromIdentity at h
  cases address with
  | Polling node master =>
      dsimp only at h
      cases hunique : identity.uniqueAddress master with
      | error error =>
          rw [hunique] at h
          contradiction
      | ok address =>
          rw [hunique] at h
          injection h with h
          subst h
          unfold DeviceIdentity.uniqueAddress Address.unique at hunique
          split_ifs at hunique
          injection hunique with hunique
          subst hunique
          exact ⟨rfl, rfl, rfl, rfl, _, _, rfl⟩
  | Unique expandedType deviceId master =>
      injection h with h
      subst h
      exact ⟨rfl, rfl, rfl, rfl, _, _, rfl⟩

end IdentifiedSession

end HartLink.Command
