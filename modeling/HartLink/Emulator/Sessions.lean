import HartLink.Command.Sessions
import HartLink.Emulator.Exchange

/-!
# Sessions with an emulated device

A session is opened at the polling address of the device, and then its operations
go to the long address that the host computes from the reported identity.  They
are served exactly if the device computes the same one.
-/

namespace HartLink.Emulator

open HartLink.Foundation
open HartLink.Wire
open HartLink.Operation
open HartLink.Service
open HartLink.Command

/-! ## Requests that get to the device -/

/--
The request is made into a job and exchanged, before its deadline and with a
decoder that is ready, and its attempts are carried to the device, which is at
rest, and back.
-/
def Reached (device : EmulatedDevice) (link : SharedLink)
    (handling : Handling) (request : Request) (queue : QueueId)
    (policy : RetryPolicy) : Prop :=
  ∃ job now surroundings port plan capacity frames start final,
    link.makeJob handling request queue policy = .ok job ∧
    handling.delivery = .exchanged now surroundings port ∧
    now < job.deadline ∧ Roomy port.decoder port.readBufferSize ∧
    FaultPlan.Faultless plan ∧
    Rested device plan capacity port.readBufferSize frames start ∧
    Conveyed link.horizon now job surroundings port start final

theorem transmitPrefix_of_makeJob {link : SharedLink} {handling : Handling}
    {request : Request} {queue : QueueId} {policy : RetryPolicy} {job : Job}
    (h : link.makeJob handling request queue policy = .ok job) :
    job.request = request ∧ job.transmitPrefix = [] := by
  unfold SharedLink.makeJob at h
  split at h
  · contradiction
  · obtain ⟨-, -, hrequest, htransmit, -⟩ := LinkClient.makeJob_ok h
    exact ⟨hrequest, htransmit⟩

section Requests

variable {device : EmulatedDevice} {link : SharedLink} {handling : Handling}
  {queue : QueueId} {policy : RetryPolicy} {Output : Type}
  {operation : DeviceOperation Output} {address : Address}
  {request : Request}

theorem Reached.served (hidentity : device.identity.Encodable)
    (hstatus : device.additionalStatus.length ≤ 251)
    (haccepts : device.acceptsAddress address = true)
    (hframed : Framed operation address request)
    (h : Reached device link handling request queue policy) :
    ∃ reply now, link.request handling request queue policy =
        ⟨.ok reply, [⟨now, .ok reply⟩]⟩ ∧
      ∀ outcome, Served device operation outcome →
        operation.decodeReply reply = outcome := by
  obtain ⟨job, now, surroundings, port, plan, capacity, frames, start, final,
    hjob, hdelivery, hnow, hport, hplan, hrested, hconveyed⟩ := h
  obtain ⟨rfl, htransmit⟩ := transmitPrefix_of_makeJob hjob
  obtain ⟨reply, hreply, hdecode⟩ := hframed.replyTo hidentity haccepts
  obtain ⟨after, hexchange, -, -⟩ := hconveyed.answered hstatus hplan
    hframed.sendable htransmit hnow hport hrested hreply
  refine ⟨reply, now, ?_, hdecode⟩
  simp only [SharedLink.request, hjob, SharedLink.deliver, hdelivery,
    hexchange, Except.mapError]

theorem Reached.unserved (hstatus : device.additionalStatus.length ≤ 251)
    (hrejects : device.acceptsAddress address = false)
    (hframed : Framed operation address request)
    (h : Reached device link handling request queue policy) :
    (link.request handling request queue policy).result =
        .error (.runner .responseTimeout) ∨
      (link.request handling request queue policy).result =
        .error (.runner .deadline) := by
  obtain ⟨job, now, surroundings, port, plan, capacity, frames, start, final,
    hjob, hdelivery, hnow, hport, hplan, hrested, hconveyed⟩ := h
  obtain ⟨rfl, htransmit⟩ := transmitPrefix_of_makeJob hjob
  obtain ⟨hresult, -⟩ := hconveyed.exchanged hstatus hplan hframed.sendable
    htransmit hport hrested
  have hsilent : device.attempted job.request.frame =
      .error .responseTimeout := by
    rw [EmulatedDevice.attempted, hframed.silent hrejects]
    rfl
  rw [EmulatedDevice.Exchanged, hsilent] at hresult
  simp only [SharedLink.request, hjob, SharedLink.deliver, hdelivery]
  rcases hresult with hresult | hresult
  · exact .inr (by rw [hresult]; rfl)
  · exact .inl (by rw [hresult]; rfl)

end Requests

/-! ## Operations of a session -/

section Sessions

variable {device : EmulatedDevice} {session : IdentifiedSession}
  {handling : Handling} {queue : QueueId} {policy : RetryPolicy}
  {Output : Type} {operation : DeviceOperation Output}
  {meaning : Meaning Output} {request : Request}

def Calls (device : EmulatedDevice) (session : IdentifiedSession)
    (handling : Handling) (operation : DeviceOperation Output)
    (queue : QueueId) (policy : RetryPolicy) : Prop :=
  ∃ request, session.toDeviceSession.request operation = .ok request ∧
    Reached device session.link.toSharedLink handling request queue policy

/-- The address and the preambles of the session make frames. -/
structure Usable (session : IdentifiedSession) : Prop where
  accepted : session.profile.address.Accepted
  preambles : 2 ≤ session.profile.requestPreambles

theorem framed_of_session (htyped : Typed operation meaning)
    (hsession : Usable session)
    (hrequest : session.toDeviceSession.request operation = .ok request) :
    Framed operation session.profile.address request := by
  unfold DeviceSession.request at hrequest
  cases hplain : operation.request session.toDeviceSession.profile.address with
  | error error =>
      rw [hplain] at hrequest
      contradiction
  | ok plain =>
      rw [hplain] at hrequest
      injection hrequest with hrequest
      rw [← hrequest]
      exact framed_of_plain (htyped.registered.plain hplain) hsession.accepted
        hsession.preambles

theorem Calls.served (hidentity : device.identity.Encodable)
    (hstatus : device.additionalStatus.length ≤ 251)
    (htyped : Typed operation meaning) (hsession : Usable session)
    (haccepts : device.acceptsAddress session.profile.address = true)
    (h : Calls device session handling operation queue policy)
    {outcome : Except CodecError Output}
    (houtcome : Served device operation outcome) :
    ∃ transmission,
      session.toDeviceSession.execute handling operation queue policy =
        ⟨outcome.mapError .operation, [transmission]⟩ := by
  obtain ⟨request, hrequest, hreached⟩ := h
  obtain ⟨reply, now, hrun, hdecode⟩ := hreached.served hidentity hstatus
    haccepts (framed_of_session htyped hsession hrequest)
  have hlink : session.toDeviceSession.link = session.link.toSharedLink := rfl
  refine ⟨⟨now, .ok reply⟩, ?_⟩
  simp only [DeviceSession.execute, hrequest, hlink, hrun,
    DeviceSession.decode, hdecode outcome houtcome]

theorem Calls.unserved (hstatus : device.additionalStatus.length ≤ 251)
    (htyped : Typed operation meaning) (hsession : Usable session)
    (hrejects : device.acceptsAddress session.profile.address = false)
    (h : Calls device session handling operation queue policy) :
    (session.toDeviceSession.execute handling operation queue policy).result =
        .error (.exchange (.runner .responseTimeout)) ∨
      (session.toDeviceSession.execute handling operation queue
        policy).result = .error (.exchange (.runner .deadline)) := by
  obtain ⟨request, hrequest, hreached⟩ := h
  have hresult := hreached.unserved hstatus hrejects
    (framed_of_session htyped hsession hrequest)
  have hlink : session.toDeviceSession.link = session.link.toSharedLink := rfl
  simp only [DeviceSession.execute, hrequest, hlink]
  rcases hresult with hresult | hresult
  · exact .inl (by rw [hresult]; rfl)
  · exact .inr (by rw [hresult]; rfl)

end Sessions

/-! ## Opening a session -/

theorem two_le_max (count : UInt8) : 2 ≤ max count 2 := by
  revert count
  exact forall_byte (by decide +kernel)

section Opening

variable {device : EmulatedDevice} {link : HostLink} {node : UInt8}
  {master : Master} {opening : Handling} {policy : RetryPolicy}
  {request : Request}

theorem acceptsAddress_reported_iff (hidentity : device.identity.Encodable)
    (haccepts : device.acceptsAddress (.Polling node master) = true) :
    device.acceptsAddress (.Unique device.identity.reported.addressDeviceType
        device.identity.deviceId master) = true ↔
      7 ≤ device.identity.universalRevision ∨
        (device.identity.manufacturerId &&& 0x3f : UInt16) =
          (device.identity.deviceType >>> 8) &&& 0x3f := by
  have hunique : Address.unique device.addressDeviceType
      device.identity.deviceId master = .ok (.Unique device.addressDeviceType
        device.identity.deviceId master) := by
    refine Address.unique_ok (addressDeviceType_le device) ?_
    rw [UInt32.le_iff_toNat_le]
    exact Nat.le_of_lt_succ hidentity.deviceId
  rcases EmulatedDevice.acceptsAddress_iff.mp haccepts with hgiven | hlong
  · rw [EmulatedDevice.acceptsAddress_iff, ← hgiven, Address.master, hunique,
      ← addressDeviceType_eq_iff]
    simp [eq_comm]
  · rw [Address.master, hunique] at hlong
    simp at hlong

theorem identify_reached (hidentity : device.identity.Encodable)
    (hstatus : device.additionalStatus.length ≤ 251) (hnode : node ≤ 63)
    (haccepts : device.acceptsAddress (.Polling node master) = true)
    (hrequest : readDeviceIdentity.request (.Polling node master) =
      .ok request)
    (h : Reached device link.toSharedLink opening request link.defaultQueue
      policy) :
    (IdentifiedSession.identify link opening (.Polling node master)
        policy).result =
      .ok { link, identity := device.identity.reported
            profile :=
              { address := .Unique device.identity.reported.addressDeviceType
                  device.identity.deviceId master
                requestPreambles :=
                  max device.identity.requestPreambles 2 } } := by
  have hframed := framed_of_request .readDeviceIdentity
    ((Address.accepted_polling_iff node master).mpr hnode) hrequest
  obtain ⟨reply, now, hrun, hdecode⟩ :=
    h.served hidentity hstatus haccepts hframed
  have hidentified : (link.execute opening (.Polling node master)
      readDeviceIdentity link.defaultQueue policy).result =
        .ok device.identity.reported := by
    simp only [HostLink.execute, hrequest, hrun]
    change (readDeviceIdentity.decodeReply reply).mapError _ = _
    rw [hdecode _ .identity]
    rfl
  simp only [IdentifiedSession.identify, hidentified]
  change IdentifiedSession.fromIdentity link (.Polling node master)
    device.identity.reported = _
  simp only [IdentifiedSession.fromIdentity, uniqueAddress_reported hidentity]
  rfl

theorem usable_opened (hidentity : device.identity.Encodable)
    (link : HostLink) (master : Master) :
    Usable { link, identity := device.identity.reported
             profile :=
              { address := .Unique device.identity.reported.addressDeviceType
                  device.identity.deviceId master
                requestPreambles :=
                  max device.identity.requestPreambles 2 } } := by
  refine ⟨(Address.accepted_unique_iff _ _ _).mpr
    ⟨addressDeviceType_reported_le _, ?_⟩, two_le_max _⟩
  rw [UInt32.le_iff_toNat_le]
  exact Nat.le_of_lt_succ hidentity.deviceId

/-- Every typed operation that gets to the device ends as the device serves it. -/
def ServesAll (device : EmulatedDevice) (session : IdentifiedSession) : Prop :=
  ∀ {Output : Type} {operation : DeviceOperation Output}
    {meaning : Meaning Output}, Typed operation meaning →
    ∀ handling queue policy,
      Calls device session handling operation queue policy →
        ∃ outcome, Served device operation outcome ∧
          (session.toDeviceSession.execute handling operation queue
            policy).result = outcome.mapError .operation

/-- Every typed operation that gets to the device ends in a timeout. -/
def ServesNone (device : EmulatedDevice) (session : IdentifiedSession) :
    Prop :=
  ∀ {Output : Type} {operation : DeviceOperation Output}
    {meaning : Meaning Output}, Typed operation meaning →
    ∀ handling queue policy,
      Calls device session handling operation queue policy →
        (session.toDeviceSession.execute handling operation queue
            policy).result = .error (.exchange (.runner .responseTimeout)) ∨
          (session.toDeviceSession.execute handling operation queue
            policy).result = .error (.exchange (.runner .deadline))

/--
A session with an emulated device that is opened at its polling address holds the
identity of the device.  From HART 7 on, and before it exactly when the high byte
of the device type stands for the manufacturer, every typed operation is served at
the long address; otherwise none is, and each ends in a timeout.
-/
theorem emulated_session_served_iff (hidentity : device.identity.Encodable)
    (hstatus : device.additionalStatus.length ≤ 251) (hnode : node ≤ 63)
    (haccepts : device.acceptsAddress (.Polling node master) = true)
    (hrequest : readDeviceIdentity.request (.Polling node master) =
      .ok request)
    (h : Reached device link.toSharedLink opening request link.defaultQueue
      policy) :
    ∃ session, (IdentifiedSession.identify link opening
        (.Polling node master) policy).result = .ok session ∧
      session.identity = device.identity.reported ∧
      if 7 ≤ device.identity.universalRevision ∨
          (device.identity.manufacturerId &&& 0x3f : UInt16) =
            (device.identity.deviceType >>> 8) &&& 0x3f then
        ServesAll device session
      else ServesNone device session := by
  refine ⟨_, identify_reached hidentity hstatus hnode haccepts hrequest h, rfl,
    ?_⟩
  have husable := usable_opened hidentity link master
  have hagrees := acceptsAddress_reported_iff hidentity haccepts
  split_ifs with hsame
  · intro Output operation meaning htyped handling queue policy hcalls
    obtain ⟨outcome, houtcome⟩ := exists_served device htyped
    obtain ⟨transmission, hrun⟩ := hcalls.served hidentity hstatus htyped
      husable (hagrees.mpr hsame) houtcome
    exact ⟨outcome, houtcome, by rw [hrun]⟩
  · intro Output operation meaning htyped handling queue policy hcalls
    exact hcalls.unserved hstatus htyped husable
      (Bool.eq_false_iff.mpr (mt hagrees.mp hsame))

/-! ## Snapshots -/

inductive Captures (session : IdentifiedSession) (options : SnapshotOptions) :
    {Output : Type} → DeviceOperation Output → Prop
  | primaryValue (h : options.processValues = true) :
      Captures session options readPrimaryValue
  | loopSignal (h : options.processValues = true) :
      Captures session options readLoopSignal
  | dynamicValues (h : options.processValues = true) :
      Captures session options readDynamicValues
  | tag (h : options.tags = true) :
      Captures session options readTagDescriptorDate
  | longTag (h : options.tags = true)
      (hrevision : 6 ≤ session.identity.universalRevision) :
      Captures session options readLongTag
  | additionalStatus (h : options.diagnostics = true) :
      Captures session options readAdditionalStatus

def EmulatedDevice.refusal {Value : Type} (device : EmulatedDevice)
    (command : CommandCode) : SnapshotField Value :=
  .error command (.operation (.deviceStatus 64 device.status))

def EmulatedDevice.snapshot (device : EmulatedDevice)
    (session : IdentifiedSession) (capturedAt : Nat)
    (options : SnapshotOptions) : DeviceSnapshot where
  capturedAt := capturedAt
  identity := session.identity
  profile := session.profile
  primaryValue :=
    if options.processValues then
      .value ⟨device.primaryUnit, device.primaryValue⟩
    else .notRequested
  loopSignal :=
    if options.processValues then .value ⟨device.loopCurrent, device.percent⟩
    else .notRequested
  dynamicValues :=
    if options.processValues then device.refusal ⟨3⟩ else .notRequested
  tag := if options.tags then device.refusal ⟨13⟩ else .notRequested
  longTag :=
    if options.tags then
      if device.identity.universalRevision < 6 then
        .unsupported "long tag requires HART 6 or newer"
      else device.refusal ⟨20⟩
    else .notRequested
  additionalStatus :=
    if options.diagnostics then .value ⟨device.additionalStatus⟩
    else .notRequested

theorem captureIf_served {session : IdentifiedSession}
    {handlings : CommandCode → Handling} {Output : Type}
    {operation : DeviceOperation Output} {meaning : Meaning Output}
    (hidentity : device.identity.Encodable)
    (hstatus : device.additionalStatus.length ≤ 251)
    (htyped : Typed operation meaning) (hsession : Usable session)
    (haccepts : device.acceptsAddress session.profile.address = true)
    {requested : Bool} (h : requested = true →
      Calls device session (handlings operation.command) operation
        session.link.defaultQueue session.link.defaultRetry)
    {outcome : Except CodecError Output}
    (houtcome : Served device operation outcome) :
    (session.captureIf handlings requested operation).1 =
      if requested then
        capture operation.command (outcome.mapError .operation)
      else .notRequested := by
  cases requested with
  | false => rfl
  | true =>
      obtain ⟨transmission, hrun⟩ := (h rfl).served hidentity hstatus htyped
        hsession haccepts houtcome
      simp only [IdentifiedSession.captureIf, if_true,
        IdentifiedSession.executeDefault, hrun]

/--
A snapshot of an emulated device over a session at an address that the device
takes holds the fields of the device, and the commands that it does not know take
none of them away.
-/
theorem captureSnapshot_served {session : IdentifiedSession}
    (hidentity : device.identity.Encodable)
    (hstatus : device.additionalStatus.length ≤ 251)
    (hsession : Usable session)
    (haccepts : device.acceptsAddress session.profile.address = true)
    (hreported : session.identity = device.identity.reported)
    {handlings : CommandCode → Handling} {options : SnapshotOptions}
    (h : ∀ {Output : Type} {operation : DeviceOperation Output},
      Captures session options operation →
        Calls device session (handlings operation.command) operation
          session.link.defaultQueue session.link.defaultRetry)
    (capturedAt : Nat) :
    (session.captureSnapshot capturedAt handlings options).1 =
      device.snapshot session capturedAt options := by
  have hprimary := captureIf_served hidentity hstatus .readPrimaryValue
    hsession haccepts (fun hrequested => h (.primaryValue hrequested))
    .primaryValue
  have hloop := captureIf_served hidentity hstatus .readLoopSignal hsession
    haccepts (fun hrequested => h (.loopSignal hrequested)) .loopSignal
  have hdynamic := captureIf_served hidentity hstatus .readDynamicValues
    hsession haccepts (fun hrequested => h (.dynamicValues hrequested))
    (.unknown .readDynamicValues rfl)
  have htag := captureIf_served hidentity hstatus .readTagDescriptorDate
    hsession haccepts (fun hrequested => h (.tag hrequested))
    (.unknown .readTagDescriptorDate rfl)
  have hadditional := captureIf_served hidentity hstatus
    .readAdditionalStatus hsession haccepts
    (fun hrequested => h (.additionalStatus hrequested)) .additionalStatus
  have hrevision : session.identity.universalRevision =
      device.identity.universalRevision := by
    rw [hreported]
    rfl
  have hlong : (if !options.tags then (.notRequested, [])
      else if session.identity.universalRevision < 6 then
        (.unsupported "long tag requires HART 6 or newer", [])
      else session.captureIf handlings true readLongTag).1 =
        if options.tags then
          if device.identity.universalRevision < 6 then
            .unsupported "long tag requires HART 6 or newer"
          else device.refusal ⟨20⟩
        else .notRequested := by
    rw [← hrevision]
    cases htags : options.tags with
    | false => rfl
    | true =>
        by_cases hold : session.identity.universalRevision < 6
        · simp [hold]
        · have hfield := captureIf_served hidentity hstatus .readLongTag
            hsession haccepts
            (fun _ : true = true => h (.longTag htags (UInt8.not_lt.mp hold)))
            (.unknown .readLongTag rfl)
          simp only [hold, if_false, if_true, Bool.not_true,
            Bool.false_eq_true, hfield]
          rfl
  simp only [IdentifiedSession.captureSnapshot, hprimary, hloop, hdynamic,
    htag, hadditional, hlong, EmulatedDevice.snapshot]
  rfl

def SnapshotsAll (device : EmulatedDevice) (session : IdentifiedSession) :
    Prop :=
  ∀ (handlings : CommandCode → Handling) (options : SnapshotOptions),
    (∀ {Output : Type} {operation : DeviceOperation Output},
      Captures session options operation →
        Calls device session (handlings operation.command) operation
          session.link.defaultQueue session.link.defaultRetry) →
    ∀ capturedAt, (session.captureSnapshot capturedAt handlings options).1 =
      device.snapshot session capturedAt options

/--
The session that the identity of the device opens takes the whole snapshot of the
device, if the two agree on the long address: the commands that the device does
not know are refused and take none of the other fields away.
-/
theorem emulated_session_snapshot (hidentity : device.identity.Encodable)
    (hstatus : device.additionalStatus.length ≤ 251) (hnode : node ≤ 63)
    (haccepts : device.acceptsAddress (.Polling node master) = true)
    (hrequest : readDeviceIdentity.request (.Polling node master) =
      .ok request)
    (h : Reached device link.toSharedLink opening request link.defaultQueue
      policy)
    (hsame : 7 ≤ device.identity.universalRevision ∨
      (device.identity.manufacturerId &&& 0x3f : UInt16) =
        (device.identity.deviceType >>> 8) &&& 0x3f) :
    ∃ session, (IdentifiedSession.identify link opening
        (.Polling node master) policy).result = .ok session ∧
      SnapshotsAll device session :=
  ⟨_, identify_reached hidentity hstatus hnode haccepts hrequest h,
    fun _ _ hcalls => captureSnapshot_served hidentity hstatus
      (usable_opened hidentity link master)
      ((acceptsAddress_reported_iff hidentity haccepts).mpr hsame) rfl hcalls⟩

end Opening

/-! ## A session with a transmitter -/

def identityRequest : Request :=
  { Request.new (.Polling 0 .primary) ⟨0⟩ [] with
    retrySafety := some .readOnly }

def identityActions : List ServingAction :=
  [.host (.send identityRequest.frame.encoding), .host .advance, .pull, .read,
    .handle, .advance, .host .pull, .host (.read receiveBuffer)]

def identityPiece : Bytes :=
  ((transmitter 0x06 7).respond identityRequest.frame).encoding

def identityAttempt : Attempt where
  startedAt := 1
  sent := { instant := 2, error := none }
  arrivals := [⟨3, .read identityPiece⟩]
  pausedAt := 4
  checkedAt := 4

def benchLink : HostLink where
  client := ⟨.allowAll, .preserveRequested⟩
  queues := [⟨0⟩]
  horizon := 10 ^ 18
  defaultQueue := ⟨0⟩
  defaultRetry := .default

def identityHandling : Handling where
  startedAt := 0
  checkedAt := 0
  acceptedAt := 0
  counters := {}
  reply := 0
  delivery := .exchanged 0 (fun _ => identityAttempt)
    { decoder := .new defaultLimits, readBufferSize := receiveBuffer
      burstHub := false }
  endedAt := 4

theorem exists_identityRest :
    ∃ rest, Visits [identityRequest.frame] receiveBuffer
      [.read identityPiece] (Serving.new (transmitter 0x06 7) 8 {}) rest := by
  obtain ⟨rest, hrun, hquiet, hpieces⟩ := @exists_quiet
    (runSteps Serving.step (Serving.new (transmitter 0x06 7) 8 {})
      identityActions) [identityPiece] (by decide +kernel)
  refine ⟨rest, ⟨identityActions, ⟨by decide, rfl⟩, ?_, hrun⟩, hquiet, ?_⟩
  · intro count hmem
    simp [identityActions] at hmem
    exact Nat.le_of_eq hmem
  · rw [hpieces]
    rfl

theorem reached_identityRequest :
    Reached (transmitter 0x06 7) benchLink.toSharedLink identityHandling
      identityRequest ⟨0⟩ .default := by
  obtain ⟨rest, hrest⟩ := exists_identityRest
  exact ⟨_, _, _, _, {}, 8, [], _, rest, rfl, rfl, by decide, roomy_default,
    ⟨rfl, rfl, rfl, rfl⟩, rested_new _ _ _ _,
    conveyed_of_first (by decide +kernel) ⟨hrest, by decide, by decide⟩⟩

theorem emulated_session_served_iff_transmitter :
    ∃ session, (IdentifiedSession.identify benchLink identityHandling
        (.Polling 0 .primary) .default).result = .ok session ∧
      session.identity = (transmitter 0x06 7).identity.reported ∧
      if 7 ≤ (transmitter 0x06 7).identity.universalRevision ∨
          ((transmitter 0x06 7).identity.manufacturerId &&& 0x3f : UInt16) =
            ((transmitter 0x06 7).identity.deviceType >>> 8) &&& 0x3f then
        ServesAll (transmitter 0x06 7) session
      else ServesNone (transmitter 0x06 7) session :=
  emulated_session_served_iff (transmitter_encodable 0x06 7) (Nat.zero_le 251)
    (by decide) rfl rfl reached_identityRequest

theorem emulated_session_snapshot_transmitter :
    ∃ session, (IdentifiedSession.identify benchLink identityHandling
        (.Polling 0 .primary) .default).result = .ok session ∧
      SnapshotsAll (transmitter 0x06 7) session :=
  emulated_session_snapshot (transmitter_encodable 0x06 7) (Nat.zero_le 251)
    (by decide) rfl rfl reached_identityRequest (.inl (by decide))

end HartLink.Emulator
