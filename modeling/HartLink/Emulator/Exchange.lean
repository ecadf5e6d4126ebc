import HartLink.Command.Typed
import HartLink.Emulator.Polling
import HartLink.Service.ChannelCalls
import HartLink.Service.Recovery

/-!
# Typed operations on an emulated device

The whole way of an operation: its request is encoded, sent in fragments, decoded
and answered by the device, and the response is read in pieces, decoded, taken for
the answer and decoded again.  The host ends up with the fields of the device, or
with the status by which the device refuses a command that it does not know.
-/

namespace HartLink.Emulator

open HartLink.Foundation
open HartLink.Wire
open HartLink.Operation
open HartLink.Service
open HartLink.Command

/-! ## What the device serves -/

inductive Served (device : EmulatedDevice) :
    {Output : Type} → DeviceOperation Output → Except CodecError Output → Prop
  | identity :
      Served device readDeviceIdentity (.ok device.identity.reported)
  | identityByCommand {command : UInt8} {requestData : Bytes}
      {request : ReadIdentity}
      (h : ReadIdentity.new command requestData = .ok request)
      (hzero : request.command = ⟨0⟩) :
      Served device request.operation (.ok device.identity.reported)
  | primaryValue :
      Served device readPrimaryValue
        (.ok ⟨device.primaryUnit, device.primaryValue⟩)
  | loopSignal :
      Served device readLoopSignal (.ok ⟨device.loopCurrent, device.percent⟩)
  | additionalStatus :
      Served device readAdditionalStatus (.ok ⟨device.additionalStatus⟩)
  | unknown {Output : Type} {operation : DeviceOperation Output}
      {meaning : Meaning Output} (h : Typed operation meaning)
      (hcommand : device.replyData operation.command.get = none) :
      Served device operation (.error (.deviceStatus 64 device.status))

theorem Typed.decodeReply_status {Output : Type}
    {operation : DeviceOperation Output} {meaning : Meaning Output}
    (h : Typed operation meaning) {reply : DeviceReply}
    (hcommand : reply.command = operation.command)
    (hcode : reply.responseCode = 64) :
    operation.decodeReply reply =
      .error (.deviceStatus 64 reply.deviceStatus) := by
  have hbit : (64 : UInt8) &&& 0x80 = 0 := by decide
  have hfails : reply.requireSuccess operation.command =
      .error (.deviceStatus 64 reply.deviceStatus) := by
    simp [DeviceReply.requireSuccess, DeviceReply.requireCommand, hcommand,
      hcode, hbit, bind, Except.bind]
  have hbind : ∀ rest : Except CodecError Output,
      (do reply.requireSuccess operation.command; rest) =
        .error (.deviceStatus 64 reply.deviceStatus) := by
    intro rest
    rw [hfails]
    rfl
  cases h <;> exact hbind _

/-- The commands that the device answers. -/
theorem known_of_replyData {device : EmulatedDevice} {logical : UInt16}
    {data : Bytes} (h : device.replyData logical = some data) :
    logical = 0 ∨ logical = 1 ∨ logical = 2 ∨ logical = 48 := by
  unfold EmulatedDevice.replyData at h
  split_ifs at h <;> tauto

theorem exists_served (device : EmulatedDevice) {Output : Type}
    {operation : DeviceOperation Output} {meaning : Meaning Output}
    (h : Typed operation meaning) :
    ∃ outcome, Served device operation outcome := by
  cases hreply : device.replyData operation.command.get with
  | none => exact ⟨_, .unknown h hreply⟩
  | some data =>
      have hknown := known_of_replyData hreply
      cases h with
      | readDeviceIdentity => exact ⟨_, .identity⟩
      | readPrimaryValue => exact ⟨_, .primaryValue⟩
      | readLoopSignal => exact ⟨_, .loopSignal⟩
      | readAdditionalStatus => exact ⟨_, .additionalStatus⟩
      | readIdentity hnew =>
          obtain ⟨hnumber, hcode, -⟩ := ReadIdentity.new_ok hnew
          refine ⟨_, .identityByCommand hnew ?_⟩
          rw [ReadIdentity.operation, hcode] at hknown
          dsimp only at hknown
          rw [hcode]
          rcases hnumber with rfl | rfl | rfl | rfl | rfl
          · rfl
          all_goals exact absurd hknown (by decide)
      | actionCommand hnew =>
          obtain ⟨hnumber, hcode, -⟩ := ActionCommand.new_ok hnew
          rw [ActionCommand.operation, hcode] at hknown
          dsimp only at hknown
          exact absurd hknown (forall_actionNumber
            (P := fun number => ¬ ((CommandCode.ofByte number).get = 0 ∨
              (CommandCode.ofByte number).get = 1 ∨
              (CommandCode.ofByte number).get = 2 ∨
              (CommandCode.ofByte number).get = 48)) (by decide +kernel) hnumber)
      | analogTrim hnew current =>
          obtain ⟨hnumber, hcode⟩ := AnalogTrim.new_ok hnew
          rw [AnalogTrim.operation, hcode] at hknown
          dsimp only at hknown
          rcases hnumber with rfl | rfl <;> exact absurd hknown (by decide)
      | _ =>
          simp [readDynamicValues, WritePollingAddress.operation,
            WriteLegacyPollingAddress.operation, readLoopConfiguration,
            readVariableClassifications, ReadDeviceVariables.operation,
            readMessage, readTagDescriptorDate, readTransducerInformation,
            readOutputInformation, readFinalAssemblyNumber,
            WriteMessage.operation, writeTagDescriptorDate,
            WriteFinalAssemblyNumber.operation, readLongTag,
            WriteLongTag.operation, ReadSelectedVariables.operation,
            SetDamping.operation, SetRange.operation, EepromControl.operation,
            FixedCurrent.operation, WritePrimaryUnit.operation,
            WriteTransferFunction.operation] at hknown

/-! ## The answer of the device -/

theorem respond_eq (device : EmulatedDevice) (request : Frame) :
    device.respond request =
      Operation.respond request (max device.identity.responsePreambles 2)
        (if (device.replyData (logicalCommand request).get).isSome then 0
          else 64)
        device.status
        ((device.replyData (logicalCommand request).get).getD []) := by
  by_cases hwire : request.wireCommand = 31
  · rcases hpayload : request.payload with _ | ⟨high, _ | ⟨low, rest⟩⟩
    · simp [EmulatedDevice.respond, Operation.respond, carriesNumber,
        logicalCommand, hwire, hpayload, CommandCode.ofByte]
    · simp [EmulatedDevice.respond, Operation.respond, carriesNumber,
        logicalCommand, hwire, hpayload, CommandCode.ofByte]
    · have hnumber :=
        (beBytes_two_iff high low (fromBeBytes high low)).mpr rfl
      simp [EmulatedDevice.respond, Operation.respond, carriesNumber,
        logicalCommand, hwire, hpayload, ← hnumber]
  · have hlogical : logicalCommand request = .ofByte request.wireCommand := by
      unfold logicalCommand
      split <;> simp [hwire]
    simp [EmulatedDevice.respond, Operation.respond, carriesNumber, hwire,
      hlogical, CommandCode.ofByte]

/-- What the host takes for the answer of the device, if there is any. -/
def EmulatedDevice.replyTo (device : EmulatedDevice) (request : Frame) :
    Option DeviceReply :=
  if device.addressed request then
    LinkPort.answerOf request (.frame (device.respond request))
  else none

section Replies

variable {device : EmulatedDevice} {request : Frame} {reply : DeviceReply}

theorem replyTo_eq (haddressed : device.addressed request = true)
    (h : request.wireCommand = 31 → 2 ≤ request.payload.length) :
    ∃ reply, device.replyTo request = some reply ∧
      reply.command = logicalCommand request ∧
      reply.responseCode =
        (if (device.replyData (logicalCommand request).get).isSome then 0
          else 64) ∧
      reply.deviceStatus = device.status ∧
      reply.data =
        (device.replyData (logicalCommand request).get).getD [] := by
  rw [EmulatedDevice.replyTo, if_pos haddressed, respond_eq]
  exact ⟨_, answerOf_respond _ _ _ _ h, rfl, rfl, rfl, rfl⟩

/-- Nobody takes an answer to half an expanded command number. -/
theorem replyTo_short (hwire : request.wireCommand = 31)
    (h : request.payload.length < 2) : device.replyTo request = none := by
  unfold EmulatedDevice.replyTo
  split_ifs
  · have hdata : device.replyData (logicalCommand request).get = none := by
      have hlogical : logicalCommand request = ⟨31⟩ := by
        rcases hpayload : request.payload with _ | ⟨high, _ | ⟨low, rest⟩⟩
        · simp [logicalCommand, hpayload, hwire, CommandCode.ofByte]
        · simp [logicalCommand, hpayload, hwire, CommandCode.ofByte]
        · simp [hpayload] at h
      rw [hlogical]
      rfl
    rw [respond_eq, hdata]
    simp [LinkPort.answerOf, isEcho, DeviceReply.fromFrame, Operation.respond,
      carriesNumber, hwire, Nat.not_le.mpr h]
  · rfl

theorem extends_of_replyTo (h : device.replyTo request = some reply) :
    device.addressed request = true ∧
      (request.wireCommand = 31 → 2 ≤ request.payload.length) := by
  constructor
  · by_contra haddressed
    rw [EmulatedDevice.replyTo, if_neg haddressed] at h
    contradiction
  · intro hwire
    by_contra hshort
    rw [replyTo_short hwire (Nat.lt_of_not_le hshort)] at h
    contradiction

/-- The device never asks for patience. -/
theorem responseCode_of_replyTo (h : device.replyTo request = some reply) :
    reply.responseCode ≠ 32 ∧ reply.responseCode ≠ 33 ∧
      reply.responseCode ≠ 34 := by
  obtain ⟨haddressed, hlong⟩ := extends_of_replyTo h
  obtain ⟨found, hfound, -, hcode, -⟩ := replyTo_eq haddressed hlong
  rw [h] at hfound
  injection hfound with hfound
  rw [hfound, hcode]
  split_ifs <;> decide

end Replies

theorem Served.decodeReply {device : EmulatedDevice}
    (hidentity : device.identity.Encodable) {Output : Type}
    {operation : DeviceOperation Output}
    {outcome : Except CodecError Output}
    (h : Served device operation outcome) {reply : DeviceReply}
    (hcommand : reply.command = operation.command)
    (hcode : reply.responseCode =
      if (device.replyData operation.command.get).isSome then 0 else 64)
    (hstatus : reply.deviceStatus = device.status)
    (hdata : reply.data =
      (device.replyData operation.command.get).getD []) :
    operation.decodeReply reply = outcome := by
  cases h with
  | identity =>
      have hsuccess : Succeeds ⟨0⟩ reply := ⟨hcommand, hcode⟩
      refine requireSuccess_bind_eq_ok_iff.mpr ⟨hsuccess, ?_⟩
      rw [hdata]
      exact decode_identityPayload hidentity
  | identityByCommand hnew hzero =>
      have hsuccess : Succeeds ⟨0⟩ reply := by
        rw [ReadIdentity.operation, hzero] at hcommand hcode
        exact ⟨hcommand, hcode⟩
      rw [ReadIdentity.operation, hzero] at hdata ⊢
      refine requireSuccess_bind_eq_ok_iff.mpr ⟨hsuccess, ?_⟩
      rw [hdata]
      exact decode_identityPayload hidentity
  | primaryValue =>
      exact Typed.readPrimaryValue.decodeReply_eq_ok_iff.mpr
        ⟨⟨hcommand, hcode⟩, hdata⟩
  | loopSignal =>
      exact Typed.readLoopSignal.decodeReply_eq_ok_iff.mpr
        ⟨⟨hcommand, hcode⟩, hdata⟩
  | additionalStatus =>
      exact Typed.readAdditionalStatus.decodeReply_eq_ok_iff.mpr
        ⟨⟨hcommand, hcode⟩, hdata⟩
  | unknown htyped hunknown =>
      rw [hunknown] at hcode
      rw [Typed.decodeReply_status htyped hcommand hcode, hstatus]

/-! ## The device between two requests -/

/-- Everything has come to rest after whole requests of the host. -/
structure Rested (device : EmulatedDevice) (plan : FaultPlan)
    (capacity size : Nat) (frames : List Frame) (serving : Serving) :
    Prop where
  encodable : ∀ frame ∈ frames, frame.Encodable ∧ 2 ≤ frame.preambles
  run : ∃ actions, HostSends frames actions ∧
    (∀ count, .host (.read count) ∈ actions → count ≤ size) ∧
    runSteps Serving.step (Serving.new device capacity plan) actions =
      some serving
  quiet : serving.Quiet

/-- From rest to rest the host sends frames, and it receives what comes back. -/
structure Visits (frames : List Frame) (size : Nat) (received : List Received)
    (start final : Serving) : Prop where
  run : ∃ actions, HostSends frames actions ∧
    (∀ count, .host (.read count) ∈ actions → count ≤ size) ∧
    runSteps Serving.step start actions = some final
  quiet : final.Quiet
  received : (final.link.pipe .left).pieces.map Received.read =
    (start.link.pipe .left).pieces.map Received.read ++ received

/-- The surroundings of an attempt are what the channel and the device do. -/
structure Carried (request : Frame) (size deadline : Nat) (sent : Sent)
    (arrivals : List Arrival) (start final : Serving) : Prop where
  visits : Visits [request] size (arrivals.map Arrival.received) start final
  sent : sent.error = none ∧ sent.instant ≤ deadline
  arrivals : ∀ arrival ∈ arrivals, arrival.instant ≤ deadline

theorem HostSends.append {first second : List Frame}
    {actions more : List ServingAction} (h : HostSends first actions)
    (hmore : HostSends second more) :
    HostSends (first ++ second) (actions ++ more) := by
  refine ⟨?_, ?_⟩
  · intro action haction
    rcases List.mem_append.mp haction with hold | hnew
    · exact h.patient action hold
    · exact hmore.patient action hnew
  · rw [List.flatMap_append, h.frames, hmore.frames, List.map_append]

theorem rested_new (device : EmulatedDevice) (plan : FaultPlan)
    (capacity size : Nat) :
    Rested device plan capacity size [] (Serving.new device capacity plan) :=
  ⟨by simp, ⟨[], ⟨by simp, rfl⟩, by simp, rfl⟩,
    ⟨rfl, ⟨rfl, rfl, rfl⟩, rfl, rfl, rfl, rfl⟩⟩

section Rest

variable {device : EmulatedDevice} {plan : FaultPlan} {capacity size : Nat}
  {frames more : List Frame} {serving start final : Serving} {request : Frame}
  {received : List Received}

/-- The host has read the answers to all its requests, in pieces of some size. -/
theorem Rested.pieces (hstatus : device.additionalStatus.length ≤ 251)
    (hplan : plan.Faultless)
    (h : Rested device plan capacity size frames serving) :
    (∀ piece ∈ (serving.link.pipe .left).pieces,
        piece ≠ [] ∧ piece.length ≤ size) ∧
      (serving.link.pipe .left).pieces.flatten =
        ((frames.filter device.addressed).map fun frame =>
          (device.respond frame).encoding).flatten := by
  obtain ⟨actions, hhost, hreads, hrun⟩ := h.run
  have hnew : (Serving.new device capacity plan).Answering device plan :=
    Serving.answering_new capacity
  have hanswering : serving.Answering device plan :=
    runSteps_invariant (fun hstep hserving => hserving.step hstep) hrun hnew
  have hsize := Serving.pieces_le_of_run hrun hreads (by
    intro piece hpiece
    exact absurd hpiece List.not_mem_nil)
  have hnonempty := (hanswering.balanced.sound .left).nonempty
  exact ⟨fun piece hpiece => ⟨hnonempty piece hpiece, hsize piece hpiece⟩,
    Serving.pieces_of_frames hstatus hplan h.encodable hhost hrun h.quiet⟩

theorem Rested.visits
    (hmore : ∀ frame ∈ more, frame.Encodable ∧ 2 ≤ frame.preambles)
    (h : Rested device plan capacity size frames start)
    (hvisits : Visits more size received start final) :
    Rested device plan capacity size (frames ++ more) final := by
  obtain ⟨before, hbefore, hreads, hstart⟩ := h.run
  obtain ⟨actions, hhost, hlater, hfinal⟩ := hvisits.run
  refine ⟨?_, ⟨before ++ actions, hbefore.append hhost, ?_,
    runSteps_append _ hstart hfinal⟩, hvisits.quiet⟩
  · intro frame hframe
    rcases List.mem_append.mp hframe with hold | hnew
    · exact h.encodable frame hold
    · exact hmore frame hnew
  · intro count hcount
    rcases List.mem_append.mp hcount with hold | hnew
    · exact hreads count hold
    · exact hlater count hnew

def EmulatedDevice.responses (device : EmulatedDevice)
    (requests : List Frame) : List Frame :=
  (requests.filter device.addressed).map device.respond

theorem Rested.receives (hstatus : device.additionalStatus.length ≤ 251)
    (hplan : plan.Faultless)
    (hmore : ∀ frame ∈ more, frame.Encodable ∧ 2 ≤ frame.preambles)
    (h : Rested device plan capacity size frames start)
    (hvisits : Visits more size received start final) :
    ∃ pieces : List Bytes, received = pieces.map Received.read ∧
      (∀ piece ∈ pieces, piece ≠ [] ∧ piece.length ≤ size) ∧
      pieces.flatten = ((device.responses more).map Frame.encoding).flatten := by
  obtain ⟨-, hbefore⟩ := h.pieces hstatus hplan
  obtain ⟨hfit, hafter⟩ := (h.visits hmore hvisits).pieces hstatus hplan
  obtain ⟨earlier, pieces, hpieces, hearlier, hnew⟩ :=
    List.map_eq_append_iff.mp hvisits.received
  have hinjective : Function.Injective Received.read :=
    fun _ _ heq => Received.read.inj heq
  have hold := List.map_injective_iff.mpr hinjective hearlier
  subst hold
  refine ⟨pieces, hnew.symm, ?_, ?_⟩
  · intro piece hpiece
    exact hfit piece (hpieces ▸ List.mem_append_right _ hpiece)
  · rw [hpieces, List.flatten_append, hbefore, List.filter_append,
      List.map_append, List.flatten_append, List.append_cancel_left_eq]
      at hafter
    rw [hafter, EmulatedDevice.responses, List.map_map]
    rfl

/-- A host that sends nothing receives nothing. -/
theorem Rested.idle (hstatus : device.additionalStatus.length ≤ 251)
    (hplan : plan.Faultless)
    (h : Rested device plan capacity size frames start)
    (hvisits : Visits [] size received start final) :
    received = [] ∧ Rested device plan capacity size frames final := by
  obtain ⟨pieces, rfl, hfit, hpieces⟩ :=
    h.receives hstatus hplan (by simp) hvisits
  have hafter := h.visits (by simp) hvisits
  rw [List.append_nil] at hafter
  refine ⟨?_, hafter⟩
  have hnone : pieces = [] := by
    refine List.eq_nil_iff_forall_not_mem.mpr fun piece hpiece => ?_
    exact (hfit piece hpiece).1
      (List.flatten_eq_nil_iff.mp hpieces piece hpiece)
  rw [hnone, List.map_nil]

end Rest

/-! ## The attempt of the host -/

theorem reads_of_arrivals {deadline readBufferSize : Nat}
    {arrivals : List Arrival} {pieces : List Bytes}
    (hreceived : arrivals.map Arrival.received = pieces.map Received.read)
    (htime : ∀ arrival ∈ arrivals, arrival.instant ≤ deadline)
    (hnonempty : ∀ piece ∈ pieces, piece ≠ [])
    (hsize : ∀ piece ∈ pieces, piece.length ≤ readBufferSize) :
    LinkPort.reads deadline readBufferSize arrivals = pieces := by
  induction arrivals generalizing pieces with
  | nil =>
      rw [List.map_nil, eq_comm, List.map_eq_nil_iff] at hreceived
      rw [hreceived]
      rfl
  | cons arrival arrivals ih =>
      obtain ⟨instant, received⟩ := arrival
      cases pieces with
      | nil => simp at hreceived
      | cons piece pieces =>
          simp only [List.map_cons, List.cons.injEq] at hreceived
          obtain ⟨rfl, hrest⟩ := hreceived
          have hinstant : ¬ deadline < instant :=
            Nat.not_lt.mpr (htime _ List.mem_cons_self)
          have hempty : ¬ piece.length = 0 := by
            rw [List.length_eq_zero_iff]
            exact hnonempty piece List.mem_cons_self
          have hfits : ¬ piece.length > readBufferSize :=
            Nat.not_lt.mpr (hsize piece List.mem_cons_self)
          rw [LinkPort.reads, if_neg (by tauto), ih hrest]
          · exact fun other hother => htime other (List.mem_cons_of_mem _ hother)
          · exact fun other hother =>
              hnonempty other (List.mem_cons_of_mem _ hother)
          · exact fun other hother => hsize other (List.mem_cons_of_mem _ hother)

theorem readError_of_arrivals {deadline readBufferSize : Nat}
    {arrivals : List Arrival} {pieces : List Bytes}
    (hreceived : arrivals.map Arrival.received = pieces.map Received.read)
    (htime : ∀ arrival ∈ arrivals, arrival.instant ≤ deadline)
    (hfit : ∀ piece ∈ pieces, piece ≠ [] ∧ piece.length ≤ readBufferSize) :
    LinkPort.readError deadline readBufferSize arrivals =
      .responseTimeout := by
  induction arrivals generalizing pieces with
  | nil => rfl
  | cons arrival arrivals ih =>
      obtain ⟨instant, received⟩ := arrival
      cases pieces with
      | nil => simp at hreceived
      | cons piece pieces =>
          simp only [List.map_cons, List.cons.injEq] at hreceived
          obtain ⟨rfl, hrest⟩ := hreceived
          obtain ⟨hnonempty, hlength⟩ := hfit piece List.mem_cons_self
          have hinstant : ¬ deadline < instant :=
            Nat.not_lt.mpr (htime _ List.mem_cons_self)
          have hempty : ¬ piece.length = 0 := by
            rw [List.length_eq_zero_iff]
            exact hnonempty
          have hsize : ¬ piece.length > readBufferSize :=
            Nat.not_lt.mpr hlength
          rw [LinkPort.readError, if_neg hinstant, if_neg hempty,
            if_neg hsize]
          exact ih hrest
            (fun other hother => htime other (List.mem_cons_of_mem _ hother))
            fun other hother => hfit other (List.mem_cons_of_mem _ hother)

/-- An attempt that ends in time leaves the channel usable. -/
theorem channelUsable_exchangeOnce {port : LinkPort} {id : UInt64}
    {request : Frame} {encoded : Bytes} {deadline : Nat} {sent : Sent}
    {arrivals : List Arrival}
    (h : ∀ error, (port.exchangeOnce id request encoded deadline sent
      arrivals).2 = .error error → error = .responseTimeout) :
    (port.exchangeOnce id request encoded deadline sent
      arrivals).1.channelUsable = port.channelUsable := by
  obtain ⟨hends, hbroken⟩ :=
    port.ends_exchangeOnce id request encoded deadline sent arrivals
  cases hends with
  | intact all usable => exact usable
  | broken before call eq all broken unusable =>
      obtain ⟨error, herror, hother⟩ :=
        hbroken ⟨call, by simp [eq], broken⟩
      exact absurd (h error herror) hother

/-- The port after these calls of `send`, ready for the next ones. -/
structure Ready (port next : LinkPort) (transmissions : List Bytes) :
    Prop where
  decoder : Roomy next.decoder next.readBufferSize
  readBufferSize : next.readBufferSize = port.readBufferSize
  channelUsable : next.channelUsable = port.channelUsable
  sent : next.sent = port.sent ++ transmissions

theorem Ready.trans {first second third : LinkPort} {early late : List Bytes}
    (h : Ready first second early) (h' : Ready second third late) :
    Ready first third (early ++ late) :=
  ⟨h'.decoder, h'.readBufferSize.trans h.readBufferSize,
    h'.channelUsable.trans h.channelUsable,
    by rw [h'.sent, h.sent, List.append_assoc]⟩

theorem Ready.of_sameChannel {port next after : LinkPort}
    {transmissions : List Bytes} (h : Ready port next transmissions)
    (hsame : next.SameChannel after) : Ready port after transmissions :=
  ⟨by rw [hsame.decoder, hsame.readBufferSize]; exact h.decoder,
    hsame.readBufferSize.trans h.readBufferSize,
    hsame.channelUsable.trans h.channelUsable, hsame.sent.trans h.sent⟩

def EmulatedDevice.attempted (device : EmulatedDevice) (request : Frame) :
    Except ExchangeError DeviceReply :=
  (device.replyTo request).elim (.error .responseTimeout) .ok

theorem EmulatedDevice.responses_singleton (device : EmulatedDevice)
    (request : Frame) :
    device.responses [request] =
      if device.addressed request then [device.respond request] else [] := by
  cases haddressed : device.addressed request <;>
    simp [responses, haddressed]

theorem EmulatedDevice.findSome_responses (device : EmulatedDevice)
    (request : Frame) :
    ((device.responses [request]).map DecodeEvent.frame).findSome?
        (LinkPort.answerOf request) = device.replyTo request := by
  rw [responses_singleton, replyTo]
  split_ifs
  · rw [List.map_singleton, List.findSome?_singleton]
  · rfl

theorem Carried.attempt {device : EmulatedDevice} {plan : FaultPlan}
    {capacity : Nat} {frames : List Frame} {start final : Serving}
    {request : Frame} {deadline : Nat} {sent : Sent}
    {arrivals : List Arrival} {port : LinkPort}
    (hstatus : device.additionalStatus.length ≤ 251)
    (hplan : plan.Faultless)
    (hrequest : request.Encodable ∧ 2 ≤ request.preambles)
    (hport : Roomy port.decoder port.readBufferSize)
    (hrested : Rested device plan capacity port.readBufferSize frames start)
    (h : Carried request port.readBufferSize deadline sent arrivals start
      final) (id : UInt64) (encoded : Bytes) :
    (port.exchangeOnce id request encoded deadline sent arrivals).2 =
        device.attempted request ∧
      Ready port (port.exchangeOnce id request encoded deadline sent
        arrivals).1 [encoded] := by
  obtain ⟨pieces, hreceived, hfit, hpieces⟩ :=
    hrested.receives hstatus hplan (by simpa using hrequest) h.visits
  have hsize := fun piece hpiece => (hfit piece hpiece).2
  have hreads : LinkPort.reads deadline port.readBufferSize arrivals =
      pieces :=
    reads_of_arrivals hreceived h.arrivals
      (fun piece hpiece => (hfit piece hpiece).1) hsize
  have hresponse : (device.respond request).Encodable ∧
      2 ≤ (device.respond request).preambles :=
    ⟨device.encodable_respond hstatus hrequest.1,
      device.preambles_respond request⟩
  have hresponses : ∀ frame ∈ device.responses [request],
      frame.Encodable ∧ 2 ≤ frame.preambles := by
    intro frame hframe
    rw [device.responses_singleton] at hframe
    split_ifs at hframe
    · rw [List.mem_singleton.mp hframe]
      exact hresponse
    · contradiction
  obtain ⟨hevents, hready⟩ := hport.pushAll hsize hresponses hpieces
  have hlater : ¬ deadline < sent.instant := Nat.not_lt.mpr h.sent.2
  have hdecoder := @LinkPort.awaitReply_decoder id request deadline
    { port with sent := port.sent ++ [encoded] } arrivals (by
      intro before after hafter hcut
      dsimp only at hcut ⊢
      rw [hreads] at hcut
      -- The response is not complete before its last piece.
      have hmore : after.flatten ≠ [] := by
        intro hempty
        obtain ⟨piece, rest, rfl⟩ := List.exists_cons_of_ne_nil hafter
        have hpiece := (hfit piece (by simp [← hcut])).1
        rw [List.flatten_cons, List.append_eq_nil_iff] at hempty
        exact hpiece hempty.1
      rw [← hcut, List.flatten_append, device.responses_singleton] at hpieces
      split_ifs at hpieces
      · rw [hport.pushAll_short
          (fun piece hpiece => hsize piece (by simp [← hcut, hpiece]))
          hresponse hmore (by simpa using hpieces)]
        rfl
      · exact absurd (List.append_eq_nil_iff.mp hpieces).2 hmore)
  have hresult : (port.exchangeOnce id request encoded deadline sent
      arrivals).2 = device.attempted request := by
    simp only [LinkPort.exchangeOnce, hlater, if_false, h.sent.1]
    rw [LinkPort.awaitReply_eq]
    dsimp only
    rw [hreads, hevents, device.findSome_responses,
      readError_of_arrivals hreceived h.arrivals hfit]
    rfl
  refine ⟨hresult, ?_, ?_, ?_, port.sent_exchangeOnce ..⟩
  · simp only [LinkPort.exchangeOnce, hlater, if_false, h.sent.1]
    rw [hdecoder.1, hdecoder.2]
    dsimp only
    rw [hreads]
    exact hready
  · simp only [LinkPort.exchangeOnce, hlater, if_false, h.sent.1]
    exact hdecoder.2
  · refine channelUsable_exchangeOnce ?_
    intro error herror
    rw [hresult, EmulatedDevice.attempted] at herror
    cases hreply : device.replyTo request with
    | none =>
        rw [hreply] at herror
        injection herror with herror
        exact herror.symm
    | some reply =>
        rw [hreply] at herror
        contradiction

/-! ## The exchange -/

/-- The request makes a frame that the device can decode. -/
structure Sendable (request : Request) : Prop where
  valid : request.validate = .ok ()
  encodable : request.frame.Encodable ∧ 2 ≤ request.frame.preambles

/--
The attempts of the exchange are carried to the device and back, each from where
the one before it has left the device.
-/
def Conveyed (horizon now : Nat) (job : Job) (surroundings : Nat → Attempt)
    (port : LinkPort) (start final : Serving) : Prop :=
  ∃ servings : Nat → Serving, servings 0 = start ∧
    servings (exchange horizon now job surroundings
      port).transmissions.length = final ∧
    ∀ turn < (exchange horizon now job surroundings
        port).transmissions.length,
      Carried job.request.frame port.readBufferSize
        (exchangeDeadline horizon (surroundings turn).startedAt job)
        (surroundings turn).sent (surroundings turn).arrivals
        (servings turn) (servings (turn + 1))

/-- An exchange with the device ends like an attempt, or at its deadline. -/
def EmulatedDevice.Exchanged (device : EmulatedDevice) (request : Frame)
    (result : Except ExchangeError DeviceReply) : Prop :=
  result = .error .deadline ∨ result = device.attempted request

theorem sameChannel_turn (horizon : Nat) (job : Job) (attempt : Attempt)
    (retries : Retries) (outcome : Except ExchangeError DeviceReply)
    (port : LinkPort) :
    port.SameChannel (turn horizon job attempt retries outcome port).1 := by
  unfold turn
  split
  · exact .refl port
  dsimp only
  split
  · exact LinkPort.sameChannel_emit port _
  split_ifs <;> exact LinkPort.sameChannel_emit port _

theorem turn_over_attempted {device : EmulatedDevice} {request : Frame}
    {horizon : Nat} {job : Job} {attempt : Attempt} {retries : Retries}
    {port after : LinkPort} {result : Except ExchangeError DeviceReply}
    (h : turn horizon job attempt retries (device.attempted request) port =
      (after, .over result)) : device.Exchanged request result := by
  cases hreply : device.replyTo request with
  | some reply =>
      have hattempted : device.attempted request = .ok reply := by
        rw [EmulatedDevice.attempted, hreply]
        rfl
      obtain ⟨hbusy, hdelayed, hpending⟩ := responseCode_of_replyTo hreply
      have hjudged : judgeAttempt job retries (.ok reply) =
          .finish (.ok reply) := by
        simp [judgeAttempt, hbusy, hdelayed, hpending]
      rw [hattempted, turn, hjudged] at h
      simp only [Prod.mk.injEq, Turn.over.injEq] at h
      exact .inr (h.2.symm.trans hattempted.symm)
  | none =>
      have hattempted : device.attempted request =
          .error .responseTimeout := by
        rw [EmulatedDevice.attempted, hreply]
        rfl
      rw [hattempted, turn] at h
      split at h
      next verdict hjudged =>
        simp only [Prod.mk.injEq, Turn.over.injEq] at h
        simp only [judgeAttempt] at hjudged
        split_ifs at hjudged
        injection hjudged with hjudged
        exact .inr (h.2.symm.trans (hjudged.symm.trans hattempted.symm))
      next cause more paused hjudged =>
        simp only [judgeAttempt] at hjudged
        split_ifs at hjudged
        injection hjudged with hcause hmore hpaused
        rw [← hpaused] at h
        dsimp only at h
        rw [if_neg Bool.false_ne_true] at h
        dsimp only at h
        split_ifs at h
        · simp only [Prod.mk.injEq, Turn.over.injEq] at h
          exact .inl h.2.symm
        · simp at h

section Exchanges

variable {device : EmulatedDevice} {plan : FaultPlan} {capacity : Nat}
  {frames : List Frame} {horizon now : Nat} {job : Job}
  {surroundings : Nat → Attempt} {port : LinkPort} {start final : Serving}

/-- The loop from one attempt on, by the number of attempts that are left. -/
theorem exchangeLoop_carried (hstatus : device.additionalStatus.length ≤ 251)
    (hplan : plan.Faultless) {request : Frame}
    (hrequest : request.Encodable ∧ 2 ≤ request.preambles) (encoded : Bytes)
    (bound index checkedAt : Nat) (retries : Retries)
    (hport : Roomy port.decoder port.readBufferSize)
    {servings : Nat → Serving}
    (hrested : Rested device plan capacity port.readBufferSize frames
      (servings 0))
    (h : ∀ turn < (exchangeLoop horizon job request encoded surroundings bound
        index checkedAt retries port).transmissions.length,
      Carried request port.readBufferSize
        (exchangeDeadline horizon (surroundings (index + turn)).startedAt job)
        (surroundings (index + turn)).sent
        (surroundings (index + turn)).arrivals
        (servings turn) (servings (turn + 1))) :
    let run := exchangeLoop horizon job request encoded surroundings bound
      index checkedAt retries port
    device.Exchanged request run.result ∧
      Ready port run.port
        (List.replicate run.transmissions.length encoded) ∧
      Rested device plan capacity port.readBufferSize
        (frames ++ List.replicate run.transmissions.length request)
        (servings run.transmissions.length) := by
  induction bound generalizing index checkedAt retries port servings frames with
  | zero =>
      refine ⟨.inl rfl, ⟨hport, rfl, rfl, ?_⟩, ?_⟩
      · exact (List.append_nil _).symm
      · change Rested device plan capacity port.readBufferSize (frames ++ [])
          (servings 0)
        rw [List.append_nil]
        exact hrested
  | succ bound ih =>
      dsimp only
      rw [exchangeLoop] at h ⊢
      generalize hended : port.exchangeOnce job.id request encoded _ _ _ =
        ended at h ⊢
      obtain ⟨after, outcome⟩ := ended
      dsimp only at h ⊢
      have hsame := sameChannel_turn horizon job (surroundings index) retries
        outcome after
      generalize hturn : turn horizon job (surroundings index) retries outcome
        after = turned at h hsame ⊢
      obtain ⟨next, verdict⟩ := turned
      have hfirst : Carried request port.readBufferSize
          (exchangeDeadline horizon (surroundings index).startedAt job)
          (surroundings index).sent (surroundings index).arrivals
          (servings 0) (servings 1) := by
        refine h 0 ?_
        rcases verdict with result | more
        · exact Nat.one_pos
        · exact Nat.succ_pos _
      obtain ⟨houtcome, hready⟩ := hfirst.attempt hstatus hplan hrequest hport
        hrested job.id encoded
      rw [hended] at houtcome hready
      dsimp only at houtcome hready
      subst houtcome
      have hready := hready.of_sameChannel hsame
      have hafter := hrested.visits (by simpa using hrequest) hfirst.visits
      rcases verdict with result | more
      · exact ⟨turn_over_attempted hturn, hready, hafter⟩
      · dsimp only at h ⊢
        rw [← hready.readBufferSize] at hafter
        obtain ⟨hresult, hrest, hfinal⟩ := @ih (frames ++ [request]) next
          (index + 1) (surroundings index).checkedAt more hready.decoder
          (fun turn => servings (turn + 1)) hafter (by
            intro turn hlater
            have hcarried := h (turn + 1) (Nat.succ_lt_succ hlater)
            rw [hready.readBufferSize, Nat.add_right_comm, Nat.add_assoc]
            exact hcarried)
        refine ⟨hresult, hready.trans hrest, ?_⟩
        rw [hready.readBufferSize, List.append_assoc] at hfinal
        exact hfinal

/--
An exchange with the device ends with the response of the device, in a timeout or
at the deadline, and leaves both sides ready for the next one.
-/
theorem Conveyed.exchanged (hstatus : device.additionalStatus.length ≤ 251)
    (hplan : plan.Faultless) (hrequest : Sendable job.request)
    (htransmit : job.transmitPrefix = [])
    (hport : Roomy port.decoder port.readBufferSize)
    (hrested : Rested device plan capacity port.readBufferSize frames start)
    (h : Conveyed horizon now job surroundings port start final) :
    let run := exchange horizon now job surroundings port
    device.Exchanged job.request.frame run.result ∧
      Ready port run.port
        (List.replicate run.transmissions.length
          job.request.frame.encoding) ∧
      Rested device plan capacity port.readBufferSize
        (frames ++ List.replicate run.transmissions.length job.request.frame)
        final := by
  obtain ⟨servings, rfl, rfl, hcarried⟩ := h
  by_cases hnow : now < job.deadline
  · rw [exchange_of_valid hnow hrequest.valid, htransmit, List.nil_append]
      at hcarried ⊢
    exact exchangeLoop_carried hstatus hplan hrequest.encodable _ _ _ _ _
      hport hrested (by simpa using hcarried)
  · have hlate : exchange horizon now job surroundings port =
        ⟨.error .deadline, port, []⟩ := by
      rw [exchange, if_pos (Nat.le_of_not_lt hnow)]
    rw [hlate]
    refine ⟨.inl rfl, ⟨hport, rfl, rfl, ?_⟩, ?_⟩
    · exact (List.append_nil _).symm
    · change Rested device plan capacity port.readBufferSize (frames ++ [])
        (servings 0)
      rw [List.append_nil]
      exact hrested

theorem transmissions_pos (horizon : Nat) (job : Job) (request : Frame)
    (encoded : Bytes) (surroundings : Nat → Attempt)
    (bound index checkedAt : Nat) (retries : Retries) (port : LinkPort) :
    0 < (exchangeLoop horizon job request encoded surroundings (bound + 1)
      index checkedAt retries port).transmissions.length := by
  rw [exchangeLoop]
  dsimp only
  split
  · exact Nat.one_pos
  · exact Nat.succ_pos _

theorem Conveyed.answered (hstatus : device.additionalStatus.length ≤ 251)
    (hplan : plan.Faultless) (hrequest : Sendable job.request)
    (htransmit : job.transmitPrefix = []) (hnow : now < job.deadline)
    (hport : Roomy port.decoder port.readBufferSize)
    (hrested : Rested device plan capacity port.readBufferSize frames start)
    (h : Conveyed horizon now job surroundings port start final)
    {reply : DeviceReply}
    (hreply : device.replyTo job.request.frame = some reply) :
    ∃ after, exchange horizon now job surroundings port =
        ⟨.ok reply, after, [⟨now, .ok reply⟩]⟩ ∧
      Ready port after [job.request.frame.encoding] ∧
      Rested device plan capacity port.readBufferSize
        (frames ++ [job.request.frame]) final := by
  have hall := h.exchanged hstatus hplan hrequest htransmit hport hrested
  obtain ⟨servings, rfl, -, hcarried⟩ := h
  rw [exchange_of_valid hnow hrequest.valid] at hcarried hall ⊢
  have hfirst := hcarried 0 (transmissions_pos ..)
  obtain ⟨houtcome, -⟩ := hfirst.attempt hstatus hplan hrequest.encodable
    hport hrested job.id (job.transmitPrefix ++ job.request.frame.encoding)
  rw [EmulatedDevice.attempted, hreply] at houtcome
  obtain ⟨hbusy, hdelayed, hpending⟩ := responseCode_of_replyTo hreply
  have hjudged : judgeAttempt job {} (.ok reply) = .finish (.ok reply) := by
    simp [judgeAttempt, hbusy, hdelayed, hpending]
  have hloop : ∃ after, exchangeLoop horizon job job.request.frame
      (job.transmitPrefix ++ job.request.frame.encoding) surroundings
      maximumAttempts 0 now {} port =
        ⟨.ok reply, after, [⟨now, .ok reply⟩]⟩ := by
    rw [maximumAttempts, Nat.add_comm, exchangeLoop]
    generalize port.exchangeOnce job.id _ _ _ _ _ = ended at houtcome ⊢
    obtain ⟨after, outcome⟩ := ended
    dsimp only at houtcome
    subst houtcome
    simp only [Option.elim_some, turn, hjudged]
    exact ⟨after, rfl⟩
  obtain ⟨after, hloop⟩ := hloop
  rw [hloop] at hall ⊢
  exact ⟨after, rfl, hall.2⟩

end Exchanges

/-! ## Typed requests -/

structure Framed {Output : Type} (operation : DeviceOperation Output)
    (address : Address) (request : Request) : Prop where
  sendable : Sendable request
  address : request.frame.address = address
  wireCommand : request.frame.wireCommand ≠ 31
  logical : logicalCommand request.frame = operation.command

theorem framed_of_plain {Output : Type} {operation : DeviceOperation Output}
    {address : Address} {request : Request}
    (h : Plain operation address request) (haddress : address.Accepted)
    {preambles : UInt8} (hpreambles : 2 ≤ preambles) :
    Framed operation address { request with preambles } := by
  obtain ⟨hpayload, hexpansion⟩ := (Request.validate_ok_iff request).mp h.valid
  rw [← Request.length_payload] at hpayload
  have haddr : request.frame.address = address := by
    rw [h.request_eq]
    rfl
  exact ⟨⟨h.valid, ⟨haddr ▸ haddress, hexpansion, hpayload, rfl⟩, hpreambles⟩,
    haddr, h.wireCommand, h.logical⟩

theorem framed_of_request {Output : Type} {operation : DeviceOperation Output}
    {meaning : Meaning Output} (h : Typed operation meaning)
    {address : Address} (haddress : address.Accepted) {request : Request}
    (hrequest : operation.request address = .ok request) :
    Framed operation address request := by
  have hplain := h.registered.plain hrequest
  have hpreambles : (2 : UInt8) ≤ request.preambles := by
    have hfive : (2 : UInt8) ≤ 5 := by decide
    rw [hplain.request_eq]
    exact hfive
  exact framed_of_plain hplain haddress hpreambles

section Framed

variable {device : EmulatedDevice} {Output : Type}
  {operation : DeviceOperation Output} {address : Address}
  {request : Request}

theorem Framed.addressed (h : Framed operation address request) :
    device.addressed request.frame = device.acceptsAddress address := by
  rw [EmulatedDevice.addressed, h.address]
  rfl

theorem Framed.replyTo (hidentity : device.identity.Encodable)
    (haccepts : device.acceptsAddress address = true)
    (h : Framed operation address request) :
    ∃ reply, device.replyTo request.frame = some reply ∧
      ∀ outcome, Served device operation outcome →
        operation.decodeReply reply = outcome := by
  obtain ⟨reply, hreply, hcommand, hcode, hdevice, hdata⟩ :=
    replyTo_eq (h.addressed.trans haccepts)
      fun hwire => absurd hwire h.wireCommand
  rw [h.logical] at hcommand hcode hdata
  exact ⟨reply, hreply, fun _ houtcome =>
    houtcome.decodeReply hidentity hcommand hcode hdevice hdata⟩

theorem Framed.silent (hrejects : device.acceptsAddress address = false)
    (h : Framed operation address request) :
    device.replyTo request.frame = none := by
  rw [EmulatedDevice.replyTo, h.addressed, hrejects]
  rfl

end Framed

/--
A typed operation on an emulated device at rest, through a channel without faults
and in whatever fragments: the exchange ends with one transmission, which is the
encoding of the request, and the operation decodes the reply to the fields of the
device, or to the status of an unknown command.  Decoder and device are ready for
the next exchange.
-/
theorem typed_operation_served {device : EmulatedDevice} {plan : FaultPlan}
    {capacity : Nat} {Output : Type} {operation : DeviceOperation Output}
    {meaning : Meaning Output} {address : Address} {frames : List Frame}
    {horizon now : Nat} {job : Job} {surroundings : Nat → Attempt}
    {port : LinkPort} {start final : Serving}
    (hidentity : device.identity.Encodable)
    (hstatus : device.additionalStatus.length ≤ 251)
    (hplan : plan.Faultless) (htyped : Typed operation meaning)
    (haddress : address.Accepted)
    (haccepts : device.acceptsAddress address = true)
    (hrequest : operation.request address = .ok job.request)
    (htransmit : job.transmitPrefix = []) (hnow : now < job.deadline)
    (hport : Roomy port.decoder port.readBufferSize)
    (hrested : Rested device plan capacity port.readBufferSize frames start)
    (h : Conveyed horizon now job surroundings port start final) :
    ∃ reply outcome after, exchange horizon now job surroundings port =
        ⟨.ok reply, after, [⟨now, .ok reply⟩]⟩ ∧
      Ready port after [job.request.frame.encoding] ∧
      Rested device plan capacity port.readBufferSize
        (frames ++ [job.request.frame]) final ∧
      Served device operation outcome ∧
      operation.decodeReply reply = outcome := by
  obtain ⟨outcome, houtcome⟩ := exists_served device htyped
  have hframed := framed_of_request htyped haddress hrequest
  obtain ⟨reply, hreply, hdecode⟩ := hframed.replyTo hidentity haccepts
  obtain ⟨after, hexchange, hready, hafter⟩ := h.answered hstatus hplan
    hframed.sendable htransmit hnow hport hrested hreply
  exact ⟨reply, outcome, after, hexchange, hready, hafter, houtcome,
    hdecode outcome houtcome⟩

/-! ## Reading the primary variable -/

def primaryJob : Job where
  id := 1
  request :=
    { Request.new (.Polling 0 .primary) ⟨1⟩ [] with
      retrySafety := some .readOnly }
  transmitPrefix := []
  policy := .default
  deadline := 10
  reply := none

def primaryAttempt : Attempt where
  startedAt := 1
  sent := { instant := 2, error := none }
  arrivals := polledPieces.map fun piece => ⟨3, .read piece⟩
  pausedAt := 4
  checkedAt := 4

def primaryPort : LinkPort where
  decoder := .new defaultLimits
  readBufferSize := receiveBuffer
  burstHub := false

theorem conveyed_of_first {horizon now : Nat} {job : Job}
    {surroundings : Nat → Attempt} {port : LinkPort} {start final : Serving}
    (hone : (exchange horizon now job surroundings
      port).transmissions.length = 1)
    (h : Carried job.request.frame port.readBufferSize
      (exchangeDeadline horizon (surroundings 0).startedAt job)
      (surroundings 0).sent (surroundings 0).arrivals start final) :
    Conveyed horizon now job surroundings port start final := by
  refine ⟨fun turn => if turn = 0 then start else final, rfl, ?_, ?_⟩
  · rw [hone]
    rfl
  · intro turn hturn
    rw [hone, Nat.lt_one_iff] at hturn
    subst hturn
    exact h

theorem conveyed_primaryAttempt :
    ∃ final, Conveyed 100 0 primaryJob (fun _ => primaryAttempt) primaryPort
      (Serving.new (transmitter 0x06 7) 8 { fragmentSize := some 4 })
      final := by
  obtain ⟨final, hrun, hquiet, hpieces⟩ := polledRun_quiet
  refine ⟨final, conveyed_of_first (by decide +kernel) ⟨⟨⟨polledActions,
    hostSends_polledActions, fun _ => reads_polledActions, hrun⟩, hquiet, ?_⟩,
    by decide, by decide⟩⟩
  rw [hpieces]
  rfl

theorem typed_operation_served_primaryJob :
    ∃ final reply outcome after,
      exchange 100 0 primaryJob (fun _ => primaryAttempt) primaryPort =
        ⟨.ok reply, after, [⟨0, .ok reply⟩]⟩ ∧
      Ready primaryPort after [primaryJob.request.frame.encoding] ∧
      Rested (transmitter 0x06 7) { fragmentSize := some 4 } 8 receiveBuffer
        ([] ++ [primaryJob.request.frame]) final ∧
      Served (transmitter 0x06 7) readPrimaryValue outcome ∧
      readPrimaryValue.decodeReply reply = outcome := by
  obtain ⟨final, hconveyed⟩ := conveyed_primaryAttempt
  have hstatus : (transmitter 0x06 7).additionalStatus.length ≤ 251 :=
    Nat.zero_le 251
  have hplan : ({ fragmentSize := some 4 } : FaultPlan).Faultless :=
    ⟨rfl, rfl, rfl, rfl⟩
  have haddress : (Address.Polling 0 .primary).Accepted :=
    (Address.accepted_polling_iff 0 .primary).mpr (by decide)
  exact ⟨final, typed_operation_served (transmitter_encodable 0x06 7) hstatus
    hplan Typed.readPrimaryValue haddress rfl rfl rfl (by decide)
    roomy_default (rested_new _ _ _ _) hconveyed⟩

end HartLink.Emulator
