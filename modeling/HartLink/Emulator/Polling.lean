import HartLink.Emulator.Serving
import HartLink.Service.Attempt

/-!
# Polling an emulated device

A host that sends frames through a memory channel without faults and reads what
comes back reads the responses of the device to the requests for it, in order,
whatever the fragments and the order of the steps.
-/

namespace HartLink.Emulator

open HartLink.Foundation
open HartLink.Wire
open HartLink.Operation
open HartLink.Service

/-! ## Transmissions without faults -/

namespace FaultPlan

/-- Fragments of any size, and nothing worse. -/
structure Faultless (plan : FaultPlan) : Prop where
  dropNext : plan.dropNext = false
  echo : plan.echo = false
  corruptNext : plan.corruptNext = false
  noisePrefix : plan.noisePrefix = []

theorem flatten_chunksLoop {size : Nat} (hsize : 0 < size) {bound : Nat}
    {bytes : Bytes} (h : bytes.length ≤ bound) :
    (chunksLoop size bound bytes).flatten = bytes := by
  induction bound generalizing bytes with
  | zero =>
      rw [List.length_eq_zero_iff.mp (Nat.le_zero.mp h)]
      rfl
  | succ bound ih =>
      rw [chunksLoop]
      split_ifs with hempty
      · rw [List.length_eq_zero_iff.mp hempty]
        rfl
      · rw [List.flatten_cons, ih, List.take_append_drop]
        rw [List.length_drop]
        omega

theorem Faultless.sends {plan : FaultPlan} (h : plan.Faultless)
    (bytes : Bytes) :
    ∃ fragments : List Bytes, fragments.flatten = bytes ∧
      plan.sends bytes = fragments.map (Lane.outgoing, ·) := by
  refine ⟨chunks (max (plan.fragmentSize.getD (max bytes.length 1)) 1) bytes,
    flatten_chunksLoop (by omega) (le_refl _), ?_⟩
  simp [FaultPlan.sends, h.dropNext, h.echo, h.corruptNext, h.noisePrefix]

theorem Faultless.afterSend {plan : FaultPlan} (h : plan.Faultless) :
    plan.afterSend.Faultless :=
  ⟨rfl, h.echo, rfl, rfl⟩

theorem Faultless.allSends {plan : FaultPlan} (h : plan.Faultless)
    (transmissions : List Bytes) :
    ∃ fragments : List Bytes, fragments.flatten = transmissions.flatten ∧
      plan.allSends transmissions = fragments.map (Lane.outgoing, ·) := by
  induction transmissions generalizing plan with
  | nil => exact ⟨[], rfl, rfl⟩
  | cons bytes transmissions ih =>
      obtain ⟨first, hfirst, hsends⟩ := h.sends bytes
      obtain ⟨later, hlater, hrest⟩ := ih h.afterSend
      refine ⟨first ++ later, ?_, ?_⟩
      · rw [List.flatten_append, hfirst, hlater, List.flatten_cons]
      · rw [FaultPlan.allSends, hsends, hrest, List.map_append]

end FaultPlan

/-! ## The host -/

namespace MemoryLink

/-- An endpoint that has made these transmissions, up to what is pending. -/
structure Transmitting (link : MemoryLink) (side : Side) (plan : FaultPlan)
    (transmissions : List Bytes) : Prop where
  sent : (link.endpoint side).sent ++ (link.endpoint side).pending =
    plan.allSends transmissions
  faults : (link.endpoint side).faults = plan.afterSends transmissions
  alive : (link.endpoint side).alive = true

/-- The calls of an owner that keeps its plan and waits for every call. -/
def Call.patient : Call → Bool
  | .send bytes => bytes.length ≤ maximumEmulatorTransmissionBytes
  | .advance | .pull | .read _ => true
  | .setFaults _ | .trySetFaults _ | .abandon | .drop => false

def Call.transmission : Call → List Bytes
  | .send bytes => [bytes]
  | .advance | .pull | .read _ | .setFaults _ | .trySetFaults _ | .abandon
  | .drop => []

theorem Transmitting.of_endpoint {link next : MemoryLink} {side : Side}
    {plan : FaultPlan} {transmissions : List Bytes}
    (h : link.Transmitting side plan transmissions)
    (hendpoint : next.endpoint side = link.endpoint side) :
    next.Transmitting side plan transmissions :=
  ⟨hendpoint ▸ h.sent, hendpoint ▸ h.faults, hendpoint ▸ h.alive⟩

theorem Transmitting.step {link next : MemoryLink} {side : Side}
    {plan : FaultPlan} {transmissions : List Bytes} {call : Call}
    (h : link.Transmitting side plan transmissions)
    (hstep : link.step side call = some next) (hpatient : call.patient = true)
    (hother : (link.endpoint side.other).alive = true) :
    next.Transmitting side plan (transmissions ++ call.transmission) := by
  cases call with
  | send bytes =>
      rw [MemoryLink.step] at hstep
      split_ifs at hstep with hidle
      injection hstep with hstep
      have hlength : ¬ bytes.length > maximumEmulatorTransmissionBytes :=
        Nat.not_lt.mpr (of_decide_eq_true hpatient)
      rw [MemoryLink.send, if_neg hlength] at hstep
      rw [MemoryLink.idle, Bool.and_eq_true, List.isEmpty_iff] at hidle
      have hsent := h.sent
      rw [hidle.2, List.append_nil] at hsent
      have hendpoint : next.endpoint side =
          { link.endpoint side with
            faults := (link.endpoint side).faults.afterSend
            pending := (link.endpoint side).faults.sends bytes } := by
        rw [← hstep, setEndpoint_endpoint, if_pos rfl]
      refine ⟨?_, ?_, ?_⟩
      · rw [hendpoint, Call.transmission, FaultPlan.allSends_concat, ← hsent,
          ← h.faults]
      · rw [hendpoint, Call.transmission, FaultPlan.afterSends_concat,
          ← h.faults]
      · rw [hendpoint]
        exact h.alive
  | advance =>
      rw [Call.transmission, List.append_nil]
      obtain ⟨lane, fragment, pending, hpending, hcases⟩ :=
        advance_cases hstep
      obtain ⟨pipe, -, -, rfl⟩ | ⟨hgone, -⟩ := hcases
      · refine ⟨?_, ?_, ?_⟩
        · rw [setEndpoint_endpoint, if_pos rfl, List.append_assoc,
            List.singleton_append, ← hpending]
          exact h.sent
        · rw [setEndpoint_endpoint, if_pos rfl]
          exact h.faults
        · rw [setEndpoint_endpoint, if_pos rfl]
          exact h.alive
      · cases lane with
        | outgoing =>
            rw [Lane.target, hother] at hgone
            contradiction
        | echo =>
            rw [Lane.target, h.alive] at hgone
            contradiction
  | pull =>
      obtain ⟨pipe, -, -, rfl⟩ := pull_cases hstep
      rw [Call.transmission, List.append_nil]
      exact h.of_endpoint rfl
  | read size =>
      obtain ⟨pipe, -, -, rfl⟩ := read_cases hstep
      rw [Call.transmission, List.append_nil]
      exact h.of_endpoint rfl
  | setFaults plan => contradiction
  | trySetFaults plan => contradiction
  | abandon => contradiction
  | drop => contradiction

end MemoryLink

namespace Serving

section Runs

variable {serving next : Serving} {action : ServingAction}

def hostTransmission : ServingAction → List Bytes
  | .host call => call.transmission
  | _ => []

def patient : ServingAction → Bool
  | .host call => call.patient
  | _ => true

/-- A task that runs after a step ran before it. -/
theorem running_of_step (h : serving.step action = some next)
    (hnext : next.result = none) : serving.result = none := by
  cases action with
  | host call =>
      rw [Serving.step, Option.map_eq_some_iff] at h
      obtain ⟨link, -, rfl⟩ := h
      exact hnext
  | pull =>
      rw [Serving.step] at h
      split_ifs at h with hreceiving
      exact (receiving_iff.mp hreceiving).1
  | read =>
      change serving.read = some next at h
      unfold Serving.read at h
      split_ifs at h with hreceiving
      exact (receiving_iff.mp hreceiving).1
  | handle =>
      change serving.handle = some next at h
      unfold Serving.handle at h
      split_ifs at h with hbusy
      rw [Bool.not_eq_true, Bool.or_eq_false_iff] at hbusy
      simpa using hbusy.1
  | advance =>
      change serving.advance = some next at h
      unfold Serving.advance at h
      split_ifs at h with hover
      simpa using hover
  | closed =>
      rw [Serving.step] at h
      split_ifs at h
      injection h with h
      rw [← h] at hnext
      contradiction

/-- A step leaves the left endpoint and what that has read alone. -/
def SameLeft (serving next : Serving) : Prop :=
  next.link.endpoint .left = serving.link.endpoint .left ∧
    (next.link.pipe .left).pieces = (serving.link.pipe .left).pieces

theorem sameLeft_finish (result : Except ChannelError Unit) :
    serving.SameLeft (serving.finish result) := by
  refine ⟨?_, rfl⟩
  rw [Serving.finish, MemoryLink.setEndpoint_endpoint, if_neg (by decide)]

theorem sameLeft_send (bytes : Bytes) (events : List DecodeEvent)
    (answered : List Bytes) :
    serving.SameLeft { serving with
      link := serving.link.send .right bytes, events, answered } := by
  unfold SameLeft
  dsimp only
  rw [MemoryLink.send]
  split_ifs
  · exact ⟨rfl, rfl⟩
  · rw [MemoryLink.setEndpoint_endpoint, if_neg (by decide)]
    exact ⟨rfl, rfl⟩

theorem sameLeft_of_task (h : serving.step action = some next)
    (htask : ∀ call, action ≠ .host call) : serving.SameLeft next := by
  cases action with
  | host call => exact absurd rfl (htask call)
  | pull =>
      rw [Serving.step] at h
      split_ifs at h
      rw [Option.map_eq_some_iff] at h
      obtain ⟨link, hlink, rfl⟩ := h
      exact MemoryLink.step_other hlink
  | read =>
      change serving.read = some next at h
      unfold Serving.read at h
      split_ifs at h
      rw [Option.map_eq_some_iff] at h
      obtain ⟨link, hlink, rfl⟩ := h
      exact MemoryLink.step_other hlink
  | handle =>
      change serving.handle = some next at h
      unfold Serving.handle at h
      split_ifs at h
      split at h
      · contradiction
      split at h
      · injection h with h
        rw [← h]
        exact ⟨rfl, rfl⟩
      split at h
      · injection h with h
        rw [← h]
        exact sameLeft_finish _
      · injection h with h
        rw [← h]
        exact sameLeft_send _ _ _
  | advance =>
      change serving.advance = some next at h
      unfold Serving.advance at h
      split_ifs at h
      split at h
      · contradiction
      split_ifs at h
      · rw [Option.map_eq_some_iff] at h
        obtain ⟨link, hlink, rfl⟩ := h
        have hstep : serving.link.step .right .advance = some link := hlink
        exact MemoryLink.step_other hstep
      · injection h with h
        rw [← h]
        exact sameLeft_finish _
  | closed =>
      rw [Serving.step] at h
      split_ifs at h
      injection h with h
      rw [← h]
      exact sameLeft_finish _

theorem running_of_run {serving final : Serving}
    {actions : List ServingAction}
    (hrun : runSteps step serving actions = some final)
    (hfinal : final.result = none) : serving.result = none := by
  induction actions generalizing serving with
  | nil =>
      injection hrun with hrun
      exact hrun ▸ hfinal
  | cons action actions ih =>
      obtain ⟨next, hnext, hrest⟩ := runSteps_cons step hrun
      exact running_of_step hnext (ih hrest)

theorem transmitting_run {device : EmulatedDevice} {plan hostPlan : FaultPlan}
    {serving final : Serving} {actions : List ServingAction}
    {transmissions : List Bytes}
    (hrun : runSteps step serving actions = some final)
    (hfinal : final.result = none) (h : serving.Answering device plan)
    (hhost : serving.link.Transmitting .left hostPlan transmissions)
    (hpatient : ∀ action ∈ actions, patient action = true) :
    final.link.Transmitting .left hostPlan
      (transmissions ++ actions.flatMap hostTransmission) := by
  induction actions generalizing serving transmissions with
  | nil =>
      injection hrun with hrun
      rw [← hrun, List.flatMap_nil, List.append_nil]
      exact hhost
  | cons action actions ih =>
      obtain ⟨next, hnext, hrest⟩ := runSteps_cons step hrun
      have hrunning := running_of_step hnext (running_of_run hrest hfinal)
      rw [List.flatMap_cons, ← List.append_assoc]
      apply ih hrest (h.step hnext)
      · cases action with
        | host call =>
            have hcall := hpatient (.host call) List.mem_cons_self
            rw [Serving.step, Option.map_eq_some_iff] at hnext
            obtain ⟨link, hlink, rfl⟩ := hnext
            exact hhost.step hlink hcall (h.running hrunning).2.2
        | pull | read | handle | advance | closed =>
            rw [hostTransmission, List.append_nil]
            · exact hhost.of_endpoint (sameLeft_of_task hnext (by simp)).1
            · simp
      · intro other hother
        exact hpatient other (List.mem_cons_of_mem _ hother)

/-- The host gets no more at a time than it asks for. -/
theorem pieces_le_of_run {serving final : Serving}
    {actions : List ServingAction} {bound : Nat}
    (hrun : runSteps step serving actions = some final)
    (hreads : ∀ size, .host (.read size) ∈ actions → size ≤ bound)
    (h : ∀ piece ∈ (serving.link.pipe .left).pieces, piece.length ≤ bound) :
    ∀ piece ∈ (final.link.pipe .left).pieces, piece.length ≤ bound := by
  induction actions generalizing serving with
  | nil =>
      injection hrun with hrun
      exact hrun ▸ h
  | cons action actions ih =>
      obtain ⟨next, hnext, hrest⟩ := runSteps_cons step hrun
      apply ih hrest fun size hsize => hreads size (List.mem_cons_of_mem _ hsize)
      cases action with
      | host call =>
          rw [Serving.step, Option.map_eq_some_iff] at hnext
          obtain ⟨link, hlink, rfl⟩ := hnext
          intro piece hpiece
          rcases MemoryLink.pieces_of_step hlink piece hpiece with
            hold | ⟨size, rfl, hsize⟩
          · exact h piece hold
          · exact hsize.trans (hreads size List.mem_cons_self)
      | pull | read | handle | advance | closed =>
          rw [(sameLeft_of_task hnext (by simp)).2]
          exact h

end Runs

/-! ## Streams -/

theorem sentTo_outgoing {endpoint : Endpoint} {fragments : List Bytes}
    (h : endpoint.sent = fragments.map (Lane.outgoing, ·)) (side : Side) :
    endpoint.sentTo side side.other = fragments ∧
      endpoint.sentTo side side = [] := by
  have hne : side.other ≠ side := MemoryLink.other_ne side
  constructor
  · rw [Endpoint.sentTo, h, List.filter_eq_self.mpr, List.map_map]
    · exact List.map_id fragments
    · intro send hsend
      obtain ⟨fragment, -, rfl⟩ := List.mem_map.mp hsend
      exact decide_eq_true rfl
  · rw [Endpoint.sentTo, h, List.map_eq_nil_iff, List.filter_eq_nil_iff]
    intro send hsend
    obtain ⟨fragment, -, rfl⟩ := List.mem_map.mp hsend
    rw [decide_eq_true_iff]
    exact hne

/-- The task waits for more, and the host has sent all and read all. -/
structure Quiet (serving : Serving) : Prop where
  running : serving.result = none
  drained : serving.Drained
  devicePending : (serving.link.endpoint .right).pending = []
  hostPending : (serving.link.endpoint .left).pending = []
  remainder : (serving.link.pipe .left).remainder = []
  waiting : (serving.link.pipe .left).waiting = []

theorem Quiet.pieces_eq {device : EmulatedDevice} {plan hostPlan : FaultPlan}
    (hplan : plan.Faultless) (hhostPlan : hostPlan.Faultless)
    {serving : Serving} (hquiet : serving.Quiet)
    (h : serving.Answering device plan) {transmissions : List Bytes}
    (hhost : serving.link.Transmitting .left hostPlan transmissions) :
    (serving.link.pipe .left).pieces.flatten =
      ((eventsIn transmissions.flatten).filterMap
        device.encodedAnswer).flatten := by
  obtain ⟨requests, hrequests, hsends⟩ := hhostPlan.allSends transmissions
  obtain ⟨answers, hanswers, hanswered⟩ := hplan.allSends serving.answered
  have hleft := hhost.sent
  rw [hquiet.hostPending, List.append_nil, hsends] at hleft
  have hright := (h.running hquiet.running).1
  rw [hquiet.devicePending, List.append_nil, hanswered] at hright
  obtain ⟨hleftOut, hleftEcho⟩ := sentTo_outgoing hleft .left
  obtain ⟨hrightOut, hrightEcho⟩ := sentTo_outgoing hright .right
  have hdevice : (serving.link.pipe .right).written =
      transmissions.flatten := by
    rw [Pipe.written_eq .left, h.balanced.sent]
    · change (Endpoint.sentTo _ .left (Side.left).other).flatten = _
      rw [hleftOut, hrequests]
    · intro other hother
      cases other with
      | left => contradiction
      | right =>
          rw [h.balanced.sent]
          exact hrightEcho
  have hhostPipe : (serving.link.pipe .left).written =
      serving.answered.flatten := by
    rw [Pipe.written_eq .right, h.balanced.sent]
    · change (Endpoint.sentTo _ .right (Side.right).other).flatten = _
      rw [hrightOut, hanswers]
    · intro other hother
      cases other with
      | right => contradiction
      | left =>
          rw [h.balanced.sent]
          exact hleftEcho
  rw [(h.balanced.sound .left).drained hquiet.remainder hquiet.waiting,
    hhostPipe, h.answered_of_drained hquiet.drained, hdevice]

/-! ## Frames -/

theorem eventsIn_encodings {frames : List Frame}
    (h : ∀ frame ∈ frames, frame.Encodable ∧ 2 ≤ frame.preambles) :
    eventsIn (frames.map Frame.encoding).flatten = frames.map .frame := by
  obtain ⟨final, hscan, -⟩ :=
    @scan_encodings (FrameDecoder.new defaultLimits).limits frames h []
      (FrameDecoder.new defaultLimits).statistics
  have hscan : (FrameDecoder.new defaultLimits).scanPush
      (frames.map Frame.encoding).flatten =
        ([], frames.map .frame, final) := hscan
  rw [eventsIn, hscan]

end Serving

def EmulatedDevice.addressed (device : EmulatedDevice) (frame : Frame) : Bool :=
  frame.kind = .request && device.acceptsAddress frame.address

theorem EmulatedDevice.answer_frame (device : EmulatedDevice) (frame : Frame) :
    device.answer (.frame frame) =
      if device.addressed frame then some (device.respond frame) else none := by
  by_cases hkind : frame.kind = .request
  · cases haddress : device.acceptsAddress frame.address <;>
      simp [answer, addressed, hkind, haddress]
  · simp [answer, addressed, hkind]

theorem EmulatedDevice.length_replyData {device : EmulatedDevice}
    (h : device.additionalStatus.length ≤ 251) {logical : UInt16}
    {data : Bytes} (hdata : device.replyData logical = some data) :
    data.length ≤ 251 := by
  unfold replyData at hdata
  split_ifs at hdata
  · injection hdata with hdata
    rw [← hdata]
    simp only [identityPayload, List.length_append]
    split_ifs <;> simp
  · injection hdata with hdata
    rw [← hdata]
    simp
  · injection hdata with hdata
    rw [← hdata]
    simp
  · injection hdata with hdata
    rw [← hdata]
    exact h

theorem EmulatedDevice.encodable_respond {device : EmulatedDevice}
    (h : device.additionalStatus.length ≤ 251) {request : Frame}
    (hrequest : request.Encodable) :
    (device.respond request).Encodable := by
  refine ⟨hrequest.address, hrequest.expansion, ?_, rfl⟩
  have hdata : ∀ logical, ((device.replyData logical).getD []).length ≤
      251 := by
    intro logical
    cases hreply : device.replyData logical with
    | none => exact Nat.zero_le _
    | some data => exact device.length_replyData h hreply
  simp only [respond, List.length_append]
  have hnumber : ∀ (expanded : Bool) (logical : UInt16),
      (if expanded then beBytes 2 logical.toNat else []).length ≤ 2 := by
    intro expanded logical
    cases expanded <;> simp
  exact Nat.le_trans (Nat.add_le_add
    (Nat.add_le_add_left (hnumber _ _) _) (hdata _)) (le_refl 255)

theorem EmulatedDevice.preambles_respond (device : EmulatedDevice)
    (request : Frame) : 2 ≤ (device.respond request).preambles := by
  change 2 ≤ if device.identity.responsePreambles ≤ 2 then 2
    else device.identity.responsePreambles
  split_ifs with hfew
  · exact UInt8.le_refl 2
  · exact (UInt8.le_total _ _).resolve_left hfew

theorem EmulatedDevice.answers_to_frames {device : EmulatedDevice}
    (h : device.additionalStatus.length ≤ 251) {frames : List Frame}
    (hframes : ∀ frame ∈ frames, frame.Encodable) :
    (frames.map DecodeEvent.frame).filterMap device.encodedAnswer =
      (frames.filter device.addressed).map fun frame =>
        (device.respond frame).encoding := by
  induction frames with
  | nil => rfl
  | cons frame frames ih =>
      have hlater := ih fun other hother =>
        hframes other (List.mem_cons_of_mem _ hother)
      have hfirst := hframes frame List.mem_cons_self
      have hanswer := device.answer_frame frame
      rw [List.map_cons, List.filterMap_cons, List.filter_cons, hlater]
      cases haddressed : device.addressed frame with
      | false =>
          rw [haddressed, if_neg (by simp)] at hanswer
          simp [encodedAnswer, hanswer]
      | true =>
          rw [haddressed, if_pos rfl] at hanswer
          simp [encodedAnswer, hanswer,
            Frame.encode_eq (encodable_respond h hfirst), Except.toOption]

/-! ## The responses in order -/

/-- A host that sends exactly these frames, with its plan without faults. -/
structure HostSends (frames : List Frame) (actions : List ServingAction) :
    Prop where
  patient : ∀ action ∈ actions, Serving.patient action = true
  frames : actions.flatMap Serving.hostTransmission =
    frames.map Frame.encoding

theorem Serving.pieces_of_frames {device : EmulatedDevice}
    (hstatus : device.additionalStatus.length ≤ 251) {capacity : Nat}
    {plan : FaultPlan} (hplan : plan.Faultless) {frames : List Frame}
    (hframes : ∀ frame ∈ frames, frame.Encodable ∧ 2 ≤ frame.preambles)
    {actions : List ServingAction} (hhost : HostSends frames actions)
    {final : Serving}
    (hrun : runSteps step (new device capacity plan) actions = some final)
    (hquiet : final.Quiet) :
    (final.link.pipe .left).pieces.flatten =
      ((frames.filter device.addressed).map fun frame =>
        (device.respond frame).encoding).flatten := by
  have hnew : (new device capacity plan).Answering device plan :=
    answering_new capacity
  have hfinal : final.Answering device plan :=
    runSteps_invariant (fun hstep hserving => hserving.step hstep) hrun hnew
  have hsent : final.link.Transmitting .left {}
      ([] ++ actions.flatMap hostTransmission) :=
    transmitting_run hrun hquiet.running hnew ⟨rfl, rfl, rfl⟩ hhost.patient
  rw [List.nil_append, hhost.frames] at hsent
  have hdefault : ({} : FaultPlan).Faultless := ⟨rfl, rfl, rfl, rfl⟩
  rw [hquiet.pieces_eq hplan hdefault hfinal hsent,
    eventsIn_encodings hframes, device.answers_to_frames hstatus
      fun frame hframe => (hframes frame hframe).1]

structure Roomy (decoder : FrameDecoder) (size : Nat) : Prop where
  settled : decoder.Settled
  empty : decoder.bytes = []
  minimumPreambles : decoder.limits.minimumPreambles ≤ 2
  capacity : 521 + size ≤ decoder.limits.bufferCapacity
  events : 521 + size < maximumDecodeEventsPerPush

namespace Roomy

variable {decoder : FrameDecoder} {size : Nat} {pieces : List Bytes}

theorem pushAll_eq (h : Roomy decoder size)
    (hsize : ∀ piece ∈ pieces, piece.length ≤ size) :
    decoder.pushAll pieces =
      ((decoder.scanPush pieces.flatten).2.1,
        decoder.afterScan pieces.flatten) :=
  FrameDecoder.pushAll_eq_scanPush h.settled
    (FrameDecoder.keepsAll_of_roomy h.settled h.capacity h.events hsize)

/--
It gives the frames back from their encodings, in whatever pieces, and is ready
for the next ones.
-/
theorem pushAll (h : Roomy decoder size)
    (hsize : ∀ piece ∈ pieces, piece.length ≤ size) {frames : List Frame}
    (hframes : ∀ frame ∈ frames, frame.Encodable ∧ 2 ≤ frame.preambles)
    (hpieces : pieces.flatten = (frames.map Frame.encoding).flatten) :
    (decoder.pushAll pieces).1 = frames.map .frame ∧
      Roomy (decoder.pushAll pieces).2 size := by
  obtain ⟨final, hscan, -⟩ := @scan_encodings decoder.limits frames
    (fun frame hframe => ⟨(hframes frame hframe).1,
      UInt8.le_trans h.minimumPreambles (hframes frame hframe).2⟩)
    [] decoder.statistics
  have hsettled := FrameDecoder.settled_pushAll h.settled pieces
  have hscanned : decoder.scanPush pieces.flatten =
      ([], [] ++ frames.map .frame, final) := by
    rw [FrameDecoder.scanPush, h.empty, List.nil_append, hpieces, hscan]
  rw [h.pushAll_eq hsize] at hsettled ⊢
  refine ⟨by rw [hscanned, List.nil_append], hsettled, ?_,
    h.minimumPreambles, h.capacity, h.events⟩
  simp only [FrameDecoder.afterScan, hscanned]

/-- Before the end of an encoding it gives nothing. -/
theorem pushAll_short (h : Roomy decoder size)
    (hsize : ∀ piece ∈ pieces, piece.length ≤ size) {frame : Frame}
    (hframe : frame.Encodable ∧ 2 ≤ frame.preambles) {more : Bytes}
    (hmore : more ≠ []) (hpieces : pieces.flatten ++ more = frame.encoding) :
    (decoder.pushAll pieces).1 = [] := by
  have hjudge := judge_encoding hframe.1
    (UInt8.le_trans h.minimumPreambles hframe.2) []
  rw [List.append_nil, ← hpieces] at hjudge
  have hlonger : pieces.flatten.length <
      (pieces.flatten ++ more).length := by
    rw [List.length_append]
    have hpositive := List.length_pos_of_ne_nil hmore
    omega
  have hwait := (frameScanner decoder.limits).judge_wait_of_longer hjudge
    hlonger
  rw [h.pushAll_eq hsize, FrameDecoder.scanPush, h.empty, List.nil_append,
    (frameScanner decoder.limits).scan_wait _ _ hwait]

end Roomy

/--
However the fragments, the reads and the steps of host and device interleave: when
the link has come to rest, the host decodes the responses to its requests for the
device from what it has read, and nothing else, in the order in which it sent the
requests.
-/
theorem polled_device_answers_in_order {device : EmulatedDevice}
    (hstatus : device.additionalStatus.length ≤ 251) {capacity : Nat}
    {plan : FaultPlan} (hplan : plan.Faultless) {frames : List Frame}
    (hframes : ∀ frame ∈ frames, frame.Encodable ∧ 2 ≤ frame.preambles)
    {actions : List ServingAction} (hhost : HostSends frames actions)
    {decoder : FrameDecoder} {size : Nat} (hdecoder : Roomy decoder size)
    (hreads : ∀ count, .host (.read count) ∈ actions → count ≤ size)
    {final : Serving}
    (hrun : runSteps Serving.step (Serving.new device capacity plan) actions =
      some final) (hquiet : final.Quiet) :
    (decoder.pushAll (final.link.pipe .left).pieces).1 =
      (frames.filter device.addressed).map fun frame =>
        .frame (device.respond frame) := by
  have hsize := Serving.pieces_le_of_run hrun hreads (by
    intro piece hpiece
    exact absurd hpiece List.not_mem_nil)
  have hpieces := Serving.pieces_of_frames hstatus hplan hframes hhost hrun
    hquiet
  have hresponses : ∀ response ∈ (frames.filter device.addressed).map
      device.respond, response.Encodable ∧ 2 ≤ response.preambles := by
    intro response hresponse
    obtain ⟨frame, hframe, rfl⟩ := List.mem_map.mp hresponse
    have hframe := (hframes frame (List.mem_filter.mp hframe).1).1
    exact ⟨device.encodable_respond hstatus hframe,
      device.preambles_respond frame⟩
  rw [(hdecoder.pushAll hsize hresponses (by rw [hpieces, List.map_map]; rfl)).1,
    List.map_map]
  rfl

/-! ## Polling for the primary variable -/

def primaryFrame : Frame :=
  (Request.new (.Polling 0 .primary) ⟨1⟩ []).frame

def polledActions : List ServingAction :=
  [.host (.send primaryFrame.encoding), .host .advance, .pull, .read, .handle,
    .advance, .advance, .advance, .advance, .advance] ++
    (List.replicate 5 [.host .pull, .host (.read receiveBuffer)]).flatten

def polledRun : Option Serving :=
  runSteps Serving.step
    (Serving.new (transmitter 0x06 7) 8 { fragmentSize := some 4 })
    polledActions

theorem hostSends_polledActions : HostSends [primaryFrame] polledActions :=
  ⟨by decide, rfl⟩

theorem reads_polledActions {count : Nat}
    (h : .host (.read count) ∈ polledActions) : count ≤ receiveBuffer := by
  simp [polledActions, List.replicate] at h
  exact Nat.le_of_eq h

theorem encodable_primaryFrame :
    primaryFrame.Encodable ∧ 2 ≤ primaryFrame.preambles :=
  ⟨⟨(Address.accepted_polling_iff 0 .primary).mpr (by decide),
    Nat.zero_le 3, Nat.zero_le 255, rfl⟩, by decide⟩

def polledPieces : List Bytes :=
  [[0xff, 0xff, 0xff, 0xff], [0xff, 0x06, 0x80, 0x01], [0x07, 0, 0, 0x27],
    [0, 0, 0, 0], [0xa7]]

/-- The host has read everything that there was to read. -/
def Serving.restsWith (pieces : List Bytes) (serving : Serving) : Bool :=
  serving.result.isNone && serving.events.isEmpty &&
    (serving.link.pipe .right).remainder.isEmpty &&
    (serving.link.pipe .right).waiting.isEmpty &&
    (serving.link.endpoint .right).pending.isEmpty &&
    (serving.link.endpoint .left).pending.isEmpty &&
    (serving.link.pipe .left).remainder.isEmpty &&
    (serving.link.pipe .left).waiting.isEmpty &&
    (serving.link.pipe .left).pieces == pieces

theorem exists_quiet {run : Option Serving} {pieces : List Bytes}
    (h : run.any (Serving.restsWith pieces) = true) :
    ∃ final, run = some final ∧ final.Quiet ∧
      (final.link.pipe .left).pieces = pieces := by
  rw [Option.any_eq_true] at h
  obtain ⟨final, hfinal, hfields⟩ := h
  simp only [Serving.restsWith, Bool.and_eq_true, List.isEmpty_iff,
    Option.isNone_iff_eq_none, beq_iff_eq, and_assoc] at hfields
  obtain ⟨hresult, hevents, hremainder, hwaiting, hdevice, hhost, hleft, hrest,
    hpieces⟩ := hfields
  exact ⟨final, hfinal, ⟨hresult, ⟨hevents, hremainder, hwaiting⟩, hdevice,
    hhost, hleft, hrest⟩, hpieces⟩

theorem polledRun_quiet :
    ∃ final, polledRun = some final ∧ final.Quiet ∧
      (final.link.pipe .left).pieces = polledPieces :=
  exists_quiet (by decide +kernel)

theorem roomy_default : Roomy (.new defaultLimits) receiveBuffer :=
  ⟨FrameDecoder.settled_new _, rfl, by decide, by decide, by decide⟩

theorem polled_device_answers_polledRun :
    ∃ final, polledRun = some final ∧
      ((FrameDecoder.new defaultLimits).pushAll
        (final.link.pipe .left).pieces).1 =
          [.frame ((transmitter 0x06 7).respond primaryFrame)] := by
  obtain ⟨final, hrun, hquiet, -⟩ := polledRun_quiet
  refine ⟨final, hrun, ?_⟩
  have hplan : ({ fragmentSize := some 4 } : FaultPlan).Faultless :=
    ⟨rfl, rfl, rfl, rfl⟩
  have hstatus : (transmitter 0x06 7).additionalStatus.length ≤ 251 :=
    Nat.zero_le 251
  refine (polled_device_answers_in_order hstatus hplan ?_
    hostSends_polledActions roomy_default (fun _ => reads_polledActions)
    hrun hquiet).trans rfl
  intro frame hframe
  rw [List.mem_singleton] at hframe
  exact hframe ▸ encodable_primaryFrame

end HartLink.Emulator
