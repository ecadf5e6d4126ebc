import HartLink.Service.Attempt

/-!
# Requests and the responses to them

The number of a command is written by the request encoder and read back in two
places: `DeviceReply.fromFrame` reads it from a response, and `logicalCommand`
from the request that the runner waits for.  The two differ for command 31
itself, whose data stands where a number above 255 would stand.
-/

namespace HartLink.Operation

open HartLink.Foundation
open HartLink.Wire

/-! ## Raw operations -/

structure RawOperation where
  command : CommandCode
  data : Bytes
  retrySafety : OperationSafety := .action
  deriving DecidableEq, Repr

namespace RawOperation

def decodeReply (operation : RawOperation) (reply : DeviceReply) :
    Except OperationError DeviceReply :=
  if reply.command ≠ operation.command then
    .error (.commandMismatch operation.command.get reply.command.get)
  else .ok reply

theorem decodeReply_eq_ok_iff (operation : RawOperation)
    (reply : DeviceReply) :
    operation.decodeReply reply = .ok reply ↔
      reply.command = operation.command := by
  unfold decodeReply
  split_ifs with hcommand
  · simp [hcommand]
  · simpa using hcommand

end RawOperation

/-! ## What a conforming device sends -/

def carriesNumber (request : Frame) : Bool :=
  request.wireCommand = 31 ∧ 2 ≤ request.payload.length

/-- The frame that `EmulatedDevice::respond` builds, with any status and data. -/
def respond (request : Frame) (preambles responseCode deviceStatus : UInt8)
    (data : Bytes) : Frame :=
  { preambles
    kind := .response
    physicalLayer := request.physicalLayer
    address := request.address
    expansion := request.expansion
    wireCommand := request.wireCommand
    payload := responseCode :: deviceStatus ::
      ((if carriesNumber request then request.payload.take 2 else []) ++ data)
    repair := none }

end HartLink.Operation

namespace HartLink.Service

open HartLink.Foundation
open HartLink.Wire
open HartLink.Operation

/-! ## Correlation -/

/--
Every response of a conforming device that fits into a frame is read back under
the command of the request, ends the attempt and passes the operation's check.
-/
def Correlates (request : Request) : Prop :=
  ∃ frame, request.toFrame = .ok frame ∧
    ∀ (preambles responseCode deviceStatus : UInt8) (data : Bytes),
      (respond frame preambles responseCode deviceStatus
        data).payload.length ≤ 255 →
      ∃ reply,
        DeviceReply.fromFrame (respond frame preambles responseCode
          deviceStatus data) = .ok reply ∧
        reply.command = request.command ∧
        LinkPort.answerOf frame (.frame (respond frame preambles responseCode
          deviceStatus data)) = some reply ∧
        ∀ operation : RawOperation, operation.command = request.command →
          operation.decodeReply reply = .ok reply

theorem fromFrame_respond {request : Frame} (preambles responseCode
    deviceStatus : UInt8) (data : Bytes)
    (h : request.wireCommand = 31 → 2 ≤ request.payload.length) :
    DeviceReply.fromFrame (respond request preambles responseCode deviceStatus
        data) =
      .ok (.ofParts (respond request preambles responseCode deviceStatus data)
        responseCode deviceStatus (logicalCommand request) data) := by
  by_cases hwire : request.wireCommand = 31
  · rcases hpayload : request.payload with _ | ⟨high, _ | ⟨low, rest⟩⟩
    · simp [hpayload, hwire] at h
    · simp [hpayload, hwire] at h
    · simp [DeviceReply.fromFrame, respond, carriesNumber, logicalCommand,
        hwire, hpayload]
  · have hlogical : logicalCommand request = .ofByte request.wireCommand := by
      unfold logicalCommand
      split <;> simp [hwire]
    simp [DeviceReply.fromFrame, respond, carriesNumber, hwire, hlogical]

theorem answerOf_respond {request : Frame} (preambles responseCode
    deviceStatus : UInt8) (data : Bytes)
    (h : request.wireCommand = 31 → 2 ≤ request.payload.length) :
    LinkPort.answerOf request (.frame (respond request preambles responseCode
        deviceStatus data)) =
      some (.ofParts (respond request preambles responseCode deviceStatus data)
        responseCode deviceStatus (logicalCommand request) data) := by
  have hecho : isEcho request (respond request preambles responseCode
      deviceStatus data) = false := by
    simp [isEcho, respond]
  simp only [LinkPort.answerOf, hecho, fromFrame_respond _ _ _ _ h]
  simp [answers, DeviceReply.ofParts, respond]

theorem fromFrame_respond_short {request : Frame}
    (hwire : request.wireCommand = 31) (h : request.payload.length < 2) :
    DeviceReply.fromFrame (respond request 2 0 0 []) =
      .error (.truncated "expanded command number" 2) := by
  simp [DeviceReply.fromFrame, respond, carriesNumber, hwire,
    Nat.not_le.mpr h]

theorem correlates_iff_logical {request : Request}
    (h : request.validate = .ok ()) :
    Correlates request ↔
      (request.frame.wireCommand = 31 → 2 ≤ request.frame.payload.length) ∧
        logicalCommand request.frame = request.command := by
  have hframe := (Request.toFrame_of_validate h).1
  constructor
  · rintro ⟨frame, hframe', hresponses⟩
    rw [hframe] at hframe'
    injection hframe' with hframe'
    subst hframe'
    have hlong : request.frame.wireCommand = 31 →
        2 ≤ request.frame.payload.length := by
      intro hwire
      by_contra hshort
      have hshort := Nat.lt_of_not_le hshort
      obtain ⟨reply, hreply, -⟩ := hresponses 2 0 0 [] (by
        simp [respond, carriesNumber, Nat.not_le.mpr hshort])
      rw [fromFrame_respond_short hwire hshort] at hreply
      contradiction
    refine ⟨hlong, ?_⟩
    obtain ⟨reply, hreply, hcommand, -⟩ := hresponses 2 0 0 [] (by
      simp only [respond, List.append_nil, List.length_cons]
      split_ifs
      · have := List.length_take_le 2 request.frame.payload
        omega
      · simp)
    rw [fromFrame_respond 2 0 0 [] hlong] at hreply
    injection hreply with hreply
    subst hreply
    exact hcommand
  · rintro ⟨hlong, hlogical⟩
    refine ⟨request.frame, hframe, ?_⟩
    intro preambles responseCode deviceStatus data _
    refine ⟨_, fromFrame_respond _ _ _ _ hlong, hlogical,
      answerOf_respond _ _ _ _ hlong, ?_⟩
    intro operation hoperation
    rw [RawOperation.decodeReply_eq_ok_iff, hoperation]
    exact hlogical

/--
The three places agree for every request, except for a request for command 31
whose data does not begin with the number 31.
-/
theorem correlates_iff (request : Request)
    (h : request.validate = .ok ()) :
    Correlates request ↔
      (request.command = ⟨31⟩ → ∃ rest, request.data = 0 :: 31 :: rest) := by
  rw [correlates_iff_logical h, Request.logicalCommand_eq_iff]
  cases hexpanded : request.command.isExpanded with
  | true =>
      have hne : request.command ≠ ⟨31⟩ := by
        intro heq
        simp [heq, CommandCode.isExpanded] at hexpanded
      have hpayload : 2 ≤ request.frame.payload.length := by
        simp [Request.frame, Request.payload, hexpanded,
          CommandCode.toBeBytes]
      simp [hpayload, Request.Disguised, hne]
  | false =>
      have hpayload : request.frame.payload = request.data := by
        simp [Request.frame, Request.payload, hexpanded]
      have hwire : request.frame.wireCommand = 31 ↔
          request.command = ⟨31⟩ := Request.wireCommand_eq_iff hexpanded
      rw [hpayload, hwire]
      by_cases hcommand : request.command = ⟨31⟩
      · simp only [hcommand, Request.Disguised, true_and, true_implies]
        rcases request.data with _ | ⟨high, _ | ⟨low, rest⟩⟩
        · simp
        · simp
        · have hnumber : fromBeBytes high low = 31 ↔
              high = 0 ∧ low = 31 := by
            rw [← UInt16.toNat_inj, toNat_fromBeBytes, ← UInt8.toNat_inj,
              ← UInt8.toNat_inj]
            have hlow := low.toNat_lt
            simp
            omega
          simp [hnumber]
      · simp [hcommand, Request.Disguised]

def relayedRequest : Request :=
  .new (.Polling 0 .primary) ⟨31⟩ [0x01, 0x2c]

theorem correlates_iff_relayedRequest :
    relayedRequest.validate = .ok () ∧
      (Correlates relayedRequest ↔
        (relayedRequest.command = ⟨31⟩ →
          ∃ rest, relayedRequest.data = 0 :: 31 :: rest)) :=
  ⟨by decide, correlates_iff relayedRequest (by decide)⟩

/-- Its response is read as one to command 300, and the operation rejects it. -/
theorem relayedRequest_uncorrelated :
    relayedRequest.validate = .ok () ∧
      (∃ reply, DeviceReply.fromFrame (respond relayedRequest.frame 5 0 0 []) =
          .ok reply ∧
        reply.command = ⟨300⟩ ∧
        RawOperation.decodeReply ⟨⟨31⟩, [0x01, 0x2c], .action⟩ reply =
          .error (.commandMismatch 31 300)) ∧
      ¬ Correlates relayedRequest := by
  refine ⟨by decide, ⟨_, rfl, by decide, by decide⟩, ?_⟩
  rintro ⟨frame, hframe, hresponses⟩
  have hsame : frame = relayedRequest.frame := by
    rw [(Request.toFrame_of_validate (by decide)).1] at hframe
    injection hframe with hframe
    exact hframe.symm
  subst hsame
  obtain ⟨reply, hreply, hcommand, -⟩ := hresponses 5 0 0 [] (by decide)
  injection hreply with hreply
  subst hreply
  revert hcommand
  decide

end HartLink.Service
