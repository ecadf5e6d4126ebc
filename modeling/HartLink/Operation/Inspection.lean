import HartLink.Operation.Request
import HartLink.Service.Configuration
import HartLink.Wire.Balance
import HartLink.Wire.Repairs

/-!
# Inspecting a single frame

`inspectBytes` runs a strict decoder over a complete byte sequence and reports
on the one frame in it.  It accepts exactly the byte sequences that consist of
preambles, one frame and nothing else; `inspectBytes_ok_iff` says so together
with the contents of the report.
-/

namespace HartLink.Operation

open HartLink.Foundation
open HartLink.Wire
open HartLink.Service (maxEncodedFrameSize)

/-! ## Error texts -/

def hexByte (byte : UInt8) : String :=
  String.ofList [Nat.digitChar (byte.toNat / 16),
    Nat.digitChar (byte.toNat % 16)]

def wireErrorText : WireError → String
  | .pollingAddress node =>
      "short address " ++ toString node ++ " is outside the 0..=63 range"
  | .expandedDeviceType expandedType =>
      "expanded device type " ++ toString expandedType ++
        " does not fit in 14 bits"
  | .deviceIdentifier deviceId =>
      "device identifier " ++ toString deviceId ++ " does not fit in 24 bits"
  | .expansionLength length =>
      "frame contains an invalid expansion length: " ++ toString length
  | .payloadLength length =>
      "payload is too large: " ++ toString length ++ " bytes"
  | .truncated => "truncated frame"
  | .delimiter byte => "unknown delimiter 0x" ++ hexByte byte
  | .checksum expected actual =>
      "checksum mismatch: expected 0x" ++ hexByte expected ++
        ", received 0x" ++ hexByte actual

def operationErrorText : OperationError → String
  | .truncated field offset =>
      "field " ++ field ++ " is truncated at offset " ++ toString offset
  | .invalidValue field => "field " ++ field ++ " is outside the allowed range"
  | .commandMismatch expected actual =>
      "expected command " ++ toString expected ++ ", received command " ++
        toString actual
  | .wire error => wireErrorText error

/-! ## Reports -/

inductive CommandClass where
  | universal
  | commonPractice
  deriving DecidableEq, Repr

def commonPracticeCommands : List UInt16 :=
  [33, 34, 35, 36, 37, 38, 39, 40, 41, 42, 43, 44, 45, 46, 47, 73, 75]

def CommandDescriptor.commandClass (entry : CommandDescriptor) :
    CommandClass :=
  if entry.code.get ∈ commonPracticeCommands then .commonPractice
  else .universal

structure InspectionIssue where
  code : String
  message : String
  deriving DecidableEq, Repr

structure FrameReport where
  kind : FrameKind
  address : Address
  physicalLayer : PhysicalLayer
  command : CommandCode
  commandClass : Option CommandClass
  preambles : UInt8
  wireCommand : UInt8
  frameExpansionLength : Nat
  repair : Option FrameRepair
  dataLength : Nat
  responseCode : Option UInt8
  deviceStatus : Option UInt8
  issues : List InspectionIssue
  deriving DecidableEq, Repr

def inputLimitIssue : InspectionIssue :=
  { code := "input_limit"
    message := "input exceeds the " ++ toString maxEncodedFrameSize ++
      "-byte frame limit" }

def frameCountIssue : InspectionIssue :=
  { code := "frame_count", message := "expected exactly one complete frame" }

def unexpectedBytesIssue : InspectionIssue :=
  { code := "unexpected_bytes"
    message := "unexpected bytes were found before or after the frame" }

def unknownSemanticsIssue (command : CommandCode) : InspectionIssue :=
  { code := "unknown_semantics"
    message := "the frame is structurally valid, but command " ++
      toString command.get ++ " is not in the registry" }

/-! ## The inspector -/

structure PayloadSummary where
  command : CommandCode
  responseCode : Option UInt8
  deviceStatus : Option UInt8
  dataLength : Nat
  deriving DecidableEq, Repr

def summarizePayload (frame : Frame) :
    Except InspectionIssue PayloadSummary :=
  if frame.kind = .request then
    let expanded := frame.wireCommand = 31 ∧ frame.payload.length ≥ 2
    .ok { command := logicalCommand frame
          responseCode := none
          deviceStatus := none
          dataLength := frame.payload.length - if expanded then 2 else 0 }
  else
    match DeviceReply.fromFrame frame with
    | .error error =>
        .error { code := "reply", message := operationErrorText error }
    | .ok reply =>
        .ok { command := reply.command
              responseCode := some reply.responseCode
              deviceStatus := some reply.deviceStatus
              dataLength := reply.data.length }

def buildReport (frame : Frame) (summary : PayloadSummary) : FrameReport :=
  let descriptor := commandDescriptor summary.command
  { kind := frame.kind
    address := frame.address
    physicalLayer := frame.physicalLayer
    command := summary.command
    commandClass := descriptor.map CommandDescriptor.commandClass
    preambles := frame.preambles
    wireCommand := frame.wireCommand
    frameExpansionLength := frame.expansion.length
    repair := frame.repair
    dataLength := summary.dataLength
    responseCode := summary.responseCode
    deviceStatus := summary.deviceStatus
    issues := if descriptor.isNone then
        [unknownSemanticsIssue summary.command]
      else [] }

def inspectionLimits (bytes : Bytes) : DecodeLimits :=
  { bufferCapacity := max bytes.length 64
    minimumPreambles := 1
    checksumPolicy := .strict }

def inspectBytes (bytes : Bytes) : Except InspectionIssue FrameReport :=
  if bytes.length > maxEncodedFrameSize then .error inputLimitIssue
  else
    let (events, decoder) :=
      (FrameDecoder.new (inspectionLimits bytes)).push bytes
    match events with
    | [event] =>
        if decoder.bytes.length ≠ 0 then .error frameCountIssue
        else
          match event with
          | .rejected error =>
              .error { code := "wire", message := wireErrorText error }
          | .frame frame =>
              if decoder.statistics.discardedBytes ≠ 0 then
                .error unexpectedBytesIssue
              else
                match summarizePayload frame with
                | .error issue => .error issue
                | .ok summary => .ok (buildReport frame summary)
    | _ => .error frameCountIssue

/-! ## Single frames -/

/--
A frame as the inspector accepts it: a known delimiter, as many address and
expansion bytes as it says, a matching checksum, and in a reply enough payload
for its status and its command number.
-/
structure SingleFrame (preambles : Nat) (parts : SpanParts)
    (kind : FrameKind) : Prop where
  least : 1 ≤ preambles
  most : preambles ≤ 255
  delimiter : FrameKind.fromDelimiter parts.delimiter = some kind
  address : parts.address.length =
    if parts.delimiter &&& 0x80 ≠ 0 then 5 else 1
  expansion : parts.expansion.length =
    ((parts.delimiter >>> 5) &&& 0x03).toNat
  payload : parts.payload.length ≤ 255
  checksum : parts.checksum = xorChecksum parts.body
  status : kind ≠ .request → 2 ≤ parts.payload.length
  number : kind ≠ .request → parts.command = 31 → 4 ≤ parts.payload.length

/-- The payload bytes in front of the data, and what they say. -/
def payloadSummary (parts : SpanParts) (kind : FrameKind) : PayloadSummary :=
  let status := if kind = .request then 0 else 2
  let number :=
    if parts.command = 31 ∧ status + 2 ≤ parts.payload.length then 2 else 0
  { command :=
      if number = 2 then
        ⟨fromBeBytes (parts.payload.getD status 0)
          (parts.payload.getD (status + 1) 0)⟩
      else .ofByte parts.command
    responseCode := if kind = .request then none else parts.payload[0]?
    deviceStatus := if kind = .request then none else parts.payload[1]?
    dataLength := parts.payload.length - status - number }

/-- The report agrees with the frame in every field that is read from it. -/
structure Describes (report : FrameReport) (preambles : Nat)
    (parts : SpanParts) (kind : FrameKind) : Prop where
  count : report.preambles.toNat = preambles
  frameKind : report.kind = kind
  address : Address.readFrom parts.address
    (parts.delimiter &&& 0x80 != 0) = .ok report.address
  physicalLayer : report.physicalLayer =
    PhysicalLayer.fromDelimiter parts.delimiter
  wireCommand : report.wireCommand = parts.command
  command : report.command = (payloadSummary parts kind).command
  expansion : report.frameExpansionLength = parts.expansion.length
  dataLength : report.dataLength = (payloadSummary parts kind).dataLength
  responseCode : report.responseCode =
    (payloadSummary parts kind).responseCode
  deviceStatus : report.deviceStatus =
    (payloadSummary parts kind).deviceStatus

/-! ## Summaries -/

section Summary

variable {frame : Frame} {parts : SpanParts}

theorem summarizePayload_ok (hcommand : frame.wireCommand = parts.command)
    (hpayload : frame.payload = parts.payload)
    (hstatus : frame.kind ≠ .request → 2 ≤ parts.payload.length)
    (hnumber : frame.kind ≠ .request → parts.command = 31 →
      4 ≤ parts.payload.length) :
    summarizePayload frame = .ok (payloadSummary parts frame.kind) := by
  by_cases hkind : frame.kind = .request
  · rcases hbytes : parts.payload with _ | ⟨high, _ | ⟨low, rest⟩⟩
    all_goals
      by_cases hwire : parts.command = 31 <;>
        simp [summarizePayload, payloadSummary, logicalCommand, hkind,
          hcommand, hpayload, hbytes, hwire]
  · have hstatus := hstatus hkind
    have hnumber := hnumber hkind
    rcases hbytes : parts.payload with
      _ | ⟨code, _ | ⟨status, _ | ⟨high, _ | ⟨low, data⟩⟩⟩⟩
    all_goals
      rw [hbytes] at hstatus hnumber
      by_cases hwire : parts.command = 31 <;>
        simp_all [summarizePayload, payloadSummary, DeviceReply.fromFrame,
          DeviceReply.ofParts]

theorem status_of_summarizePayload {summary : PayloadSummary}
    (h : summarizePayload frame = .ok summary) :
    (frame.kind ≠ .request → 2 ≤ frame.payload.length) ∧
      (frame.kind ≠ .request → frame.wireCommand = 31 →
        4 ≤ frame.payload.length) := by
  by_cases hkind : frame.kind = .request
  · simp [hkind]
  · rcases hbytes : frame.payload with
      _ | ⟨code, _ | ⟨status, _ | ⟨high, _ | ⟨low, data⟩⟩⟩⟩
    all_goals
      by_cases hwire : frame.wireCommand = 31 <;>
        simp_all [summarizePayload, DeviceReply.fromFrame]

end Summary

/-! ## Exactly the single frames are accepted -/

section Accepted

variable {preambles : Nat} {parts : SpanParts} {kind : FrameKind}

theorem SingleFrame.length_le (h : SingleFrame preambles parts kind) :
    (parts.span preambles).length ≤ maxEncodedFrameSize := by
  have hmost := h.most
  have hpayload := h.payload
  have haddress : parts.address.length ≤ 5 := by
    rw [h.address]
    split <;> omega
  have hexpansion : parts.expansion.length ≤ 3 := by
    rw [h.expansion]
    exact expansionLen_le parts.delimiter
  rw [SpanParts.length_span, SpanParts.length_body, maxEncodedFrameSize]
  omega

theorem SingleFrame.fits (h : SingleFrame preambles parts kind)
    (bytes : Bytes) :
    parts.Fits (FrameDecoder.effectiveLimits (inspectionLimits bytes))
      preambles := by
  refine ⟨⟨?_, ?_, ?_, h.payload⟩, h.least, h.most⟩
  · simp [isPossibleDelimiter, h.delimiter]
  · change _ = addressLen (parts.effective .strict)
    rw [SpanParts.effective_strict, h.address]
    simp [addressLen, isLong]
  · change _ = expansionLen (parts.effective .strict)
    rw [SpanParts.effective_strict, h.expansion]
    rfl

theorem SingleFrame.reads (h : SingleFrame preambles parts kind) :
    ∃ frame, parts.Reads .strict frame ∧ frame.kind = kind ∧
      frame.preambles = UInt8.ofNat preambles := by
  obtain ⟨address, hread, -⟩ := Address.readFrom_ok
    (show parts.address.length =
        if isLong parts.delimiter then 5 else 1 by
      rw [h.address]
      simp [isLong])
  refine ⟨{ preambles := UInt8.ofNat preambles, kind
            physicalLayer := PhysicalLayer.fromDelimiter parts.delimiter
            address, expansion := parts.expansion
            wireCommand := parts.command, payload := parts.payload
            repair := none }, ⟨?_, ?_, ?_, rfl, rfl, rfl, ?_⟩, rfl, rfl⟩
  · rw [SpanParts.effective_strict]
    exact h.delimiter
  · rw [SpanParts.effective_strict]
  · rw [SpanParts.effective_strict]
    exact hread
  · rw [SpanParts.acceptance_strict, if_pos h.checksum.symm]

theorem push_one_frame {limits : DecodeLimits} {bytes : Bytes} {frame : Frame}
    (hcapacity : bytes.length ≤
      (FrameDecoder.effectiveLimits limits).bufferCapacity)
    (hevents : ((FrameDecoder.new limits).push bytes).1 = [.frame frame]) :
    ∃ discarded, bytes.length =
        ((FrameDecoder.new limits).push bytes).2.bytes.length + discarded +
          frame.wireLen ∧
      ((FrameDecoder.new limits).push bytes).2.statistics.discardedBytes =
        saturatingAdd 0 discarded := by
  obtain ⟨discarded, haccount⟩ :=
    (FrameDecoder.new limits).account_push bytes
  have hoverflow : (FrameDecoder.new limits).overflow bytes = 0 := by
    simpa [FrameDecoder.overflow, FrameDecoder.new] using
      Nat.sub_eq_zero_of_le hcapacity
  have hbytes := haccount.bytes
  rw [hevents, hoverflow] at hbytes
  simp only [FrameDecoder.new, List.length_nil, List.map_cons, List.map_nil,
    List.sum_cons, List.sum_nil, DecodeEvent.frameLen] at hbytes
  refine ⟨discarded, ?_, haccount.discardedBytes⟩
  simp only [FrameDecoder.new]
  omega

theorem length_le_inspectionCapacity {bytes : Bytes}
    (h : bytes.length ≤ maxEncodedFrameSize) :
    bytes.length ≤ (FrameDecoder.effectiveLimits
      (inspectionLimits bytes)).bufferCapacity := by
  simp only [FrameDecoder.effectiveLimits, inspectionLimits,
    maximumDecodeBufferCapacity]
  unfold maxEncodedFrameSize at h
  omega

theorem SingleFrame.inspectBytes (h : SingleFrame preambles parts kind) :
    ∃ report, inspectBytes (parts.span preambles) = .ok report ∧
      Describes report preambles parts kind := by
  obtain ⟨frame, hreads, hkind, hcount⟩ := h.reads
  have hfits := h.fits (parts.span preambles)
  have hcapacity := length_le_inspectionCapacity h.length_le
  have hspans := hfits.pushSpans hreads hcount hcapacity
  have hevents : ((FrameDecoder.new (inspectionLimits
      (parts.span preambles))).push (parts.span preambles)).1 =
      [.frame frame] := by
    rw [FrameDecoder.push_fst, ← FrameDecoder.map_collectSpans]
    exact congrArg (List.map Prod.snd) hspans
  obtain ⟨discarded, hbytes, hdiscarded⟩ := push_one_frame hcapacity hevents
  rw [SpanParts.length_span_wireLen hfits hreads hcount] at hbytes
  obtain ⟨hempty, rfl⟩ : ((FrameDecoder.new (inspectionLimits
      (parts.span preambles))).push
        (parts.span preambles)).2.bytes.length = 0 ∧ discarded = 0 := by
    omega
  have hsummary := summarizePayload_ok hreads.wireCommand hreads.payload
    (fun hother => h.status (hkind ▸ hother))
    (fun hother => h.number (hkind ▸ hother))
  refine ⟨buildReport frame (payloadSummary parts frame.kind), ?_, ?_⟩
  · rcases hpush : (FrameDecoder.new (inspectionLimits
      (parts.span preambles))).push (parts.span preambles) with
      ⟨events, decoder⟩
    rw [hpush] at hevents hempty hdiscarded
    simp only at hevents hempty hdiscarded
    simp [Operation.inspectBytes, Nat.not_lt.mpr h.length_le, hpush, hevents,
      List.eq_nil_of_length_eq_zero hempty, hdiscarded, hsummary]
  · obtain ⟨hread, hlayer⟩ := And.intro hreads.address hreads.physicalLayer
    rw [SpanParts.effective_strict] at hread hlayer
    refine ⟨?_, hkind, hread, hlayer, hreads.wireCommand, ?_, ?_, ?_, ?_, ?_⟩
    · rw [← hfits.toNat_ofNat, ← hcount]
      rfl
    · rw [← hkind]
      rfl
    · exact congrArg List.length hreads.expansion
    · rw [← hkind]
      rfl
    · rw [← hkind]
      rfl
    · rw [← hkind]
      rfl

theorem singleFrame_of_reads {bytes : Bytes} {frame : Frame}
    (hfits : parts.Fits (FrameDecoder.effectiveLimits
      (inspectionLimits bytes)) preambles)
    (hreads : parts.Reads .strict frame)
    (hstatus : frame.kind ≠ .request → 2 ≤ parts.payload.length)
    (hnumber : frame.kind ≠ .request → parts.command = 31 →
      4 ≤ parts.payload.length) :
    SingleFrame preambles parts frame.kind := by
  obtain ⟨-, haddress, hexpansion, hpayload⟩ := hfits.sized
  have hkind := hreads.kind
  have haccepted := hreads.repair
  rw [show (FrameDecoder.effectiveLimits
    (inspectionLimits bytes)).checksumPolicy = .strict from rfl,
    SpanParts.effective_strict] at haddress hexpansion
  rw [SpanParts.effective_strict] at hkind
  rw [SpanParts.acceptance_strict] at haccepted
  refine ⟨hfits.least, hfits.most, hkind, ?_, hexpansion, hpayload, ?_,
    hstatus, hnumber⟩
  · rw [haddress]
    simp [addressLen, isLong]
  · by_contra hmismatch
    rw [if_neg (Ne.symm hmismatch)] at haccepted
    contradiction

/-- What an accepted input has passed. -/
theorem inspectBytes_ok {bytes : Bytes} {report : FrameReport}
    (h : inspectBytes bytes = .ok report) :
    bytes.length ≤ maxEncodedFrameSize ∧ ∃ frame summary,
      ((FrameDecoder.new (inspectionLimits bytes)).push bytes).1 =
        [.frame frame] ∧
      ((FrameDecoder.new (inspectionLimits bytes)).push
        bytes).2.bytes.length = 0 ∧
      ((FrameDecoder.new (inspectionLimits bytes)).push
        bytes).2.statistics.discardedBytes = 0 ∧
      summarizePayload frame = .ok summary := by
  unfold inspectBytes at h
  split_ifs at h with hlimit
  refine ⟨Nat.not_lt.mp hlimit, ?_⟩
  generalize (FrameDecoder.new (inspectionLimits bytes)).push bytes = pushed
    at h ⊢
  obtain ⟨events, decoder⟩ := pushed
  rcases events with _ | ⟨event, _ | ⟨other, events⟩⟩
  · contradiction
  · cases event with
    | rejected error =>
        simp only at h
        split_ifs at h
    | frame frame =>
        simp only at h
        split_ifs at h with hbuffered hdiscarded
        rw [not_not] at hbuffered hdiscarded
        cases hsummary : summarizePayload frame with
        | error issue =>
            rw [hsummary] at h
            contradiction
        | ok summary =>
            exact ⟨frame, summary, rfl, hbuffered, hdiscarded, hsummary⟩
  · contradiction

theorem singleFrame_of_inspectBytes {bytes : Bytes} {report : FrameReport}
    (h : inspectBytes bytes = .ok report) :
    ∃ preambles parts kind, SingleFrame preambles parts kind ∧
      bytes = parts.span preambles := by
  obtain ⟨hlength, frame, summary, hevents, hbuffered, hdiscarded,
    hsummary⟩ := inspectBytes_ok h
  have hcapacity := length_le_inspectionCapacity hlength
  obtain ⟨discarded, hbytes, hcounted⟩ := push_one_frame hcapacity hevents
  -- The counter would show even a single discarded byte.
  obtain rfl : discarded = 0 := by
    have hzero := congrArg UInt64.toNat (hcounted.symm.trans hdiscarded)
    rw [saturatingAdd_toNat] at hzero
    simp only [UInt64.toNat_zero] at hzero
    omega
  obtain ⟨⟨span, event⟩, hmem, rfl⟩ : ∃ consumed ∈
      (FrameDecoder.new (inspectionLimits bytes)).pushSpans bytes,
      consumed.2 = .frame frame := by
    rw [FrameDecoder.push_fst, ← FrameDecoder.map_collectSpans] at hevents
    apply List.mem_map.mp
    rw [FrameDecoder.pushSpans, hevents]
    simp
  obtain ⟨hconsumes, hinfix⟩ := FrameDecoder.collectSpans_consumes hmem
  rw [FrameDecoder.limits_appendBounded] at hconsumes
  have hbuffer : ((FrameDecoder.new (inspectionLimits bytes)).appendBounded
      bytes).bytes = bytes := by
    rw [FrameDecoder.appendBounded_of_fits
      (by simpa [FrameDecoder.new] using hcapacity)]
    rfl
  rw [hbuffer] at hinfix
  cases hconsumes with
  | @frame _ preambles parts hfits hreads hcount hspan =>
      have hsize := SpanParts.length_span_wireLen hfits hreads hcount
      have hall : span = bytes := by
        apply hinfix.eq_of_length
        rw [hspan, hsize]
        omega
      refine ⟨preambles, parts, frame.kind, ?_, hall.symm.trans hspan⟩
      have hstatus := status_of_summarizePayload hsummary
      rw [hreads.payload, hreads.wireCommand] at hstatus
      exact singleFrame_of_reads hfits hreads hstatus.1 hstatus.2

/--
The inspector accepts exactly the byte sequences that are one frame behind its
preambles, and the report on an accepted frame describes it.
-/
theorem inspectBytes_accepts_single_frames (bytes : Bytes) :
    ((∃ report, inspectBytes bytes = .ok report) ↔
      ∃ preambles parts kind, SingleFrame preambles parts kind ∧
        bytes = parts.span preambles) ∧
    ∀ report preambles parts kind, inspectBytes bytes = .ok report →
      SingleFrame preambles parts kind → bytes = parts.span preambles →
      Describes report preambles parts kind := by
  refine ⟨⟨?_, ?_⟩, ?_⟩
  · rintro ⟨report, h⟩
    exact singleFrame_of_inspectBytes h
  · rintro ⟨preambles, parts, kind, hsingle, rfl⟩
    obtain ⟨report, hreport, -⟩ := hsingle.inspectBytes
    exact ⟨report, hreport⟩
  · rintro report preambles parts kind h hsingle rfl
    obtain ⟨found, hfound, hdescribes⟩ := hsingle.inspectBytes
    rw [hfound] at h
    injection h with h
    rwa [h] at hdescribes

end Accepted

end HartLink.Operation
