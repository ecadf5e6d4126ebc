import HartLink.Foundation.Hex
import HartLink.Operation.Inspection
import HartLink.Wire.Fragmentation

/-!
# Frames as hexadecimal text

The inspector reads a frame from hexadecimal text, and the command line builds the
text of a request.  Texts are given by their bytes.
-/

namespace HartLink.Operation

open HartLink.Foundation
open HartLink.Wire
open HartLink.Service (maxEncodedFrameSize)

/-! ## The inspector -/

def maximumInspectionTextBytes : Nat := maxEncodedFrameSize * 8

def compactDigits (maximumDigits : Nat) :
    Bytes → Bytes → Except InspectionIssue Bytes
  | [], compact => .ok compact
  | byte :: text, compact =>
      if isAsciiWhitespace byte then compactDigits maximumDigits text compact
      else if compact.length = maximumDigits then .error inputLimitIssue
      else compactDigits maximumDigits text (compact ++ [byte])

def inspectHex (value : Bytes) : Except InspectionIssue FrameReport :=
  if value.length > maximumInspectionTextBytes then .error inputLimitIssue
  else
    match compactDigits (maxEncodedFrameSize * 2) value [] with
    | .error issue => .error issue
    | .ok compact =>
        if compact.length % 2 ≠ 0 then
          .error
            { code := "hex_length"
              message :=
                "the hexadecimal string must contain an even number of digits" }
        else
          match readPairs 0 compact with
          | .error offset =>
              .error
                { code := "hex_digit"
                  message := "invalid hexadecimal digit at offset " ++
                    toString offset }
          | .ok bytes => inspectBytes bytes

/-! ## The command line -/

def decodeHex (value : Bytes) : Except String Bytes :=
  let compact := compactText value
  if compact.length % 2 ≠ 0 then .error "odd number of hexadecimal digits"
  else
    match readPairs 0 compact with
    | .error offset => .error ("invalid digit at " ++ toString (offset / 2))
    | .ok bytes => .ok bytes

def encodeHex (bytes : Bytes) : Bytes := writePairs bytes

/-- The text that the `build` command prints. -/
def buildText (address : UInt8) (command : UInt16) (data : Bytes) :
    Except String Bytes :=
  match Address.polling address .primary with
  | .error error => .error (wireErrorText error)
  | .ok address =>
      match decodeHex data with
      | .error message => .error message
      | .ok data =>
          match (Request.new address ⟨command⟩ data).encodedFrame with
          | .error error => .error (operationErrorText error)
          | .ok bytes => .ok (encodeHex bytes)

/-! ## Texts that are accepted -/

theorem compactDigits_ok_iff {maximumDigits : Nat}
    {text compact digits : Bytes} (h : compact.length ≤ maximumDigits) :
    compactDigits maximumDigits text compact = .ok digits ↔
      digits = compact ++ compactText text ∧
        digits.length ≤ maximumDigits := by
  induction text generalizing compact with
  | nil =>
      rw [compactDigits, compactText, List.filter_nil, List.append_nil]
      constructor
      · intro hdigits
        injection hdigits with hdigits
        exact ⟨hdigits.symm, hdigits ▸ h⟩
      · rintro ⟨rfl, -⟩
        rfl
  | cons byte text ih =>
      rw [compactDigits, compactText, List.filter_cons]
      cases hspace : isAsciiWhitespace byte with
      | true =>
          rw [if_pos rfl, ih h, compactText]
          rfl
      | false =>
          simp only [Bool.false_eq_true, if_false, Bool.not_false, if_true]
          split_ifs with hfull
          · refine iff_of_false (by simp) ?_
            rintro ⟨rfl, hlength⟩
            rw [List.length_append, List.length_cons] at hlength
            omega
          · have hroom : (compact ++ [byte]).length ≤ maximumDigits := by
              rw [List.length_append, List.length_singleton]
              omega
            rw [ih hroom, List.append_assoc, List.singleton_append, compactText]

theorem inspectBytes_length {bytes : Bytes} {report : FrameReport}
    (h : inspectBytes bytes = .ok report) :
    bytes.length ≤ maxEncodedFrameSize :=
  (inspectBytes_ok h).1

/--
A text is accepted exactly when it is not too long and its digits, in either case
and with whitespace anywhere between them, spell bytes that are accepted; the
report is the one on these bytes.
-/
theorem inspectHex_ok_iff {value : Bytes} {report : FrameReport} :
    inspectHex value = .ok report ↔
      value.length ≤ maximumInspectionTextBytes ∧
        ∃ bytes, Spells (compactText value) bytes ∧
          inspectBytes bytes = .ok report := by
  have hcompact : ∀ digits, compactDigits (maxEncodedFrameSize * 2) value [] =
      .ok digits ↔ digits = compactText value ∧
        digits.length ≤ maxEncodedFrameSize * 2 := by
    intro digits
    rw [compactDigits_ok_iff (Nat.zero_le _), List.nil_append]
  unfold inspectHex
  split_ifs with hlong
  · exact iff_of_false (by simp) (fun h => absurd h.1 (by omega))
  rw [and_iff_right (Nat.le_of_not_lt hlong)]
  constructor
  · intro h
    cases hdigits : compactDigits (maxEncodedFrameSize * 2) value [] with
    | error issue =>
        rw [hdigits] at h
        contradiction
    | ok digits =>
        rw [hdigits] at h
        obtain ⟨rfl, -⟩ := (hcompact digits).mp hdigits
        dsimp only at h
        split_ifs at h with hodd
        rw [not_not] at hodd
        cases hread : readPairs 0 (compactText value) with
        | error offset =>
            rw [hread] at h
            contradiction
        | ok bytes =>
            rw [hread] at h
            exact ⟨bytes, readPairs_eq_ok_iff.mp ⟨hodd, hread⟩, h⟩
  · rintro ⟨bytes, hspells, hreport⟩
    have hlength := inspectBytes_length hreport
    have heven := hspells.length_eq
    have hdigits : compactDigits (maxEncodedFrameSize * 2) value [] =
        .ok (compactText value) := (hcompact _).mpr ⟨rfl, by omega⟩
    obtain ⟨hparity, hread⟩ := readPairs_eq_ok_iff.mpr hspells
    rw [hdigits]
    dsimp only
    rw [if_neg (not_not.mpr hparity), hread]
    exact hreport

theorem decodeHex_ok_iff {value bytes : Bytes} :
    decodeHex value = .ok bytes ↔ Spells (compactText value) bytes := by
  rw [← @readPairs_eq_ok_iff _ _ 0, decodeHex]
  split_ifs with hodd
  · exact iff_of_false (by simp) (fun h => hodd h.1)
  · rw [not_not] at hodd
    rw [and_iff_right hodd]
    cases readPairs 0 (compactText value) with
    | error offset => simp
    | ok found => simp

/-! ## Encodings -/

theorem length_encoding_le {frame : Frame} (h : frame.Encodable) :
    frame.encoding.length ≤ maxEncodedFrameSize := by
  have haddress : frame.address.encodedLen ≤ 5 := by
    cases frame.address <;> simp [Address.encodedLen]
  have hpreambles := frame.preambles.toNat_lt
  have hexpansion := h.expansion
  have hpayload := h.payload
  rw [Frame.length_encoding, Frame.length_body, maxEncodedFrameSize]
  omega

/-- The report on an encoding is the report on its frame. -/
theorem inspectBytes_encoding {frame : Frame} (h : frame.Encodable)
    (hpreambles : 1 ≤ frame.preambles) :
    inspectBytes frame.encoding =
      (summarizePayload frame).map (buildReport frame) := by
  have hlength := length_encoding_le h
  obtain ⟨final, hscan, hdiscarded⟩ := @scan_encodings
    (FrameDecoder.new (inspectionLimits frame.encoding)).limits [frame]
    (by
      intro other hother
      rw [List.mem_singleton] at hother
      rw [hother]
      exact ⟨h, hpreambles⟩) []
    (FrameDecoder.new (inspectionLimits frame.encoding)).statistics
  have hpush : (FrameDecoder.new (inspectionLimits frame.encoding)).scanPush
      frame.encoding = ([], [.frame frame], final) := by
    rw [List.map_singleton, List.flatten_singleton] at hscan
    exact hscan
  have hfits : (FrameDecoder.new
      (inspectionLimits frame.encoding)).bytes.length +
        frame.encoding.length ≤ (FrameDecoder.new
          (inspectionLimits frame.encoding)).limits.bufferCapacity := by
    change 0 + _ ≤ _
    rw [Nat.zero_add]
    exact length_le_inspectionCapacity hlength
  have hevents : ((FrameDecoder.new (inspectionLimits
      frame.encoding)).scanPush frame.encoding).2.1.length <
        maximumDecodeEventsPerPush := by
    have hone : 1 < maximumDecodeEventsPerPush := by decide
    rw [hpush]
    exact hone
  have hzero : final.discardedBytes = 0 := hdiscarded
  unfold inspectBytes
  rw [if_neg (Nat.not_lt.mpr hlength),
    FrameDecoder.push_eq_of_fits hfits hevents, FrameDecoder.afterScan, hpush]
  simp only [List.length_nil, hzero, ne_eq, not_true_eq_false, if_false]
  cases summarizePayload frame <;> rfl

/-! ## Requests that were built -/

theorem buildText_ok_iff {address : UInt8} {command : UInt16}
    {data text : Bytes} :
    buildText address command data = .ok text ↔
      address ≤ 63 ∧ ∃ bytes, Spells (compactText data) bytes ∧
        (Request.new (.Polling address .primary) ⟨command⟩ bytes).payloadLen ≤
          255 ∧
        text = writePairs (Request.new (.Polling address .primary) ⟨command⟩
          bytes).frame.encoding := by
  unfold buildText Address.polling
  split_ifs with haddress
  · refine iff_of_false (by simp) fun h => ?_
    exact absurd h.1 (UInt8.not_le.mpr haddress)
  rw [and_iff_right (UInt8.not_lt.mp haddress)]
  dsimp only
  cases hdecode : decodeHex data with
  | error message =>
      refine iff_of_false (by simp) ?_
      rintro ⟨bytes, hspells, -⟩
      rw [decodeHex_ok_iff.mpr hspells] at hdecode
      contradiction
  | ok bytes =>
      have hspells := decodeHex_ok_iff.mp hdecode
      have hunique : ∀ other, Spells (compactText data) other →
          other = bytes := by
        intro other hother
        rw [decodeHex_ok_iff.mpr hother] at hdecode
        injection hdecode
      have hvalid : (Request.new (.Polling address .primary) ⟨command⟩
          bytes).validate = .ok () ↔
            (Request.new (.Polling address .primary) ⟨command⟩
              bytes).payloadLen ≤ 255 := by
        rw [Request.validate_ok_iff]
        exact and_iff_left (Nat.zero_le 3)
      dsimp only
      cases hencoded : (Request.new (.Polling address .primary) ⟨command⟩
          bytes).encodedFrame with
      | error error =>
          refine iff_of_false (by simp) ?_
          rintro ⟨other, hother, hlength, -⟩
          rw [hunique other hother, ← hvalid] at hlength
          rw [Request.encodedFrame_of_validate hlength] at hencoded
          contradiction
      | ok encoded =>
          obtain ⟨hrequest, hframe⟩ := Request.encodedFrame_ok hencoded
          constructor
          · intro h
            injection h with h
            exact ⟨bytes, hspells, hvalid.mp hrequest, by rw [hframe, ← h]; rfl⟩
          · rintro ⟨other, hother, -, rfl⟩
            rw [hunique other hother, hframe]
            rfl

theorem dataLength_eq_iff (request : Request) :
    request.frame.payload.length -
        (if request.frame.wireCommand = 31 ∧ request.frame.payload.length ≥ 2
          then 2 else 0) = request.data.length ↔
      ¬ (request.command = ⟨31⟩ ∧ 2 ≤ request.data.length) := by
  have hpayload : request.frame.payload.length = request.payloadLen :=
    Request.length_payload request
  have hwire : request.frame.wireCommand = request.wireCommand := rfl
  rw [hpayload, Request.payloadLen, hwire]
  cases hexpanded : request.command.isExpanded with
  | true =>
      have hother : request.command ≠ ⟨31⟩ := by
        intro hcommand
        rw [hcommand] at hexpanded
        exact absurd hexpanded (by decide)
      have hcarrier : request.wireCommand = 31 := by
        simp [Request.wireCommand, hexpanded]
      simp [hcarrier, hother]
  | false =>
      simp only [Request.wireCommand_eq_iff hexpanded, Bool.false_eq_true,
        if_false, Nat.add_zero, ge_iff_le]
      split_ifs with hcarried
      · simp only [hcarried, and_self, not_true_eq_false, iff_false]
        omega
      · exact iff_of_true rfl hcarried

/--
Whatever `build` prints is read back as one frame without a repair: a request for
the given address.  Its command and its data are the given ones, except that the
data of command 31 may be taken for an expanded number.
-/
theorem built_text_inspected {address : UInt8} {command : UInt16}
    {data text : Bytes} (h : buildText address command data = .ok text) :
    ∃ bytes report, decodeHex data = .ok bytes ∧
      inspectHex text = .ok report ∧ report.kind = .request ∧
      report.address = .Polling address .primary ∧ report.preambles = 5 ∧
      report.repair = none ∧
      (report.command = ⟨command⟩ ↔
        ¬ (Request.new (.Polling address .primary) ⟨command⟩ bytes).Disguised) ∧
      (report.dataLength = bytes.length ↔
        ¬ (command = 31 ∧ 2 ≤ bytes.length)) := by
  obtain ⟨haddress, bytes, hspells, hlength, rfl⟩ := buildText_ok_iff.mp h
  let request := Request.new (.Polling address .primary) ⟨command⟩ bytes
  have hencodable : request.frame.Encodable :=
    ⟨(Address.accepted_polling_iff address .primary).mpr haddress,
      Nat.zero_le 3, (Request.length_payload request).trans_le hlength, rfl⟩
  have hpreambles : (1 : UInt8) ≤ 5 := by decide
  have hreport := inspectBytes_encoding hencodable hpreambles
  have htext := inspectHex_ok_iff.mpr ⟨by
    have hwritten := (spells_writePairs request.frame.encoding).length_eq
    have hencoding := length_encoding_le hencodable
    rw [hwritten, maximumInspectionTextBytes]
    omega, request.frame.encoding, by
      rw [compactText_writePairs]
      exact spells_writePairs _, hreport⟩
  refine ⟨bytes, _, decodeHex_ok_iff.mpr hspells, htext, rfl, rfl, rfl, rfl,
    Request.logicalCommand_eq_iff request,
    (dataLength_eq_iff request).trans ?_⟩
  have hcommand : request.command = ⟨31⟩ ↔ command = 31 :=
    CommandCode.mk.injEq command 31 ▸ Iff.rfl
  exact not_congr (and_congr_left' hcommand)

/-- The identity of the device at address zero is asked for. -/
theorem built_text_inspected_identity :
    ∃ text, buildText 0 0 [] = .ok text ∧
      ∃ report, inspectHex text = .ok report ∧
        report.address = .Polling 0 .primary := by
  obtain ⟨bytes, report, -, hreport, -, haddress, -⟩ :=
    @built_text_inspected 0 0 [] _ rfl
  exact ⟨_, rfl, report, hreport, haddress⟩

end HartLink.Operation
