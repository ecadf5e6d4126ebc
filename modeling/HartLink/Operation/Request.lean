import HartLink.Wire.RoundTrip

/-!
# Requests, replies and the command registry

A request names a logical command in the 16-bit command space.  Numbers above
255 travel through the wire command 31 with the number in front of the data;
`logicalCommand` and `DeviceReply.fromFrame` read them back.
-/

namespace HartLink.Operation

open HartLink.Foundation
open HartLink.Wire

/-! ## Command numbers -/

structure CommandCode where
  get : UInt16
  deriving DecidableEq, Repr

def fromBeBytes (high low : UInt8) : UInt16 :=
  UInt16.ofNat (high.toNat * 256 + low.toNat)

namespace CommandCode

def isExpanded (command : CommandCode) : Bool := command.get > 255

def ofByte (byte : UInt8) : CommandCode := ⟨byte.toUInt16⟩

def toBeBytes (command : CommandCode) : Bytes :=
  [UInt8.ofNat (command.get.toNat / 256), UInt8.ofNat (command.get.toNat % 256)]

theorem isExpanded_iff (command : CommandCode) :
    command.isExpanded = true ↔ 255 < command.get.toNat := by
  simp [isExpanded, UInt16.lt_iff_toNat_lt]

theorem ext_toNat {first second : CommandCode}
    (h : first.get.toNat = second.get.toNat) : first = second := by
  cases first
  cases second
  simpa using UInt16.toNat_inj.mp h

end CommandCode

theorem toNat_fromBeBytes (high low : UInt8) :
    (fromBeBytes high low).toNat = high.toNat * 256 + low.toNat := by
  have hhigh := high.toNat_lt
  have hlow := low.toNat_lt
  rw [fromBeBytes, UInt16.toNat_ofNat']
  omega

/-! ## The registry of known commands -/

inductive OperationSafety where
  | readOnly
  | idempotentWrite
  | action
  deriving DecidableEq, Repr

/-- The registry entries that admission and retry decisions read. -/
structure CommandDescriptor where
  code : CommandCode
  safety : OperationSafety
  deriving DecidableEq, Repr

def descriptor (code : UInt16) (safety : OperationSafety) : CommandDescriptor :=
  { code := ⟨code⟩, safety }

def commands : List CommandDescriptor :=
  [descriptor 0 .readOnly, descriptor 1 .readOnly, descriptor 2 .readOnly,
    descriptor 3 .readOnly, descriptor 6 .idempotentWrite,
    descriptor 7 .readOnly, descriptor 8 .readOnly, descriptor 9 .readOnly,
    descriptor 11 .readOnly, descriptor 12 .readOnly, descriptor 13 .readOnly,
    descriptor 14 .readOnly, descriptor 15 .readOnly, descriptor 16 .readOnly,
    descriptor 17 .idempotentWrite, descriptor 18 .idempotentWrite,
    descriptor 19 .idempotentWrite, descriptor 20 .readOnly,
    descriptor 21 .readOnly, descriptor 22 .idempotentWrite,
    descriptor 33 .readOnly, descriptor 34 .idempotentWrite,
    descriptor 35 .idempotentWrite, descriptor 36 .action,
    descriptor 37 .action, descriptor 38 .action, descriptor 39 .action,
    descriptor 40 .idempotentWrite, descriptor 41 .action,
    descriptor 42 .action, descriptor 43 .action,
    descriptor 44 .idempotentWrite, descriptor 45 .action,
    descriptor 46 .action, descriptor 47 .idempotentWrite,
    descriptor 48 .readOnly, descriptor 73 .readOnly, descriptor 75 .readOnly]

def commandDescriptor (code : CommandCode) : Option CommandDescriptor :=
  commands.find? fun entry => entry.code = code

/-! ## Requests -/

inductive OperationError where
  | truncated (field : String) (offset : Nat)
  | invalidValue (field : String)
  | commandMismatch (expected actual : UInt16)
  | wire (error : WireError)
  deriving DecidableEq, Repr

structure Request where
  address : Address
  command : CommandCode
  data : Bytes
  preambles : UInt8
  frameExpansion : Bytes
  physicalLayer : PhysicalLayer
  retrySafety : Option OperationSafety
  deriving DecidableEq, Repr

def resolvedSafety (request : Request) : OperationSafety :=
  request.retrySafety.getD
    ((commandDescriptor request.command).elim .action (·.safety))

def catalogSafety (request : Request) : Option OperationSafety :=
  (commandDescriptor request.command).map (·.safety)

namespace Request

def new (address : Address) (command : CommandCode) (data : Bytes) : Request :=
  { address, command, data, preambles := 5, frameExpansion := []
    physicalLayer := .fsk, retrySafety := none }

def payloadLen (request : Request) : Nat :=
  request.data.length + if request.command.isExpanded then 2 else 0

def validate (request : Request) : Except OperationError Unit :=
  if request.payloadLen > 255 then
    .error (.wire (.payloadLength request.payloadLen))
  else if request.frameExpansion.length > 3 then
    .error (.wire (.expansionLength request.frameExpansion.length))
  else .ok ()

def wireCommand (request : Request) : UInt8 :=
  if request.command.isExpanded then 31 else request.command.get.toUInt8

def payload (request : Request) : Bytes :=
  if request.command.isExpanded then
    request.command.toBeBytes ++ request.data
  else request.data

def frame (request : Request) : Frame :=
  { preambles := request.preambles
    kind := .request
    physicalLayer := request.physicalLayer
    address := request.address
    expansion := request.frameExpansion
    wireCommand := request.wireCommand
    payload := request.payload
    repair := none }

def toFrame (request : Request) : Except OperationError Frame := do
  request.validate
  match request.frame.delimiter with
  | .ok _ => .ok request.frame
  | .error error => .error (.wire error)

theorem validate_ok_iff (request : Request) :
    request.validate = .ok () ↔
      request.payloadLen ≤ 255 ∧ request.frameExpansion.length ≤ 3 := by
  unfold validate
  split_ifs with hpayload hexpansion
  · simp only [false_iff, not_and]
    omega
  · simp only [false_iff, not_and]
    omega
  · simp only [true_iff]
    omega

theorem length_payload (request : Request) :
    request.payload.length = request.payloadLen := by
  cases hexpanded : request.command.isExpanded with
  | false => simp [payload, payloadLen, hexpanded]
  | true =>
      simp [payload, payloadLen, hexpanded, CommandCode.toBeBytes]

theorem toFrame_of_validate {request : Request}
    (h : request.validate = .ok ()) :
    request.toFrame = .ok request.frame ∧
      request.frame.encode = .ok request.frame.encoding := by
  obtain ⟨hpayload, hexpansion⟩ := (validate_ok_iff request).mp h
  rw [← length_payload] at hpayload
  have hdelimiter : request.frame.delimiter =
      .ok request.frame.packedDelimiter := by
    simp [Frame.delimiter, frame, Nat.not_lt.mpr hexpansion]
  constructor
  · simp only [toFrame, h, hdelimiter]
    rfl
  · simp [Frame.encode, Frame.encoding, frame, Nat.not_lt.mpr hexpansion,
      Nat.not_lt.mpr hpayload]

def encodedFrame (request : Request) : Except OperationError Bytes :=
  match request.toFrame with
  | .error error => .error error
  | .ok frame =>
      match frame.encode with
      | .ok encoded => .ok encoded
      | .error error => .error (.wire error)

theorem encodedFrame_of_validate {request : Request}
    (h : request.validate = .ok ()) :
    request.encodedFrame = .ok request.frame.encoding := by
  obtain ⟨hframe, hencode⟩ := toFrame_of_validate h
  simp only [encodedFrame, hframe, hencode]

theorem encodedFrame_ok {request : Request} {encoded : Bytes}
    (h : request.encodedFrame = .ok encoded) :
    request.validate = .ok () ∧ request.frame.encoding = encoded := by
  cases hvalid : request.validate with
  | error error =>
      simp only [encodedFrame, toFrame, hvalid] at h
      contradiction
  | ok value =>
      rw [encodedFrame_of_validate hvalid] at h
      injection h with h
      exact ⟨rfl, h⟩

end Request

def logicalCommand (frame : Frame) : CommandCode :=
  match frame.payload with
  | high :: low :: _ =>
      if frame.wireCommand = 31 then ⟨fromBeBytes high low⟩
      else .ofByte frame.wireCommand
  | _ => .ofByte frame.wireCommand

namespace Request

/-- A request for command 31 whose data begins with another command number. -/
def Disguised (request : Request) : Prop :=
  request.command = ⟨31⟩ ∧ ∃ high low rest,
    request.data = high :: low :: rest ∧ fromBeBytes high low ≠ 31

theorem toNat_wireCommand {request : Request}
    (h : request.command.isExpanded = false) :
    request.wireCommand.toNat = request.command.get.toNat := by
  have hsmall : request.command.get.toNat ≤ 255 := by
    by_contra hlarge
    have := (CommandCode.isExpanded_iff _).mpr (Nat.lt_of_not_le hlarge)
    rw [h] at this
    contradiction
  simp only [wireCommand, h, Bool.false_eq_true, if_false,
    UInt16.toNat_toUInt8]
  omega

theorem ofByte_wireCommand {request : Request}
    (h : request.command.isExpanded = false) :
    CommandCode.ofByte request.wireCommand = request.command := by
  apply CommandCode.ext_toNat
  simp [CommandCode.ofByte, toNat_wireCommand h]

theorem logicalCommand_of_expanded {request : Request}
    (h : request.command.isExpanded = true) :
    logicalCommand request.frame = request.command := by
  have hlt := request.command.get.toNat_lt
  simp only [logicalCommand, frame, payload, wireCommand, h, if_true,
    CommandCode.toBeBytes, List.cons_append]
  apply CommandCode.ext_toNat
  simp only [toNat_fromBeBytes, UInt8.toNat_ofNat']
  omega

theorem wireCommand_eq_iff {request : Request}
    (h : request.command.isExpanded = false) :
    request.wireCommand = 31 ↔ request.command = ⟨31⟩ := by
  constructor
  · intro hwire
    rw [← ofByte_wireCommand h, hwire]
    rfl
  · intro hcommand
    simp [wireCommand, hcommand, CommandCode.isExpanded]

theorem logicalCommand_eq_iff (request : Request) :
    logicalCommand request.frame = request.command ↔
      ¬ request.Disguised := by
  cases hexpanded : request.command.isExpanded with
  | true =>
      simp only [logicalCommand_of_expanded hexpanded, true_iff]
      rintro ⟨hcommand, -⟩
      simp [hcommand, CommandCode.isExpanded] at hexpanded
  | false =>
      have hpayload : request.frame.payload = request.data := by
        simp [frame, payload, hexpanded]
      have hwire : request.frame.wireCommand = request.wireCommand := rfl
      have hbyte := ofByte_wireCommand hexpanded
      simp only [logicalCommand, hpayload, hwire, Disguised]
      rcases request.data with _ | ⟨high, _ | ⟨low, rest⟩⟩
      · simp [hbyte]
      · simp [hbyte]
      · simp only [wireCommand_eq_iff hexpanded]
        by_cases hcommand : request.command = ⟨31⟩
        · simp [hcommand]
        · simp [hcommand, hbyte]

/-- The request travels through command 31 with a number above 255. -/
def Relayed (request : Request) : Prop :=
  request.command.isExpanded = true ∨ request.command = ⟨31⟩ ∧
    ∃ high low rest, request.data = high :: low :: rest ∧
      255 < (fromBeBytes high low).toNat

theorem toBeBytes_fromBeBytes (high low : UInt8) :
    CommandCode.toBeBytes ⟨fromBeBytes high low⟩ = [high, low] := by
  have hhigh := high.toNat_lt
  have hlow := low.toNat_lt
  have hquotient : (high.toNat * 256 + low.toNat) / 256 = high.toNat := by
    omega
  have hremainder : (high.toNat * 256 + low.toNat) % 256 = low.toNat := by
    omega
  simp [CommandCode.toBeBytes, toNat_fromBeBytes, hquotient, hremainder]

theorem exists_twin_of_relayed {request : Request} (h : request.Relayed) :
    ∃ other : Request, other.frame = request.frame ∧
      other.payloadLen = request.payloadLen ∧
      other.frameExpansion = request.frameExpansion ∧
      other.command ≠ request.command := by
  have hplain : CommandCode.isExpanded ⟨31⟩ = false := by decide
  rcases h with hexpanded | ⟨hcommand, high, low, rest, hdata, hlarge⟩
  · refine ⟨{ request with
      command := ⟨31⟩, data := request.command.toBeBytes ++ request.data },
      ?_, ?_, rfl, ?_⟩
    · simp [frame, wireCommand, payload, hexpanded, hplain]
    · simp [payloadLen, hexpanded, hplain, CommandCode.toBeBytes]
    · intro heq
      simp only at heq
      rw [← heq, hplain] at hexpanded
      contradiction
  · have hexpanded := (CommandCode.isExpanded_iff
      ⟨fromBeBytes high low⟩).mpr hlarge
    refine ⟨{ request with
      command := ⟨fromBeBytes high low⟩, data := rest }, ?_, ?_, rfl, ?_⟩
    · simp [frame, wireCommand, payload, hexpanded, hplain, hcommand, hdata,
        toBeBytes_fromBeBytes]
    · simp [payloadLen, hexpanded, hplain, hcommand, hdata]
    · intro heq
      simp only at heq
      rw [heq, hcommand, hplain] at hexpanded
      contradiction

theorem command_eq_of_wire {request other : Request}
    (h : ¬ request.Relayed)
    (hwire : request.frame.wireCommand = other.frame.wireCommand)
    (hpayload : request.frame.payload = other.frame.payload) :
    request.command = other.command := by
  have hexpanded : request.command.isExpanded = false := by
    by_contra hother
    exact h (.inl (by simpa using hother))
  cases hother : other.command.isExpanded with
  | false =>
      rw [← ofByte_wireCommand hexpanded, ← ofByte_wireCommand hother]
      exact congrArg CommandCode.ofByte hwire
  | true =>
      have hthirtyOne : request.wireCommand = 31 := by
        rw [show request.wireCommand = other.wireCommand from hwire]
        simp [wireCommand, hother]
      have hdata : request.data = other.command.toBeBytes ++ other.data := by
        simpa [frame, payload, hexpanded, hother] using hpayload
      have hlarge := (CommandCode.isExpanded_iff _).mp hother
      have hlt := other.command.get.toNat_lt
      refine absurd (.inr ⟨(wireCommand_eq_iff hexpanded).mp hthirtyOne, _, _,
        _, hdata, ?_⟩) h
      rw [toNat_fromBeBytes, UInt8.toNat_ofNat', UInt8.toNat_ofNat']
      omega

end Request

/-! ## Replies -/

structure DeviceReply where
  address : Address
  command : CommandCode
  responseCode : UInt8
  deviceStatus : UInt8
  data : Bytes
  burst : Bool
  physicalLayer : PhysicalLayer
  responsePreambles : UInt8
  frameExpansion : Bytes
  deriving DecidableEq, Repr

namespace DeviceReply

def ofParts (frame : Frame) (responseCode deviceStatus : UInt8)
    (command : CommandCode) (data : Bytes) : DeviceReply :=
  { address := frame.address, command, responseCode, deviceStatus, data
    burst := frame.kind = .burst
    physicalLayer := frame.physicalLayer
    responsePreambles := frame.preambles
    frameExpansion := frame.expansion }

def fromFrame (frame : Frame) : Except OperationError DeviceReply :=
  if frame.kind = .request then
    .error (.invalidValue "response frame type")
  else
    match frame.payload with
    | responseCode :: deviceStatus :: rest =>
        if frame.wireCommand = 31 then
          match rest with
          | high :: low :: data =>
              .ok (ofParts frame responseCode deviceStatus
                ⟨fromBeBytes high low⟩ data)
          | _ => .error (.truncated "expanded command number"
              frame.payload.length)
        else
          .ok (ofParts frame responseCode deviceStatus
            (.ofByte frame.wireCommand) rest)
    | _ => .error (.truncated "response code and status" frame.payload.length)

theorem fromFrame_ok {frame : Frame} {reply : DeviceReply}
    (h : fromFrame frame = .ok reply) :
    ∃ responseCode deviceStatus command data,
      reply = ofParts frame responseCode deviceStatus command data ∧
      ∀ preambles : UInt8, fromFrame { frame with preambles } =
        .ok (ofParts { frame with preambles } responseCode deviceStatus
          command data) := by
  by_cases hkind : frame.kind = .request
  · simp [fromFrame, hkind] at h
  rcases hpayload : frame.payload with _ | ⟨code, _ | ⟨status, rest⟩⟩
  · simp [fromFrame, hkind, hpayload] at h
  · simp [fromFrame, hkind, hpayload] at h
  by_cases hwire : frame.wireCommand = 31
  · rcases rest with _ | ⟨high, _ | ⟨low, data⟩⟩
    · simp [fromFrame, hkind, hpayload, hwire] at h
    · simp [fromFrame, hkind, hpayload, hwire] at h
    · simp only [fromFrame, hkind, hpayload, hwire, if_false, if_true,
        Except.ok.injEq] at h
      exact ⟨code, status, ⟨fromBeBytes high low⟩, data, h.symm,
        fun preambles => by simp [fromFrame, hkind, hwire]⟩
  · simp only [fromFrame, hkind, hpayload, hwire, if_false,
      Except.ok.injEq] at h
    exact ⟨code, status, .ofByte frame.wireCommand, rest, h.symm,
      fun preambles => by simp [fromFrame, hkind, hwire]⟩

theorem burst_of_fromFrame {frame : Frame} {reply : DeviceReply}
    (h : fromFrame frame = .ok reply) :
    reply.burst = decide (frame.kind = .burst) := by
  obtain ⟨_, _, _, _, rfl, -⟩ := fromFrame_ok h
  rfl

theorem fromFrame_preambles {frame : Frame} {reply : DeviceReply}
    (h : fromFrame frame = .ok reply) (preambles : UInt8) :
    fromFrame { frame with preambles } =
      .ok { reply with responsePreambles := preambles } := by
  obtain ⟨_, _, _, _, rfl, hframe⟩ := fromFrame_ok h
  exact hframe preambles

end DeviceReply

end HartLink.Operation
