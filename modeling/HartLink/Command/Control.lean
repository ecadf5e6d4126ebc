import HartLink.Command.Process

/-!
# Changing a device

Commands 6, 7, 14 to 16, 19, 34 to 47.  A device that carries out a write reports
the value it now has, in the form in which the request gave it.
-/

namespace HartLink.Command

open HartLink.Foundation
open HartLink.Wire
open HartLink.Operation
open HartLink.Service

def invalidValue (field : String) : CodecError :=
  .operation (.invalidValue field)

/-! ## Floating-point numbers -/

/-- The exponent of an infinity or of no number has all its bits set. -/
def isFinite (bits : UInt32) : Bool := (bits >>> 23) &&& 0xff ≠ 0xff

/-- A finite number is below zero if it has a sign and is not a zero. -/
def isBelowZero (bits : UInt32) : Bool := bits > 0x80000000

/-! ## Replies with one field -/

def decodeByte (command : CommandCode) (field : String) (reply : DeviceReply) :
    Except CodecError UInt8 := do
  reply.requireSuccess command
  PayloadReader.decodeWhole reply.data (·.u8 field)

def decodeReal (command : CommandCode) (field : String) (reply : DeviceReply) :
    Except CodecError UInt32 := do
  reply.requireSuccess command
  PayloadReader.decodeWhole reply.data (·.f32 field)

section Replies

variable {command : CommandCode} {field : String} {reply : DeviceReply}

theorem decodeByte_eq_ok_iff {byte : UInt8} :
    decodeByte command field reply = .ok byte ↔
      Succeeds command reply ∧ reply.data = [byte] :=
  requireSuccess_bind_eq_ok_iff.trans (and_congr_right'
    (PayloadReader.decodeWhole_eq_ok_iff
      (PayloadReader.parses_u8 field).readsWhole))

theorem decodeReal_eq_ok_iff {bits : UInt32} :
    decodeReal command field reply = .ok bits ↔
      Succeeds command reply ∧ reply.data = realBytes bits :=
  requireSuccess_bind_eq_ok_iff.trans (and_congr_right'
    (PayloadReader.decodeWhole_eq_ok_iff (parses_real field).readsWhole))

end Replies

/-! ## Damping and range -/

structure SetDamping where
  seconds : UInt32
  deriving DecidableEq, Repr

namespace SetDamping

def new (seconds : UInt32) : Except CodecError SetDamping :=
  if !isFinite seconds || isBelowZero seconds then
    .error (invalidValue "damping value")
  else .ok { seconds }

def operation (damping : SetDamping) : DeviceOperation UInt32 where
  command := ⟨34⟩
  encodeRequest :=
    if !isFinite damping.seconds || isBelowZero damping.seconds then
      .error (invalidValue "damping value")
    else .ok (realBytes damping.seconds)
  decodeReply := decodeReal ⟨34⟩ "actual damping value"

end SetDamping

structure RangeValues where
  unit : UInt8
  upper : UInt32
  lower : UInt32
  deriving DecidableEq, Repr

namespace RangeValues

def new (unit : UInt8) (lower upper : UInt32) :
    Except CodecError RangeValues :=
  if !isFinite upper || !isFinite lower then
    .error (invalidValue "range limits")
  else .ok { unit, upper, lower }

def read (reader : PayloadReader) :
    Except CodecError (RangeValues × PayloadReader) := do
  let (unit, reader) ← reader.u8 "range unit"
  let (upper, reader) ← reader.f32 "upper range limit"
  let (lower, reader) ← reader.f32 "lower range limit"
  return ({ unit, upper, lower }, reader)

def encoding (range : RangeValues) : Bytes :=
  range.unit :: (realBytes range.upper ++ realBytes range.lower)

theorem readsWhole_read :
    PayloadReader.tape.ReadsWhole read (Grammar.encoded encoding) := by
  refine Tape.ReadsWhole.of_iff
    ((PayloadReader.parses_u8 "range unit").bind_whole fun unit =>
      (parses_real "upper range limit").bind_whole fun upper =>
        (parses_real "lower range limit").bind_whole fun lower =>
          Tape.readsWhole_pure (mk unit upper lower)) ?_
  rintro ⟨unit, upper, lower⟩ string
  simp [Grammar.followed, Grammar.encoded, Grammar.nothing, encoding]

end RangeValues

structure SetRange where
  values : RangeValues
  deriving DecidableEq, Repr

namespace SetRange

def new (unit : UInt8) (lower upper : UInt32) : Except CodecError SetRange := do
  return ⟨← RangeValues.new unit lower upper⟩

def operation (range : SetRange) : DeviceOperation RangeValues where
  command := ⟨35⟩
  encodeRequest :=
    if !isFinite range.values.upper || !isFinite range.values.lower then
      .error (invalidValue "range limits")
    else .ok range.values.encoding
  decodeReply reply := do
    reply.requireSuccess ⟨35⟩
    PayloadReader.decodeWhole reply.data RangeValues.read

end SetRange

theorem setRange_eq_ok_iff {range : SetRange} {reply : DeviceReply}
    {values : RangeValues} :
    range.operation.decodeReply reply = .ok values ↔
      Succeeds ⟨35⟩ reply ∧ reply.data = values.encoding :=
  requireSuccess_bind_eq_ok_iff.trans (and_congr_right'
    (PayloadReader.decodeWhole_eq_ok_iff RangeValues.readsWhole_read))

/-! ## Actions -/

structure ActionCommand where
  command : CommandCode
  data : Bytes
  deriving DecidableEq, Repr

namespace ActionCommand

def new (command : UInt8) (data : Bytes) :
    Except CodecError ActionCommand :=
  if ¬(36 ≤ command ∧ command ≤ 38 ∨ 41 ≤ command ∧ command ≤ 43) then
    .error (invalidValue "action command number")
  else if !(requestConstraint (.ofByte command)).allows data.length then
    .error (.requestLength (CommandCode.ofByte command).get data.length)
  else .ok { command := .ofByte command, data }

def operation (action : ActionCommand) : DeviceOperation DeviceReply where
  command := action.command
  encodeRequest := .ok action.data
  decodeReply reply := do
    reply.requireSuccess action.command
    .ok reply

end ActionCommand

structure EepromControl where
  code : UInt8
  deriving DecidableEq, Repr

def EepromControl.operation (control : EepromControl) :
    DeviceOperation UInt8 where
  command := ⟨39⟩
  encodeRequest := .ok [control.code]
  decodeReply := decodeByte ⟨39⟩ "memory control code"

/-! ## The current output -/

structure FixedCurrent where
  milliamps : UInt32
  deriving DecidableEq, Repr

namespace FixedCurrent

def new (milliamps : UInt32) : Except CodecError FixedCurrent :=
  if !isFinite milliamps then .error (invalidValue "fixed current")
  else .ok { milliamps }

def operation (current : FixedCurrent) : DeviceOperation UInt32 where
  command := ⟨40⟩
  encodeRequest :=
    if !isFinite current.milliamps then
      .error (invalidValue "fixed current")
    else .ok (realBytes current.milliamps)
  decodeReply := decodeReal ⟨40⟩ "actual current"

end FixedCurrent

structure WritePrimaryUnit where
  unit : UInt8
  deriving DecidableEq, Repr

def WritePrimaryUnit.operation (write : WritePrimaryUnit) :
    DeviceOperation UInt8 where
  command := ⟨44⟩
  encodeRequest := .ok [write.unit]
  decodeReply := decodeByte ⟨44⟩ "primary-variable unit"

structure AnalogTrim where
  command : CommandCode
  referenceCurrent : UInt32
  deriving DecidableEq, Repr

namespace AnalogTrim

def new (command : UInt8) (referenceCurrent : UInt32) :
    Except CodecError AnalogTrim :=
  if ¬(command = 45 ∨ command = 46) ∨ isFinite referenceCurrent = false then
    .error (invalidValue "current-output trim")
  else .ok { command := .ofByte command, referenceCurrent }

def zero (referenceCurrent : UInt32) : Except CodecError AnalogTrim :=
  new 45 referenceCurrent

def gain (referenceCurrent : UInt32) : Except CodecError AnalogTrim :=
  new 46 referenceCurrent

/-- The current is not checked again when the request is made. -/
def operation (trim : AnalogTrim) : DeviceOperation UInt32 where
  command := trim.command
  encodeRequest := .ok (realBytes trim.referenceCurrent)
  decodeReply := decodeReal trim.command "actual trim current"

end AnalogTrim

structure WriteTransferFunction where
  function : UInt8
  deriving DecidableEq, Repr

def WriteTransferFunction.operation (write : WriteTransferFunction) :
    DeviceOperation UInt8 where
  command := ⟨47⟩
  encodeRequest := .ok [write.function]
  decodeReply := decodeByte ⟨47⟩ "transfer function"

/-! ## The polling address -/

structure PollingAddress where
  node : UInt8
  loopCurrentEnabled : Bool
  deriving DecidableEq, Repr

namespace PollingAddress

def new (node : UInt8) (loopCurrentEnabled : Bool) :
    Except CodecError PollingAddress :=
  if node > 63 then .error (invalidValue "polling address")
  else .ok { node, loopCurrentEnabled }

/-- Without a mode, only the address zero has the loop current enabled. -/
def readMode (node : UInt8) (reader : PayloadReader) :
    Except CodecError (Bool × PayloadReader) :=
  if reader.remaining = 0 then .ok (node = 0, reader)
  else do
    let (mode, reader) ← reader.u8 "loop-current mode"
    return (mode ≠ 0, reader)

def read (reader : PayloadReader) :
    Except CodecError (PollingAddress × PayloadReader) := do
  let (byte, reader) ← reader.u8 "polling address"
  let node := byte &&& 0x3f
  let (loopCurrentEnabled, reader) ← readMode node reader
  return ({ node, loopCurrentEnabled }, reader)

theorem readsWhole_readMode (node : UInt8) :
    PayloadReader.tape.ReadsWhole (readMode node) fun enabled string =>
      enabled = decide (node = 0) ∧ string = [] ∨
        ∃ mode : UInt8, enabled = decide (mode ≠ 0) ∧ string = [mode] := by
  have hmode := (PayloadReader.parses_u8 "loop-current mode").readsWhole.map
    fun mode => decide (mode ≠ 0)
  exact Tape.readsWhole_unlessEnd
    (fun reader => (PayloadReader.view_eq_nil_iff reader).symm) _ hmode
    (by simp)

theorem readsWhole_read :
    PayloadReader.tape.ReadsWhole read fun address string =>
      ∃ byte : UInt8, address.node = byte &&& 0x3f ∧
        (address.loopCurrentEnabled = decide (address.node = 0) ∧
            string = [byte] ∨
          ∃ mode : UInt8, address.loopCurrentEnabled = decide (mode ≠ 0) ∧
            string = [byte, mode]) := by
  refine Tape.ReadsWhole.of_iff
    ((PayloadReader.parses_u8 "polling address").bind_whole fun byte =>
      (readsWhole_readMode (byte &&& 0x3f)).map (mk (byte &&& 0x3f))) ?_
  rintro ⟨node, enabled⟩ string
  simp only [Grammar.followed, Grammar.encoded, mk.injEq]
  constructor
  · rintro ⟨byte, _, _, rfl, rfl, _, ⟨rfl, rfl⟩, ⟨rfl, rfl⟩ | ⟨mode, rfl, rfl⟩⟩
    · exact ⟨byte, rfl, .inl ⟨rfl, rfl⟩⟩
    · exact ⟨byte, rfl, .inr ⟨mode, rfl, rfl⟩⟩
  · rintro ⟨byte, rfl, ⟨henabled, rfl⟩ | ⟨mode, henabled, rfl⟩⟩
    · exact ⟨byte, [byte], [], rfl, rfl, enabled, ⟨rfl, rfl⟩,
        .inl ⟨henabled, rfl⟩⟩
    · exact ⟨byte, [byte], [mode], rfl, rfl, enabled, ⟨rfl, rfl⟩,
        .inr ⟨mode, henabled, rfl⟩⟩

end PollingAddress

def decodePollingAddress (data : Bytes) : Except CodecError PollingAddress :=
  PayloadReader.decodeWhole data PollingAddress.read

structure WritePollingAddress where
  value : PollingAddress
  deriving DecidableEq, Repr

namespace WritePollingAddress

def new (node : UInt8) (loopCurrentEnabled : Bool) :
    Except CodecError WritePollingAddress := do
  return ⟨← PollingAddress.new node loopCurrentEnabled⟩

def operation (write : WritePollingAddress) :
    DeviceOperation PollingAddress where
  command := ⟨6⟩
  encodeRequest :=
    if write.value.node > 63 then .error (invalidValue "polling address")
    else .ok [write.value.node,
      if write.value.loopCurrentEnabled then 1 else 0]
  decodeReply reply := do
    reply.requireSuccess ⟨6⟩
    decodePollingAddress reply.data

end WritePollingAddress

structure WriteLegacyPollingAddress where
  node : UInt8
  deriving DecidableEq, Repr

namespace WriteLegacyPollingAddress

def new (node : UInt8) : Except CodecError WriteLegacyPollingAddress :=
  if node > 15 then .error (invalidValue "HART 5 polling address")
  else .ok { node }

def operation (write : WriteLegacyPollingAddress) :
    DeviceOperation PollingAddress where
  command := ⟨6⟩
  encodeRequest :=
    if write.node > 15 then .error (invalidValue "HART 5 polling address")
    else .ok [write.node]
  decodeReply reply := do
    reply.requireSuccess ⟨6⟩
    decodePollingAddress reply.data

end WriteLegacyPollingAddress

structure LoopConfiguration where
  node : UInt8
  loopCurrentMode : Option UInt8
  deriving DecidableEq, Repr

namespace LoopConfiguration

def readMode (reader : PayloadReader) :
    Except CodecError (Option UInt8 × PayloadReader) :=
  if reader.remaining = 0 then .ok (none, reader)
  else do
    let (mode, reader) ← reader.u8 "loop-current mode"
    return (some mode, reader)

def read (reader : PayloadReader) :
    Except CodecError (LoopConfiguration × PayloadReader) := do
  let (byte, reader) ← reader.u8 "polling address"
  let (loopCurrentMode, reader) ← readMode reader
  return ({ node := byte &&& 0x3f, loopCurrentMode }, reader)

theorem readsWhole_read :
    PayloadReader.tape.ReadsWhole read fun configuration string =>
      ∃ byte : UInt8, configuration.node = byte &&& 0x3f ∧
        string = byte :: configuration.loopCurrentMode.toList := by
  have hmode := (PayloadReader.parses_u8 "loop-current mode").readsWhole.map
    fun mode => some mode
  have hread := Tape.readsWhole_unlessEnd
    (fun reader => (PayloadReader.view_eq_nil_iff reader).symm) none hmode
    (by simp [Grammar.encoded])
  refine Tape.ReadsWhole.of_iff
    ((PayloadReader.parses_u8 "polling address").bind_whole fun byte =>
      hread.map (mk (byte &&& 0x3f))) ?_
  rintro ⟨node, mode⟩ string
  simp only [Grammar.followed, Grammar.encoded, Grammar.nothing, mk.injEq]
  constructor
  · rintro ⟨byte, _, _, rfl, rfl, _, ⟨rfl, rfl⟩, ⟨rfl, rfl⟩ | ⟨_, rfl, rfl⟩⟩
    · exact ⟨byte, rfl, rfl⟩
    · exact ⟨byte, rfl, rfl⟩
  · rintro ⟨byte, rfl, rfl⟩
    refine ⟨byte, [byte], mode.toList, rfl, rfl, mode, ⟨rfl, rfl⟩, ?_⟩
    cases mode with
    | none => exact .inl ⟨rfl, rfl⟩
    | some mode => exact .inr ⟨mode, rfl, rfl⟩

end LoopConfiguration

def readLoopConfiguration : DeviceOperation LoopConfiguration where
  command := ⟨7⟩
  encodeRequest := .ok []
  decodeReply reply := do
    reply.requireSuccess ⟨7⟩
    PayloadReader.decodeWhole reply.data LoopConfiguration.read

/-! ## Device information -/

def decodeInformation (command : CommandCode) (reply : DeviceReply) :
    Except CodecError Bytes := do
  reply.requireSuccess command
  if reply.data.length = 0 then
    .error (invalidValue "empty device information")
  else .ok reply.data

def readTransducerInformation : DeviceOperation Bytes where
  command := ⟨14⟩
  encodeRequest := .ok []
  decodeReply := decodeInformation ⟨14⟩

def readOutputInformation : DeviceOperation Bytes where
  command := ⟨15⟩
  encodeRequest := .ok []
  decodeReply := decodeInformation ⟨15⟩

def decodeAssemblyNumber (data : Bytes) : Except CodecError UInt32 :=
  PayloadReader.decodeWhole data (·.u24 "final assembly number")

def readFinalAssemblyNumber : DeviceOperation UInt32 where
  command := ⟨16⟩
  encodeRequest := .ok []
  decodeReply reply := do
    reply.requireSuccess ⟨16⟩
    decodeAssemblyNumber reply.data

structure WriteFinalAssemblyNumber where
  value : UInt32
  deriving DecidableEq, Repr

namespace WriteFinalAssemblyNumber

def new (value : UInt32) : Except CodecError WriteFinalAssemblyNumber :=
  if value > 0x00ffffff then .error (invalidValue "24-bit integer")
  else .ok { value }

/-- A reply without data stands for the number that was written. -/
def operation (write : WriteFinalAssemblyNumber) : DeviceOperation UInt32 where
  command := ⟨19⟩
  encodeRequest :=
    if write.value > 0x00ffffff then .error (invalidValue "24-bit integer")
    else .ok ((beBytes 4 write.value.toNat).drop 1)
  decodeReply reply := do
    reply.requireSuccess ⟨19⟩
    if reply.data.length = 0 then .ok write.value
    else decodeAssemblyNumber reply.data

end WriteFinalAssemblyNumber

end HartLink.Command
