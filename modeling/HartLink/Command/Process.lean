import HartLink.Command.Registry
import HartLink.Operation.Payloads

/-!
# Reading process values

Commands 1, 2, 3, 8, 9, 33 and 48.  Each decoder accepts exactly the payloads
that the grammar of its value describes; the replies with several variables are
read by loops.
-/

namespace HartLink.Command

open HartLink.Foundation
open HartLink.Wire
open HartLink.Operation
open HartLink.Service

/-- A number in the payload of a reply, given by its 32 bits. -/
def realBytes (bits : UInt32) : Bytes := beBytes 4 bits.toNat

@[simp] theorem length_realBytes (bits : UInt32) :
    (realBytes bits).length = 4 :=
  length_beBytes _ _

theorem parses_real (field : String) :
    PayloadReader.tape.Parses (·.f32 field) (Grammar.encoded realBytes) :=
  PayloadReader.parses_f32 field

/-! ## One variable -/

structure PrimaryValue where
  unit : UInt8
  value : UInt32
  deriving DecidableEq, Repr

namespace PrimaryValue

def read (reader : PayloadReader) :
    Except CodecError (PrimaryValue × PayloadReader) := do
  let (unit, reader) ← reader.u8 "primary-variable unit"
  let (value, reader) ← reader.f32 "primary variable"
  return ({ unit, value }, reader)

def encoding (value : PrimaryValue) : Bytes :=
  value.unit :: realBytes value.value

theorem readsWhole_read :
    PayloadReader.tape.ReadsWhole read (Grammar.encoded encoding) := by
  refine Tape.ReadsWhole.of_iff
    ((PayloadReader.parses_u8 "primary-variable unit").bind_whole fun unit =>
      (parses_real "primary variable").bind_whole fun value =>
        Tape.readsWhole_pure (mk unit value)) ?_
  rintro ⟨unit, value⟩ string
  simp [Grammar.followed, Grammar.encoded, Grammar.nothing, encoding]

end PrimaryValue

def readPrimaryValue : DeviceOperation PrimaryValue where
  command := ⟨1⟩
  encodeRequest := .ok []
  decodeReply reply := do
    reply.requireSuccess ⟨1⟩
    PayloadReader.decodeWhole reply.data PrimaryValue.read

/-! ## The loop signal -/

structure LoopSignal where
  milliamps : UInt32
  percent : UInt32
  deriving DecidableEq, Repr

namespace LoopSignal

def read (reader : PayloadReader) :
    Except CodecError (LoopSignal × PayloadReader) := do
  let (milliamps, reader) ← reader.f32 "loop current"
  let (percent, reader) ← reader.f32 "percent of range"
  return ({ milliamps, percent }, reader)

def encoding (signal : LoopSignal) : Bytes :=
  realBytes signal.milliamps ++ realBytes signal.percent

theorem readsWhole_read :
    PayloadReader.tape.ReadsWhole read (Grammar.encoded encoding) := by
  refine Tape.ReadsWhole.of_iff
    ((parses_real "loop current").bind_whole fun milliamps =>
      (parses_real "percent of range").bind_whole fun percent =>
        Tape.readsWhole_pure (mk milliamps percent)) ?_
  rintro ⟨milliamps, percent⟩ string
  simp [Grammar.followed, Grammar.encoded, Grammar.nothing, encoding]

end LoopSignal

def readLoopSignal : DeviceOperation LoopSignal where
  command := ⟨2⟩
  encodeRequest := .ok []
  decodeReply reply := do
    reply.requireSuccess ⟨2⟩
    PayloadReader.decodeWhole reply.data LoopSignal.read

/-! ## Dynamic variables -/

structure MeasuredValue where
  unit : UInt8
  value : UInt32
  deriving DecidableEq, Repr

namespace MeasuredValue

def read (reader : PayloadReader) :
    Except CodecError (MeasuredValue × PayloadReader) := do
  let (unit, reader) ← reader.u8 "dynamic-variable unit"
  let (value, reader) ← reader.f32 "dynamic variable"
  return ({ unit, value }, reader)

def encoding (value : MeasuredValue) : Bytes :=
  value.unit :: realBytes value.value

theorem length_encoding (value : MeasuredValue) :
    value.encoding.length = 5 := by
  simp [encoding]

theorem parses_read :
    PayloadReader.tape.Parses read (Grammar.encoded encoding) := by
  refine Tape.Parses.of_iff
    ((PayloadReader.parses_u8 "dynamic-variable unit").bind fun unit =>
      (parses_real "dynamic variable").bind fun value =>
        Tape.parses_pure (mk unit value)) ?_
  rintro ⟨unit, value⟩ string
  simp [Grammar.followed, Grammar.encoded, Grammar.nothing, encoding]

end MeasuredValue

structure DynamicValues where
  loopCurrent : UInt32
  values : List MeasuredValue
  deriving DecidableEq, Repr

namespace DynamicValues

def read (reader : PayloadReader) :
    Except CodecError (DynamicValues × PayloadReader) := do
  let (loopCurrent, reader) ← reader.f32 "loop current"
  let (values, reader) ←
    PayloadReader.tape.readWhile 5 MeasuredValue.read 4 reader
  return ({ loopCurrent, values }, reader)

def encoding (dynamic : DynamicValues) : Bytes :=
  realBytes dynamic.loopCurrent ++ dynamic.values.flatMap MeasuredValue.encoding

theorem length_encoding (dynamic : DynamicValues) :
    dynamic.encoding.length = 4 + 5 * dynamic.values.length := by
  simp [encoding, List.length_flatMap, MeasuredValue.length_encoding,
    Nat.mul_comm]

theorem readsWhole_read :
    PayloadReader.tape.ReadsWhole read fun dynamic string =>
      dynamic.values.length ≤ 4 ∧ string = dynamic.encoding := by
  have hloop := Tape.readsWhole_readWhile (show 0 < 5 by decide)
    MeasuredValue.parses_read
    (by rintro value string rfl; exact value.length_encoding) 4
  refine Tape.ReadsWhole.of_iff
    ((parses_real "loop current").bind_whole fun loopCurrent =>
      hloop.map (mk loopCurrent)) ?_
  rintro ⟨loopCurrent, values⟩ string
  simp only [Grammar.followed, Grammar.encoded, Grammar.repeated_encoded,
    encoding, mk.injEq]
  constructor
  · rintro ⟨_, _, _, rfl, rfl, _, ⟨rfl, rfl⟩, hlength, rfl⟩
    exact ⟨hlength, rfl⟩
  · rintro ⟨hlength, rfl⟩
    exact ⟨_, _, _, rfl, rfl, _, ⟨rfl, rfl⟩, hlength, rfl⟩

end DynamicValues

def readDynamicValues : DeviceOperation DynamicValues where
  command := ⟨3⟩
  encodeRequest := .ok []
  decodeReply reply := do
    reply.requireSuccess ⟨3⟩
    if reply.data.length < 9 ∨ (reply.data.length - 4) % 5 ≠ 0 then
      .error (.operation (.invalidValue "dynamic-variable payload length"))
    else PayloadReader.decodeWhole reply.data DynamicValues.read

/-! ## Classifications -/

structure VariableClassifications where
  classes : Bytes
  deriving DecidableEq, Repr

def readVariableClassifications :
    DeviceOperation VariableClassifications where
  command := ⟨8⟩
  encodeRequest := .ok []
  decodeReply reply := do
    reply.requireSuccess ⟨8⟩
    if ¬(1 ≤ reply.data.length ∧ reply.data.length ≤ 4) then
      .error (.operation (.invalidValue "classification count"))
    else .ok { classes := reply.data }

/-! ## Device variables -/

structure DeviceVariable where
  code : UInt8
  classification : UInt8
  unit : UInt8
  value : UInt32
  status : UInt8
  deriving DecidableEq, Repr

namespace DeviceVariable

def read (reader : PayloadReader) :
    Except CodecError (DeviceVariable × PayloadReader) := do
  let (code, reader) ← reader.u8 "variable code"
  let (classification, reader) ← reader.u8 "variable classification"
  let (unit, reader) ← reader.u8 "variable unit"
  let (value, reader) ← reader.f32 "variable value"
  let (status, reader) ← reader.u8 "variable status"
  return ({ code, classification, unit, value, status }, reader)

def encoding (entry : DeviceVariable) : Bytes :=
  entry.code :: entry.classification :: entry.unit ::
    (realBytes entry.value ++ [entry.status])

theorem length_encoding (entry : DeviceVariable) :
    entry.encoding.length = 8 := by
  simp [encoding]

theorem parses_read :
    PayloadReader.tape.Parses read (Grammar.encoded encoding) := by
  refine Tape.Parses.of_iff
    ((PayloadReader.parses_u8 "variable code").bind fun code =>
      (PayloadReader.parses_u8 "variable classification").bind fun class_ =>
        (PayloadReader.parses_u8 "variable unit").bind fun unit =>
          (parses_real "variable value").bind fun value =>
            (PayloadReader.parses_u8 "variable status").bind fun status =>
              Tape.parses_pure (mk code class_ unit value status)) ?_
  rintro ⟨code, class_, unit, value, status⟩ string
  simp [Grammar.followed, Grammar.encoded, Grammar.nothing, encoding]

end DeviceVariable

structure DeviceVariables where
  extendedStatus : UInt8
  deviceVariables : List DeviceVariable
  deriving DecidableEq, Repr

namespace DeviceVariables

def read (reader : PayloadReader) :
    Except CodecError (DeviceVariables × PayloadReader) := do
  let (extendedStatus, reader) ← reader.u8 "extended status"
  let (deviceVariables, reader) ←
    PayloadReader.tape.readWhile 8 DeviceVariable.read 8 reader
  return ({ extendedStatus, deviceVariables }, reader)

def encoding (device : DeviceVariables) : Bytes :=
  device.extendedStatus :: device.deviceVariables.flatMap DeviceVariable.encoding

theorem length_encoding (device : DeviceVariables) :
    device.encoding.length = 1 + 8 * device.deviceVariables.length := by
  simp [encoding, List.length_flatMap, DeviceVariable.length_encoding,
    Nat.mul_comm, Nat.add_comm]

theorem readsWhole_read :
    PayloadReader.tape.ReadsWhole read fun device string =>
      device.deviceVariables.length ≤ 8 ∧ string = device.encoding := by
  have hloop := Tape.readsWhole_readWhile (show 0 < 8 by decide)
    DeviceVariable.parses_read
    (by rintro entry string rfl; exact entry.length_encoding) 8
  refine Tape.ReadsWhole.of_iff
    ((PayloadReader.parses_u8 "extended status").bind_whole fun status =>
      hloop.map (mk status)) ?_
  rintro ⟨status, deviceVariables⟩ string
  simp only [Grammar.followed, Grammar.encoded, Grammar.repeated_encoded,
    encoding, mk.injEq]
  constructor
  · rintro ⟨_, _, _, rfl, rfl, _, ⟨rfl, rfl⟩, hlength, rfl⟩
    exact ⟨hlength, rfl⟩
  · rintro ⟨hlength, rfl⟩
    exact ⟨_, _, _, rfl, rfl, _, ⟨rfl, rfl⟩, hlength, rfl⟩

end DeviceVariables

structure ReadDeviceVariables where
  slots : Bytes
  deriving DecidableEq, Repr

namespace ReadDeviceVariables

def new (slots : Bytes) : Except CodecError ReadDeviceVariables :=
  if ¬(1 ≤ slots.length ∧ slots.length ≤ 8) then
    .error (.requestLength 9 slots.length)
  else .ok { slots }

def operation (request : ReadDeviceVariables) :
    DeviceOperation DeviceVariables where
  command := ⟨9⟩
  encodeRequest := .ok request.slots
  decodeReply reply := do
    reply.requireSuccess ⟨9⟩
    if reply.data.length = 0 ∨ (reply.data.length - 1) % 8 ≠ 0 then
      .error (.operation (.invalidValue "device-variable payload length"))
    else PayloadReader.decodeWhole reply.data DeviceVariables.read

end ReadDeviceVariables

/-! ## Selected variables -/

structure SelectedVariable where
  code : UInt8
  unit : UInt8
  value : UInt32
  deriving DecidableEq, Repr

namespace SelectedVariable

def read (reader : PayloadReader) :
    Except CodecError (SelectedVariable × PayloadReader) := do
  let (code, reader) ← reader.u8 "selected-variable code"
  let (unit, reader) ← reader.u8 "selected-variable unit"
  let (value, reader) ← reader.f32 "selected-variable value"
  return ({ code, unit, value }, reader)

def encoding (entry : SelectedVariable) : Bytes :=
  entry.code :: entry.unit :: realBytes entry.value

theorem length_encoding (entry : SelectedVariable) :
    entry.encoding.length = 6 := by
  simp [encoding]

theorem parses_read :
    PayloadReader.tape.Parses read (Grammar.encoded encoding) := by
  refine Tape.Parses.of_iff
    ((PayloadReader.parses_u8 "selected-variable code").bind fun code =>
      (PayloadReader.parses_u8 "selected-variable unit").bind fun unit =>
        (parses_real "selected-variable value").bind fun value =>
          Tape.parses_pure (mk code unit value)) ?_
  rintro ⟨code, unit, value⟩ string
  simp [Grammar.followed, Grammar.encoded, Grammar.nothing, encoding]

end SelectedVariable

structure ReadSelectedVariables where
  deviceVariables : Bytes
  deriving DecidableEq, Repr

namespace ReadSelectedVariables

def new (deviceVariables : Bytes) : Except CodecError ReadSelectedVariables :=
  if ¬(1 ≤ deviceVariables.length ∧ deviceVariables.length ≤ 4) then
    .error (.requestLength 33 deviceVariables.length)
  else .ok { deviceVariables }

/-- The loop has no bound of its own; every turn uses up some of the data. -/
def operation (request : ReadSelectedVariables) :
    DeviceOperation (List SelectedVariable) where
  command := ⟨33⟩
  encodeRequest := .ok request.deviceVariables
  decodeReply reply := do
    reply.requireSuccess ⟨33⟩
    if reply.data.length = 0 ∨ reply.data.length % 6 ≠ 0 ∨
        reply.data.length > 24 then
      .error (.operation (.invalidValue "selected-variable payload length"))
    else
      PayloadReader.decodeWhole reply.data
        (PayloadReader.tape.readWhile 6 SelectedVariable.read
          reply.data.length)

end ReadSelectedVariables

/-! ## Additional status -/

structure AdditionalStatus where
  bytes : Bytes
  deriving DecidableEq, Repr

def readAdditionalStatus : DeviceOperation AdditionalStatus where
  command := ⟨48⟩
  encodeRequest := .ok []
  decodeReply reply := do
    reply.requireSuccess ⟨48⟩
    .ok { bytes := reply.data }

/-! ## Replies that are accepted -/

section Replies

variable {reply : DeviceReply}

theorem readPrimaryValue_eq_ok_iff {value : PrimaryValue} :
    readPrimaryValue.decodeReply reply = .ok value ↔
      Succeeds ⟨1⟩ reply ∧ reply.data = value.encoding :=
  requireSuccess_bind_eq_ok_iff.trans (and_congr_right'
    (PayloadReader.decodeWhole_eq_ok_iff PrimaryValue.readsWhole_read))

theorem readLoopSignal_eq_ok_iff {signal : LoopSignal} :
    readLoopSignal.decodeReply reply = .ok signal ↔
      Succeeds ⟨2⟩ reply ∧ reply.data = signal.encoding :=
  requireSuccess_bind_eq_ok_iff.trans (and_congr_right'
    (PayloadReader.decodeWhole_eq_ok_iff LoopSignal.readsWhole_read))

theorem readDynamicValues_eq_ok_iff {dynamic : DynamicValues} :
    readDynamicValues.decodeReply reply = .ok dynamic ↔
      Succeeds ⟨3⟩ reply ∧ reply.data = dynamic.encoding ∧
        1 ≤ dynamic.values.length ∧ dynamic.values.length ≤ 4 := by
  refine requireSuccess_bind_eq_ok_iff.trans (and_congr_right' ?_)
  have hlength := dynamic.length_encoding
  split_ifs with hshape
  · -- The data has not the length of one to four values.
    refine iff_of_false (by simp) ?_
    rintro ⟨hdata, hone, hfour⟩
    rw [hdata] at hshape
    omega
  · rw [PayloadReader.decodeWhole_eq_ok_iff DynamicValues.readsWhole_read]
    constructor
    · rintro ⟨hfour, hdata⟩
      rw [hdata] at hshape
      exact ⟨hdata, by omega, hfour⟩
    · rintro ⟨hdata, -, hfour⟩
      exact ⟨hfour, hdata⟩

theorem readVariableClassifications_eq_ok_iff
    {classifications : VariableClassifications} :
    readVariableClassifications.decodeReply reply = .ok classifications ↔
      Succeeds ⟨8⟩ reply ∧ reply.data = classifications.classes ∧
        1 ≤ classifications.classes.length ∧
        classifications.classes.length ≤ 4 := by
  refine requireSuccess_bind_eq_ok_iff.trans (and_congr_right' ?_)
  obtain ⟨classes⟩ := classifications
  split_ifs with hcount
  · simp only [Except.ok.injEq, VariableClassifications.mk.injEq]
    constructor
    · rintro rfl
      exact ⟨rfl, hcount⟩
    · rintro ⟨hdata, -⟩
      exact hdata
  · refine iff_of_false (by simp) ?_
    rintro ⟨hdata, hbounds⟩
    rw [hdata] at hcount
    exact hcount hbounds

theorem readDeviceVariables_eq_ok_iff {request : ReadDeviceVariables}
    {device : DeviceVariables} :
    request.operation.decodeReply reply = .ok device ↔
      Succeeds ⟨9⟩ reply ∧ reply.data = device.encoding ∧
        device.deviceVariables.length ≤ 8 := by
  refine requireSuccess_bind_eq_ok_iff.trans (and_congr_right' ?_)
  have hlength := device.length_encoding
  split_ifs with hshape
  · refine iff_of_false (by simp) ?_
    rintro ⟨hdata, -⟩
    rw [hdata] at hshape
    omega
  · rw [PayloadReader.decodeWhole_eq_ok_iff DeviceVariables.readsWhole_read,
      and_comm]

theorem readSelectedVariables_eq_ok_iff {request : ReadSelectedVariables}
    {selected : List SelectedVariable} :
    request.operation.decodeReply reply = .ok selected ↔
      Succeeds ⟨33⟩ reply ∧
        reply.data = selected.flatMap SelectedVariable.encoding ∧
        1 ≤ selected.length ∧ selected.length ≤ 4 := by
  refine requireSuccess_bind_eq_ok_iff.trans (and_congr_right' ?_)
  have hlength : (selected.flatMap SelectedVariable.encoding).length =
      6 * selected.length := by
    simp [List.length_flatMap, SelectedVariable.length_encoding, Nat.mul_comm]
  split_ifs with hshape
  · refine iff_of_false (by simp) ?_
    rintro ⟨hdata, hone, hfour⟩
    rw [hdata] at hshape
    omega
  · have hloop := Tape.readsWhole_readWhile (show 0 < 6 by decide)
      SelectedVariable.parses_read
      (by rintro entry string rfl; exact entry.length_encoding)
      reply.data.length
    rw [PayloadReader.decodeWhole_eq_ok_iff hloop, Grammar.repeated_encoded]
    constructor
    · rintro ⟨-, hdata⟩
      rw [hdata] at hshape
      exact ⟨hdata, by omega, by omega⟩
    · rintro ⟨hdata, -, -⟩
      refine ⟨?_, hdata⟩
      rw [hdata]
      omega

theorem readAdditionalStatus_eq_ok_iff {status : AdditionalStatus} :
    readAdditionalStatus.decodeReply reply = .ok status ↔
      Succeeds ⟨48⟩ reply ∧ reply.data = status.bytes := by
  refine requireSuccess_bind_eq_ok_iff.trans (and_congr_right' ?_)
  obtain ⟨bytes⟩ := status
  simp

end Replies

end HartLink.Command
