import HartLink.Operation.Request

/-!
# Reading payload fields

A reader walks over a payload and reads values in network byte order.  Every
read names the field it is for; a payload that is too short is an error with
this name and the offset.
-/

namespace HartLink.Operation

open HartLink.Foundation
open HartLink.Wire

/-- The variants of `OperationError`, with those that only codecs return. -/
inductive CodecError where
  | deviceStatus (code status : UInt8)
  | communicationStatus (summary status : UInt8)
  | trailingBytes (count : Nat)
  | requestLength (command : UInt16) (actual : Nat)
  | operation (error : OperationError)
  deriving DecidableEq, Repr

structure PayloadReader where
  input : Bytes
  offset : Nat
  deriving DecidableEq, Repr

namespace PayloadReader

def new (input : Bytes) : PayloadReader := { input, offset := 0 }

def remaining (reader : PayloadReader) : Nat :=
  reader.input.length - reader.offset

def u8 (reader : PayloadReader) (field : String) :
    Except CodecError (UInt8 × PayloadReader) :=
  match reader.input[reader.offset]? with
  | some value => .ok (value, { reader with offset := reader.offset + 1 })
  | none => .error (.operation (.truncated field reader.offset))

def bytes (reader : PayloadReader) (length : Nat) (field : String) :
    Except CodecError (Bytes × PayloadReader) :=
  let stop := reader.offset + length
  if stop ≤ reader.input.length then
    .ok (slice reader.input reader.offset stop, { reader with offset := stop })
  else .error (.operation (.truncated field reader.offset))

def u16 (reader : PayloadReader) (field : String) :
    Except CodecError (UInt16 × PayloadReader) := do
  let (value, reader) ← reader.bytes 2 field
  return (fromBeBytes (value.getD 0 0) (value.getD 1 0), reader)

def u24 (reader : PayloadReader) (field : String) :
    Except CodecError (UInt32 × PayloadReader) := do
  let (value, reader) ← reader.bytes 3 field
  return (((value.getD 0 0).toUInt32 <<< 16) |||
    ((value.getD 1 0).toUInt32 <<< 8) ||| (value.getD 2 0).toUInt32, reader)

def u32 (reader : PayloadReader) (field : String) :
    Except CodecError (UInt32 × PayloadReader) := do
  let (value, reader) ← reader.bytes 4 field
  return (((value.getD 0 0).toUInt32 <<< 24) |||
    ((value.getD 1 0).toUInt32 <<< 16) ||| ((value.getD 2 0).toUInt32 <<< 8) |||
    (value.getD 3 0).toUInt32, reader)

/-- A floating-point value is kept as its 32 bits. -/
def f32 (reader : PayloadReader) (field : String) :
    Except CodecError (UInt32 × PayloadReader) :=
  reader.u32 field

def rest (reader : PayloadReader) : Bytes × PayloadReader :=
  (reader.input.drop reader.offset,
    { reader with offset := reader.input.length })

def finish (reader : PayloadReader) : Except CodecError Unit :=
  if reader.remaining = 0 then .ok ()
  else .error (.trailingBytes reader.remaining)

end PayloadReader

end HartLink.Operation
