import HartLink.Foundation.OrderedMap
import HartLink.Operation.Text
import Mathlib.Data.String.Basic

/-!
# Payload schemas

A schema lists the fields of a payload in wire order.  It is validated before
every use, and decoding reads one dynamically typed value for each field.
-/

namespace HartLink.Device

open HartLink.Foundation
open HartLink.Operation

def maximumSchemaFields : Nat := 255

def maximumSchemaNameBytes : Nat := 256

def usizeMax : Nat := 2 ^ 64 - 1

/-! ## Fields -/

structure EnumChoice where
  value : UInt32
  name : String
  deriving DecidableEq, Repr

inductive FieldKind where
  | u8
  | i8
  | u16
  | i16
  | u24
  | u32
  | i32
  | f32
  | boolean
  | bytes (length : Nat)
  | latin1 (length : Nat)
  | packedAscii (length : Nat)
  | enum8 (choices : List EnumChoice)
  deriving DecidableEq, Repr

def FieldKind.encodedLen : FieldKind → Nat
  | .u8 | .i8 | .boolean | .enum8 _ => 1
  | .u16 | .i16 => 2
  | .u24 => 3
  | .u32 | .i32 | .f32 => 4
  | .bytes length | .latin1 length | .packedAscii length => length

structure FieldSpec where
  name : String
  fieldType : FieldKind
  deriving DecidableEq, Repr

structure DataSchema where
  fields : List FieldSpec
  preserveTail : Bool
  deriving DecidableEq, Repr

inductive SchemaError where
  | emptyName
  | tooManyFields (count : Nat)
  | nameTooLong (bytes : Nat)
  | duplicateName (name : String)
  | payloadTooLarge (bytes : Nat)
  | enumValue (value : UInt32)
  | duplicateEnum (value : UInt32)
  | emptyEnumLabel (value : UInt32)
  | tooManyEnumChoices (count : Nat)
  | enumLabelTooLong (value : UInt32) (bytes : Nat)
  | zeroLengthField (name : String)
  | codec (error : CodecError)
  deriving DecidableEq, Repr

/-! ## Validation -/

def isBlank (name : String) : Bool := name.toList.all isWhitespace

def validateChoices : List EnumChoice → List UInt32 → Except SchemaError Unit
  | [], _ => .ok ()
  | choice :: choices, values =>
      if isBlank choice.name then .error (.emptyEnumLabel choice.value)
      else if choice.name.utf8ByteSize > maximumSchemaNameBytes then
        .error (.enumLabelTooLong choice.value choice.name.utf8ByteSize)
      else if choice.value > 255 then .error (.enumValue choice.value)
      else if choice.value ∈ values then .error (.duplicateEnum choice.value)
      else validateChoices choices (choice.value :: values)

def validateKind (field : FieldSpec) : Except SchemaError Unit :=
  match field.fieldType with
  | .enum8 choices =>
      if choices.length > 256 then .error (.tooManyEnumChoices choices.length)
      else validateChoices choices []
  | .bytes 0 | .latin1 0 | .packedAscii 0 =>
      .error (.zeroLengthField field.name)
  | _ => .ok ()

def validateFields :
    List FieldSpec → List String → Nat → Except SchemaError Unit
  | [], _, total =>
      if total > 255 then .error (.payloadTooLarge total) else .ok ()
  | field :: fields, names, total =>
      if isBlank field.name then .error .emptyName
      else if field.name.utf8ByteSize > maximumSchemaNameBytes then
        .error (.nameTooLong field.name.utf8ByteSize)
      else if field.name ∈ names then .error (.duplicateName field.name)
      else
        let next := total + field.fieldType.encodedLen
        if next > usizeMax then .error (.payloadTooLarge usizeMax)
        else do
          validateKind field
          validateFields fields (field.name :: names) next

namespace DataSchema

def validate (schema : DataSchema) : Except SchemaError Unit :=
  if schema.fields.length > maximumSchemaFields then
    .error (.tooManyFields schema.fields.length)
  else validateFields schema.fields [] 0

end DataSchema

/-! ## Decoding -/

inductive DynamicValue where
  | unsigned (value : UInt32)
  | signed (value : Int32)
  | float (bits : UInt32)
  | boolean (value : Bool)
  | bytes (value : Bytes)
  | text (value : String)
  | enumeration (code : UInt32) (name : Option String)
  deriving DecidableEq, Repr

/-- The entries of the map from field names to values, in ascending order. -/
structure DynamicRecord where
  values : List (String × DynamicValue)
  tail : Bytes
  deriving DecidableEq, Repr

/-- The inner loop of the bit accumulator, which takes six bits at a time. -/
def drainCodes (accumulator : UInt32) : Nat → Bytes × Nat
  | bits + 6 =>
      let code := ((accumulator >>> UInt32.ofNat bits) &&& 0x3f).toUInt8
      (code :: (drainCodes accumulator bits).1,
        (drainCodes accumulator bits).2)
  | bits => ([], bits)

def accumulateCodes (accumulator : UInt32) (bits : Nat) : Bytes → Bytes
  | [] => []
  | byte :: bytes =>
      let accumulator := (accumulator <<< 8) ||| byte.toUInt32
      let (codes, bits) := drainCodes accumulator (bits + 8)
      codes ++ accumulateCodes accumulator bits bytes

def packedAsciiChar (code : UInt8) : Char := Char.ofNat (code + 0x20).toNat

def decodePackedAscii (bytes : Bytes) : String :=
  String.ofList (trimEnd ((accumulateCodes 0 0 bytes).map packedAsciiChar))

def isNulOrSpace (character : Char) : Bool :=
  character == Char.ofNat 0 || character == ' '

def decodeField (reader : PayloadReader) (field : FieldSpec) :
    Except CodecError (DynamicValue × PayloadReader) :=
  let name := "dynamic field"
  match field.fieldType with
  | .u8 => do
      let (value, reader) ← reader.u8 name
      return (.unsigned value.toUInt32, reader)
  | .i8 => do
      let (value, reader) ← reader.u8 name
      return (.signed value.toInt8.toInt32, reader)
  | .u16 => do
      let (value, reader) ← reader.u16 name
      return (.unsigned value.toUInt32, reader)
  | .i16 => do
      let (value, reader) ← reader.u16 name
      return (.signed value.toInt16.toInt32, reader)
  | .u24 => do
      let (value, reader) ← reader.u24 name
      return (.unsigned value, reader)
  | .u32 => do
      let (value, reader) ← reader.u32 name
      return (.unsigned value, reader)
  | .i32 => do
      let (value, reader) ← reader.u32 name
      return (.signed value.toInt32, reader)
  | .f32 => do
      let (value, reader) ← reader.f32 name
      return (.float value, reader)
  | .boolean => do
      let (value, reader) ← reader.u8 name
      return (.boolean (value != 0), reader)
  | .bytes length => do
      let (value, reader) ← reader.bytes length name
      return (.bytes value, reader)
  | .latin1 length => do
      let (value, reader) ← reader.bytes length name
      let text := value.map fun byte => Char.ofNat byte.toNat
      return (.text (String.ofList (text.rdropWhile isNulOrSpace)), reader)
  | .packedAscii length => do
      let (value, reader) ← reader.bytes length name
      return (.text (decodePackedAscii value), reader)
  | .enum8 choices => do
      let (value, reader) ← reader.u8 name
      let known := choices.find? fun choice => choice.value = value.toUInt32
      return (.enumeration value.toUInt32 (known.map (·.name)), reader)

def decodeFields : List FieldSpec → PayloadReader →
    List (String × DynamicValue) →
    Except CodecError (List (String × DynamicValue) × PayloadReader)
  | [], reader, values => .ok (values, reader)
  | field :: fields, reader, values => do
      let (value, reader) ← decodeField reader field
      decodeFields fields reader
        (OrderedMap.insertEntry field.name value values)

namespace DataSchema

def decode (schema : DataSchema) (bytes : Bytes) :
    Except SchemaError DynamicRecord :=
  match schema.validate with
  | .error error => .error error
  | .ok () =>
      match decodeFields schema.fields (.new bytes) [] with
      | .error error => .error (.codec error)
      | .ok (values, reader) =>
          if schema.preserveTail then .ok { values, tail := reader.rest.1 }
          else
            match reader.finish with
            | .error error => .error (.codec error)
            | .ok () => .ok { values, tail := [] }

end DataSchema

end HartLink.Device
