import HartLink.Foundation.Bytes

/-!
# Addresses and data-link frames

The data model of the wire layer: masters, short and long addresses, the fields
packed into a delimiter, and the canonical encoding of a frame.  Fallible
constructors return the source's `WireError`.
-/

namespace HartLink.Wire

open HartLink.Foundation

def xorChecksum (bytes : Bytes) : UInt8 :=
  bytes.foldl (fun sum byte => sum ^^^ byte) 0

inductive WireError where
  | pollingAddress (node : UInt8)
  | expandedDeviceType (expandedType : UInt16)
  | deviceIdentifier (deviceId : UInt32)
  | expansionLength (length : Nat)
  | payloadLength (length : Nat)
  | truncated
  | delimiter (byte : UInt8)
  | checksum (expected actual : UInt8)
  deriving DecidableEq, Repr

/-! ## Addresses -/

inductive Master where
  | primary
  | secondary
  deriving DecidableEq, Repr

def Master.addressBit : Master → UInt8
  | .primary => 0x80
  | .secondary => 0

def Master.fromAddressByte (byte : UInt8) : Master :=
  if byte &&& 0x80 = 0 then .secondary else .primary

/--
The constructors are the source's enum variants; `Address.polling` and
`Address.unique` are its range-checked constructors.
-/
inductive Address where
  | Polling (node : UInt8) (master : Master)
  | Unique (expandedType : UInt16) (deviceId : UInt32) (master : Master)
  deriving DecidableEq, Repr

namespace Address

def polling (node : UInt8) (master : Master) : Except WireError Address :=
  if node > 63 then .error (.pollingAddress node)
  else .ok (.Polling node master)

def unique (expandedType : UInt16) (deviceId : UInt32) (master : Master) :
    Except WireError Address :=
  if expandedType > 0x3fff then .error (.expandedDeviceType expandedType)
  else if deviceId > 0x00ffffff then .error (.deviceIdentifier deviceId)
  else .ok (.Unique expandedType deviceId master)

def master : Address → Master
  | .Polling _ master | .Unique _ _ master => master

def encodedLen : Address → Nat
  | .Polling .. => 1
  | .Unique .. => 5

def Accepted (address : Address) : Prop :=
  (∃ node master, polling node master = .ok address) ∨
    ∃ expandedType deviceId master,
      unique expandedType deviceId master = .ok address

def burstBit (burst : Bool) : UInt8 := if burst then 0x40 else 0

def writeTo (address : Address) (burst : Bool) : Bytes :=
  match address with
  | .Polling node master => [master.addressBit ||| burstBit burst ||| node]
  | .Unique expandedType deviceId master =>
      [master.addressBit ||| burstBit burst |||
          ((expandedType >>> 8).toUInt8 &&& 0x3f),
        expandedType.toUInt8,
        (deviceId >>> 16).toUInt8, (deviceId >>> 8).toUInt8, deviceId.toUInt8]

def readFrom (bytes : Bytes) (long : Bool) : Except WireError Address :=
  match bytes with
  | [] => .error .truncated
  | first :: rest =>
      let master := Master.fromAddressByte first
      if !long then polling (first &&& 0x3f) master
      else
        match rest with
        | b1 :: b2 :: b3 :: b4 :: _ =>
            unique (((first &&& 0x3f).toUInt16 <<< 8) ||| b1.toUInt16)
              ((b2.toUInt32 <<< 16) ||| (b3.toUInt32 <<< 8) ||| b4.toUInt32)
              master
        | _ => .error .truncated

end Address

/-! ## Frames -/

inductive PhysicalLayer where
  | fsk
  | psk
  deriving DecidableEq, Repr

def PhysicalLayer.delimiterBit : PhysicalLayer → UInt8
  | .fsk => 0
  | .psk => 0x08

def PhysicalLayer.fromDelimiter (delimiter : UInt8) : PhysicalLayer :=
  if delimiter &&& 0x08 = 0 then .fsk else .psk

inductive FrameKind where
  | request
  | response
  | burst
  deriving DecidableEq, Repr

def FrameKind.delimiterBase : FrameKind → UInt8
  | .request => 0x02
  | .response => 0x06
  | .burst => 0x01

def FrameKind.fromDelimiter (delimiter : UInt8) : Option FrameKind :=
  let low := delimiter &&& 0x1f
  if low = 0x02 ∨ low = 0x0a then some .request
  else if low = 0x06 ∨ low = 0x0e then some .response
  else if low = 0x01 ∨ low = 0x09 then some .burst
  else none

inductive FrameRepair where
  | delimiterBit
  | shortAddressRewrite (checksumSourceNode : UInt8)
  deriving DecidableEq, Repr

structure Frame where
  preambles : UInt8
  kind : FrameKind
  physicalLayer : PhysicalLayer
  address : Address
  expansion : Bytes
  wireCommand : UInt8
  payload : Bytes
  repair : Option FrameRepair
  deriving DecidableEq, Repr

namespace Frame

def longBit (frame : Frame) : UInt8 :=
  if frame.address.encodedLen = 5 then 0x80 else 0

def packedDelimiter (frame : Frame) : UInt8 :=
  frame.kind.delimiterBase ||| frame.physicalLayer.delimiterBit |||
    frame.longBit ||| (UInt8.ofNat frame.expansion.length <<< 5)

def delimiter (frame : Frame) : Except WireError UInt8 :=
  if frame.expansion.length > 3 then
    .error (.expansionLength frame.expansion.length)
  else .ok frame.packedDelimiter

def body (frame : Frame) : Bytes :=
  frame.packedDelimiter ::
    (frame.address.writeTo (frame.kind = .burst) ++ frame.expansion ++
      frame.wireCommand :: UInt8.ofNat frame.payload.length :: frame.payload)

def encode (frame : Frame) : Except WireError Bytes :=
  if frame.expansion.length > 3 then
    .error (.expansionLength frame.expansion.length)
  else if frame.payload.length > 255 then
    .error (.payloadLength frame.payload.length)
  else
    .ok (List.replicate frame.preambles.toNat 0xff ++
      (frame.body ++ [xorChecksum frame.body]))

end Frame

end HartLink.Wire
