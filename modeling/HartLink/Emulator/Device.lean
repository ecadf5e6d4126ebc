import HartLink.Foundation.ByteOrder
import HartLink.Operation.Identity

/-!
# The emulated device

A device that answers requests from its fields.  It is reached at the address
that it was given and at the long address of its identity.
-/

namespace HartLink.Emulator

open HartLink.Foundation
open HartLink.Wire
open HartLink.Operation

structure EmulatedIdentity where
  manufacturerId : UInt16
  deviceType : UInt16
  requestPreambles : UInt8
  universalRevision : UInt8
  deviceRevision : UInt8
  softwareRevision : UInt8
  hardwareRevision : UInt8
  physicalSignaling : UInt8
  flags : UInt8
  deviceId : UInt32
  responsePreambles : UInt8
  maximumDeviceVariables : UInt8
  configurationChangeCounter : UInt16
  extendedStatus : UInt8
  privateLabelDistributor : UInt16
  deviceProfile : UInt8
  deriving DecidableEq, Repr

/-- Floating-point values are kept as their 32 bits. -/
structure EmulatedDevice where
  address : Address
  identity : EmulatedIdentity
  primaryUnit : UInt8
  primaryValue : UInt32
  loopCurrent : UInt32
  percent : UInt32
  status : UInt8
  additionalStatus : Bytes
  deriving DecidableEq, Repr

namespace EmulatedDevice

def acceptsAddress (device : EmulatedDevice) (address : Address) : Bool :=
  if address = device.address then true
  else
    let identity := device.identity
    let addressDeviceType :=
      if identity.universalRevision ≥ 7 then identity.deviceType &&& 0x3fff
      else ((identity.manufacturerId &&& 0x3f) <<< 8) |||
        (identity.deviceType &&& 0xff)
    match Address.unique addressDeviceType identity.deviceId
        address.master with
    | .ok expected => expected = address
    | .error _ => false

def identityPayload (device : EmulatedDevice) : Bytes :=
  let identity := device.identity
  let deviceType := beBytes 2 identity.deviceType.toNat
  [0xfe, deviceType.getD 0 0, deviceType.getD 1 0, identity.requestPreambles,
      identity.universalRevision, identity.deviceRevision,
      identity.softwareRevision,
      ((identity.hardwareRevision &&& 0x1f) <<< 3) |||
        (identity.physicalSignaling &&& 0x07),
      identity.flags] ++
    (beBytes 4 identity.deviceId.toNat).drop 1 ++
    (if identity.universalRevision ≥ 6 then
      [identity.responsePreambles, identity.maximumDeviceVariables] ++
        beBytes 2 identity.configurationChangeCounter.toNat ++
        [identity.extendedStatus]
    else []) ++
    (if identity.universalRevision ≥ 7 then
      beBytes 2 identity.manufacturerId.toNat ++
        beBytes 2 identity.privateLabelDistributor.toNat ++
        [identity.deviceProfile]
    else [])

def replyData (device : EmulatedDevice) (logical : UInt16) : Option Bytes :=
  if logical = 0 then some device.identityPayload
  else if logical = 1 then
    some (device.primaryUnit :: beBytes 4 device.primaryValue.toNat)
  else if logical = 2 then
    some (beBytes 4 device.loopCurrent.toNat ++
      beBytes 4 device.percent.toNat)
  else if logical = 48 then some device.additionalStatus
  else none

def respond (device : EmulatedDevice) (request : Frame) : Frame :=
  let expanded : Bool :=
    request.wireCommand = 31 ∧ request.payload.length ≥ 2
  let logical :=
    if expanded then
      fromBeBytes (request.payload.getD 0 0) (request.payload.getD 1 0)
    else request.wireCommand.toUInt16
  let data := device.replyData logical
  let responseCode : UInt8 := if data.isSome then 0 else 64
  let number := if expanded then beBytes 2 logical.toNat else []
  { preambles := max device.identity.responsePreambles 2
    kind := .response
    physicalLayer := request.physicalLayer
    address := request.address
    expansion := request.expansion
    wireCommand := request.wireCommand
    payload := [responseCode, device.status] ++ number ++ data.getD []
    repair := none }

end EmulatedDevice

end HartLink.Emulator
