import HartLink.Operation.Codec

/-!
# Device identity

The reply to Command 0.  What it holds depends on the revision of the universal
commands, and an unknown tail is kept.
-/

namespace HartLink.Operation

open HartLink.Foundation
open HartLink.Wire

namespace DeviceReply

def requireCommand (reply : DeviceReply) (expected : CommandCode) :
    Except CodecError Unit :=
  if reply.command ≠ expected then
    .error (.operation (.commandMismatch expected.get reply.command.get))
  else .ok ()

def requireSuccess (reply : DeviceReply) (expected : CommandCode) :
    Except CodecError Unit := do
  reply.requireCommand expected
  if reply.responseCode &&& 0x80 ≠ 0 then
    .error (.communicationStatus reply.responseCode reply.deviceStatus)
  else if reply.responseCode ≠ 0 then
    .error (.deviceStatus reply.responseCode reply.deviceStatus)
  else .ok ()

end DeviceReply

structure DeviceIdentity where
  responseIdentifier : UInt8
  manufacturerId : UInt16
  deviceType : UInt16
  requestPreambles : UInt8
  universalRevision : UInt8
  deviceRevision : UInt8
  softwareRevision : UInt8
  hardwareRevision : UInt8
  physicalSignaling : UInt8
  flags : UInt8
  deviceId : UInt32
  responsePreambles : Option UInt8
  maximumDeviceVariables : Option UInt8
  configurationChangeCounter : Option UInt16
  extendedStatus : Option UInt8
  privateLabelDistributor : Option UInt16
  deviceProfile : Option UInt8
  extension : Bytes
  deriving DecidableEq, Repr

namespace DeviceIdentity

/-- The type in a long address; before HART 7 its high byte is elsewhere. -/
def addressDeviceType (identity : DeviceIdentity) : UInt16 :=
  if identity.universalRevision ≥ 7 then identity.deviceType &&& 0x3fff
  else ((identity.manufacturerId &&& 0x3f) <<< 8) |||
    (identity.deviceType &&& 0x00ff)

def uniqueAddress (identity : DeviceIdentity) (master : Master) :
    Except WireError Address :=
  Address.unique identity.addressDeviceType identity.deviceId master

end DeviceIdentity

/-- A field that only some revisions have. -/
def readWhen {Value : Type} (present : Bool) (reader : PayloadReader)
    (read : PayloadReader → Except CodecError (Value × PayloadReader)) :
    Except CodecError (Option Value × PayloadReader) :=
  if present then (read reader).map fun (value, reader) => (some value, reader)
  else .ok (none, reader)

def requiredIdentityLength (universalRevision : UInt8) : Nat :=
  if universalRevision ≤ 5 then 12
  else if universalRevision = 6 then 17
  else 22

def decodeIdentityData (data : Bytes) : Except CodecError DeviceIdentity := do
  if data.length < 12 then
    .error (.operation (.truncated "mandatory identification" data.length))
  let reader := PayloadReader.new data
  let (responseIdentifier, reader) ← reader.u8 "response identifier"
  if responseIdentifier ≠ 0xfe then
    .error (.operation (.invalidValue "Command 0 response identifier"))
  let (legacyManufacturer, reader) ←
    reader.u8 "manufacturer or high part of device type"
  let (legacyDeviceType, reader) ← reader.u8 "device type"
  let (requestPreambles, reader) ← reader.u8 "request preamble count"
  if requestPreambles = 0 then
    .error (.operation (.invalidValue "request preamble count"))
  let (universalRevision, reader) ← reader.u8 "universal-command revision"
  if data.length < requiredIdentityLength universalRevision then
    .error (.operation (.truncated
      "identification data for the selected HART revision" data.length))
  let (deviceRevision, reader) ← reader.u8 "device revision"
  let (softwareRevision, reader) ← reader.u8 "software revision"
  let (hardwareAndSignal, reader) ←
    reader.u8 "hardware revision and physical signal"
  let (flags, reader) ← reader.u8 "capability flags"
  let (deviceId, reader) ← reader.u24 "device identifier"
  let extended : Bool := universalRevision ≥ 6
  let expanded : Bool := universalRevision ≥ 7
  let (responsePreambles, reader) ← readWhen extended reader
    (·.u8 "response preamble count")
  let (maximumDeviceVariables, reader) ← readWhen extended reader
    (·.u8 "maximum device-variable count")
  let (configurationChangeCounter, reader) ← readWhen extended reader
    (·.u16 "configuration-change counter")
  let (extendedStatus, reader) ← readWhen extended reader
    (·.u8 "extended status")
  let (manufacturerId, reader) ← readWhen expanded reader
    (·.u16 "manufacturer identifier")
  let (privateLabelDistributor, reader) ← readWhen expanded reader
    (·.u16 "private-label distributor")
  let (deviceProfile, reader) ← readWhen expanded reader
    (·.u8 "device profile")
  return {
    responseIdentifier
    manufacturerId := manufacturerId.getD legacyManufacturer.toUInt16
    deviceType :=
      if expanded then fromBeBytes legacyManufacturer legacyDeviceType
      else legacyDeviceType.toUInt16
    requestPreambles
    universalRevision
    deviceRevision
    softwareRevision
    hardwareRevision := hardwareAndSignal >>> 3
    physicalSignaling := hardwareAndSignal &&& 0x07
    flags
    deviceId
    responsePreambles
    maximumDeviceVariables
    configurationChangeCounter
    extendedStatus
    privateLabelDistributor
    deviceProfile
    extension := reader.rest.1 }

def ReadDeviceIdentity.decodeReply (reply : DeviceReply) :
    Except CodecError DeviceIdentity := do
  reply.requireSuccess ⟨0⟩
  decodeIdentityData reply.data

end HartLink.Operation
