import HartLink.Emulator.Device

/-!
# The identity of an emulated device

The host reads back the identity that an emulated device reports, whatever the
revision of the universal commands.  Before HART 7 the reported identity has no
manufacturer: the byte in its place is the high byte of the device type, while
the device listens at an address with its manufacturer.  The host reaches the
device when the two agree in the bits that the address keeps.
-/

namespace HartLink.Emulator

open HartLink.Foundation
open HartLink.Wire
open HartLink.Operation

/-! ## Numbers in the payload -/

theorem exists_twoBytes (number : UInt16) :
    ∃ high low, beBytes 2 number.toNat = [high, low] ∧
      fromBeBytes high low = number ∧ high.toUInt16 = number >>> 8 ∧
      low.toUInt16 = number &&& 0xff := by
  have hnumber := number.toNat_lt
  refine ⟨UInt8.ofNat (number.toNat / 256), UInt8.ofNat number.toNat, ?_, ?_,
    ?_, ?_⟩
  · simp [beBytes, leBytes]
  · apply UInt16.toNat_inj.mp
    rw [toNat_fromBeBytes, UInt8.toNat_ofNat', UInt8.toNat_ofNat']
    omega
  · apply UInt16.toNat_inj.mp
    rw [UInt8.toNat_toUInt16, UInt8.toNat_ofNat', UInt16.toNat_shiftRight,
      Nat.shiftRight_eq_div_pow]
    change number.toNat / 256 % 256 = number.toNat / 256
    omega
  · apply UInt16.toNat_inj.mp
    rw [UInt8.toNat_toUInt16, UInt8.toNat_ofNat', UInt16.toNat_and]
    exact (Nat.and_two_pow_sub_one_eq_mod number.toNat 8).symm

theorem exists_threeBytes {number : UInt32} (h : number.toNat < 2 ^ 24) :
    ∃ b0 b1 b2, (beBytes 4 number.toNat).drop 1 = [b0, b1, b2] ∧
      ((b0.toUInt32 <<< 16) ||| (b1.toUInt32 <<< 8) ||| b2.toUInt32) =
        number := by
  have hlt : number.toNat < 256 ^ 3 := h
  have hvalue := beValue_beBytes hlt
  rw [beBytes_succ 3, List.drop_succ_cons, List.drop_zero]
  obtain ⟨b0, b1, b2, hbytes⟩ := List.length_eq_three.mp
    (length_beBytes 3 number.toNat)
  rw [hbytes] at hvalue ⊢
  refine ⟨b0, b1, b2, rfl, ?_⟩
  apply UInt32.toNat_inj.mp
  rw [toNat_threeBytes, hvalue]

theorem hardware_and_signal {hardware signal : UInt8}
    (hhardware : hardware.toNat < 32) (hsignal : signal.toNat < 8) :
    (((hardware &&& 0x1f) <<< 3) ||| (signal &&& 0x07)) >>> 3 = hardware ∧
      (((hardware &&& 0x1f) <<< 3) ||| (signal &&& 0x07)) &&& 0x07 =
        signal := by
  have hall : ∀ (h : Fin 32) (s : Fin 8),
      (((UInt8.ofNat h &&& 0x1f) <<< 3) ||| (UInt8.ofNat s &&& 0x07)) >>> 3 =
          UInt8.ofNat h ∧
        (((UInt8.ofNat h &&& 0x1f) <<< 3) |||
          (UInt8.ofNat s &&& 0x07)) &&& 0x07 = UInt8.ofNat s := by
    decide +kernel
  simpa using hall ⟨hardware.toNat, hhardware⟩ ⟨signal.toNat, hsignal⟩

/-! ## What the host reads -/

namespace EmulatedIdentity

structure Encodable (identity : EmulatedIdentity) : Prop where
  requestPreambles : 1 ≤ identity.requestPreambles.toNat
  deviceId : identity.deviceId.toNat < 2 ^ 24
  hardwareRevision : identity.hardwareRevision.toNat < 32
  physicalSignaling : identity.physicalSignaling.toNat < 8

def since {Value : Type} (identity : EmulatedIdentity) (revision : UInt8)
    (value : Value) : Option Value :=
  if identity.universalRevision ≥ revision then some value else none

def reported (identity : EmulatedIdentity) : DeviceIdentity where
  responseIdentifier := 0xfe
  manufacturerId :=
    if identity.universalRevision ≥ 7 then identity.manufacturerId
    else identity.deviceType >>> 8
  deviceType :=
    if identity.universalRevision ≥ 7 then identity.deviceType
    else identity.deviceType &&& 0xff
  requestPreambles := identity.requestPreambles
  universalRevision := identity.universalRevision
  deviceRevision := identity.deviceRevision
  softwareRevision := identity.softwareRevision
  hardwareRevision := identity.hardwareRevision
  physicalSignaling := identity.physicalSignaling
  flags := identity.flags
  deviceId := identity.deviceId
  responsePreambles := identity.since 6 identity.responsePreambles
  maximumDeviceVariables := identity.since 6 identity.maximumDeviceVariables
  configurationChangeCounter :=
    identity.since 6 identity.configurationChangeCounter
  extendedStatus := identity.since 6 identity.extendedStatus
  privateLabelDistributor := identity.since 7 identity.privateLabelDistributor
  deviceProfile := identity.since 7 identity.deviceProfile
  extension := []

end EmulatedIdentity

theorem revision_cases (revision : UInt8) :
    (requiredIdentityLength revision = 12 ∧ ¬ revision ≥ 6 ∧
        ¬ revision ≥ 7) ∨
      (requiredIdentityLength revision = 17 ∧ revision ≥ 6 ∧
        ¬ revision ≥ 7) ∨
      requiredIdentityLength revision = 22 ∧ revision ≥ 6 ∧ revision ≥ 7 := by
  revert revision
  exact forall_byte (by decide +kernel)

theorem decode_identityPayload {device : EmulatedDevice}
    (h : device.identity.Encodable) :
    decodeIdentityData device.identityPayload =
      .ok device.identity.reported := by
  obtain ⟨type0, type1, htype, htypeValue, htypeHigh, htypeLow⟩ :=
    exists_twoBytes device.identity.deviceType
  obtain ⟨counter0, counter1, hcounter, hcounterValue, -, -⟩ :=
    exists_twoBytes device.identity.configurationChangeCounter
  obtain ⟨maker0, maker1, hmaker, hmakerValue, -, -⟩ :=
    exists_twoBytes device.identity.manufacturerId
  obtain ⟨label0, label1, hlabel, hlabelValue, -, -⟩ :=
    exists_twoBytes device.identity.privateLabelDistributor
  obtain ⟨id0, id1, id2, hid, hidValue⟩ := exists_threeBytes h.deviceId
  obtain ⟨hhardware, hsignal⟩ :=
    hardware_and_signal h.hardwareRevision h.physicalSignaling
  have hpreambles : device.identity.requestPreambles ≠ 0 := by
    intro hzero
    have hpositive := h.requestPreambles
    rw [hzero] at hpositive
    contradiction
  unfold EmulatedDevice.identityPayload EmulatedIdentity.reported
    EmulatedIdentity.since
  dsimp only
  rw [htype, hcounter, hmaker, hlabel, hid]
  -- The revision decides which parts follow the mandatory bytes.
  rcases revision_cases device.identity.universalRevision with
    ⟨hlength, hextended, hexpanded⟩ | ⟨hlength, hextended, hexpanded⟩ |
      ⟨hlength, hextended, hexpanded⟩
  · rw [if_neg hextended, if_neg hexpanded]
    simp [decodeIdentityData, PayloadReader.new, PayloadReader.u8,
      PayloadReader.u24, PayloadReader.bytes, PayloadReader.rest, slice,
      bind, Except.bind, pure, Except.pure, readWhen, hpreambles, hlength,
      hextended, hexpanded, htypeHigh, htypeLow, hidValue, hhardware, hsignal]
  · rw [if_pos hextended, if_neg hexpanded]
    simp [decodeIdentityData, PayloadReader.new, PayloadReader.u8,
      PayloadReader.u24, PayloadReader.bytes, PayloadReader.rest, slice,
      bind, Except.bind, pure, Except.pure, readWhen, hpreambles, hlength,
      Except.map, PayloadReader.u16, hextended, hexpanded, htypeHigh,
      htypeLow, hidValue, hhardware, hsignal, hcounterValue]
  · rw [if_pos hextended, if_pos hexpanded]
    simp [decodeIdentityData, PayloadReader.new, PayloadReader.u8,
      PayloadReader.u24, PayloadReader.bytes, PayloadReader.rest, slice,
      bind, Except.bind, pure, Except.pure, readWhen, hpreambles, hlength,
      Except.map, PayloadReader.u16, hextended, hexpanded, htypeValue,
      hidValue, hhardware, hsignal, hcounterValue, hmakerValue, hlabelValue]

/-! ## Addresses -/

/-- The type in a long address before HART 7. -/
def legacyType (high low : UInt16) : UInt16 :=
  ((high &&& 0x3f) <<< 8) ||| (low &&& 0xff)

theorem toNat_legacyType (high low : UInt16) :
    (legacyType high low).toNat =
      high.toNat % 64 * 256 + low.toNat % 256 := by
  have hhigh : high.toNat &&& (0x3f : UInt16).toNat = high.toNat % 64 :=
    Nat.and_two_pow_sub_one_eq_mod high.toNat 6
  have hlow : low.toNat &&& (0xff : UInt16).toNat = low.toNat % 256 :=
    Nat.and_two_pow_sub_one_eq_mod low.toNat 8
  have hbyte : low.toNat % 256 < 2 ^ 8 := Nat.mod_lt _ (by decide)
  have hword : high.toNat % 64 * 2 ^ 8 < 2 ^ 16 := by omega
  rw [legacyType, UInt16.toNat_or, UInt16.toNat_shiftLeft, UInt16.toNat_and,
    UInt16.toNat_and, hhigh, hlow, show (8 : UInt16).toNat % 16 = 8 from rfl,
    Nat.shiftLeft_eq, Nat.mod_eq_of_lt hword, ← Nat.shiftLeft_eq,
    ← Nat.shiftLeft_add_eq_or_of_lt hbyte, Nat.shiftLeft_eq]

/-- The address keeps six bits of the high part. -/
theorem legacyType_inj_iff {first second low : UInt16} :
    legacyType first low = legacyType second low ↔
      first &&& 0x3f = second &&& 0x3f := by
  have hmask : ∀ word : UInt16, (word &&& 0x3f).toNat = word.toNat % 64 := by
    intro word
    rw [UInt16.toNat_and]
    exact Nat.and_two_pow_sub_one_eq_mod word.toNat 6
  rw [← UInt16.toNat_inj, ← UInt16.toNat_inj, toNat_legacyType,
    toNat_legacyType, hmask, hmask]
  omega

namespace EmulatedDevice

def addressDeviceType (device : EmulatedDevice) : UInt16 :=
  if device.identity.universalRevision ≥ 7 then
    device.identity.deviceType &&& 0x3fff
  else
    legacyType device.identity.manufacturerId device.identity.deviceType

theorem acceptsAddress_iff {device : EmulatedDevice} {address : Address} :
    device.acceptsAddress address = true ↔
      address = device.address ∨
        Address.unique device.addressDeviceType device.identity.deviceId
          address.master = .ok address := by
  unfold acceptsAddress
  split_ifs with haddress
  · simp [haddress]
  · rw [or_iff_right haddress]
    cases hunique : Address.unique device.addressDeviceType
        device.identity.deviceId address.master with
    | ok expected =>
        unfold addressDeviceType legacyType at hunique
        simp [hunique]
    | error error =>
        unfold addressDeviceType legacyType at hunique
        simp [hunique]

end EmulatedDevice

theorem masked_le (word : UInt16) : word &&& 0x3fff ≤ 0x3fff := by
  rw [UInt16.le_iff_toNat_le, UInt16.toNat_and]
  exact Nat.and_le_right

theorem legacyType_le (high low : UInt16) : legacyType high low ≤ 0x3fff := by
  rw [UInt16.le_iff_toNat_le, toNat_legacyType]
  change _ ≤ 64 * 256 - 1
  omega

theorem addressDeviceType_le (device : EmulatedDevice) :
    device.addressDeviceType ≤ 0x3fff := by
  unfold EmulatedDevice.addressDeviceType
  split_ifs
  · exact masked_le _
  · exact legacyType_le _ _

theorem addressDeviceType_reported (identity : EmulatedIdentity) :
    identity.reported.addressDeviceType =
      if identity.universalRevision ≥ 7 then identity.deviceType &&& 0x3fff
      else legacyType (identity.deviceType >>> 8) identity.deviceType := by
  unfold DeviceIdentity.addressDeviceType EmulatedIdentity.reported
  dsimp only
  split_ifs with hexpanded
  · rfl
  · rw [legacyType, UInt16.and_assoc]
    rfl

theorem addressDeviceType_reported_le (identity : EmulatedIdentity) :
    identity.reported.addressDeviceType ≤ 0x3fff := by
  rw [addressDeviceType_reported]
  split_ifs
  · exact masked_le _
  · exact legacyType_le _ _

theorem addressDeviceType_eq_iff (device : EmulatedDevice) :
    device.identity.reported.addressDeviceType = device.addressDeviceType ↔
      7 ≤ device.identity.universalRevision ∨
        (device.identity.manufacturerId &&& 0x3f : UInt16) =
          (device.identity.deviceType >>> 8) &&& 0x3f := by
  rw [addressDeviceType_reported, EmulatedDevice.addressDeviceType]
  split_ifs with hexpanded
  · exact iff_of_true rfl (.inl hexpanded)
  · rw [legacyType_inj_iff, or_iff_right hexpanded]
    exact eq_comm

section Reached

variable {device : EmulatedDevice} (h : device.identity.Encodable)

include h

theorem uniqueAddress_reported (master : Master) :
    device.identity.reported.uniqueAddress master =
      .ok (.Unique device.identity.reported.addressDeviceType
        device.identity.deviceId master) := by
  refine Address.unique_ok (addressDeviceType_reported_le _) ?_
  rw [UInt32.le_iff_toNat_le]
  exact Nat.le_of_lt_succ h.deviceId

theorem forall_acceptsAddress_iff (expandedType : UInt16) :
    (∀ master, device.acceptsAddress
        (.Unique expandedType device.identity.deviceId master) = true) ↔
      expandedType = device.addressDeviceType := by
  have hunique : ∀ master : Master, Address.unique device.addressDeviceType
      device.identity.deviceId master = .ok (.Unique device.addressDeviceType
        device.identity.deviceId master) := by
    intro master
    refine Address.unique_ok (addressDeviceType_le device) ?_
    rw [UInt32.le_iff_toNat_le]
    exact Nat.le_of_lt_succ h.deviceId
  constructor
  · intro haccepts
    obtain ⟨master, hmaster⟩ : ∃ master, master ≠ device.address.master := by
      cases device.address.master with
      | primary => exact ⟨.secondary, nofun⟩
      | secondary => exact ⟨.primary, nofun⟩
    rcases EmulatedDevice.acceptsAddress_iff.mp (haccepts master) with
      hgiven | hlong
    · rw [← hgiven] at hmaster
      exact absurd rfl hmaster
    · rw [Address.master, hunique] at hlong
      simp only [Except.ok.injEq, Address.Unique.injEq] at hlong
      exact hlong.1.symm
  · rintro rfl master
    exact EmulatedDevice.acceptsAddress_iff.mpr (.inr (hunique master))

end Reached

/-! ## Agreement -/

structure ReadBack (identity : EmulatedIdentity) (read : DeviceIdentity) :
    Prop where
  deviceId : read.deviceId = identity.deviceId
  universalRevision : read.universalRevision = identity.universalRevision
  deviceRevision : read.deviceRevision = identity.deviceRevision
  softwareRevision : read.softwareRevision = identity.softwareRevision
  hardwareRevision : read.hardwareRevision = identity.hardwareRevision
  physicalSignaling : read.physicalSignaling = identity.physicalSignaling
  flags : read.flags = identity.flags
  requestPreambles : read.requestPreambles = identity.requestPreambles
  responsePreambles :
    read.responsePreambles = identity.since 6 identity.responsePreambles
  maximumDeviceVariables : read.maximumDeviceVariables =
    identity.since 6 identity.maximumDeviceVariables
  configurationChangeCounter : read.configurationChangeCounter =
    identity.since 6 identity.configurationChangeCounter
  extendedStatus :
    read.extendedStatus = identity.since 6 identity.extendedStatus
  manufacturerId : 7 ≤ identity.universalRevision →
    read.manufacturerId = identity.manufacturerId
  deviceType : 7 ≤ identity.universalRevision →
    read.deviceType = identity.deviceType
  privateLabelDistributor : read.privateLabelDistributor =
    identity.since 7 identity.privateLabelDistributor
  deviceProfile :
    read.deviceProfile = identity.since 7 identity.deviceProfile
  extension : read.extension = []

theorem readBack_reported (identity : EmulatedIdentity) :
    ReadBack identity identity.reported :=
  ⟨rfl, rfl, rfl, rfl, rfl, rfl, rfl, rfl, rfl, rfl, rfl, rfl,
    fun h => if_pos h, fun h => if_pos h, rfl, rfl, rfl⟩

/-- The host reads the identity of a device and reaches it for both masters. -/
def HostAgrees (device : EmulatedDevice) : Prop :=
  ∃ read, decodeIdentityData device.identityPayload = .ok read ∧
    ReadBack device.identity read ∧
    ∀ master, ∃ address, read.uniqueAddress master = .ok address ∧
      device.acceptsAddress address = true

theorem hostAgrees_iff {device : EmulatedDevice}
    (h : device.identity.Encodable) :
    HostAgrees device ↔ ∀ master, device.acceptsAddress
      (.Unique device.identity.reported.addressDeviceType
        device.identity.deviceId master) = true := by
  have hdecode := decode_identityPayload h
  constructor
  · rintro ⟨read, hread, -, haddresses⟩ master
    rw [hdecode] at hread
    injection hread with hread
    subst hread
    obtain ⟨address, haddress, haccepts⟩ := haddresses master
    rw [uniqueAddress_reported h] at haddress
    injection haddress with haddress
    rwa [haddress]
  · intro haccepts
    exact ⟨_, hdecode, readBack_reported _, fun master =>
      ⟨_, uniqueAddress_reported h master, haccepts master⟩⟩

/--
The identity is always read back.  The device is reached from HART 7 on, and
before it exactly when the high byte of its type stands for its manufacturer.
-/
theorem emulated_identity_agrees_iff {device : EmulatedDevice}
    (h : device.identity.Encodable) :
    (∃ read, decodeIdentityData device.identityPayload = .ok read ∧
      ReadBack device.identity read) ∧
    (HostAgrees device ↔
      7 ≤ device.identity.universalRevision ∨
        (device.identity.manufacturerId &&& 0x3f : UInt16) =
          (device.identity.deviceType >>> 8) &&& 0x3f) := by
  refine ⟨⟨_, decode_identityPayload h, readBack_reported _⟩, ?_⟩
  rw [hostAgrees_iff h, forall_acceptsAddress_iff h, addressDeviceType_eq_iff]

def transmitter (deviceType : UInt16) (universalRevision : UInt8) :
    EmulatedDevice where
  address := .Polling 0 .primary
  identity :=
    { manufacturerId := 0x26, deviceType, requestPreambles := 5
      universalRevision, deviceRevision := 1, softwareRevision := 2
      hardwareRevision := 3, physicalSignaling := 1, flags := 0
      deviceId := 0x123456, responsePreambles := 5
      maximumDeviceVariables := 4, configurationChangeCounter := 7
      extendedStatus := 0, privateLabelDistributor := 0x26
      deviceProfile := 1 }
  primaryUnit := 39
  primaryValue := 0
  loopCurrent := 0
  percent := 0
  status := 0
  additionalStatus := []

theorem transmitter_encodable (deviceType : UInt16)
    (universalRevision : UInt8) :
    (transmitter deviceType universalRevision).identity.Encodable :=
  ⟨by change 1 ≤ 5; decide, by change 0x123456 < 2 ^ 24; decide,
    by change 3 < 32; decide, by change 1 < 8; decide⟩

/-- Before HART 7 the payload of the device omits its manufacturer. -/
theorem legacy_transmitter_unreached :
    (transmitter 0x06 5).identity.Encodable ∧
      ¬ HostAgrees (transmitter 0x06 5) := by
  have hencodable := transmitter_encodable 0x06 5
  refine ⟨hencodable, ?_⟩
  rw [hostAgrees_iff hencodable]
  intro haccepts
  have hprimary := haccepts .primary
  revert hprimary
  decide +kernel

theorem emulated_identity_agrees_transmitter :
    HostAgrees (transmitter 0x06 7) ∧ HostAgrees (transmitter 0x2606 5) ∧
      ¬ HostAgrees (transmitter 0x06 6) := by
  refine ⟨?_, ?_, ?_⟩
  · exact (emulated_identity_agrees_iff
      (transmitter_encodable 0x06 7)).2.mpr (by decide)
  · exact (emulated_identity_agrees_iff
      (transmitter_encodable 0x2606 5)).2.mpr (by decide)
  · exact (emulated_identity_agrees_iff
      (transmitter_encodable 0x06 6)).2.not.mpr (by decide)

end HartLink.Emulator
