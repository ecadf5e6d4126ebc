import HartLink.Command.Text
import HartLink.Emulator.Identity

/-!
# The format of identification data

The data of an identification reply and the identities that a host can decode
correspond one to one: every decoded identity is well formed, and its encoding
is the data it was decoded from, with a tail that the host does not know.
-/

namespace HartLink.Operation

open HartLink.Foundation
open HartLink.Wire

attribute [ext] DeviceIdentity

namespace DeviceIdentity

/-- The fields that the revision has and no others, each within its bits. -/
structure WellFormed (identity : DeviceIdentity) : Prop where
  responseIdentifier : identity.responseIdentifier = 0xfe
  requestPreambles : identity.requestPreambles ≠ 0
  hardwareRevision : identity.hardwareRevision.toNat < 32
  physicalSignaling : identity.physicalSignaling.toNat < 8
  deviceId : identity.deviceId.toNat < 2 ^ 24
  narrow : ¬ identity.universalRevision ≥ 7 →
    identity.manufacturerId.toNat < 256 ∧ identity.deviceType.toNat < 256
  responsePreambles : identity.responsePreambles.isSome ↔
    identity.universalRevision ≥ 6
  maximumDeviceVariables : identity.maximumDeviceVariables.isSome ↔
    identity.universalRevision ≥ 6
  configurationChangeCounter : identity.configurationChangeCounter.isSome ↔
    identity.universalRevision ≥ 6
  extendedStatus : identity.extendedStatus.isSome ↔
    identity.universalRevision ≥ 6
  privateLabelDistributor : identity.privateLabelDistributor.isSome ↔
    identity.universalRevision ≥ 7
  deviceProfile : identity.deviceProfile.isSome ↔
    identity.universalRevision ≥ 7

/-- A word in network order, if there is one. -/
def wordBytes (word : Option UInt16) : Bytes :=
  word.elim [] fun word => beBytes 2 word.toNat

/-- Before HART 7 a manufacturer and a type are one byte each. -/
def typeBytes (identity : DeviceIdentity) : Bytes :=
  if identity.universalRevision ≥ 7 then beBytes 2 identity.deviceType.toNat
  else [identity.manufacturerId.toUInt8, identity.deviceType.toUInt8]

def manufacturer (identity : DeviceIdentity) : Option UInt16 :=
  if identity.universalRevision ≥ 7 then some identity.manufacturerId else none

def encoding (identity : DeviceIdentity) : Bytes :=
  identity.responseIdentifier :: (identity.typeBytes ++
    identity.requestPreambles :: identity.universalRevision ::
      identity.deviceRevision :: identity.softwareRevision ::
      ((identity.hardwareRevision <<< 3) ||| identity.physicalSignaling) ::
      identity.flags :: (beBytes 3 identity.deviceId.toNat ++
        (identity.responsePreambles.toList ++
          (identity.maximumDeviceVariables.toList ++
            (wordBytes identity.configurationChangeCounter ++
              (identity.extendedStatus.toList ++
                (wordBytes identity.manufacturer ++
                  (wordBytes identity.privateLabelDistributor ++
                    (identity.deviceProfile.toList ++
                      identity.extension)))))))))

end DeviceIdentity

/-! ## Bytes of one identity -/

theorem hardware_signal_inj (byte hardware signal : UInt8) :
    byte = (hardware <<< 3) ||| signal ∧ hardware.toNat < 32 ∧
        signal.toNat < 8 ↔
      hardware = byte >>> 3 ∧ signal = byte &&& 0x07 := by
  have hsplit : ∀ byte : UInt8, byte = ((byte >>> 3) <<< 3) |||
      (byte &&& 0x07) ∧ (byte >>> 3).toNat < 32 ∧
        (byte &&& 0x07).toNat < 8 := forall_byte (by decide +kernel)
  have hjoin : ∀ (h : Fin 32) (s : Fin 8), ((UInt8.ofNat h <<< 3) |||
      UInt8.ofNat s) >>> 3 = UInt8.ofNat h ∧ ((UInt8.ofNat h <<< 3) |||
        UInt8.ofNat s) &&& 0x07 = UInt8.ofNat s := by
    decide +kernel
  constructor
  · rintro ⟨rfl, hhardware, hsignal⟩
    have := hjoin ⟨hardware.toNat, hhardware⟩ ⟨signal.toNat, hsignal⟩
    simp only [UInt8.ofNat_toNat] at this
    exact ⟨this.1.symm, this.2.symm⟩
  · rintro ⟨rfl, rfl⟩
    exact hsplit byte

theorem toUInt8_eq_iff (byte : UInt8) (word : UInt16) :
    byte = word.toUInt8 ∧ word.toNat < 256 ↔ word = byte.toUInt16 := by
  have hbyte := byte.toNat_lt
  rw [← UInt8.toNat_inj, ← UInt16.toNat_inj, UInt16.toNat_toUInt8,
    UInt8.toNat_toUInt16]
  omega

theorem beBytes_two_iff (high low : UInt8) (word : UInt16) :
    [high, low] = beBytes 2 word.toNat ↔ word = fromBeBytes high low := by
  have hword := word.toNat_lt
  have hhigh := high.toNat_lt
  have hlow := low.toNat_lt
  rw [← UInt16.toNat_inj, toNat_fromBeBytes]
  simp only [beBytes, leBytes, List.reverse_cons, List.reverse_nil,
    List.nil_append, List.cons_append, List.cons.injEq, and_true,
    ← UInt8.toNat_inj, UInt8.toNat_ofNat']
  omega

theorem beBytes_three_iff (b0 b1 b2 : UInt8) (word : UInt32) :
    [b0, b1, b2] = beBytes 3 word.toNat ∧ word.toNat < 2 ^ 24 ↔
      word = ((b0.toUInt32 <<< 16) ||| (b1.toUInt32 <<< 8) |||
        b2.toUInt32) := by
  have hlt : beValue [b0, b1, b2] < 256 ^ 3 := beValue_lt _
  have hwidth : 2 ^ 24 = 256 ^ 3 := by norm_num
  rw [← UInt32.toNat_inj, toNat_threeBytes, hwidth]
  constructor
  · rintro ⟨hbytes, hword⟩
    rw [hbytes, beValue_beBytes hword]
  · intro hword
    rw [hword]
    refine ⟨beValue_inj (by simp) ?_, hlt⟩
    rw [beValue_beBytes hlt]

/-! ## Decoding -/

section Forms

variable {identifier maker type preambles revision device software shared
  flags b0 b1 b2 : UInt8} {identity : DeviceIdentity}

def mandatory (identifier maker type preambles revision device software shared
    flags b0 b1 b2 : UInt8) (extension : Bytes) : DeviceIdentity where
  responseIdentifier := identifier
  manufacturerId := maker.toUInt16
  deviceType := type.toUInt16
  requestPreambles := preambles
  universalRevision := revision
  deviceRevision := device
  softwareRevision := software
  hardwareRevision := shared >>> 3
  physicalSignaling := shared &&& 0x07
  flags := flags
  deviceId := (b0.toUInt32 <<< 16) ||| (b1.toUInt32 <<< 8) ||| b2.toUInt32
  responsePreambles := none
  maximumDeviceVariables := none
  configurationChangeCounter := none
  extendedStatus := none
  privateLabelDistributor := none
  deviceProfile := none
  extension := extension

def readOptional (fields : DeviceIdentity) (reader : PayloadReader) :
    Except CodecError DeviceIdentity := do
  let extended : Bool := fields.universalRevision ≥ 6
  let expanded : Bool := fields.universalRevision ≥ 7
  let (responsePreambles, reader) ← readWhen extended reader
    (·.u8 "response preamble count")
  let (maximumDeviceVariables, reader) ← readWhen extended reader
    (·.u8 "maximum device-variable count")
  let (configurationChangeCounter, reader) ← readWhen extended reader
    (·.u16 "configuration-change counter")
  let (extendedStatus, reader) ← readWhen extended reader
    (·.u8 "extended status")
  let (manufacturerId, reader) ← readWhen expanded reader
    (·.u16 "manufacturer identifier")
  let (privateLabelDistributor, reader) ← readWhen expanded reader
    (·.u16 "private-label distributor")
  let (deviceProfile, reader) ← readWhen expanded reader
    (·.u8 "device profile")
  return { fields with
    manufacturerId := manufacturerId.getD fields.manufacturerId
    deviceType :=
      if expanded then
        fromBeBytes fields.manufacturerId.toUInt8 fields.deviceType.toUInt8
      else fields.deviceType
    responsePreambles
    maximumDeviceVariables
    configurationChangeCounter
    extendedStatus
    privateLabelDistributor
    deviceProfile
    extension := reader.rest.1 }

/-- The bytes that every revision has, then those of the revision. -/
theorem decode_mandatory {rest : Bytes}
    (hlength : requiredIdentityLength revision ≤ rest.length + 12) :
    decodeIdentityData (identifier :: maker :: type :: preambles ::
        revision :: device :: software :: shared :: flags :: b0 :: b1 :: b2 ::
        rest) = .ok identity ↔
      identifier = 0xfe ∧ preambles ≠ 0 ∧
        readOptional (mandatory identifier maker type preambles revision device
          software shared flags b0 b1 b2 [])
          ⟨identifier :: maker :: type :: preambles :: revision :: device ::
            software :: shared :: flags :: b0 :: b1 :: b2 :: rest, 12⟩ =
            .ok identity := by
  by_cases hidentifier : identifier = 0xfe
  · by_cases hpreambles : preambles = 0
    · simp +arith [decodeIdentityData, PayloadReader.new, PayloadReader.u8,
        bind, Except.bind, hidentifier, hpreambles]
    · have hlong : ¬ rest.length + 12 < requiredIdentityLength revision := by
        omega
      simp +arith [decodeIdentityData, PayloadReader.new, PayloadReader.u8,
        PayloadReader.u24, PayloadReader.bytes, slice, bind, Except.bind,
        pure, Except.pure, readOptional, hidentifier, hpreambles, hlong,
        mandatory]
  · simp +arith [decodeIdentityData, PayloadReader.new, PayloadReader.u8,
      bind, Except.bind, hidentifier]

theorem decode_five {extension : Bytes}
    (hlength : requiredIdentityLength revision = 12)
    (hextended : ¬ revision ≥ 6) (hexpanded : ¬ revision ≥ 7) :
    decodeIdentityData (identifier :: maker :: type :: preambles ::
        revision :: device :: software :: shared :: flags :: b0 :: b1 :: b2 ::
        extension) = .ok identity ↔
      identifier = 0xfe ∧ preambles ≠ 0 ∧
        mandatory identifier maker type preambles revision device software
          shared flags b0 b1 b2 extension = identity := by
  rw [decode_mandatory (by omega)]
  simp [readOptional, readWhen, hextended, hexpanded, PayloadReader.rest,
    mandatory, bind, Except.bind, pure, Except.pure]

theorem decode_six {response count c0 c1 status : UInt8} {extension : Bytes}
    (hlength : requiredIdentityLength revision = 17)
    (hextended : revision ≥ 6) (hexpanded : ¬ revision ≥ 7) :
    decodeIdentityData (identifier :: maker :: type :: preambles ::
        revision :: device :: software :: shared :: flags :: b0 :: b1 :: b2 ::
        response :: count :: c0 :: c1 :: status :: extension) =
        .ok identity ↔
      identifier = 0xfe ∧ preambles ≠ 0 ∧
        { mandatory identifier maker type preambles revision device software
            shared flags b0 b1 b2 extension with
          responsePreambles := some response
          maximumDeviceVariables := some count
          configurationChangeCounter := some (fromBeBytes c0 c1)
          extendedStatus := some status } = identity := by
  rw [decode_mandatory (by simp only [List.length_cons]; omega)]
  simp [readOptional, readWhen, hextended, hexpanded, PayloadReader.u8,
    PayloadReader.u16, PayloadReader.bytes, PayloadReader.rest, slice,
    mandatory, bind, Except.bind, pure, Except.pure, Except.map]

theorem decode_seven {response count c0 c1 status m0 m1 l0 l1 profile : UInt8}
    {extension : Bytes} (hlength : requiredIdentityLength revision = 22)
    (hextended : revision ≥ 6) (hexpanded : revision ≥ 7) :
    decodeIdentityData (identifier :: maker :: type :: preambles ::
        revision :: device :: software :: shared :: flags :: b0 :: b1 :: b2 ::
        response :: count :: c0 :: c1 :: status :: m0 :: m1 :: l0 :: l1 ::
        profile :: extension) = .ok identity ↔
      identifier = 0xfe ∧ preambles ≠ 0 ∧
        { mandatory identifier maker type preambles revision device software
            shared flags b0 b1 b2 extension with
          manufacturerId := fromBeBytes m0 m1
          deviceType := fromBeBytes maker type
          responsePreambles := some response
          maximumDeviceVariables := some count
          configurationChangeCounter := some (fromBeBytes c0 c1)
          extendedStatus := some status
          privateLabelDistributor := some (fromBeBytes l0 l1)
          deviceProfile := some profile } = identity := by
  rw [decode_mandatory (by simp only [List.length_cons]; omega)]
  simp [readOptional, readWhen, hextended, hexpanded, PayloadReader.u8,
    PayloadReader.u16, PayloadReader.bytes, PayloadReader.rest, slice,
    mandatory, bind, Except.bind, pure, Except.pure, Except.map]

end Forms

theorem length_of_decode {data : Bytes} {identity : DeviceIdentity}
    (h : decodeIdentityData data = .ok identity) :
    12 ≤ data.length ∧
      requiredIdentityLength (data.getD 4 0) ≤ data.length := by
  by_cases hmandatory : data.length < 12
  · simp [decodeIdentityData, hmandatory, bind, Except.bind] at h
  · refine ⟨by omega, ?_⟩
    by_contra hshort
    obtain _ | ⟨identifier, _ | ⟨maker, _ | ⟨type, _ | ⟨preambles, _ |
      ⟨revision, rest⟩⟩⟩⟩⟩ := data
    case cons.cons.cons.cons.cons =>
      simp only [List.getD_cons_succ, List.getD_cons_zero] at hshort
      have hshort := Nat.lt_of_not_le hshort
      simp only [decodeIdentityData, hmandatory, if_false, bind, Except.bind,
        PayloadReader.new, PayloadReader.u8, List.getElem?_cons_zero,
        List.getElem?_cons_succ, Nat.zero_add, Nat.reduceAdd, hshort,
        if_true] at h
      split_ifs at h
    all_goals simp at hmandatory

theorem encoding_of_decode {data : Bytes} {identity : DeviceIdentity}
    (h : decodeIdentityData data = .ok identity) :
    identity.WellFormed ∧ data = identity.encoding := by
  obtain ⟨hmandatory, hrequired⟩ := length_of_decode h
  match data, hmandatory with
  | identifier :: maker :: type :: preambles :: revision :: device ::
      software :: shared :: flags :: b0 :: b1 :: b2 :: extension, _ =>
  simp only [List.getD_cons_succ, List.getD_cons_zero, List.length_cons]
    at hrequired
  obtain ⟨hshared, hhardware, hsignal⟩ :=
    (hardware_signal_inj shared _ _).mpr ⟨rfl, rfl⟩
  obtain ⟨hid, hidBound⟩ := (beBytes_three_iff b0 b1 b2 _).mpr rfl
  obtain ⟨hmaker, hmakerBound⟩ := (toUInt8_eq_iff maker _).mpr rfl
  obtain ⟨htype, htypeBound⟩ := (toUInt8_eq_iff type _).mpr rfl
  have htypes := (beBytes_two_iff maker type _).mpr rfl
  rcases Emulator.revision_cases revision with
    ⟨hlength, hextended, hexpanded⟩ | ⟨hlength, hextended, hexpanded⟩ |
      ⟨hlength, hextended, hexpanded⟩
  · obtain ⟨rfl, hpreambles, rfl⟩ :=
      (decode_five hlength hextended hexpanded).mp h
    refine ⟨⟨rfl, hpreambles, hhardware, hsignal, hidBound,
      fun _ => ⟨hmakerBound, htypeBound⟩, ?_, ?_, ?_, ?_, ?_, ?_⟩, ?_⟩
    all_goals
      simp [mandatory, DeviceIdentity.encoding, DeviceIdentity.typeBytes,
        DeviceIdentity.wordBytes, DeviceIdentity.manufacturer, hextended,
        hexpanded, ← hshared, -UInt32.toNat_or, ← hid, ← hmaker, ← htype]
  · have hfive : 5 ≤ extension.length := by omega
    match extension, hfive with
    | response :: count :: c0 :: c1 :: status :: extension, _ =>
    obtain ⟨rfl, hpreambles, rfl⟩ :=
      (decode_six hlength hextended hexpanded).mp h
    have hcounter := (beBytes_two_iff c0 c1 _).mpr rfl
    refine ⟨⟨rfl, hpreambles, hhardware, hsignal, hidBound,
      fun _ => ⟨hmakerBound, htypeBound⟩, ?_, ?_, ?_, ?_, ?_, ?_⟩, ?_⟩
    all_goals
      simp [mandatory, DeviceIdentity.encoding, DeviceIdentity.typeBytes,
        DeviceIdentity.wordBytes, DeviceIdentity.manufacturer, hextended,
        hexpanded, ← hshared, -UInt32.toNat_or, ← hid, ← hmaker, ← htype,
        ← hcounter]
  · have hten : 10 ≤ extension.length := by omega
    match extension, hten with
    | response :: count :: c0 :: c1 :: status :: m0 :: m1 :: l0 :: l1 ::
        profile :: extension, _ =>
    obtain ⟨rfl, hpreambles, rfl⟩ :=
      (decode_seven hlength hextended hexpanded).mp h
    have hcounter := (beBytes_two_iff c0 c1 _).mpr rfl
    have hmanufacturer := (beBytes_two_iff m0 m1 _).mpr rfl
    have hlabel := (beBytes_two_iff l0 l1 _).mpr rfl
    refine ⟨⟨rfl, hpreambles, hhardware, hsignal, hidBound,
      fun hold => absurd hexpanded hold, ?_, ?_, ?_, ?_, ?_, ?_⟩, ?_⟩
    all_goals
      simp [mandatory, DeviceIdentity.encoding, DeviceIdentity.typeBytes,
        DeviceIdentity.wordBytes, DeviceIdentity.manufacturer, hextended,
        hexpanded, ← hshared, -UInt32.toNat_or, ← hid, ← htypes, ← hcounter,
        ← hmanufacturer, ← hlabel]

theorem exists_beBytes_two (word : UInt16) :
    ∃ high low, beBytes 2 word.toNat = [high, low] ∧
      fromBeBytes high low = word := by
  obtain ⟨high, low, hbytes⟩ := List.length_eq_two.mp
    (length_beBytes 2 word.toNat)
  exact ⟨high, low, hbytes, ((beBytes_two_iff high low word).mp
    hbytes.symm).symm⟩

theorem eq_none_of_iff {Value : Type} {option : Option Value} {p : Prop}
    (h : option.isSome ↔ p) (hp : ¬ p) : option = none :=
  Option.not_isSome_iff_eq_none.mp (mt h.mp hp)

theorem exists_of_iff {Value : Type} {option : Option Value} {p : Prop}
    (h : option.isSome ↔ p) (hp : p) : ∃ value, option = some value :=
  Option.isSome_iff_exists.mp (h.mpr hp)

theorem decode_encoding {identity : DeviceIdentity}
    (h : identity.WellFormed) :
    decodeIdentityData identity.encoding = .ok identity := by
  obtain ⟨b0, b1, b2, hid⟩ := List.length_eq_three.mp
    (length_beBytes 3 identity.deviceId.toNat)
  have hidValue := (beBytes_three_iff b0 b1 b2 _).mp ⟨hid.symm, h.deviceId⟩
  obtain ⟨hhardware, hsignal⟩ := (hardware_signal_inj _ _ _).mp
    ⟨rfl, h.hardwareRevision, h.physicalSignaling⟩
  rcases Emulator.revision_cases identity.universalRevision with
    ⟨hlength, hextended, hexpanded⟩ | ⟨hlength, hextended, hexpanded⟩ |
      ⟨hlength, hextended, hexpanded⟩
  · obtain ⟨hmakerBound, htypeBound⟩ := h.narrow hexpanded
    have hmaker := (toUInt8_eq_iff _ _).mp ⟨rfl, hmakerBound⟩
    have htype := (toUInt8_eq_iff _ _).mp ⟨rfl, htypeBound⟩
    have hresponse := eq_none_of_iff h.responsePreambles hextended
    have hcount := eq_none_of_iff h.maximumDeviceVariables hextended
    have hcounter := eq_none_of_iff h.configurationChangeCounter hextended
    have hstatus := eq_none_of_iff h.extendedStatus hextended
    have hlabel := eq_none_of_iff h.privateLabelDistributor hexpanded
    have hprofile := eq_none_of_iff h.deviceProfile hexpanded
    simp only [DeviceIdentity.encoding, DeviceIdentity.typeBytes,
      DeviceIdentity.wordBytes, DeviceIdentity.manufacturer, hexpanded, hid,
      hresponse, hcount, hcounter, hstatus, hlabel, hprofile, if_false,
      Option.toList, Option.elim, List.nil_append, List.cons_append]
    rw [decode_five hlength hextended hexpanded]
    exact ⟨h.responseIdentifier, h.requestPreambles,
      DeviceIdentity.ext rfl hmaker.symm htype.symm rfl rfl rfl rfl
        hhardware.symm hsignal.symm rfl hidValue.symm hresponse.symm
        hcount.symm hcounter.symm hstatus.symm hlabel.symm hprofile.symm rfl⟩
  · obtain ⟨hmakerBound, htypeBound⟩ := h.narrow hexpanded
    have hmaker := (toUInt8_eq_iff _ _).mp ⟨rfl, hmakerBound⟩
    have htype := (toUInt8_eq_iff _ _).mp ⟨rfl, htypeBound⟩
    obtain ⟨response, hresponse⟩ := exists_of_iff h.responsePreambles hextended
    obtain ⟨count, hcount⟩ := exists_of_iff h.maximumDeviceVariables hextended
    obtain ⟨counter, hcounter⟩ :=
      exists_of_iff h.configurationChangeCounter hextended
    obtain ⟨c0, c1, hbytes, hvalue⟩ := exists_beBytes_two counter
    obtain ⟨status, hstatus⟩ := exists_of_iff h.extendedStatus hextended
    have hlabel := eq_none_of_iff h.privateLabelDistributor hexpanded
    have hprofile := eq_none_of_iff h.deviceProfile hexpanded
    simp only [DeviceIdentity.encoding, DeviceIdentity.typeBytes,
      DeviceIdentity.wordBytes, DeviceIdentity.manufacturer, hexpanded, hid,
      hresponse, hcount, hcounter, hstatus, hlabel, hprofile, hbytes, if_false,
      Option.toList, Option.elim, List.nil_append, List.cons_append]
    rw [decode_six hlength hextended hexpanded]
    rw [hvalue, ← hresponse, ← hcount, ← hcounter, ← hstatus]
    exact ⟨h.responseIdentifier, h.requestPreambles,
      DeviceIdentity.ext rfl hmaker.symm htype.symm rfl rfl rfl rfl
        hhardware.symm hsignal.symm rfl hidValue.symm rfl rfl rfl rfl
        hlabel.symm hprofile.symm rfl⟩
  · obtain ⟨type0, type1, htypes, htypesValue⟩ :=
      exists_beBytes_two identity.deviceType
    obtain ⟨m0, m1, hmaker, hmakerValue⟩ :=
      exists_beBytes_two identity.manufacturerId
    obtain ⟨response, hresponse⟩ := exists_of_iff h.responsePreambles hextended
    obtain ⟨count, hcount⟩ := exists_of_iff h.maximumDeviceVariables hextended
    obtain ⟨counter, hcounter⟩ :=
      exists_of_iff h.configurationChangeCounter hextended
    obtain ⟨c0, c1, hbytes, hvalue⟩ := exists_beBytes_two counter
    obtain ⟨status, hstatus⟩ := exists_of_iff h.extendedStatus hextended
    obtain ⟨label, hlabel⟩ :=
      exists_of_iff h.privateLabelDistributor hexpanded
    obtain ⟨l0, l1, hlabels, hlabelValue⟩ := exists_beBytes_two label
    obtain ⟨profile, hprofile⟩ := exists_of_iff h.deviceProfile hexpanded
    simp only [DeviceIdentity.encoding, DeviceIdentity.typeBytes,
      DeviceIdentity.wordBytes, DeviceIdentity.manufacturer, hexpanded, hid,
      hresponse, hcount, hcounter, hstatus, hlabel, hprofile, hbytes, htypes,
      hmaker, hlabels, if_true, Option.toList, Option.elim, List.nil_append,
      List.cons_append]
    rw [decode_seven hlength hextended hexpanded]
    rw [hvalue, htypesValue, hmakerValue, hlabelValue, ← hresponse, ← hcount,
      ← hcounter, ← hstatus, ← hlabel, ← hprofile]
    exact ⟨h.responseIdentifier, h.requestPreambles,
      DeviceIdentity.ext rfl rfl rfl rfl rfl rfl rfl hhardware.symm
        hsignal.symm rfl hidValue.symm rfl rfl rfl rfl rfl rfl rfl⟩

/--
The identification data that is accepted and the well-formed identities
correspond one to one, a tail that the host does not know included.
-/
theorem identification_data_one_to_one (data : Bytes)
    (identity : DeviceIdentity) :
    decodeIdentityData data = .ok identity ↔
      identity.WellFormed ∧ data = identity.encoding := by
  constructor
  · exact encoding_of_decode
  · rintro ⟨hwell, rfl⟩
    exact decode_encoding hwell

end HartLink.Operation
