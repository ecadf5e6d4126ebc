import HartLink.Command.Identity
import HartLink.Service.Correlation

/-!
# The typed operations

Every operation that the crate offers with a typed result, as its constructors
build it, with the replies that stand for each result.  Its request keeps to the
registry, and its decoder accepts the successful replies of its meaning and no
others.
-/

namespace HartLink.Command

open HartLink.Foundation
open HartLink.Wire
open HartLink.Operation
open HartLink.Service

/-! ## Meanings -/

/-- The replies that stand for a result, apart from command and status. -/
abbrev Meaning (Output : Type) := Output → DeviceReply → Prop

namespace Meaning

variable {Output : Type}

/-- Only the data counts. -/
def data (grammar : Grammar UInt8 Output) : Meaning Output :=
  fun output reply => grammar output reply.data

def identity : Meaning DeviceIdentity :=
  data fun identity bytes => identity.WellFormed ∧ bytes = identity.encoding

def byte : Meaning UInt8 := data (Grammar.encoded fun byte => [byte])

def real : Meaning UInt32 := data (Grammar.encoded realBytes)

/-- The node is in the low six bits; a mode may follow. -/
def pollingAddress : Meaning PollingAddress :=
  data fun address bytes => ∃ byte : UInt8, address.node = byte &&& 0x3f ∧
    (address.loopCurrentEnabled = decide (address.node = 0) ∧
        bytes = [byte] ∨
      ∃ mode : UInt8, address.loopCurrentEnabled = decide (mode ≠ 0) ∧
        bytes = [byte, mode])

def information : Meaning Bytes :=
  data fun information bytes => bytes = information ∧ information ≠ []

def assemblyNumber : Grammar UInt8 UInt32 :=
  fun number bytes => number.toNat < 2 ^ 24 ∧ bytes = beBytes 3 number.toNat

def message : Meaning String :=
  data fun text bytes => bytes.length = 24 ∧ text = unpackText bytes

/-- A date that is wholly zero is none. -/
def DateAllowed (date : DeviceDate) : Prop :=
  date = ⟨0, 0, 0⟩ ∨
    (1 ≤ date.day ∧ date.day ≤ 31) ∧ 1 ≤ date.month ∧ date.month ≤ 12

def tagDescriptorDate : Meaning TagDescriptorDate :=
  data fun value bytes => ∃ tag descriptor : Bytes, tag.length = 6 ∧
    descriptor.length = 12 ∧
    bytes = tag ++ descriptor ++
      [value.date.day, value.date.month, value.date.yearSince1900] ∧
    value.tag = unpackText tag ∧ value.descriptor = unpackText descriptor ∧
    DateAllowed value.date

def longTag : Meaning String :=
  data fun text bytes => bytes.length = 32 ∧
    text = String.ofList ((bytes.map latin1Char).rdropWhile isPadding)

end Meaning

/--
The typed operations.  A list of slots or of variables is one that `new` has
checked; a trim keeps its command while its current may be changed.
-/
inductive Typed :
    {Output : Type} → DeviceOperation Output → Meaning Output → Prop
  | readDeviceIdentity : Typed readDeviceIdentity Meaning.identity
  | readPrimaryValue :
      Typed readPrimaryValue (Meaning.data (Grammar.encoded
        PrimaryValue.encoding))
  | readLoopSignal :
      Typed readLoopSignal (Meaning.data (Grammar.encoded LoopSignal.encoding))
  | readDynamicValues :
      Typed readDynamicValues (Meaning.data fun dynamic bytes =>
        bytes = dynamic.encoding ∧ 1 ≤ dynamic.values.length ∧
          dynamic.values.length ≤ 4)
  | writePollingAddress (write : WritePollingAddress) :
      Typed write.operation Meaning.pollingAddress
  | writeLegacyPollingAddress (write : WriteLegacyPollingAddress) :
      Typed write.operation Meaning.pollingAddress
  | readLoopConfiguration :
      Typed readLoopConfiguration (Meaning.data fun configuration bytes =>
        ∃ byte : UInt8, configuration.node = byte &&& 0x3f ∧
          bytes = byte :: configuration.loopCurrentMode.toList)
  | readVariableClassifications :
      Typed readVariableClassifications
        (Meaning.data fun classifications bytes =>
          bytes = classifications.classes ∧
            1 ≤ classifications.classes.length ∧
            classifications.classes.length ≤ 4)
  | readDeviceVariables {slots : Bytes} {request : ReadDeviceVariables}
      (h : ReadDeviceVariables.new slots = .ok request) :
      Typed request.operation (Meaning.data fun device bytes =>
        bytes = device.encoding ∧ device.deviceVariables.length ≤ 8)
  | readIdentity {command : UInt8} {requestData : Bytes}
      {request : ReadIdentity}
      (h : ReadIdentity.new command requestData = .ok request) :
      Typed request.operation Meaning.identity
  | readMessage : Typed readMessage Meaning.message
  | readTagDescriptorDate :
      Typed readTagDescriptorDate Meaning.tagDescriptorDate
  | readTransducerInformation :
      Typed readTransducerInformation Meaning.information
  | readOutputInformation : Typed readOutputInformation Meaning.information
  | readFinalAssemblyNumber :
      Typed readFinalAssemblyNumber (Meaning.data Meaning.assemblyNumber)
  | writeMessage {message : String} {write : WriteMessage}
      (h : WriteMessage.new message = .ok write) :
      Typed write.operation Meaning.message
  | writeTagDescriptorDate {value : TagDescriptorDate}
      {write : WriteTagDescriptorDate}
      (h : WriteTagDescriptorDate.new value = .ok write) :
      Typed (writeTagDescriptorDate write) Meaning.tagDescriptorDate
  | writeFinalAssemblyNumber (write : WriteFinalAssemblyNumber) :
      Typed write.operation (Meaning.data fun number bytes =>
        bytes = [] ∧ number = write.value ∨
          Meaning.assemblyNumber number bytes)
  | readLongTag : Typed readLongTag Meaning.longTag
  | writeLongTag {tag : String} {write : WriteLongTag}
      (h : WriteLongTag.new tag = .ok write) :
      Typed write.operation Meaning.longTag
  | readSelectedVariables {deviceVariables : Bytes}
      {request : ReadSelectedVariables}
      (h : ReadSelectedVariables.new deviceVariables = .ok request) :
      Typed request.operation (Meaning.data fun selected bytes =>
        bytes = selected.flatMap SelectedVariable.encoding ∧
          1 ≤ selected.length ∧ selected.length ≤ 4)
  | setDamping (damping : SetDamping) : Typed damping.operation Meaning.real
  | setRange (range : SetRange) :
      Typed range.operation (Meaning.data (Grammar.encoded
        RangeValues.encoding))
  | actionCommand {command : UInt8} {data : Bytes} {action : ActionCommand}
      (h : ActionCommand.new command data = .ok action) :
      Typed action.operation fun output reply => output = reply
  | eepromControl (control : EepromControl) :
      Typed control.operation Meaning.byte
  | fixedCurrent (current : FixedCurrent) :
      Typed current.operation Meaning.real
  | writePrimaryUnit (write : WritePrimaryUnit) :
      Typed write.operation Meaning.byte
  | analogTrim {command : UInt8} {first : UInt32} {trim : AnalogTrim}
      (h : AnalogTrim.new command first = .ok trim)
      (referenceCurrent : UInt32) :
      Typed { trim with referenceCurrent }.operation Meaning.real
  | writeTransferFunction (write : WriteTransferFunction) :
      Typed write.operation Meaning.byte
  | readAdditionalStatus :
      Typed readAdditionalStatus (Meaning.data fun status bytes =>
        bytes = status.bytes)

/-! ## Requests -/

/-- The registry knows the operation, and its data has an allowed length. -/
structure Registered {Output : Type} (operation : DeviceOperation Output) :
    Prop where
  known : ∃ entry, commandDescriptor operation.command = some entry ∧
    operation.retrySafety = entry.safety
  allows : ∀ data, operation.encodeRequest = .ok data →
    (requestConstraint operation.command).allows data.length = true
  request_eq : ∀ address, operation.request address =
    operation.encodeRequest.map fun data =>
      { Request.new address operation.command data with
        retrySafety := some operation.retrySafety }

section Constructors

theorem ReadDeviceVariables.new_ok {slots : Bytes}
    {request : ReadDeviceVariables} (h : new slots = .ok request) :
    1 ≤ request.slots.length ∧ request.slots.length ≤ 8 := by
  unfold new at h
  split_ifs at h with hcount
  cases h
  exact hcount

theorem ReadSelectedVariables.new_ok {deviceVariables : Bytes}
    {request : ReadSelectedVariables} (h : new deviceVariables = .ok request) :
    1 ≤ request.deviceVariables.length ∧
      request.deviceVariables.length ≤ 4 := by
  unfold new at h
  split_ifs at h with hcount
  cases h
  exact hcount

theorem ReadIdentity.new_ok {command : UInt8} {requestData : Bytes}
    {request : ReadIdentity} (h : new command requestData = .ok request) :
    (command = 0 ∨ command = 11 ∨ command = 21 ∨ command = 73 ∨
        command = 75) ∧ request.command = .ofByte command ∧
      (requestConstraint request.command).allows
        request.requestData.length = true := by
  unfold new at h
  split_ifs at h with hcommand hlength
  · cases h
    exact ⟨hcommand, rfl, by simpa using hlength⟩

theorem ActionCommand.new_ok {command : UInt8} {data : Bytes}
    {action : ActionCommand} (h : new command data = .ok action) :
    (36 ≤ command ∧ command ≤ 38 ∨ 41 ≤ command ∧ command ≤ 43) ∧
      action.command = .ofByte command ∧
      (requestConstraint action.command).allows action.data.length = true := by
  unfold new at h
  split_ifs at h with hcommand hlength
  · cases h
    exact ⟨hcommand, rfl, by simpa using hlength⟩

theorem forall_actionNumber {P : UInt8 → Prop}
    (h : ∀ number ∈ ([36, 37, 38, 41, 42, 43] : Bytes), P number)
    {command : UInt8}
    (hcommand : 36 ≤ command ∧ command ≤ 38 ∨ 41 ≤ command ∧ command ≤ 43) :
    P command := by
  have hlisted : ∀ number : UInt8, 36 ≤ number ∧ number ≤ 38 ∨
      41 ≤ number ∧ number ≤ 43 →
        number ∈ ([36, 37, 38, 41, 42, 43] : Bytes) :=
    forall_byte (by decide +kernel)
  exact h command (hlisted command hcommand)

theorem AnalogTrim.new_ok {command : UInt8} {current : UInt32}
    {trim : AnalogTrim} (h : new command current = .ok trim) :
    (command = 45 ∨ command = 46) ∧ trim.command = .ofByte command := by
  unfold new at h
  split_ifs at h with hcommand
  cases h
  exact ⟨by tauto, rfl⟩

theorem WriteMessage.new_ok {message : String} {write : WriteMessage}
    (h : new message = .ok write) : packText message 24 = .ok write.packed := by
  unfold new at h
  cases hpacked : packText message 24 with
  | error error =>
      rw [hpacked] at h
      contradiction
  | ok packed =>
      rw [hpacked] at h
      cases h
      rfl

theorem WriteLongTag.new_ok {tag : String} {write : WriteLongTag}
    (h : new tag = .ok write) : encodeLatin1 tag 32 = .ok write.data := by
  unfold new at h
  cases hencoded : encodeLatin1 tag 32 with
  | error error =>
      rw [hencoded] at h
      contradiction
  | ok encoded =>
      rw [hencoded] at h
      cases h
      rfl

end Constructors

section Requests

variable {Output : Type} {command : CommandCode}
  {decodeReply : DeviceReply → Except CodecError Output}

/-- An operation that overrides none of the provided methods. -/
theorem registered_of {encodeRequest : Except CodecError Bytes}
    (hknown : (commandDescriptor command).isSome = true)
    (hallows : ∀ data, encodeRequest = .ok data →
      (requestConstraint command).allows data.length = true) :
    Registered
      ({ command, encodeRequest, decodeReply } : DeviceOperation Output) := by
  obtain ⟨entry, hentry⟩ := Option.isSome_iff_exists.mp hknown
  refine ⟨⟨entry, hentry, ?_⟩, hallows, fun address => rfl⟩
  change (commandDescriptor command).elim _ _ = _
  rw [hentry]
  rfl

theorem registered_of_data {data : Bytes}
    (hknown : (commandDescriptor command).isSome = true)
    (hallows : (requestConstraint command).allows data.length = true) :
    Registered
      ({ command, encodeRequest := .ok data, decodeReply } :
        DeviceOperation Output) := by
  apply registered_of hknown
  intro other hother
  cases hother
  exact hallows

theorem registered_of_checked {refused : Prop} [Decidable refused]
    {error : CodecError} {data : Bytes}
    (hknown : (commandDescriptor command).isSome = true)
    (hallows : (requestConstraint command).allows data.length = true) :
    Registered
      ({ command
         encodeRequest := if refused then .error error else .ok data
         decodeReply } : DeviceOperation Output) := by
  apply registered_of hknown
  intro other hother
  split_ifs at hother
  cases hother
  exact hallows

end Requests

theorem Typed.registered {Output : Type} {operation : DeviceOperation Output}
    {meaning : Meaning Output} (h : Typed operation meaning) :
    Registered operation := by
  cases h with
  | readDeviceIdentity => exact registered_of_data rfl rfl
  | readPrimaryValue => exact registered_of_data rfl rfl
  | readLoopSignal => exact registered_of_data rfl rfl
  | readDynamicValues => exact registered_of_data rfl rfl
  | writePollingAddress write => exact registered_of_checked rfl rfl
  | writeLegacyPollingAddress write => exact registered_of_checked rfl rfl
  | readLoopConfiguration => exact registered_of_data rfl rfl
  | readVariableClassifications => exact registered_of_data rfl rfl
  | readDeviceVariables hnew =>
      exact registered_of_data rfl
        (decide_eq_true (ReadDeviceVariables.new_ok hnew))
  | readIdentity hnew =>
      obtain ⟨hcommand, hcode, hallows⟩ := ReadIdentity.new_ok hnew
      refine registered_of_data ?_ hallows
      rw [hcode]
      rcases hcommand with rfl | rfl | rfl | rfl | rfl <;> rfl
  | readMessage => exact registered_of_data rfl rfl
  | readTagDescriptorDate => exact registered_of_data rfl rfl
  | readTransducerInformation => exact registered_of_data rfl rfl
  | readOutputInformation => exact registered_of_data rfl rfl
  | readFinalAssemblyNumber => exact registered_of_data rfl rfl
  | writeMessage hnew =>
      exact registered_of_data rfl
        (decide_eq_true (unpackCodes_packText (WriteMessage.new_ok hnew)).1)
  | writeTagDescriptorDate hnew =>
      exact registered_of_data rfl (decide_eq_true (decode_written hnew).1)
  | writeFinalAssemblyNumber write =>
      have hlength : ((beBytes 4 write.value.toNat).drop 1).length = 3 := by
        simp
      exact registered_of_checked rfl (decide_eq_true hlength)
  | readLongTag => exact registered_of_data rfl rfl
  | writeLongTag hnew =>
      exact registered_of_data rfl
        (decide_eq_true (length_encodeLatin1 (WriteLongTag.new_ok hnew)))
  | readSelectedVariables hnew =>
      exact registered_of_data rfl
        (decide_eq_true (ReadSelectedVariables.new_ok hnew))
  | setDamping damping =>
      exact registered_of_checked rfl
        (decide_eq_true (length_realBytes damping.seconds))
  | setRange range =>
      have hlength : range.values.encoding.length = 9 := by
        simp [RangeValues.encoding]
      exact registered_of_checked rfl (decide_eq_true hlength)
  | actionCommand hnew =>
      obtain ⟨hcommand, hcode, hallows⟩ := ActionCommand.new_ok hnew
      refine registered_of_data ?_ hallows
      rw [hcode]
      exact forall_actionNumber
        (P := fun number => (commandDescriptor (.ofByte number)).isSome = true)
        (by decide +kernel) hcommand
  | eepromControl control => exact registered_of_data rfl rfl
  | fixedCurrent current =>
      exact registered_of_checked rfl
        (decide_eq_true (length_realBytes current.milliamps))
  | writePrimaryUnit write => exact registered_of_data rfl rfl
  | analogTrim hnew current =>
      obtain ⟨hcommand, hcode⟩ := AnalogTrim.new_ok hnew
      have hlength := length_realBytes current
      refine registered_of_data ?_ ?_
      · rw [hcode]
        rcases hcommand with rfl | rfl <;> rfl
      · rw [hcode]
        rcases hcommand with rfl | rfl <;> exact decide_eq_true hlength
  | writeTransferFunction write => exact registered_of_data rfl rfl
  | readAdditionalStatus => exact registered_of_data rfl rfl

theorem plain_of_known {command : CommandCode} {entry : CommandDescriptor}
    (h : commandDescriptor command = some entry) :
    command.isExpanded = false ∧ command ≠ ⟨31⟩ := by
  have hall : ∀ entry ∈ commands, entry.code.isExpanded = false ∧
      entry.code ≠ ⟨31⟩ := by decide
  have hcode := List.find?_some h
  rw [decide_eq_true_iff] at hcode
  rw [← hcode]
  exact hall entry (List.mem_of_find?_eq_some h)

structure Plain {Output : Type} (operation : DeviceOperation Output)
    (address : Address) (request : Request) : Prop where
  data : operation.encodeRequest = .ok request.data
  request_eq : request =
    { Request.new address operation.command request.data with
      retrySafety := some operation.retrySafety }
  valid : request.validate = .ok ()
  wireCommand : request.frame.wireCommand ≠ 31
  logical : logicalCommand request.frame = operation.command

theorem Registered.plain {Output : Type} {operation : DeviceOperation Output}
    (h : Registered operation) {address : Address} {request : Request}
    (hrequest : operation.request address = .ok request) :
    Plain operation address request := by
  obtain ⟨⟨entry, hentry, -⟩, hallows, heq⟩ := h
  obtain ⟨hplain, hcarrier⟩ := plain_of_known hentry
  rw [heq] at hrequest
  cases hdata : operation.encodeRequest with
  | error error =>
      rw [hdata] at hrequest
      contradiction
  | ok data =>
      rw [hdata] at hrequest
      injection hrequest with hrequest
      subst hrequest
      have hlength := PayloadConstraint.le_of_allows (hallows data hdata)
      refine ⟨hdata, rfl, ?_, ?_, ?_⟩
      · rw [Request.validate_ok_iff, Request.payloadLen]
        change data.length + (if operation.command.isExpanded then 2 else 0) ≤
          255 ∧ 0 ≤ 3
        rw [hplain]
        exact ⟨hlength, Nat.zero_le 3⟩
      · intro hwire
        exact hcarrier ((Request.wireCommand_eq_iff hplain).mp hwire)
      · exact (Request.logicalCommand_eq_iff _).mpr
          fun hdisguised => hcarrier hdisguised.1

/--
The request of a typed operation is one that the registry allows: its command is
known and has the registered safety, a checked operation with the same data makes
the same request, the request has a frame, and every response of a conforming
device to it is taken for its answer.
-/
theorem typed_request_registered {Output : Type}
    {operation : DeviceOperation Output} {meaning : Meaning Output}
    (h : Typed operation meaning) {address : Address} {request : Request}
    (hrequest : operation.request address = .ok request) :
    (∃ entry, commandDescriptor request.command = some entry ∧
        resolvedSafety request = entry.safety) ∧
      (∃ checked, CheckedOperation.new request.command request.data =
          .ok checked ∧ checked.operation.request address = .ok request) ∧
      (∃ encoded, request.encodedFrame = .ok encoded) ∧
      Correlates request := by
  have hplain := h.registered.plain hrequest
  obtain ⟨⟨entry, hentry, hsafety⟩, hallows, -⟩ := h.registered
  have hcommand : request.command = operation.command := by
    rw [hplain.request_eq]
    rfl
  have hallowed := hallows request.data hplain.data
  have hlength := PayloadConstraint.le_of_allows hallowed
  refine ⟨⟨entry, hcommand ▸ hentry, ?_⟩,
    ⟨⟨operation.command, request.data, entry.safety⟩, ?_, ?_⟩,
    ⟨_, Request.encodedFrame_of_validate hplain.valid⟩, ?_⟩
  · rw [hplain.request_eq]
    exact hsafety
  · have hfits : fitsFrame operation.command request.data.length = true := by
      simpa [fitsFrame, (plain_of_known hentry).1] using hlength
    simp [CheckedOperation.new, hcommand, hfits, hallowed, hentry]
  · rw [← hsafety]
    exact congrArg Except.ok hplain.request_eq.symm
  · rw [correlates_iff_logical hplain.valid, hcommand]
    exact ⟨fun hwire => absurd hwire hplain.wireCommand, hplain.logical⟩

/-- Setting a damping of one second at the polling address zero. -/
theorem typed_request_registered_damping :
    ∃ request, (SetDamping.operation ⟨0x3f800000⟩).request
        (.Polling 0 .primary) = .ok request ∧
      (∃ entry, commandDescriptor request.command = some entry ∧
        resolvedSafety request = entry.safety) ∧
      (∃ checked, CheckedOperation.new request.command request.data =
          .ok checked ∧
        checked.operation.request (.Polling 0 .primary) = .ok request) ∧
      (∃ encoded, request.encodedFrame = .ok encoded) ∧
      Correlates request :=
  ⟨_, rfl, typed_request_registered (.setDamping ⟨0x3f800000⟩) rfl⟩

/-! ## Replies -/

section Replies

variable {command : CommandCode} {reply : DeviceReply}

theorem decodeIdentityData_iff_meaning {identity : DeviceIdentity} :
    decodeIdentityData reply.data = .ok identity ↔
      Meaning.identity identity reply := by
  constructor
  · exact encoding_of_decode
  · rintro ⟨hwell, hdata⟩
    rw [hdata, decode_encoding hwell]

theorem decodeInformation_eq_ok_iff {information : Bytes} :
    decodeInformation command reply = .ok information ↔
      Succeeds command reply ∧ Meaning.information information reply := by
  refine requireSuccess_bind_eq_ok_iff.trans (and_congr_right' ?_)
  rw [Meaning.information, Meaning.data]
  split_ifs with hempty
  · refine iff_of_false (by simp) ?_
    rintro ⟨hdata, hne⟩
    exact hne (hdata ▸ List.length_eq_zero_iff.mp hempty)
  · simp only [Except.ok.injEq]
    constructor
    · rintro rfl
      exact ⟨rfl, fun hnil => hempty (by rw [hnil]; rfl)⟩
    · exact And.left

theorem decodeAssemblyNumber_eq_ok_iff {data : Bytes} {number : UInt32} :
    decodeAssemblyNumber data = .ok number ↔
      Meaning.assemblyNumber number data :=
  PayloadReader.decodeWhole_eq_ok_iff
    (PayloadReader.parses_u24 "final assembly number").readsWhole

theorem writeFinalAssemblyNumber_eq_ok_iff {write : WriteFinalAssemblyNumber}
    {number : UInt32} :
    write.operation.decodeReply reply = .ok number ↔
      Succeeds ⟨19⟩ reply ∧ (reply.data = [] ∧ number = write.value ∨
        Meaning.assemblyNumber number reply.data) := by
  refine requireSuccess_bind_eq_ok_iff.trans (and_congr_right' ?_)
  split_ifs with hempty
  · rw [List.length_eq_zero_iff] at hempty
    have hnone : ¬ Meaning.assemblyNumber number [] := by
      rintro ⟨-, hbytes⟩
      have := congrArg List.length hbytes
      simp at this
    rw [hempty, or_iff_left hnone]
    simp [eq_comm]
  · rw [List.length_eq_zero_iff] at hempty
    simp [hempty, decodeAssemblyNumber_eq_ok_iff]

theorem decodeMessage_eq_ok_iff {text : String} :
    decodeMessage command reply = .ok text ↔
      Succeeds command reply ∧ Meaning.message text reply := by
  refine requireSuccess_bind_eq_ok_iff.trans (and_congr_right' ?_)
  rw [Meaning.message, Meaning.data]
  split_ifs with hlength
  · simp [hlength]
  · rw [not_not] at hlength
    simp [hlength, eq_comm]

theorem decodeLatin1_eq_ok_iff {data : Bytes} {length : Nat} {text : String} :
    decodeLatin1 data length = .ok text ↔ data.length = length ∧
      text = String.ofList ((data.map latin1Char).rdropWhile isPadding) := by
  unfold decodeLatin1
  split_ifs with hlength
  · simp [hlength]
  · rw [not_not] at hlength
    simp [hlength, eq_comm]

theorem validateDate_eq_ok_iff {date : DeviceDate} :
    validateDate date = .ok () ↔ Meaning.DateAllowed date := by
  obtain ⟨day, month, year⟩ := date
  unfold validateDate Meaning.DateAllowed
  dsimp only
  split_ifs with hzero hrange
  · simp [hzero]
  · refine iff_of_false (by simp) ?_
    simp only [DeviceDate.mk.injEq]
    tauto
  · simp only [true_iff]
    tauto

theorem exists_tagDescriptorDate {data : Bytes} (h : data.length = 21) :
    ∃ tag descriptor day month year, tag.length = 6 ∧
      descriptor.length = 12 ∧
      data = tag ++ descriptor ++ [day, month, year] := by
  obtain ⟨day, month, year, hdate⟩ := List.length_eq_three.mp
    (show (data.drop 18).length = 3 by simp [h])
  refine ⟨data.take 6, (data.drop 6).take 12, day, month, year, by simp [h],
    by simp [h], ?_⟩
  rw [← hdate, List.append_assoc]
  have hsplit := List.take_append_drop 12 (data.drop 6)
  rw [List.drop_drop] at hsplit
  rw [hsplit, List.take_append_drop]

theorem decodeTagDescriptorDate_append {tag descriptor : Bytes}
    (htag : tag.length = 6) (hdescriptor : descriptor.length = 12)
    (day month year : UInt8) :
    decodeTagDescriptorDate (tag ++ descriptor ++ [day, month, year]) =
      (validateDate ⟨day, month, year⟩).map fun _ =>
        ⟨unpackText tag, unpackText descriptor, ⟨day, month, year⟩⟩ := by
  have hparts : (tag ++ descriptor).length = 18 := by
    rw [List.length_append, htag, hdescriptor]
  have hlast : ∀ index, (tag ++ descriptor ++ [day, month, year]).getD
      (18 + index) 0 = [day, month, year].getD index 0 := by
    intro index
    rw [← hparts]
    simp only [List.getD_eq_getElem?_getD, List.getElem?_append_right
      (Nat.le_add_right _ index), Nat.add_sub_cancel_left]
  have hdate : (⟨(tag ++ descriptor ++ [day, month, year]).getD 18 0,
      (tag ++ descriptor ++ [day, month, year]).getD 19 0,
      (tag ++ descriptor ++ [day, month, year]).getD 20 0⟩ : DeviceDate) =
        ⟨day, month, year⟩ :=
    congr (congr (congrArg DeviceDate.mk (hlast 0)) (hlast 1)) (hlast 2)
  have hfirst : (tag ++ descriptor ++ [day, month, year]).take 6 = tag := by
    rw [List.append_assoc, ← htag, List.take_left]
  have hsecond : slice (tag ++ descriptor ++ [day, month, year]) 6 18 =
      descriptor := by
    rw [slice, List.append_assoc, ← htag, List.drop_left, htag]
    exact List.take_left' hdescriptor
  rw [decodeTagDescriptorDate, hdate, hfirst, hsecond,
    if_neg (by simp [htag, hdescriptor])]
  dsimp only
  cases validateDate ⟨day, month, year⟩ with
  | error error => rfl
  | ok value => rfl

theorem decodeTagDescriptorDate_eq_ok_iff {value : TagDescriptorDate} :
    decodeTagDescriptorDate reply.data = .ok value ↔
      Meaning.tagDescriptorDate value reply := by
  rw [Meaning.tagDescriptorDate, Meaning.data]
  constructor
  · intro hdecode
    by_cases hlength : reply.data.length = 21
    · obtain ⟨tag, descriptor, day, month, year, htag, hdescriptor, hdata⟩ :=
        exists_tagDescriptorDate hlength
      rw [hdata, decodeTagDescriptorDate_append htag hdescriptor] at hdecode
      cases hdate : validateDate ⟨day, month, year⟩ with
      | error error =>
          rw [hdate] at hdecode
          contradiction
      | ok valid =>
          rw [hdate] at hdecode
          cases hdecode
          exact ⟨tag, descriptor, htag, hdescriptor, hdata, rfl, rfl,
            validateDate_eq_ok_iff.mp hdate⟩
    · simp [decodeTagDescriptorDate, hlength, bind, Except.bind] at hdecode
  · rintro ⟨tag, descriptor, htag, hdescriptor, hdata, hfirst, hsecond, hdate⟩
    obtain ⟨valueTag, valueDescriptor, day, month, year⟩ := value
    dsimp only at hfirst hsecond
    rw [hdata, decodeTagDescriptorDate_append htag hdescriptor,
      validateDate_eq_ok_iff.mpr hdate, hfirst, hsecond]
    rfl

end Replies

/--
The decoder of a typed operation returns a result exactly for the successful
replies that stand for it.
-/
theorem Typed.decodeReply_eq_ok_iff {Output : Type}
    {operation : DeviceOperation Output} {meaning : Meaning Output}
    (h : Typed operation meaning) {reply : DeviceReply} {output : Output} :
    operation.decodeReply reply = .ok output ↔
      Succeeds operation.command reply ∧ meaning output reply := by
  cases h with
  | readDeviceIdentity =>
      exact requireSuccess_bind_eq_ok_iff.trans
        (and_congr_right' decodeIdentityData_iff_meaning)
  | readPrimaryValue => exact readPrimaryValue_eq_ok_iff
  | readLoopSignal => exact readLoopSignal_eq_ok_iff
  | readDynamicValues => exact readDynamicValues_eq_ok_iff
  | writePollingAddress write =>
      exact requireSuccess_bind_eq_ok_iff.trans (and_congr_right'
        (PayloadReader.decodeWhole_eq_ok_iff PollingAddress.readsWhole_read))
  | writeLegacyPollingAddress write =>
      exact requireSuccess_bind_eq_ok_iff.trans (and_congr_right'
        (PayloadReader.decodeWhole_eq_ok_iff PollingAddress.readsWhole_read))
  | readLoopConfiguration =>
      exact requireSuccess_bind_eq_ok_iff.trans (and_congr_right'
        (PayloadReader.decodeWhole_eq_ok_iff
          LoopConfiguration.readsWhole_read))
  | readVariableClassifications => exact readVariableClassifications_eq_ok_iff
  | readDeviceVariables hnew => exact readDeviceVariables_eq_ok_iff
  | readIdentity hnew =>
      exact requireSuccess_bind_eq_ok_iff.trans
        (and_congr_right' decodeIdentityData_iff_meaning)
  | readMessage => exact decodeMessage_eq_ok_iff
  | readTagDescriptorDate =>
      exact requireSuccess_bind_eq_ok_iff.trans
        (and_congr_right' decodeTagDescriptorDate_eq_ok_iff)
  | readTransducerInformation => exact decodeInformation_eq_ok_iff
  | readOutputInformation => exact decodeInformation_eq_ok_iff
  | readFinalAssemblyNumber =>
      exact requireSuccess_bind_eq_ok_iff.trans
        (and_congr_right' decodeAssemblyNumber_eq_ok_iff)
  | writeMessage hnew => exact decodeMessage_eq_ok_iff
  | writeTagDescriptorDate hnew =>
      exact requireSuccess_bind_eq_ok_iff.trans
        (and_congr_right' decodeTagDescriptorDate_eq_ok_iff)
  | writeFinalAssemblyNumber write =>
      exact writeFinalAssemblyNumber_eq_ok_iff
  | readLongTag =>
      exact requireSuccess_bind_eq_ok_iff.trans
        (and_congr_right' decodeLatin1_eq_ok_iff)
  | writeLongTag hnew =>
      exact requireSuccess_bind_eq_ok_iff.trans
        (and_congr_right' decodeLatin1_eq_ok_iff)
  | readSelectedVariables hnew => exact readSelectedVariables_eq_ok_iff
  | setDamping damping => exact decodeReal_eq_ok_iff
  | setRange range => exact setRange_eq_ok_iff
  | actionCommand hnew =>
      refine requireSuccess_bind_eq_ok_iff.trans (and_congr_right' ?_)
      rw [Except.ok.injEq, eq_comm]
  | eepromControl control => exact decodeByte_eq_ok_iff
  | fixedCurrent current => exact decodeReal_eq_ok_iff
  | writePrimaryUnit write => exact decodeByte_eq_ok_iff
  | analogTrim hnew current => exact decodeReal_eq_ok_iff
  | writeTransferFunction write => exact decodeByte_eq_ok_iff
  | readAdditionalStatus => exact readAdditionalStatus_eq_ok_iff

theorem Plain.answer {Output : Type} {operation : DeviceOperation Output}
    {address : Address} {request : Request}
    (h : Plain operation address request)
    (preambles responseCode deviceStatus : UInt8) (data : Bytes) :
    ∃ reply, LinkPort.answerOf request.frame (.frame (respond request.frame
        preambles responseCode deviceStatus data)) = some reply ∧
      reply.command = operation.command ∧ reply.responseCode = responseCode ∧
      reply.data = data := by
  refine ⟨_, answerOf_respond preambles responseCode deviceStatus data
    fun hwire => absurd hwire h.wireCommand, ?_, rfl, rfl⟩
  exact h.logical

/--
The host takes every response of a conforming device to a request of a typed
operation for the answer, and reads a result from it exactly if the response
reports success and stands for the result: a field that is missing, a byte too
many or a status is an error.
-/
theorem typed_response_decoded_iff {Output : Type}
    {operation : DeviceOperation Output} {meaning : Meaning Output}
    (h : Typed operation meaning) {address : Address} {request : Request}
    (hrequest : operation.request address = .ok request)
    (preambles responseCode deviceStatus : UInt8) (data : Bytes) :
    ∃ frame reply, request.toFrame = .ok frame ∧
      LinkPort.answerOf frame (.frame (respond frame preambles responseCode
        deviceStatus data)) = some reply ∧
      reply.data = data ∧
      ∀ output, operation.decodeReply reply = .ok output ↔
        responseCode = 0 ∧ meaning output reply := by
  have hplain := h.registered.plain hrequest
  obtain ⟨reply, hanswer, hcommand, hcode, hdata⟩ :=
    hplain.answer preambles responseCode deviceStatus data
  refine ⟨request.frame, reply, (Request.toFrame_of_validate hplain.valid).1,
    hanswer, hdata, ?_⟩
  intro output
  rw [h.decodeReply_eq_ok_iff, Succeeds, hcommand, hcode]
  simp

/-- Reading the loop signal at the polling address zero. -/
theorem typed_response_decoded_iff_loopSignal :
    ∃ request, readLoopSignal.request (.Polling 0 .primary) = .ok request ∧
      ∃ frame reply, request.toFrame = .ok frame ∧
        LinkPort.answerOf frame (.frame (respond frame 5 0 0
          [0x41, 0x20, 0, 0, 0x42, 0x16, 0, 0])) = some reply ∧
        reply.data = [0x41, 0x20, 0, 0, 0x42, 0x16, 0, 0] ∧
        ∀ signal, readLoopSignal.decodeReply reply = .ok signal ↔
          (0 : UInt8) = 0 ∧
            Meaning.data (Grammar.encoded LoopSignal.encoding) signal reply :=
  ⟨_, rfl, typed_response_decoded_iff .readLoopSignal rfl 5 0 0 _⟩

end HartLink.Command
