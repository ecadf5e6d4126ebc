import HartLink.Command.Typed

/-!
# Confirmed writes

A device confirms a write with the value that it now has, in the form of the
request.  From a response with the data of the request the host reads the value
that was written, but for what fills up a text: that is not read back.
-/

namespace HartLink.Command

open HartLink.Foundation
open HartLink.Wire
open HartLink.Operation
open HartLink.Service

/-- The writes, with the arguments of the constructors that check them. -/
inductive Write : Type → Type
  | pollingAddress (write : WritePollingAddress) : Write PollingAddress
  | legacyPollingAddress (write : WriteLegacyPollingAddress) :
      Write PollingAddress
  | message (message : String) (write : WriteMessage)
      (checked : WriteMessage.new message = .ok write) : Write String
  | tagDescriptorDate (value : TagDescriptorDate)
      (write : WriteTagDescriptorDate)
      (checked : WriteTagDescriptorDate.new value = .ok write) :
      Write TagDescriptorDate
  | finalAssemblyNumber (write : WriteFinalAssemblyNumber) : Write UInt32
  | longTag (tag : String) (write : WriteLongTag)
      (checked : WriteLongTag.new tag = .ok write) : Write String
  | damping (damping : SetDamping) : Write UInt32
  | range (range : SetRange) : Write RangeValues
  | eepromControl (control : EepromControl) : Write UInt8
  | fixedCurrent (current : FixedCurrent) : Write UInt32
  | primaryUnit (write : WritePrimaryUnit) : Write UInt8
  | analogTrim (command : UInt8) (first : UInt32) (trim : AnalogTrim)
      (checked : AnalogTrim.new command first = .ok trim)
      (referenceCurrent : UInt32) : Write UInt32
  | transferFunction (write : WriteTransferFunction) : Write UInt8

namespace Write

def operation {Output : Type} : Write Output → DeviceOperation Output
  | .pollingAddress write => write.operation
  | .legacyPollingAddress write => write.operation
  | .message _ write _ => write.operation
  | .tagDescriptorDate _ write _ => writeTagDescriptorDate write
  | .finalAssemblyNumber write => write.operation
  | .longTag _ write _ => write.operation
  | .damping write => write.operation
  | .range write => write.operation
  | .eepromControl control => control.operation
  | .fixedCurrent current => current.operation
  | .primaryUnit write => write.operation
  | .analogTrim _ _ trim _ referenceCurrent =>
      { trim with referenceCurrent }.operation
  | .transferFunction write => write.operation

/-- An address of HART 5 enables the loop current exactly if it is zero. -/
def written {Output : Type} : Write Output → Output
  | .pollingAddress write => write.value
  | .legacyPollingAddress write => ⟨write.node, decide (write.node = 0)⟩
  | .message text _ _ => text
  | .tagDescriptorDate value _ _ => value
  | .finalAssemblyNumber write => write.value
  | .longTag tag _ _ => tag
  | .damping write => write.seconds
  | .range write => write.values
  | .eepromControl control => control.code
  | .fixedCurrent current => current.milliamps
  | .primaryUnit write => write.unit
  | .analogTrim _ _ _ _ referenceCurrent => referenceCurrent
  | .transferFunction write => write.function

/-- Texts come back without the spaces, and long tags the NULs, at their ends. -/
def readBack {Output : Type} : Write Output → Output
  | .message text _ _ => withoutTrailingSpaces text
  | .tagDescriptorDate value _ _ =>
      { value with
        tag := withoutTrailingSpaces value.tag
        descriptor := withoutTrailingSpaces value.descriptor }
  | .longTag tag _ _ => withoutPadding tag
  | write => write.written

end Write

/-- A six-bit number is not changed by the mask for it. -/
theorem and_mask_of_le {node : UInt8} (h : ¬ node > 63) :
    node &&& 0x3f = node := by
  have hall : ∀ byte : UInt8, ¬ byte > 63 → byte &&& 0x3f = byte :=
    forall_byte (by decide +kernel)
  exact hall node h

theorem data_of_checked {refused : Prop} [Decidable refused]
    {error : CodecError} {data sent : Bytes}
    (h : (if refused then .error error else .ok data) = Except.ok sent) :
    ¬ refused ∧ data = sent := by
  split_ifs at h with hrefused
  cases h
  exact ⟨hrefused, rfl⟩

theorem Write.typed {Output : Type} (write : Write Output) :
    ∃ meaning, Typed write.operation meaning ∧ ∀ data,
      write.operation.encodeRequest = .ok data →
        ∀ reply : DeviceReply, reply.data = data →
          meaning write.readBack reply := by
  cases write with
  | pollingAddress write =>
      refine ⟨_, .writePollingAddress write, ?_⟩
      intro data hdata reply hreply
      obtain ⟨hnode, rfl⟩ := data_of_checked hdata
      refine ⟨_, (and_mask_of_le hnode).symm, .inr ⟨_, ?_, hreply⟩⟩
      show write.value.loopCurrentEnabled = _
      cases write.value.loopCurrentEnabled <;> rfl
  | legacyPollingAddress write =>
      refine ⟨_, .writeLegacyPollingAddress write, ?_⟩
      intro data hdata reply hreply
      obtain ⟨hnode, rfl⟩ := data_of_checked hdata
      have hsmall : ¬ write.node > 63 := by
        rw [gt_iff_lt, UInt8.lt_iff_toNat_lt] at hnode ⊢
        exact fun hlarge => hnode (lt_trans (by decide) hlarge)
      exact ⟨_, (and_mask_of_le hsmall).symm, .inl ⟨rfl, hreply⟩⟩
  | message message write hnew =>
      refine ⟨_, .writeMessage hnew, ?_⟩
      intro data hdata reply hreply
      have hpacked := WriteMessage.new_ok hnew
      cases hdata
      refine ⟨hreply ▸ (unpackCodes_packText hpacked).1, ?_⟩
      rw [hreply, unpackText_packText_spaces hpacked]
      rfl
  | tagDescriptorDate value write hnew =>
      refine ⟨_, .writeTagDescriptorDate hnew, ?_⟩
      intro data hdata reply hreply
      cases hdata
      apply decodeTagDescriptorDate_eq_ok_iff.mp
      rw [hreply, (decode_written hnew).2]
      rfl
  | finalAssemblyNumber write =>
      refine ⟨_, .writeFinalAssemblyNumber write, ?_⟩
      intro data hdata reply hreply
      obtain ⟨hvalue, rfl⟩ := data_of_checked hdata
      rw [gt_iff_lt, UInt32.lt_iff_toNat_lt] at hvalue
      refine .inr ⟨?_, ?_⟩
      · exact Nat.lt_of_le_of_lt (Nat.le_of_not_lt hvalue) (by decide)
      · rw [hreply, beBytes_succ 3, List.drop_succ_cons, List.drop_zero]
        rfl
  | longTag tag write hnew =>
      refine ⟨_, .writeLongTag hnew, ?_⟩
      intro data hdata reply hreply
      have hencoded := WriteLongTag.new_ok hnew
      cases hdata
      apply decodeLatin1_eq_ok_iff.mp
      rw [hreply, decodeLatin1_encodeLatin1 hencoded]
      rfl
  | damping damping =>
      refine ⟨_, .setDamping damping, ?_⟩
      intro data hdata reply hreply
      obtain ⟨-, rfl⟩ := data_of_checked hdata
      exact hreply
  | range range =>
      refine ⟨_, .setRange range, ?_⟩
      intro data hdata reply hreply
      obtain ⟨-, rfl⟩ := data_of_checked hdata
      exact hreply
  | eepromControl control =>
      refine ⟨_, .eepromControl control, ?_⟩
      intro data hdata reply hreply
      cases hdata
      exact hreply
  | fixedCurrent current =>
      refine ⟨_, .fixedCurrent current, ?_⟩
      intro data hdata reply hreply
      obtain ⟨-, rfl⟩ := data_of_checked hdata
      exact hreply
  | primaryUnit write =>
      refine ⟨_, .writePrimaryUnit write, ?_⟩
      intro data hdata reply hreply
      cases hdata
      exact hreply
  | analogTrim command first trim hnew current =>
      refine ⟨_, .analogTrim hnew current, ?_⟩
      intro data hdata reply hreply
      cases hdata
      exact hreply
  | transferFunction write =>
      refine ⟨_, .writeTransferFunction write, ?_⟩
      intro data hdata reply hreply
      cases hdata
      exact hreply

/--
The response of a device that has carried out a write and gives back the data of
the request is taken for the answer, and the host reads the written value, up to
what fills up a text.
-/
theorem write_confirmed {Output : Type} (write : Write Output)
    {address : Address} {request : Request}
    (hrequest : write.operation.request address = .ok request)
    (preambles deviceStatus : UInt8) :
    ∃ frame reply, request.toFrame = .ok frame ∧
      LinkPort.answerOf frame (.frame (respond frame preambles 0 deviceStatus
        request.data)) = some reply ∧
      write.operation.decodeReply reply = .ok write.readBack := by
  obtain ⟨meaning, htyped, hmeaning⟩ := write.typed
  have hplain := htyped.registered.plain hrequest
  obtain ⟨reply, hanswer, hcommand, hcode, hdata⟩ :=
    hplain.answer preambles 0 deviceStatus request.data
  refine ⟨request.frame, reply, (Request.toFrame_of_validate hplain.valid).1,
    hanswer, htyped.decodeReply_eq_ok_iff.mpr ⟨⟨hcommand, hcode⟩, ?_⟩⟩
  exact hmeaning request.data hplain.data reply hdata

/-- A long tag with a space behind it is written and confirmed. -/
theorem write_confirmed_longTag :
    ∃ (write : Write String) (request : Request),
      write.written = "PT-101 " ∧ write.readBack = "PT-101" ∧
      write.operation.request (.Polling 0 .primary) = .ok request ∧
      ∃ frame reply, request.toFrame = .ok frame ∧
        LinkPort.answerOf frame (.frame (respond frame 5 0 0 request.data)) =
          some reply ∧
        write.operation.decodeReply reply = .ok write.readBack :=
  ⟨.longTag "PT-101 "
      ⟨"PT-101".toList.map (fun character => UInt8.ofNat character.toNat) ++
        List.replicate 26 0x20⟩ (by decide), _, rfl, by decide, rfl,
    write_confirmed _ rfl 5 0⟩

end HartLink.Command
