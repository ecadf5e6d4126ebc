import HartLink.Command.Control
import HartLink.Operation.Text

/-!
# Text and identity commands

Commands 0, 11 to 13, 17, 18, 20 to 22, 73 and 75.  Messages and short tags are
packed; long tags are Latin-1 strings that are padded with spaces.
-/

namespace HartLink.Command

open HartLink.Foundation
open HartLink.Wire
open HartLink.Operation
open HartLink.Service

/-! ## Latin-1 strings -/

def latin1Codes (length : Nat) : List Char → Bytes → Except CodecError Bytes
  | [], output => .ok output
  | character :: text, output =>
      if output.length = length ∨ character.toNat > 0xff then
        .error (invalidValue "Latin-1 string")
      else latin1Codes length text (output ++ [UInt8.ofNat character.toNat])

def encodeLatin1 (value : String) (length : Nat) : Except CodecError Bytes :=
  (latin1Codes length value.toList []).map fun output =>
    output ++ List.replicate (length - output.length) 0x20

def isPadding (character : Char) : Bool := character = '\x00' ∨ character = ' '

def latin1Char (byte : UInt8) : Char := Char.ofNat byte.toNat

def decodeLatin1 (data : Bytes) (length : Nat) : Except CodecError String :=
  if data.length ≠ length then .error (invalidValue "Latin-1 string length")
  else .ok (String.ofList ((data.map latin1Char).rdropWhile isPadding))

theorem latin1Codes_ok_iff {length : Nat} {text : List Char}
    {output encoded : Bytes} (hfits : output.length ≤ length) :
    latin1Codes length text output = .ok encoded ↔
      (∀ character ∈ text, character.toNat ≤ 0xff) ∧
        output.length + text.length ≤ length ∧
        encoded = output ++ text.map fun character =>
          UInt8.ofNat character.toNat := by
  induction text generalizing output with
  | nil =>
      simp only [latin1Codes, Except.ok.injEq, List.not_mem_nil,
        false_implies, implies_true, true_and, List.length_nil, Nat.add_zero,
        List.map_nil, List.append_nil]
      exact ⟨fun h => ⟨hfits, h.symm⟩, fun h => h.2.symm⟩
  | cons character text ih =>
      rw [latin1Codes]
      split_ifs with hrefused
      · refine iff_of_false (by simp) ?_
        rintro ⟨hcharacters, hlength, -⟩
        have := hcharacters character List.mem_cons_self
        rw [List.length_cons] at hlength
        omega
      · have hroom : (output ++ [UInt8.ofNat character.toNat]).length ≤
            length := by
          rw [List.length_append, List.length_singleton]
          omega
        rw [ih hroom, List.forall_mem_cons, List.length_append,
          List.length_singleton, List.length_cons, List.map_cons,
          List.append_assoc, List.singleton_append, and_assoc, Nat.add_assoc,
          Nat.add_comm 1 text.length]
        exact ⟨fun h => ⟨by omega, h⟩, fun h => h.2⟩

theorem encodeLatin1_ok_iff {value : String} {length : Nat} {data : Bytes} :
    encodeLatin1 value length = .ok data ↔
      (∀ character ∈ value.toList, character.toNat ≤ 0xff) ∧
        value.toList.length ≤ length ∧
        data = value.toList.map (fun character =>
            UInt8.ofNat character.toNat) ++
          List.replicate (length - value.toList.length) 0x20 := by
  have hcodes := fun encoded =>
    @latin1Codes_ok_iff length value.toList [] encoded (Nat.zero_le length)
  rw [encodeLatin1]
  cases hresult : latin1Codes length value.toList [] with
  | error error =>
      refine iff_of_false (by simp [Except.map]) ?_
      rintro ⟨hcharacters, hlength, -⟩
      have := (hcodes _).mpr ⟨hcharacters, by simpa using hlength, rfl⟩
      rw [hresult] at this
      contradiction
  | ok encoded =>
      obtain ⟨hcharacters, hlength, rfl⟩ := (hcodes encoded).mp hresult
      simp only [Except.map, Except.ok.injEq, List.nil_append,
        List.length_map]
      constructor
      · rintro rfl
        exact ⟨hcharacters, by simpa using hlength, rfl⟩
      · rintro ⟨-, -, rfl⟩
        rfl

theorem length_encodeLatin1 {value : String} {length : Nat} {data : Bytes}
    (h : encodeLatin1 value length = .ok data) : data.length = length := by
  obtain ⟨-, hlength, rfl⟩ := encodeLatin1_ok_iff.mp h
  rw [List.length_append, List.length_map, List.length_replicate]
  omega

theorem latin1Char_ofNat {character : Char} (h : character.toNat ≤ 0xff) :
    latin1Char (UInt8.ofNat character.toNat) = character := by
  have hbyte : character.toNat < 256 := by omega
  rw [latin1Char, UInt8.toNat_ofNat_of_lt' hbyte, Char.ofNat_toNat]

/-- The text of a long tag, without what only fills it up. -/
def withoutPadding (text : String) : String :=
  String.ofList (text.toList.rdropWhile isPadding)

theorem rdropWhile_append_replicate {p : Char → Bool} (text : List Char)
    (count : Nat) {character : Char} (h : p character = true) :
    (text ++ List.replicate count character).rdropWhile p =
      text.rdropWhile p := by
  induction count with
  | zero => rw [List.replicate_zero, List.append_nil]
  | succ count ih =>
      rw [List.replicate_succ', ← List.append_assoc,
        List.rdropWhile_concat_pos _ _ _ h, ih]

theorem decodeLatin1_encodeLatin1 {value : String} {length : Nat}
    {data : Bytes} (h : encodeLatin1 value length = .ok data) :
    decodeLatin1 data length = .ok (withoutPadding value) := by
  obtain ⟨hcharacters, -, hdata⟩ := encodeLatin1_ok_iff.mp h
  have htext : data.map latin1Char = value.toList ++
      List.replicate (length - value.toList.length) ' ' := by
    rw [hdata, List.map_append, List.map_map, List.map_replicate]
    congr 1
    rw [List.map_congr_left (g := id)]
    · exact List.map_id _
    · intro character hcharacter
      exact latin1Char_ofNat (hcharacters character hcharacter)
  rw [decodeLatin1, if_neg (not_not.mpr (length_encodeLatin1 h)), htext,
    rdropWhile_append_replicate _ _ (by decide)]
  rfl

/-! ## Messages -/

def decodeMessage (command : CommandCode) (reply : DeviceReply) :
    Except CodecError String := do
  reply.requireSuccess command
  if reply.data.length ≠ 24 then .error (invalidValue "message length")
  else .ok (unpackText reply.data)

def readMessage : DeviceOperation String where
  command := ⟨12⟩
  encodeRequest := .ok []
  decodeReply := decodeMessage ⟨12⟩

structure WriteMessage where
  packed : Bytes
  deriving DecidableEq, Repr

namespace WriteMessage

def new (message : String) : Except CodecError WriteMessage := do
  return ⟨← packText message 24⟩

def operation (write : WriteMessage) : DeviceOperation String where
  command := ⟨17⟩
  encodeRequest := .ok write.packed
  decodeReply := decodeMessage ⟨17⟩

end WriteMessage

/-! ## Tags -/

def readTagDescriptorDate : DeviceOperation TagDescriptorDate where
  command := ⟨13⟩
  encodeRequest := .ok []
  decodeReply reply := do
    reply.requireSuccess ⟨13⟩
    decodeTagDescriptorDate reply.data

def writeTagDescriptorDate (write : WriteTagDescriptorDate) :
    DeviceOperation TagDescriptorDate where
  command := ⟨18⟩
  encodeRequest := .ok write.data
  decodeReply reply := do
    reply.requireSuccess ⟨18⟩
    decodeTagDescriptorDate reply.data

def readLongTag : DeviceOperation String where
  command := ⟨20⟩
  encodeRequest := .ok []
  decodeReply reply := do
    reply.requireSuccess ⟨20⟩
    decodeLatin1 reply.data 32

structure WriteLongTag where
  data : Bytes
  deriving DecidableEq, Repr

namespace WriteLongTag

def new (tag : String) : Except CodecError WriteLongTag := do
  return ⟨← encodeLatin1 tag 32⟩

def operation (write : WriteLongTag) : DeviceOperation String where
  command := ⟨22⟩
  encodeRequest := .ok write.data
  decodeReply reply := do
    reply.requireSuccess ⟨22⟩
    decodeLatin1 reply.data 32

end WriteLongTag

/-! ## Identity -/

def readDeviceIdentity : DeviceOperation DeviceIdentity where
  command := ⟨0⟩
  encodeRequest := .ok []
  decodeReply := ReadDeviceIdentity.decodeReply

structure ReadIdentity where
  command : CommandCode
  requestData : Bytes
  deriving DecidableEq, Repr

namespace ReadIdentity

def new (command : UInt8) (requestData : Bytes) :
    Except CodecError ReadIdentity :=
  if ¬(command = 0 ∨ command = 11 ∨ command = 21 ∨ command = 73 ∨
      command = 75) then
    .error (invalidValue "identification command number")
  else if !(requestConstraint (.ofByte command)).allows requestData.length then
    .error (.requestLength command.toUInt16 requestData.length)
  else .ok { command := .ofByte command, requestData }

def byTag (tag : String) : Except CodecError ReadIdentity := do
  new 11 (← packText tag 6)

def byLongTag (tag : String) : Except CodecError ReadIdentity := do
  new 21 (← encodeLatin1 tag 32)

def operation (request : ReadIdentity) : DeviceOperation DeviceIdentity where
  command := request.command
  encodeRequest := .ok request.requestData
  decodeReply reply := do
    reply.requireSuccess request.command
    decodeIdentityData reply.data

end ReadIdentity

end HartLink.Command
