import HartLink.Foundation.Duplex
import HartLink.Operation.Request

/-!
# HART-IP packets

A packet is a header of eight bytes, whose last two declare the length of the
whole packet, and a body.  `codec_bijective` says that encoding and decoding
undo each other.
-/

namespace HartLink.Ip

open HartLink.Foundation
open HartLink.Operation

def headerSize : Nat := 8

def maximumIpBodyBytes : Nat := 65535 - headerSize

inductive MessageType where
  | request
  | response
  | publish
  | nak
  deriving DecidableEq, Repr

inductive IpError where
  | io (error : StreamError)
  | truncated
  | messageType (value : UInt8)
  | reservedMessageBits (bits : UInt8)
  | length (bodyLength : Nat)
  | packetLength (declared actual : Nat)
  | bodyLimit (bodyLength : Nat)
  | sequence
  | protocolVersion (expected actual : UInt8)
  | remoteStatus (status : UInt8)
  | unexpectedMessageType (messageType : MessageType)
  | alreadyOpen
  | notOpen
  | inactivityTimeout
  | timeout (operation : String)
  | streamUnusable
  deriving DecidableEq, Repr

namespace MessageType

def code : MessageType → UInt8
  | request => 0
  | response => 1
  | publish => 2
  | nak => 15

def tryFrom (value : UInt8) : Except IpError MessageType :=
  if value = 0 then .ok request
  else if value = 1 then .ok response
  else if value = 2 then .ok publish
  else if value = 15 then .ok nak
  else .error (.messageType value)

def name : MessageType → String
  | request => "Request"
  | response => "Response"
  | publish => "Publish"
  | nak => "Nak"

end MessageType

structure IpPacket where
  version : UInt8
  messageType : MessageType
  messageId : UInt8
  status : UInt8
  sequence : UInt16
  body : Bytes
  deriving DecidableEq, Repr

def toBeBytes (number : UInt16) : Bytes :=
  [UInt8.ofNat (number.toNat / 256), UInt8.ofNat (number.toNat % 256)]

def declaredLength (bytes : Bytes) : Nat :=
  (fromBeBytes (bytes.getD 6 0) (bytes.getD 7 0)).toNat

namespace IpPacket

def encoding (packet : IpPacket) : Bytes :=
  [packet.version, packet.messageType.code, packet.messageId,
      packet.status] ++ toBeBytes packet.sequence ++
    toBeBytes (UInt16.ofNat (headerSize + packet.body.length)) ++ packet.body

def encode (packet : IpPacket) : Except IpError Bytes :=
  if headerSize + packet.body.length > 65535 then
    .error (.length packet.body.length)
  else .ok packet.encoding

def decode (bytes : Bytes) (maximumBody : Nat) : Except IpError IpPacket :=
  if bytes.length < headerSize then .error .truncated
  else
    let total := declaredLength bytes
    if total ≠ bytes.length ∨ total < headerSize then
      .error (.packetLength total bytes.length)
    else if total - headerSize > maximumBody then
      .error (.bodyLimit (total - headerSize))
    else if bytes.getD 1 0 &&& 0xf0 ≠ 0 then
      .error (.reservedMessageBits (bytes.getD 1 0 &&& 0xf0))
    else
      match MessageType.tryFrom (bytes.getD 1 0 &&& 0x0f) with
      | .error error => .error error
      | .ok messageType =>
          .ok
            { version := bytes.getD 0 0, messageType
              messageId := bytes.getD 2 0, status := bytes.getD 3 0
              sequence := fromBeBytes (bytes.getD 4 0) (bytes.getD 5 0)
              body := bytes.drop headerSize }

end IpPacket

/-! ## Whole packets -/

/-- The bytes of one packet, whatever its other header fields say. -/
def IsPacket (bytes : Bytes) : Prop :=
  headerSize ≤ bytes.length ∧ declaredLength bytes = bytes.length

instance (bytes : Bytes) : Decidable (IsPacket bytes) :=
  inferInstanceAs (Decidable (_ ∧ _))

theorem IsPacket.not_malformed {bytes : Bytes} (h : IsPacket bytes) :
    ¬ (declaredLength bytes ≠ bytes.length ∨
      declaredLength bytes < headerSize) := by
  rw [h.2]
  simpa using h.1

theorem declaredLength_append {bytes : Bytes} (h : headerSize ≤ bytes.length)
    (rest : Bytes) :
    declaredLength (bytes ++ rest) = declaredLength bytes := by
  unfold headerSize at h
  unfold declaredLength
  rw [List.getD_eq_getElem?_getD, List.getD_eq_getElem?_getD,
    List.getElem?_append_left (by omega), List.getElem?_append_left (by omega)]
  rfl

theorem declaredLength_take {bytes : Bytes} {count : Nat}
    (h : headerSize ≤ count) (hcount : count ≤ bytes.length) :
    declaredLength (bytes.take count) = declaredLength bytes := by
  have hlength : headerSize ≤ (bytes.take count).length := by
    rw [List.length_take]
    omega
  rw [← declaredLength_append hlength (bytes.drop count),
    List.take_append_drop]

theorem toNat_fromBeBytes_toBeBytes (number : UInt16) :
    fromBeBytes (UInt8.ofNat (number.toNat / 256))
      (UInt8.ofNat (number.toNat % 256)) = number := by
  have hlt := number.toNat_lt
  rw [← UInt16.toNat_inj, toNat_fromBeBytes, UInt8.toNat_ofNat',
    UInt8.toNat_ofNat']
  omega

namespace IpPacket

theorem length_encoding (packet : IpPacket) :
    packet.encoding.length = headerSize + packet.body.length := by
  simp [encoding, toBeBytes, headerSize]
  omega

theorem isPacket_encoding {packet : IpPacket}
    (h : packet.body.length ≤ maximumIpBodyBytes) :
    IsPacket packet.encoding := by
  refine ⟨by rw [length_encoding]; omega, ?_⟩
  rw [length_encoding, declaredLength]
  have hfits : headerSize + packet.body.length < 2 ^ 16 := by
    unfold maximumIpBodyBytes headerSize at h
    unfold headerSize
    omega
  have hnumber : fromBeBytes (packet.encoding.getD 6 0)
      (packet.encoding.getD 7 0) =
        UInt16.ofNat (headerSize + packet.body.length) :=
    toNat_fromBeBytes_toBeBytes _
  rw [hnumber, UInt16.toNat_ofNat', Nat.mod_eq_of_lt hfits]

theorem code_isMessageType (messageType : MessageType) :
    messageType.code &&& 0xf0 = 0 ∧
      MessageType.tryFrom (messageType.code &&& 0x0f) = .ok messageType := by
  cases messageType <;> decide

theorem decode_encoding {packet : IpPacket} {maximumBody : Nat}
    (h : packet.body.length ≤ maximumIpBodyBytes)
    (hmaximum : packet.body.length ≤ maximumBody) :
    decode packet.encoding maximumBody = .ok packet := by
  have hpacket := isPacket_encoding h
  have hlength := length_encoding packet
  obtain ⟨hreserved, htype⟩ := code_isMessageType packet.messageType
  have hcode : packet.encoding.getD 1 0 = packet.messageType.code := rfl
  have hsequence : fromBeBytes (packet.encoding.getD 4 0)
      (packet.encoding.getD 5 0) = packet.sequence :=
    toNat_fromBeBytes_toBeBytes _
  rw [decode, if_neg (Nat.not_lt.mpr hpacket.1)]
  dsimp only
  rw [if_neg hpacket.not_malformed, hpacket.2, hlength, if_neg (by omega), hcode,
    hreserved, if_neg (by simp), htype, hsequence]
  rfl

end IpPacket

/-! ## Accepted bytes -/

theorem toBeBytes_fromBeBytes (high low : UInt8) :
    toBeBytes (fromBeBytes high low) = [high, low] := by
  have hhigh := high.toNat_lt
  have hlow := low.toNat_lt
  simp only [toBeBytes, toNat_fromBeBytes, List.cons.injEq,
    ← UInt8.toNat_inj, UInt8.toNat_ofNat', and_true]
  omega

namespace MessageType

theorem tryFrom_low_iff (byte : UInt8) (messageType : MessageType) :
    (byte &&& 0xf0 = 0 ∧ tryFrom (byte &&& 0x0f) = .ok messageType) ↔
      byte = messageType.code := by
  revert byte
  cases messageType <;> exact forall_byte (by decide +kernel)

theorem exists_code_iff (byte : UInt8) :
    (∃ messageType, byte = code messageType) ↔
      byte = 0 ∨ byte = 1 ∨ byte = 2 ∨ byte = 15 := by
  constructor
  · rintro ⟨messageType, rfl⟩
    cases messageType <;> decide
  · rintro (rfl | rfl | rfl | rfl)
    · exact ⟨.request, rfl⟩
    · exact ⟨.response, rfl⟩
    · exact ⟨.publish, rfl⟩
    · exact ⟨.nak, rfl⟩

end MessageType

namespace IpPacket

def ofBytes (messageType : MessageType) (bytes : Bytes) : IpPacket :=
  { version := bytes.getD 0 0, messageType
    messageId := bytes.getD 2 0, status := bytes.getD 3 0
    sequence := fromBeBytes (bytes.getD 4 0) (bytes.getD 5 0)
    body := bytes.drop headerSize }

theorem encoding_ofBytes {bytes : Bytes} {messageType : MessageType}
    (h : IsPacket bytes) (hcode : bytes.getD 1 0 = messageType.code) :
    (ofBytes messageType bytes).encoding = bytes := by
  obtain ⟨hlength, hdeclared⟩ := h
  have htotal : UInt16.ofNat (headerSize + (bytes.drop headerSize).length) =
      fromBeBytes (bytes.getD 6 0) (bytes.getD 7 0) := by
    rw [List.length_drop, Nat.add_sub_cancel' hlength, ← hdeclared]
    exact UInt16.ofNat_toNat
  simp only [encoding, ofBytes, htotal, toBeBytes_fromBeBytes, ← hcode]
  rcases bytes with _ | ⟨b0, _ | ⟨b1, _ | ⟨b2, _ | ⟨b3, _ | ⟨b4, _ | ⟨b5,
    _ | ⟨b6, _ | ⟨b7, body⟩⟩⟩⟩⟩⟩⟩⟩
  all_goals first
    | rfl
    | simp [headerSize] at hlength

theorem decode_ok_iff_code {bytes : Bytes} {maximumBody : Nat}
    {packet : IpPacket} :
    decode bytes maximumBody = .ok packet ↔
      IsPacket bytes ∧ bytes.length - headerSize ≤ maximumBody ∧
        bytes.getD 1 0 = packet.messageType.code ∧
        packet = ofBytes packet.messageType bytes := by
  constructor
  · intro h
    unfold decode at h
    dsimp only at h
    split_ifs at h with hshort hmalformed hlimit hreserved
    split at h
    · contradiction
    next messageType htype =>
      injection h with h
      subst h
      rw [not_or, not_not, Nat.not_lt] at hmalformed
      refine ⟨⟨Nat.not_lt.mp hshort, hmalformed.1⟩, ?_, ?_, rfl⟩
      · rw [← hmalformed.1]
        exact Nat.not_lt.mp hlimit
      · exact (MessageType.tryFrom_low_iff _ _).mp ⟨not_not.mp hreserved, htype⟩
  · rintro ⟨hpacket, hlimit, hcode, heq⟩
    obtain ⟨hreserved, htype⟩ := (MessageType.tryFrom_low_iff _ _).mpr hcode
    rw [decode, if_neg (Nat.not_lt.mpr hpacket.1)]
    dsimp only
    rw [if_neg hpacket.not_malformed, hpacket.2, if_neg (Nat.not_lt.mpr hlimit),
      if_neg (not_not.mpr hreserved), htype]
    exact congrArg Except.ok heq.symm

theorem encode_ok_iff {packet : IpPacket} {bytes : Bytes} :
    packet.encode = .ok bytes ↔
      packet.body.length ≤ maximumIpBodyBytes ∧ packet.encoding = bytes := by
  unfold encode maximumIpBodyBytes headerSize
  split_ifs with hlength
  · simp only [false_iff, not_and]
    omega
  · rw [Except.ok.injEq]
    constructor
    · intro heq
      exact ⟨by omega, heq⟩
    · exact And.right

theorem decode_ok_iff {bytes : Bytes} {maximumBody : Nat}
    {packet : IpPacket} :
    decode bytes maximumBody = .ok packet ↔
      packet.encode = .ok bytes ∧ packet.body.length ≤ maximumBody := by
  constructor
  · intro h
    obtain ⟨hpacket, hlimit, hcode, heq⟩ := decode_ok_iff_code.mp h
    have hbody : packet.body.length = bytes.length - headerSize := by
      rw [heq]
      exact List.length_drop
    have hlt := (fromBeBytes (bytes.getD 6 0) (bytes.getD 7 0)).toNat_lt
    have hdeclared : declaredLength bytes = bytes.length := hpacket.2
    unfold declaredLength at hdeclared
    refine ⟨encode_ok_iff.mpr ⟨?_, ?_⟩, hbody ▸ hlimit⟩
    · unfold maximumIpBodyBytes
      omega
    · rw [heq]
      exact encoding_ofBytes hpacket hcode
  · rintro ⟨hencode, hlimit⟩
    obtain ⟨hbody, rfl⟩ := encode_ok_iff.mp hencode
    exact decode_encoding hbody hlimit

theorem decode_encoding_of_lt {packet : IpPacket} {maximumBody : Nat}
    (h : packet.body.length ≤ maximumIpBodyBytes)
    (hmaximum : maximumBody < packet.body.length) :
    decode packet.encoding maximumBody =
      .error (.bodyLimit packet.body.length) := by
  have hpacket := isPacket_encoding h
  rw [decode, if_neg (Nat.not_lt.mpr hpacket.1)]
  dsimp only
  rw [if_neg hpacket.not_malformed, hpacket.2, length_encoding,
    Nat.add_sub_cancel_left, if_pos hmaximum]

/--
The codec is a bijection between the packets with a body of at most 65527 bytes
and the byte strings of the packet grammar, cut off at a limit for the body.
-/
theorem codec_bijective (packet : IpPacket) (bytes : Bytes)
    (maximumBody : Nat) :
    ((∃ encoded, packet.encode = .ok encoded) ↔
      packet.body.length ≤ 65527) ∧
    (∀ encoded, packet.encode = .ok encoded →
      decode encoded maximumBody =
        if packet.body.length ≤ maximumBody then .ok packet
        else .error (.bodyLimit packet.body.length)) ∧
    (decode bytes maximumBody = .ok packet → packet.encode = .ok bytes) ∧
    ((∃ error, decode bytes maximumBody = .error error) ↔
      bytes.length < 8 ∨ declaredLength bytes ≠ bytes.length ∨
        (bytes.drop 8).length > maximumBody ∨
        ¬ (bytes.getD 1 0 = 0 ∨ bytes.getD 1 0 = 1 ∨ bytes.getD 1 0 = 2 ∨
          bytes.getD 1 0 = 15)) := by
  refine ⟨?_, ?_, fun h => (decode_ok_iff.mp h).1, ?_⟩
  · simp only [encode_ok_iff, exists_and_left, exists_eq', and_true]
    rfl
  · intro encoded hencode
    obtain ⟨hbody, rfl⟩ := encode_ok_iff.mp hencode
    split_ifs with hlimit
    · exact decode_encoding hbody hlimit
    · exact decode_encoding_of_lt hbody (Nat.not_le.mp hlimit)
  · have haccepted : (∃ found, decode bytes maximumBody = .ok found) ↔
        IsPacket bytes ∧ bytes.length - headerSize ≤ maximumBody ∧
          ∃ messageType, bytes.getD 1 0 = MessageType.code messageType := by
      constructor
      · rintro ⟨found, hfound⟩
        obtain ⟨hpacket, hlimit, hcode, -⟩ := decode_ok_iff_code.mp hfound
        exact ⟨hpacket, hlimit, found.messageType, hcode⟩
      · rintro ⟨hpacket, hlimit, messageType, hcode⟩
        exact ⟨ofBytes messageType bytes,
          decode_ok_iff_code.mpr ⟨hpacket, hlimit, hcode, rfl⟩⟩
    rw [MessageType.exists_code_iff] at haccepted
    have hfails : (∃ error, decode bytes maximumBody = .error error) ↔
        ¬ ∃ found, decode bytes maximumBody = .ok found := by
      cases decode bytes maximumBody <;> simp
    rw [hfails, haccepted, List.length_drop]
    unfold IsPacket headerSize
    simp only [not_and_or, Nat.not_le, or_assoc, gt_iff_lt, ne_eq]

end IpPacket

end HartLink.Ip
