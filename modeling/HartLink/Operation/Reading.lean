import HartLink.Foundation.ByteOrder
import HartLink.Operation.Codec

/-!
# What a read takes

Every read of a payload is one operation with two parameters: it takes a number
of bytes, or it is truncated where it stands.  The value of a number is the one
that its bytes have in network byte order.
-/

namespace HartLink.Operation

open HartLink.Foundation
open HartLink.Wire

namespace PayloadReader

def take {Value : Type} (reader : PayloadReader) (width : Nat)
    (field : String) (value : Bytes → Value) :
    Except CodecError (Value × PayloadReader) :=
  if reader.offset + width ≤ reader.input.length then
    .ok (value (slice reader.input reader.offset (reader.offset + width)),
      { reader with offset := reader.offset + width })
  else .error (.operation (.truncated field reader.offset))

section Take

variable {Value Other : Type} {reader : PayloadReader} {width : Nat}

theorem take_of_fits (field : String) (value : Bytes → Value)
    (h : reader.offset + width ≤ reader.input.length) :
    reader.take width field value =
      .ok (value (slice reader.input reader.offset (reader.offset + width)),
        { reader with offset := reader.offset + width }) :=
  if_pos h

theorem take_of_short (field : String) (value : Bytes → Value)
    (h : ¬ reader.offset + width ≤ reader.input.length) :
    reader.take width field value =
      .error (.operation (.truncated field reader.offset)) :=
  if_neg h

theorem take_congr (field : String) {value other : Bytes → Value}
    (h : ∀ bytes : Bytes, bytes.length = width → value bytes = other bytes) :
    reader.take width field value = reader.take width field other := by
  by_cases hfits : reader.offset + width ≤ reader.input.length
  · rw [take_of_fits field value hfits, take_of_fits field other hfits,
      h _ ((length_slice hfits).trans (Nat.add_sub_cancel_left ..))]
  · rw [take_of_short field value hfits, take_of_short field other hfits]

theorem take_bind (reader : PayloadReader) (width : Nat) (field : String)
    (value : Bytes → Value) (change : Value → Other) :
    (reader.take width field value >>= fun taken =>
        pure (change taken.1, taken.2) :
      Except CodecError (Other × PayloadReader)) =
      reader.take width field fun bytes => change (value bytes) := by
  unfold take
  split_ifs
  · rfl
  · rfl

end Take

/-! ## The reads -/

section Reads

variable (reader : PayloadReader) (field : String)

theorem bytes_eq_take (length : Nat) :
    reader.bytes length field = reader.take length field id := rfl

theorem u8_eq_take :
    reader.u8 field =
      reader.take 1 field fun bytes => UInt8.ofNat (beValue bytes) := by
  unfold u8
  cases hbyte : reader.input[reader.offset]? with
  | none =>
      have hshort := List.getElem?_eq_none_iff.mp hbyte
      exact (take_of_short field _ (by omega)).symm
  | some byte =>
      obtain ⟨hlt, hget⟩ := List.getElem?_eq_some_iff.mp hbyte
      have hslice : slice reader.input reader.offset (reader.offset + 1) =
          [byte] := by
        rw [slice, Nat.add_sub_cancel_left, List.drop_eq_getElem_cons hlt,
          hget, List.take_succ_cons, List.take_zero]
      rw [take_of_fits field _ hlt, hslice]
      simp [beValue, leValue]

theorem u16_eq_take :
    reader.u16 field =
      reader.take 2 field fun bytes => UInt16.ofNat (beValue bytes) := by
  have htake := take_bind reader 2 field id
    fun value => fromBeBytes (value.getD 0 0) (value.getD 1 0)
  refine Eq.trans htake (take_congr field ?_)
  intro bytes hlength
  obtain ⟨b0, b1, rfl⟩ := List.length_eq_two.mp hlength
  apply UInt16.toNat_inj.mp
  simp [fromBeBytes, beValue, leValue, Nat.mul_comm, Nat.add_comm]

theorem u24_eq_take :
    reader.u24 field =
      reader.take 3 field fun bytes => UInt32.ofNat (beValue bytes) := by
  have htake := take_bind reader 3 field id
    fun value => ((value.getD 0 0).toUInt32 <<< 16) |||
      ((value.getD 1 0).toUInt32 <<< 8) ||| (value.getD 2 0).toUInt32
  refine Eq.trans htake (take_congr field ?_)
  intro bytes hlength
  obtain ⟨b0, b1, b2, rfl⟩ := List.length_eq_three.mp hlength
  rw [← toNat_threeBytes, UInt32.ofNat_toNat]
  rfl

theorem u32_eq_take :
    reader.u32 field =
      reader.take 4 field fun bytes => UInt32.ofNat (beValue bytes) := by
  have htake := take_bind reader 4 field id
    fun value => ((value.getD 0 0).toUInt32 <<< 24) |||
      ((value.getD 1 0).toUInt32 <<< 16) |||
      ((value.getD 2 0).toUInt32 <<< 8) ||| (value.getD 3 0).toUInt32
  refine Eq.trans htake (take_congr field ?_)
  intro bytes hlength
  match bytes, hlength with
  | [b0, b1, b2, b3], _ =>
      rw [← toNat_fourBytes, UInt32.ofNat_toNat]
      rfl

end Reads

end PayloadReader

end HartLink.Operation
