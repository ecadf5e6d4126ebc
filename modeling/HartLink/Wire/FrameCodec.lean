import HartLink.Foundation.ByteOrder
import HartLink.Wire.Frame

/-!
# Reading back what a frame encoder writes

Bit-level facts about addresses and delimiters.  Reading an address never
fails on a slice of the right length, and it undoes writing for every address
that a range-checked constructor returns.  A delimiter determines the kind,
layer, address form and expansion length it was packed from.
-/

namespace HartLink.Wire

open HartLink.Foundation

/-! ## Addresses -/

namespace Address

theorem polling_ok {node : UInt8} {master : Master} (h : node ≤ 63) :
    polling node master = .ok (.Polling node master) := by
  simp [polling, UInt8.not_lt.mpr h]

theorem unique_ok {expandedType : UInt16} {deviceId : UInt32}
    {master : Master} (htype : expandedType ≤ 0x3fff)
    (hid : deviceId ≤ 0x00ffffff) :
    unique expandedType deviceId master =
      .ok (.Unique expandedType deviceId master) := by
  simp [unique, UInt16.not_lt.mpr htype, UInt32.not_lt.mpr hid]

theorem accepted_polling_iff (node : UInt8) (master : Master) :
    (Polling node master).Accepted ↔ node ≤ 63 := by
  constructor
  · rintro (⟨n, m, h⟩ | ⟨e, d, m, h⟩)
    · unfold polling at h
      split_ifs at h with hlt
      cases h
      exact UInt8.not_lt.mp hlt
    · unfold unique at h
      split_ifs at h
      cases h
  · intro h
    exact .inl ⟨node, master, polling_ok h⟩

theorem accepted_unique_iff (expandedType : UInt16) (deviceId : UInt32)
    (master : Master) :
    (Unique expandedType deviceId master).Accepted ↔
      expandedType ≤ 0x3fff ∧ deviceId ≤ 0x00ffffff := by
  constructor
  · rintro (⟨n, m, h⟩ | ⟨e, d, m, h⟩)
    · unfold polling at h
      split_ifs at h
      cases h
    · unfold unique at h
      split_ifs at h with htype hid
      cases h
      exact ⟨UInt16.not_lt.mp htype, UInt32.not_lt.mp hid⟩
  · rintro ⟨htype, hid⟩
    exact .inr ⟨expandedType, deviceId, master, unique_ok htype hid⟩

theorem length_writeTo (address : Address) (burst : Bool) :
    (address.writeTo burst).length = address.encodedLen := by
  cases address <;> rfl

private theorem masked_le (byte : UInt8) : byte &&& 0x3f ≤ 63 := by
  revert byte
  exact forall_byte (by decide +kernel)

private theorem toNat_longType (first second : UInt8) :
    (((first &&& 0x3f).toUInt16 <<< 8) ||| second.toUInt16).toNat =
      (first &&& 0x3f).toNat * 256 + second.toNat := by
  have hfirst : (first &&& 0x3f).toNat ≤ 63 :=
    UInt8.le_iff_toNat_le.mp (masked_le first)
  have hsecond := second.toNat_lt
  generalize first &&& 0x3f = masked at hfirst ⊢
  simp only [UInt16.toNat_or, UInt16.toNat_shiftLeft, UInt8.toNat_toUInt16]
  rw [Nat.mod_eq_of_lt, ← Nat.shiftLeft_add_eq_or_of_lt]
  all_goals simp [Nat.shiftLeft_eq]
  all_goals omega

private theorem toNat_longId (b2 b3 b4 : UInt8) :
    ((b2.toUInt32 <<< 16) ||| (b3.toUInt32 <<< 8) ||| b4.toUInt32).toNat =
      b2.toNat * 65536 + b3.toNat * 256 + b4.toNat := by
  rw [toNat_threeBytes]
  simp only [beValue, leValue, List.reverse_cons, List.reverse_nil,
    List.nil_append, List.cons_append]
  omega

theorem readFrom_ok {bytes : Bytes} {long : Bool}
    (h : bytes.length = if long then 5 else 1) :
    ∃ address, readFrom bytes long = .ok address ∧ address.Accepted ∧
      address.encodedLen = bytes.length := by
  cases long with
  | false =>
      obtain ⟨first, rfl⟩ : ∃ first, bytes = [first] := by
        simpa [List.length_eq_one_iff] using h
      have hnode := masked_le first
      refine ⟨_, by simpa [readFrom] using polling_ok hnode, ?_, rfl⟩
      exact (accepted_polling_iff _ _).mpr hnode
  | true =>
      obtain ⟨first, b1, b2, b3, b4, rfl⟩ :
          ∃ first b1 b2 b3 b4, bytes = [first, b1, b2, b3, b4] := by
        match bytes, h with
        | [first, b1, b2, b3, b4], _ => exact ⟨first, b1, b2, b3, b4, rfl⟩
      have hfirst : (first &&& 0x3f).toNat ≤ 63 :=
        UInt8.le_iff_toNat_le.mp (masked_le first)
      have h1 := b1.toNat_lt
      have h2 := b2.toNat_lt
      have h3 := b3.toNat_lt
      have h4 := b4.toNat_lt
      have htype : ((first &&& 0x3f).toUInt16 <<< 8) ||| b1.toUInt16 ≤
          0x3fff := by
        rw [UInt16.le_iff_toNat_le, toNat_longType]
        change _ ≤ 0x3fff
        omega
      have hid : (b2.toUInt32 <<< 16) ||| (b3.toUInt32 <<< 8) |||
          b4.toUInt32 ≤ 0x00ffffff := by
        rw [UInt32.le_iff_toNat_le, toNat_longId]
        change _ ≤ 0x00ffffff
        omega
      refine ⟨_, by simpa [readFrom] using unique_ok htype hid, ?_, rfl⟩
      exact (accepted_unique_iff _ _ _).mpr ⟨htype, hid⟩

private theorem fromAddressByte_join (master : Master) (burst : Bool)
    (byte : UInt8) (h : byte ≤ 63) :
    Master.fromAddressByte
      (master.addressBit ||| burstBit burst ||| byte) = master := by
  revert byte
  cases master <;> cases burst <;> exact forall_byte (by decide +kernel)

private theorem masked_join (master : Master) (burst : Bool) (byte : UInt8)
    (h : byte ≤ 63) :
    (master.addressBit ||| burstBit burst ||| byte) &&& 0x3f = byte := by
  revert byte
  cases master <;> cases burst <;> exact forall_byte (by decide +kernel)

theorem readFrom_writeTo {address : Address} (burst : Bool)
    (h : address.Accepted) :
    readFrom (address.writeTo burst) (address.encodedLen == 5) =
      .ok address := by
  cases address with
  | Polling node master =>
      have hnode := (accepted_polling_iff node master).mp h
      change polling _ _ = _
      rw [masked_join master burst node hnode,
        fromAddressByte_join master burst node hnode, polling_ok hnode]
  | Unique expandedType deviceId master =>
      obtain ⟨htype, hid⟩ := (accepted_unique_iff _ _ _).mp h
      have hhigh := masked_le (expandedType >>> 8).toUInt8
      change unique _ _ _ = _
      rw [masked_join master burst _ hhigh,
        fromAddressByte_join master burst _ hhigh]
      have htypeEq : (((expandedType >>> 8).toUInt8 &&& 0x3f).toUInt16 <<< 8)
          ||| expandedType.toUInt8.toUInt16 = expandedType := by
        apply UInt16.toNat_inj.mp
        have hlt : expandedType.toNat ≤ 0x3fff :=
          UInt16.le_iff_toNat_le.mp htype
        have hmask : ((expandedType >>> 8).toUInt8 &&& 0x3f).toNat =
            expandedType.toNat / 256 % 256 % 64 := by
          rw [UInt8.toNat_and]
          simp only [UInt16.toNat_toUInt8, UInt16.toNat_shiftRight,
            Nat.shiftRight_eq_div_pow, UInt16.reduceToNat, Nat.reduceMod,
            Nat.reducePow]
          exact Nat.and_two_pow_sub_one_eq_mod _ 6
        rw [toNat_longType, hmask, UInt16.toNat_toUInt8]
        omega
      have hidEq : ((deviceId >>> 16).toUInt8.toUInt32 <<< 16) |||
          ((deviceId >>> 8).toUInt8.toUInt32 <<< 8) |||
          deviceId.toUInt8.toUInt32 = deviceId := by
        apply UInt32.toNat_inj.mp
        have hlt : deviceId.toNat ≤ 0x00ffffff :=
          UInt32.le_iff_toNat_le.mp hid
        rw [toNat_longId]
        simp only [UInt32.toNat_toUInt8, UInt32.toNat_shiftRight,
          Nat.shiftRight_eq_div_pow, UInt32.reduceToNat, Nat.reduceMod,
          Nat.reducePow]
        omega
      rw [htypeEq, hidEq, unique_ok htype hid]

def withBurstBit (first : UInt8) (burst : Bool) : UInt8 :=
  (first &&& 0xbf) ||| burstBit burst

theorem addressBit_join (first : UInt8) (burst : Bool) :
    (Master.fromAddressByte first).addressBit ||| burstBit burst |||
      (first &&& 0x3f) = withBurstBit first burst := by
  revert first
  cases burst <;> exact forall_byte (by decide +kernel)

theorem masked_masked (byte : UInt8) :
    byte &&& 0x3f &&& 0x3f = byte &&& 0x3f := by
  revert byte
  exact forall_byte (by decide +kernel)

theorem longType_bytes (first second : UInt8) :
    ((((first &&& 0x3f).toUInt16 <<< 8) ||| second.toUInt16) >>> 8).toUInt8 =
        first &&& 0x3f ∧
      (((first &&& 0x3f).toUInt16 <<< 8) ||| second.toUInt16).toUInt8 =
        second := by
  have hjoin := toNat_longType first second
  have hfirst := UInt8.le_iff_toNat_le.mp (masked_le first)
  have hsecond := second.toNat_lt
  constructor
  · apply UInt8.toNat_inj.mp
    simp only [UInt16.toNat_toUInt8, UInt16.toNat_shiftRight, hjoin,
      Nat.shiftRight_eq_div_pow, UInt16.reduceToNat, Nat.reduceMod,
      Nat.reducePow]
    change (first &&& 63).toNat ≤ 63 at hfirst
    omega
  · apply UInt8.toNat_inj.mp
    rw [UInt16.toNat_toUInt8, hjoin]
    omega

theorem longId_bytes (b2 b3 b4 : UInt8) :
    ((((b2.toUInt32 <<< 16) ||| (b3.toUInt32 <<< 8) ||| b4.toUInt32)) >>>
        16).toUInt8 = b2 ∧
      ((((b2.toUInt32 <<< 16) ||| (b3.toUInt32 <<< 8) ||| b4.toUInt32)) >>>
        8).toUInt8 = b3 ∧
      ((b2.toUInt32 <<< 16) ||| (b3.toUInt32 <<< 8) ||| b4.toUInt32).toUInt8 =
        b4 := by
  have hjoin := toNat_longId b2 b3 b4
  have h2 := b2.toNat_lt
  have h3 := b3.toNat_lt
  have h4 := b4.toNat_lt
  refine ⟨?_, ?_, ?_⟩
  all_goals
    apply UInt8.toNat_inj.mp
    simp only [UInt32.toNat_toUInt8, UInt32.toNat_shiftRight, hjoin,
      Nat.shiftRight_eq_div_pow, UInt32.reduceToNat, Nat.reduceMod,
      Nat.reducePow]
    omega

theorem writeTo_readFrom {first : UInt8} {rest : Bytes} {long : Bool}
    {address : Address} (burst : Bool)
    (hlength : (first :: rest).length = if long then 5 else 1)
    (h : readFrom (first :: rest) long = .ok address) :
    address.writeTo burst = withBurstBit first burst :: rest := by
  cases long with
  | false =>
      obtain rfl : rest = [] := by simpa using hlength
      simp only [readFrom, polling, Bool.not_false, if_true] at h
      split_ifs at h
      injection h with h
      subst h
      simp [writeTo, addressBit_join]
  | true =>
      match rest, hlength with
      | [b1, b2, b3, b4], _ =>
          simp only [readFrom, unique, Bool.not_true, Bool.false_eq_true,
            if_false] at h
          split_ifs at h
          injection h with h
          subst h
          simp only [writeTo, longType_bytes, longId_bytes, masked_masked,
            addressBit_join]

end Address

end HartLink.Wire
