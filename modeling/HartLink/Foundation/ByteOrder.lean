import HartLink.Foundation.Bytes

/-!
# Byte orders

A number is written to a fixed number of bytes, the least or the most
significant byte first.  Reading undoes writing in both directions: numbers
below `256 ^ width` and byte strings of length `width` correspond.
-/

namespace HartLink.Foundation

/-! ## Little endian -/

def leBytes : Nat → Nat → Bytes
  | 0, _ => []
  | width + 1, number => UInt8.ofNat number :: leBytes width (number / 256)

def leValue : Bytes → Nat
  | [] => 0
  | byte :: bytes => byte.toNat + 256 * leValue bytes

@[simp] theorem length_leBytes (width number : Nat) :
    (leBytes width number).length = width := by
  induction width generalizing number with
  | zero => rfl
  | succ width ih => rw [leBytes, List.length_cons, ih]

/-- What the bytes cannot hold is dropped. -/
theorem leValue_leBytes_mod (width number : Nat) :
    leValue (leBytes width number) = number % 256 ^ width := by
  induction width generalizing number with
  | zero => rw [leBytes, leValue, Nat.pow_zero, Nat.mod_one]
  | succ width ih =>
      have hbyte : number % 2 ^ 8 = number % 256 := rfl
      rw [leBytes, leValue, ih, UInt8.toNat_ofNat', hbyte,
        Nat.pow_succ', Nat.mod_mul]

theorem leValue_leBytes {width number : Nat} (h : number < 256 ^ width) :
    leValue (leBytes width number) = number := by
  rw [leValue_leBytes_mod, Nat.mod_eq_of_lt h]

theorem leValue_lt (bytes : Bytes) : leValue bytes < 256 ^ bytes.length := by
  induction bytes with
  | nil => simp [leValue]
  | cons byte bytes ih =>
      have hbyte := byte.toNat_lt
      rw [leValue, List.length_cons, Nat.pow_succ]
      omega

theorem leBytes_leValue (bytes : Bytes) :
    leBytes bytes.length (leValue bytes) = bytes := by
  induction bytes with
  | nil => rfl
  | cons byte bytes ih =>
      have hbyte := byte.toNat_lt
      have hhigh : leValue (byte :: bytes) / 256 = leValue bytes := by
        rw [leValue]
        omega
      have hlow : UInt8.ofNat (leValue (byte :: bytes)) = byte := by
        apply UInt8.toNat_inj.mp
        rw [UInt8.toNat_ofNat', leValue]
        omega
      rw [List.length_cons, leBytes, hhigh, hlow, ih]

theorem leBytes_succ (width number : Nat) :
    leBytes (width + 1) number =
      leBytes width number ++ [UInt8.ofNat (number / 256 ^ width)] := by
  induction width generalizing number with
  | zero => simp [leBytes]
  | succ width ih =>
      rw [leBytes, ih, Nat.div_div_eq_div_mul, ← Nat.pow_succ',
        leBytes, List.cons_append]

/-! ## Big endian -/

def beBytes (width number : Nat) : Bytes := (leBytes width number).reverse

def beValue (bytes : Bytes) : Nat := leValue bytes.reverse

@[simp] theorem length_beBytes (width number : Nat) :
    (beBytes width number).length = width := by
  rw [beBytes, List.length_reverse, length_leBytes]

theorem beBytes_succ (width number : Nat) :
    beBytes (width + 1) number =
      UInt8.ofNat (number / 256 ^ width) :: beBytes width number := by
  rw [beBytes, leBytes_succ, List.reverse_concat, beBytes]

theorem beBytes_add (high low number : Nat) :
    beBytes (high + low) number =
      beBytes high (number / 256 ^ low) ++ beBytes low number := by
  induction high with
  | zero =>
      rw [Nat.zero_add]
      rfl
  | succ high ih =>
      rw [Nat.succ_add, beBytes_succ, ih, beBytes_succ,
        Nat.div_div_eq_div_mul, ← Nat.pow_add, Nat.add_comm high low,
        List.cons_append]

theorem beValue_beBytes_mod (width number : Nat) :
    beValue (beBytes width number) = number % 256 ^ width := by
  rw [beValue, beBytes, List.reverse_reverse, leValue_leBytes_mod]

theorem beValue_beBytes {width number : Nat} (h : number < 256 ^ width) :
    beValue (beBytes width number) = number := by
  rw [beValue_beBytes_mod, Nat.mod_eq_of_lt h]

theorem beValue_lt (bytes : Bytes) : beValue bytes < 256 ^ bytes.length := by
  have h := leValue_lt bytes.reverse
  rwa [List.length_reverse] at h

/-- Byte strings of one length are told apart by their numbers. -/
theorem beValue_inj {first second : Bytes}
    (hlength : first.length = second.length)
    (h : beValue first = beValue second) : first = second := by
  have hfirst := leBytes_leValue first.reverse
  have hsecond := leBytes_leValue second.reverse
  unfold beValue at h
  rw [h, List.length_reverse, hlength, ← List.length_reverse, hsecond]
    at hfirst
  exact (List.reverse_inj.mp hfirst).symm

/-! ## Two's complement -/

def beSigned (bytes : Bytes) : Int :=
  if 2 * beValue bytes < 256 ^ bytes.length then beValue bytes
  else beValue bytes - (256 ^ bytes.length : Nat)

theorem toInt_beValue (bytes : Bytes) :
    (BitVec.ofNat (8 * bytes.length) (beValue bytes)).toInt =
      beSigned bytes := by
  have hbits : 2 ^ (8 * bytes.length) = 256 ^ bytes.length := Nat.pow_mul ..
  rw [BitVec.toInt_eq_toNat_cond, BitVec.toNat_ofNat, hbits,
    Nat.mod_eq_of_lt (beValue_lt bytes), beSigned]

theorem beSigned_bounds (bytes : Bytes) :
    -(256 ^ bytes.length : Nat) ≤ 2 * beSigned bytes ∧
      2 * beSigned bytes < (256 ^ bytes.length : Nat) := by
  have hlt := beValue_lt bytes
  unfold beSigned
  split_ifs
  · omega
  · omega

theorem beSigned_inj {first second : Bytes}
    (hlength : first.length = second.length)
    (h : beSigned first = beSigned second) : first = second := by
  have hfirst := beValue_lt first
  have hsecond := beValue_lt second
  apply beValue_inj hlength
  unfold beSigned at h
  rw [hlength] at h hfirst
  split_ifs at h
  all_goals omega

/-! ## Words -/

/-- The bits of two words that do not overlap add up. -/
theorem toNat_or_of_low (high low : UInt32) (shift : Nat)
    (hhigh : 2 ^ shift ∣ high.toNat) (hlow : low.toNat < 2 ^ shift) :
    (high ||| low).toNat = high.toNat + low.toNat := by
  obtain ⟨quotient, hquotient⟩ := hhigh
  rw [UInt32.toNat_or, hquotient, Nat.mul_comm, ← Nat.shiftLeft_eq,
    ← Nat.shiftLeft_add_eq_or_of_lt hlow]

theorem toNat_byte_shiftLeft (byte : UInt8) {shift : Nat} (h : shift ≤ 24) :
    (byte.toUInt32 <<< UInt32.ofNat shift).toNat = byte.toNat * 2 ^ shift := by
  have hbyte := byte.toNat_lt
  have hamount : (UInt32.ofNat shift).toNat % 32 = shift := by
    rw [UInt32.toNat_ofNat']
    omega
  have hpow := Nat.pow_le_pow_right (show 0 < 2 by decide) h
  have hword : byte.toNat * 2 ^ shift < 2 ^ 32 := by
    calc byte.toNat * 2 ^ shift ≤ 255 * 2 ^ 24 :=
          Nat.mul_le_mul (by omega) hpow
      _ < 2 ^ 32 := by decide
  rw [UInt32.toNat_shiftLeft, UInt8.toNat_toUInt32, hamount,
    Nat.shiftLeft_eq, Nat.mod_eq_of_lt hword]

theorem toNat_threeBytes (b0 b1 b2 : UInt8) :
    ((b0.toUInt32 <<< 16) ||| (b1.toUInt32 <<< 8) ||| b2.toUInt32).toNat =
      beValue [b0, b1, b2] := by
  have h0 : (b0.toUInt32 <<< 16).toNat = b0.toNat * 2 ^ 16 :=
    toNat_byte_shiftLeft b0 (by decide)
  have h1 : (b1.toUInt32 <<< 8).toNat = b1.toNat * 2 ^ 8 :=
    toNat_byte_shiftLeft b1 (by decide)
  have h2 : b2.toUInt32.toNat = b2.toNat := b2.toNat_toUInt32
  have hb1 := b1.toNat_lt
  have hb2 := b2.toNat_lt
  have hhigh := toNat_or_of_low (b0.toUInt32 <<< 16) (b1.toUInt32 <<< 8) 16
    (by omega) (by omega)
  rw [toNat_or_of_low _ _ 8 (by omega) (by omega), hhigh, h0, h1, h2]
  simp only [beValue, leValue, List.reverse_cons, List.reverse_nil,
    List.nil_append, List.cons_append]
  omega

theorem toNat_fourBytes (b0 b1 b2 b3 : UInt8) :
    ((b0.toUInt32 <<< 24) ||| (b1.toUInt32 <<< 16) ||| (b2.toUInt32 <<< 8) |||
      b3.toUInt32).toNat = beValue [b0, b1, b2, b3] := by
  have h0 : (b0.toUInt32 <<< 24).toNat = b0.toNat * 2 ^ 24 :=
    toNat_byte_shiftLeft b0 (by decide)
  have h1 : (b1.toUInt32 <<< 16).toNat = b1.toNat * 2 ^ 16 :=
    toNat_byte_shiftLeft b1 (by decide)
  have h2 : (b2.toUInt32 <<< 8).toNat = b2.toNat * 2 ^ 8 :=
    toNat_byte_shiftLeft b2 (by decide)
  have h3 : b3.toUInt32.toNat = b3.toNat := b3.toNat_toUInt32
  have hb1 := b1.toNat_lt
  have hb2 := b2.toNat_lt
  have hb3 := b3.toNat_lt
  have hfirst := toNat_or_of_low (b0.toUInt32 <<< 24) (b1.toUInt32 <<< 16) 24
    (by omega) (by omega)
  have hsecond := toNat_or_of_low
    ((b0.toUInt32 <<< 24) ||| (b1.toUInt32 <<< 16)) (b2.toUInt32 <<< 8) 16
    (by omega) (by omega)
  rw [toNat_or_of_low _ _ 8 (by omega) (by omega), hsecond, hfirst, h0, h1, h2,
    h3]
  simp only [beValue, leValue, List.reverse_cons, List.reverse_nil,
    List.nil_append, List.cons_append]
  omega

end HartLink.Foundation
