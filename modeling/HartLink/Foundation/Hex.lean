import HartLink.Foundation.Bytes

/-!
# Hexadecimal digits

Texts are given by their bytes.  Reading pairs of digits succeeds exactly on the
spellings of a byte string, in either case, and the digits that are written are
one of them.
-/

namespace HartLink.Foundation

def nibble (byte : UInt8) : Option UInt8 :=
  if 0x30 ≤ byte ∧ byte ≤ 0x39 then some (byte - 0x30)
  else if 0x61 ≤ byte ∧ byte ≤ 0x66 then some (byte - 0x61 + 10)
  else if 0x41 ≤ byte ∧ byte ≤ 0x46 then some (byte - 0x41 + 10)
  else none

/-- `u8::is_ascii_whitespace`. -/
def isAsciiWhitespace (byte : UInt8) : Bool :=
  byte = 0x20 ∨ byte = 0x09 ∨ byte = 0x0a ∨ byte = 0x0c ∨ byte = 0x0d

def compactText (text : Bytes) : Bytes :=
  text.filter fun byte => !isAsciiWhitespace byte

def readPairs : Nat → Bytes → Except Nat Bytes
  | offset, first :: second :: rest =>
      match nibble first with
      | none => .error offset
      | some high =>
          match nibble second with
          | none => .error (offset + 1)
          | some low =>
              match readPairs (offset + 2) rest with
              | .error offset => .error offset
              | .ok bytes => .ok (((high <<< 4) ||| low) :: bytes)
  | _, _ => .ok []

def upperDigit (value : UInt8) : UInt8 :=
  if value < 10 then 0x30 + value else 0x41 + (value - 10)

def upperPair (byte : UInt8) : Bytes :=
  [upperDigit (byte >>> 4), upperDigit (byte &&& 0x0f)]

def writePairs (bytes : Bytes) : Bytes :=
  bytes.flatMap upperPair

def halves (byte : UInt8) : Bytes := [byte >>> 4, byte &&& 0x0f]

/-- The digits of a text have the values of the halves of these bytes. -/
def Spells (digits bytes : Bytes) : Prop :=
  digits.map nibble = (bytes.flatMap halves).map some

/-! ## Halves -/

theorem nibble_lt {byte value : UInt8} (h : nibble byte = some value) :
    value < 16 := by
  have hall : ∀ byte : UInt8, ∀ value ∈ nibble byte, value < 16 :=
    forall_byte (by decide +kernel)
  exact hall byte value h

theorem halves_of_lt {high low : UInt8} (hhigh : high < 16) (hlow : low < 16) :
    ((high <<< 4) ||| low) >>> 4 = high ∧
      ((high <<< 4) ||| low) &&& 0x0f = low := by
  have hall : ∀ high low : Fin 16,
      (((UInt8.ofNat high) <<< 4) ||| UInt8.ofNat low) >>> 4 =
          UInt8.ofNat high ∧
        (((UInt8.ofNat high) <<< 4) ||| UInt8.ofNat low) &&& 0x0f =
          UInt8.ofNat low := by
    decide +kernel
  have hboth := hall ⟨high.toNat, UInt8.lt_iff_toNat_lt.mp hhigh⟩
    ⟨low.toNat, UInt8.lt_iff_toNat_lt.mp hlow⟩
  simpa only [UInt8.ofNat_toNat] using hboth

theorem join_halves (byte : UInt8) :
    ((byte >>> 4) <<< 4) ||| (byte &&& 0x0f) = byte := by
  have hall : ∀ byte : UInt8,
      ((byte >>> 4) <<< 4) ||| (byte &&& 0x0f) = byte :=
    forall_byte (by decide +kernel)
  exact hall byte

theorem nibble_upperPair (byte : UInt8) :
    (upperPair byte).map nibble = (halves byte).map some := by
  have hall : ∀ byte : UInt8,
      (upperPair byte).map nibble = (halves byte).map some :=
    forall_byte (by decide +kernel)
  exact hall byte

theorem compactText_upperPair (byte : UInt8) :
    compactText (upperPair byte) = upperPair byte := by
  have hall : ∀ byte : UInt8,
      compactText (upperPair byte) = upperPair byte :=
    forall_byte (by decide +kernel)
  exact hall byte

/-! ## Spellings -/

theorem spells_writePairs (bytes : Bytes) : Spells (writePairs bytes) bytes := by
  rw [Spells, writePairs, List.map_flatMap, List.map_flatMap]
  congr 1
  funext byte
  exact nibble_upperPair byte

theorem compactText_writePairs (bytes : Bytes) :
    compactText (writePairs bytes) = writePairs bytes := by
  induction bytes with
  | nil => rfl
  | cons byte bytes ih =>
      have hcons : writePairs (byte :: bytes) =
          upperPair byte ++ writePairs bytes := List.flatMap_cons
      rw [hcons, compactText, List.filter_append]
      exact congrArg₂ (· ++ ·) (compactText_upperPair byte) ih

theorem length_flatMap_halves (bytes : Bytes) :
    (bytes.flatMap halves).length = 2 * bytes.length := by
  induction bytes with
  | nil => rfl
  | cons byte bytes ih =>
      rw [List.flatMap_cons, List.length_append, ih, List.length_cons, halves,
        List.length_cons, List.length_singleton]
      omega

theorem Spells.length_eq {digits bytes : Bytes} (h : Spells digits bytes) :
    digits.length = 2 * bytes.length := by
  rw [← length_flatMap_halves, ← List.length_map nibble, h, List.length_map]

theorem readPairs_of_spells {bytes digits : Bytes} (h : Spells digits bytes)
    (offset : Nat) : readPairs offset digits = .ok bytes := by
  induction bytes generalizing digits offset with
  | nil =>
      have hempty : digits = [] := List.length_eq_zero_iff.mp h.length_eq
      rw [hempty]
      rfl
  | cons byte bytes ih =>
      have hlength := h.length_eq
      rw [List.length_cons] at hlength
      rcases digits with _ | ⟨first, _ | ⟨second, rest⟩⟩
      · rw [List.length_nil] at hlength
        omega
      · rw [List.length_singleton] at hlength
        omega
      · simp only [Spells, halves, List.map_cons, List.flatMap_cons,
          List.cons_append, List.nil_append, List.cons.injEq] at h
        obtain ⟨hfirst, hsecond, hrest⟩ := h
        simp only [readPairs, hfirst, hsecond, ih hrest, join_halves]

theorem spells_of_readPairs {digits bytes : Bytes} {offset : Nat}
    (heven : digits.length % 2 = 0) (h : readPairs offset digits = .ok bytes) :
    Spells digits bytes := by
  induction offset, digits using readPairs.induct generalizing bytes with
  | case1 offset first second rest hfirst =>
      simp [readPairs, hfirst] at h
  | case2 offset first second rest high hfirst hsecond =>
      simp [readPairs, hfirst, hsecond] at h
  | case3 offset first second rest high hfirst low hsecond error hrest =>
      simp [readPairs, hfirst, hsecond, hrest] at h
  | case4 offset first second rest high hfirst low hsecond later hrest ih =>
      simp only [readPairs, hfirst, hsecond, hrest, Except.ok.injEq] at h
      subst h
      have hshort : rest.length % 2 = 0 := by
        rw [List.length_cons, List.length_cons] at heven
        omega
      have hlater := ih hshort hrest
      obtain ⟨hhigh, hlow⟩ := halves_of_lt (nibble_lt hfirst)
        (nibble_lt hsecond)
      rw [Spells, List.map_cons, List.map_cons, hfirst, hsecond, hlater,
        List.flatMap_cons, halves, hhigh, hlow]
      rfl
  | case5 digits offset hshort =>
      rcases digits with _ | ⟨first, _ | ⟨second, rest⟩⟩
      · simp only [readPairs, Except.ok.injEq] at h
        subst h
        rfl
      · simp at heven
      · exact absurd rfl (hshort first second rest)

theorem readPairs_eq_ok_iff {digits bytes : Bytes} {offset : Nat} :
    digits.length % 2 = 0 ∧ readPairs offset digits = .ok bytes ↔
      Spells digits bytes := by
  constructor
  · rintro ⟨heven, hread⟩
    exact spells_of_readPairs heven hread
  · intro h
    exact ⟨by rw [h.length_eq]; omega, readPairs_of_spells h offset⟩

end HartLink.Foundation
