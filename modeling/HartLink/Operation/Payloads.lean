import HartLink.Foundation.Grammar
import HartLink.Operation.Reading

/-!
# Grammars of payload fields

A payload reader is a tape of bytes, and each of its reads parses the encoding
that a writer gives the value.  A decoder that ends with `finish` accepts exactly
the payloads that are values as a whole.
-/

namespace HartLink.Operation

open HartLink.Foundation
open HartLink.Wire

namespace PayloadReader

def tape : Tape PayloadReader UInt8 where
  view reader := reader.input.drop reader.offset
  advance reader count := { reader with offset := reader.offset + count }
  view_advance _ _ := List.drop_drop.symm
  advance_zero _ := rfl
  advance_add reader first second := by rw [Nat.add_assoc]

theorem length_view (reader : PayloadReader) :
    (tape.view reader).length = reader.remaining :=
  List.length_drop

theorem view_eq_nil_iff (reader : PayloadReader) :
    tape.view reader = [] ↔ reader.remaining = 0 := by
  rw [← length_view, List.length_eq_zero_iff]

/-! ## The reads -/

section Reads

variable {Value : Type}

theorem parses_take {width : Nat} (hwidth : 0 < width) (field : String)
    (value : Bytes → Value) :
    tape.Parses (fun reader => reader.take width field value)
      fun found string => string.length = width ∧ found = value string := by
  intro reader found next
  have hlength := length_view reader
  rw [remaining] at hlength
  change reader.take width field value = _ ↔ _
  by_cases hfits : reader.offset + width ≤ reader.input.length
  · have hslice : slice reader.input reader.offset (reader.offset + width) =
        (tape.view reader).take width := by
      rw [slice, Nat.add_sub_cancel_left]
      rfl
    have htaken : ((tape.view reader).take width).length = width := by
      rw [List.length_take]
      omega
    rw [take_of_fits field value hfits, hslice]
    constructor
    · intro h
      cases h
      refine ⟨_, ⟨htaken, rfl⟩, List.take_prefix _ _, ?_⟩
      rw [htaken]
      rfl
    · rintro ⟨string, ⟨hstring, rfl⟩, hprefix, rfl⟩
      have htake := List.prefix_iff_eq_take.mp hprefix
      rw [hstring] at htake ⊢
      rw [← htake]
      rfl
  · rw [take_of_short field value hfits]
    constructor
    · intro h
      contradiction
    · rintro ⟨string, ⟨hstring, -⟩, hprefix, -⟩
      have := hprefix.length_le
      omega

theorem parses_u8 (field : String) :
    tape.Parses (·.u8 field) (Grammar.encoded fun value => [value]) := by
  have htake := parses_take (show 0 < 1 by decide) field
    fun bytes => UInt8.ofNat (beValue bytes)
  simp only [← u8_eq_take] at htake
  refine htake.of_iff fun value string => ?_
  constructor
  · rintro ⟨hlength, rfl⟩
    obtain ⟨byte, rfl⟩ := List.length_eq_one_iff.mp hlength
    simp [Grammar.encoded, beValue, leValue]
  · rintro rfl
    simp [beValue, leValue]

theorem parses_f32 (field : String) :
    tape.Parses (·.f32 field)
      (Grammar.encoded fun bits : UInt32 => beBytes 4 bits.toNat) := by
  have htake := parses_take (show 0 < 4 by decide) field
    fun bytes => UInt32.ofNat (beValue bytes)
  simp only [← u32_eq_take] at htake
  refine htake.of_iff fun bits string => ?_
  constructor
  · rintro ⟨hlength, rfl⟩
    have hlt := beValue_lt string
    rw [hlength] at hlt
    apply beValue_inj (hlength.trans (length_beBytes _ _).symm)
    rw [UInt32.toNat_ofNat_of_lt' hlt, beValue_beBytes hlt]
  · rintro rfl
    refine ⟨length_beBytes _ _, ?_⟩
    rw [beValue_beBytes bits.toNat_lt, UInt32.ofNat_toNat]

theorem parses_u24 (field : String) :
    tape.Parses (·.u24 field) fun value string =>
      value.toNat < 2 ^ 24 ∧ string = beBytes 3 value.toNat := by
  have htake := parses_take (show 0 < 3 by decide) field
    fun bytes => UInt32.ofNat (beValue bytes)
  simp only [← u24_eq_take] at htake
  refine htake.of_iff fun value string => ?_
  constructor
  · rintro ⟨hlength, rfl⟩
    have hlt := beValue_lt string
    rw [hlength] at hlt
    have hword : beValue string < 2 ^ 32 := by omega
    rw [UInt32.toNat_ofNat_of_lt' hword]
    refine ⟨hlt, beValue_inj (hlength.trans (length_beBytes _ _).symm) ?_⟩
    rw [beValue_beBytes hlt]
  · rintro ⟨hlt, rfl⟩
    refine ⟨length_beBytes _ _, ?_⟩
    rw [beValue_beBytes hlt, UInt32.ofNat_toNat]

end Reads

/-! ## Decoders -/

variable {Value : Type}

def decodeWhole (data : Bytes)
    (read : PayloadReader → Except CodecError (Value × PayloadReader)) :
    Except CodecError Value := do
  let (value, reader) ← read (.new data)
  reader.finish
  return value

theorem decodeWhole_eq_ok_iff {data : Bytes}
    {read : PayloadReader → Except CodecError (Value × PayloadReader)}
    {grammar : Grammar UInt8 Value} (h : tape.ReadsWhole read grammar)
    {value : Value} :
    decodeWhole data read = .ok value ↔ grammar value data := by
  refine Iff.trans ?_ (h (.new data) value)
  constructor
  · intro hdecode
    cases hread : read (.new data) with
    | error error =>
        simp only [decodeWhole, hread, bind, Except.bind] at hdecode
        contradiction
    | ok taken =>
        simp only [decodeWhole, hread, bind, Except.bind, finish] at hdecode
        split_ifs at hdecode with hremaining
        · cases hdecode
          exact ⟨taken.2, rfl, (view_eq_nil_iff _).mpr hremaining⟩
  · rintro ⟨next, hread, hnext⟩
    rw [view_eq_nil_iff] at hnext
    simp only [decodeWhole, hread, bind, Except.bind, finish, hnext, if_true]
    rfl

end PayloadReader

end HartLink.Operation
