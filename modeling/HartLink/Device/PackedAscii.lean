import HartLink.Device.Decoding

/-!
# Packed text in schemas

A schema field of packed text takes the same six-bit codes out of its bytes as
the text commands do, but it reads them in another alphabet: it adds `0x20` to
every code where `unpackText` keeps the codes from `0x20` on and sets bit
`0x40` in the others.  No code is read alike, and so no field is.
-/

namespace HartLink.Device

open HartLink.Foundation
open HartLink.Wire
open HartLink.Operation

/-! ## The accumulator -/

theorem toNat_push (accumulator : UInt32) (byte : UInt8) :
    ((accumulator <<< 8) ||| byte.toUInt32).toNat =
      accumulator.toNat % 2 ^ 24 * 256 + byte.toNat := by
  have hbyte : byte.toNat < 2 ^ 8 := byte.toNat_lt
  have hword : 2 ^ 32 = 2 ^ 24 * 2 ^ 8 := by decide
  rw [UInt32.toNat_or, UInt32.toNat_shiftLeft, UInt8.toNat_toUInt32,
    show (8 : UInt32).toNat % 32 = 8 from rfl, Nat.shiftLeft_eq, hword,
    Nat.mul_mod_mul_right, ← Nat.shiftLeft_eq,
    ← Nat.shiftLeft_add_eq_or_of_lt hbyte, Nat.shiftLeft_eq]

theorem toNat_code (accumulator : UInt32) {bits : Nat} (h : bits < 32) :
    (((accumulator >>> UInt32.ofNat bits) &&& 0x3f).toUInt8).toNat =
      accumulator.toNat / 2 ^ bits % 64 := by
  have hamount : (UInt32.ofNat bits).toNat % 32 = bits := by
    rw [UInt32.toNat_ofNat']
    omega
  rw [UInt32.toNat_toUInt8, UInt32.toNat_and, UInt32.toNat_shiftRight,
    hamount, Nat.shiftRight_eq_div_pow,
    show (0x3f : UInt32).toNat = 2 ^ 6 - 1 from rfl,
    Nat.and_two_pow_sub_one_eq_mod]
  omega

theorem accumulateCodes_group (accumulator : UInt32) (b0 b1 b2 : UInt8)
    (rest : Bytes) :
    ∃ next, accumulateCodes accumulator 0 (b0 :: b1 :: b2 :: rest) =
      unpackCodes [b0, b1, b2] ++ accumulateCodes next 0 rest := by
  let first := (accumulator <<< 8) ||| b0.toUInt32
  let second := (first <<< 8) ||| b1.toUInt32
  let third := (second <<< 8) ||| b2.toUInt32
  have hfirst := toNat_push accumulator b0
  have hsecond := toNat_push first b1
  have hthird := toNat_push second b2
  have hb0 := b0.toNat_lt
  have hb1 := b1.toNat_lt
  have hb2 := b2.toNat_lt
  obtain ⟨h0, h1, h2, h3⟩ := toNat_unpackCodes b0 b1 b2
  refine ⟨third, ?_⟩
  have hcode0 : ((first >>> UInt32.ofNat 2) &&& 0x3f).toUInt8 = b0 >>> 2 := by
    apply UInt8.toNat_inj.mp
    rw [toNat_code first (by decide), h0, hfirst]
    omega
  have hcode1 : ((second >>> UInt32.ofNat 4) &&& 0x3f).toUInt8 =
      ((b0 &&& 0x03) <<< 4) ||| (b1 >>> 4) := by
    apply UInt8.toNat_inj.mp
    rw [toNat_code second (by decide), h1, hsecond, hfirst]
    omega
  have hcode2 : ((third >>> UInt32.ofNat 6) &&& 0x3f).toUInt8 =
      ((b1 &&& 0x0f) <<< 2) ||| (b2 >>> 6) := by
    apply UInt8.toNat_inj.mp
    rw [toNat_code third (by decide), h2, hthird, hsecond]
    omega
  have hcode3 : ((third >>> UInt32.ofNat 0) &&& 0x3f).toUInt8 =
      b2 &&& 0x3f := by
    apply UInt8.toNat_inj.mp
    rw [toNat_code third (by decide), h3, hthird]
    omega
  simp only [accumulateCodes, drainCodes, unpackCodes, List.cons_append,
    List.nil_append]
  rw [← hcode0, ← hcode1, ← hcode2, ← hcode3]

/-- Complete groups give the codes of the text commands. -/
theorem accumulateCodes_eq (bytes : Bytes) (accumulator : UInt32)
    (h : bytes.length % 3 = 0) :
    accumulateCodes accumulator 0 bytes = unpackCodes bytes := by
  induction bytes using unpackCodes.induct generalizing accumulator with
  | case1 b0 b1 b2 rest ih =>
      simp only [List.length_cons] at h
      obtain ⟨next, hgroup⟩ := accumulateCodes_group accumulator b0 b1 b2 rest
      rw [hgroup, ih next (by omega)]
      simp [unpackCodes]
  | case2 bytes hshort =>
      rcases bytes with _ | ⟨b0, _ | ⟨b1, _ | ⟨b2, rest⟩⟩⟩
      · rfl
      · simp at h
      · simp at h
      · exact absurd rfl (hshort b0 b1 b2 rest)

/-! ## The alphabets -/

theorem forall_code {P : UInt8 → Prop} (h : ∀ i : Fin 64, P (UInt8.ofNat i))
    {code : UInt8} (hcode : code < 0x40) : P code := by
  have hlt : code.toNat < 64 := UInt8.lt_iff_toNat_lt.mp hcode
  simpa using h ⟨code.toNat, hlt⟩

theorem packedAsciiChar_ne {code : UInt8} (h : code < 0x40) :
    packedAsciiChar code ≠ unpackChar code :=
  forall_code (P := fun c => packedAsciiChar c ≠ unpackChar c) (by decide) h

/-- The codes that the two alphabets read as a space. -/
theorem isWhitespace_code {code : UInt8} (h : code < 0x40) :
    ¬(isWhitespace (packedAsciiChar code) = true ∧
      isWhitespace (unpackChar code) = true) :=
  forall_code (P := fun c => ¬(isWhitespace (packedAsciiChar c) = true ∧
    isWhitespace (unpackChar c) = true)) (by decide) h

/-- Two readings that differ everywhere are trimmed to different texts. -/
theorem trimEnd_map_ne {codes : Bytes} (hcodes : SixBit codes)
    (hne : codes ≠ []) :
    trimEnd (codes.map packedAsciiChar) ≠ trimEnd (codes.map unpackChar) := by
  obtain ⟨code, rest, rfl⟩ := List.exists_cons_of_ne_nil hne
  have hcode := hcodes code (by simp)
  intro heq
  have hleft := List.rdropWhile_prefix isWhitespace
    ((code :: rest).map packedAsciiChar)
  have hright := List.rdropWhile_prefix isWhitespace
    ((code :: rest).map unpackChar)
  change trimEnd _ <+: _ at hleft
  change trimEnd _ <+: _ at hright
  rw [heq] at hleft
  cases htrim : trimEnd ((code :: rest).map unpackChar) with
  | nil =>
      -- Nothing is left: the first code would be a space in both alphabets.
      rw [htrim] at heq
      apply isWhitespace_code hcode
      constructor
      · exact (List.rdropWhile_eq_nil_iff ..).mp heq _ (by simp)
      · exact (List.rdropWhile_eq_nil_iff ..).mp htrim _ (by simp)
  | cons character text =>
      rw [htrim, List.map_cons, List.cons_prefix_cons] at hleft hright
      exact packedAsciiChar_ne hcode (hleft.1.symm.trans hright.1)

theorem decodePackedAscii_ne {bytes : Bytes} (hlength : bytes.length % 3 = 0)
    (hne : bytes ≠ []) : decodePackedAscii bytes ≠ unpackText bytes := by
  intro heq
  have hcodes : unpackCodes bytes ≠ [] := by
    rcases bytes with _ | ⟨b0, _ | ⟨b1, _ | ⟨b2, rest⟩⟩⟩
    · contradiction
    · simp at hlength
    · simp at hlength
    · simp [unpackCodes]
  have htexts := String.ofList_inj.mp heq
  rw [accumulateCodes_eq bytes 0 hlength] at htexts
  exact trimEnd_map_ne (sixBit_unpackCodes bytes) hcodes htexts

/-! ## Schemas -/

theorem decodeField_packedAscii {reader next : PayloadReader} {name : String}
    {length : Nat} {value : DynamicValue}
    (h : decodeField reader ⟨name, .packedAscii length⟩ = .ok (value, next)) :
    reader.offset + length ≤ reader.input.length ∧
      value = .text (decodePackedAscii
        (slice reader.input reader.offset (reader.offset + length))) := by
  rw [decodeField_eq_take] at h
  change reader.take length "dynamic field" _ = _ at h
  by_cases hfits : reader.offset + length ≤ reader.input.length
  · rw [PayloadReader.take_of_fits _ _ hfits] at h
    injection h with h
    injection h with hvalue
    exact ⟨hfits, hvalue.symm⟩
  · rw [PayloadReader.take_of_short _ _ hfits] at h
    contradiction

def packedSchema (name : String) (length : Nat) (preserveTail : Bool) :
    DataSchema :=
  { fields := [⟨name, .packedAscii length⟩], preserveTail }

theorem validate_packedSchema_zero (name : String) (preserveTail : Bool) :
    (packedSchema name 0 preserveTail).validate ≠ .ok () := by
  intro h
  simp only [DataSchema.validate, packedSchema, List.length_singleton,
    maximumSchemaFields, validateFields] at h
  split_ifs at h
  all_goals simp [validateKind, bind, Except.bind] at h

theorem decode_packedSchema {name : String} {length : Nat}
    {preserveTail : Bool} {input : Bytes} {record : DynamicRecord}
    (h : (packedSchema name length preserveTail).decode input =
      .ok record) :
    length ≠ 0 ∧ record.values =
      [(name, .text (decodePackedAscii (input.take length)))] := by
  have hvalid := DataSchema.validate_of_decode h
  constructor
  · rintro rfl
    exact validate_packedSchema_zero name preserveTail hvalid
  · obtain ⟨-, rfl⟩ := (DataSchema.decode_ok_iff hvalid).mp h
    simp [packedSchema, fieldEntries, insertAll, OrderedMap.insertEntry,
      fieldValue, slice, FieldKind.encodedLen]

/--
The two decoders of packed text never agree: not on the bytes of any field, and
not on the packed form of any text.
-/
theorem packed_text_decoders_disagree (name : String)
    (preserveTail : Bool) :
    (∀ bytes : Bytes, bytes.length % 3 = 0 → 0 < bytes.length →
      bytes.length ≤ 255 →
      (∀ (reader next : PayloadReader) (value : DynamicValue),
        slice reader.input reader.offset (reader.offset + bytes.length) =
          bytes →
        decodeField reader ⟨name, .packedAscii bytes.length⟩ =
          .ok (value, next) → value ≠ .text (unpackText bytes)) ∧
      (packedSchema name bytes.length preserveTail).decode bytes ≠
        .ok { values := [(name, .text (unpackText bytes))], tail := [] }) ∧
    ∀ (text : String) (outputBytes : Nat) (packed : Bytes),
      packText text outputBytes = .ok packed →
      (packedSchema name outputBytes preserveTail).decode packed ≠
        .ok { values :=
                [(name, .text (String.ofList (trimEnd text.toList)))]
              tail := [] } := by
  constructor
  · intro bytes hlength hpositive _
    have hne := decodePackedAscii_ne hlength
      (List.ne_nil_of_length_pos hpositive)
    constructor
    · intro reader next value hslice hfield heq
      have hvalue := (decodeField_packedAscii hfield).2
      rw [hslice, heq] at hvalue
      injection hvalue with htext
      exact hne htext.symm
    · intro hdecode
      have hvalues := (decode_packedSchema hdecode).2
      rw [List.take_length] at hvalues
      simp only [List.cons.injEq, Prod.mk.injEq, DynamicValue.text.injEq,
        true_and, and_true] at hvalues
      exact hne hvalues.symm
  · intro text outputBytes packed hpacked hdecode
    obtain ⟨hpositive, hvalues⟩ := decode_packedSchema hdecode
    have hlength := (unpackCodes_packText hpacked).1
    obtain ⟨⟨-, hmultiple⟩, -⟩ := (packText_ok_iff ..).mp hpacked
    subst hlength
    rw [List.take_length, ← unpackText_packText hpacked] at hvalues
    simp only [List.cons.injEq, Prod.mk.injEq, DynamicValue.text.injEq,
      true_and, and_true] at hvalues
    exact decodePackedAscii_ne hmultiple
      (List.ne_nil_of_length_pos (Nat.pos_of_ne_zero hpositive)) hvalues.symm

/-- The packed form of `ABCD` is read as other characters by a schema. -/
theorem packed_text_decoders_differ :
    (packedSchema "tag" 3 false).decode [0x04, 0x20, 0xc4] =
        .ok { values := [("tag", .text "!\"#$")], tail := [] } ∧
      unpackText [0x04, 0x20, 0xc4] = "ABCD" ∧
      packText "ABCD" 3 = .ok [0x04, 0x20, 0xc4] := by
  decide +kernel

theorem packed_text_decoders_disagree_on_tag :
    (packedSchema "tag" 3 false).decode [0x04, 0x20, 0xc4] ≠
      .ok { values := [("tag", .text (unpackText [0x04, 0x20, 0xc4]))]
            tail := [] } :=
  ((packed_text_decoders_disagree "tag" false).1 [0x04, 0x20, 0xc4]
    (by decide) (by decide) (by decide)).2

end HartLink.Device
