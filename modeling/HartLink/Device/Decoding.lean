import HartLink.Device.Schema
import HartLink.Operation.Reading

/-!
# Decoding by position

A valid schema gives every field its place in the payload: field after field,
each as long as its kind says.  Decoding succeeds by the length alone, and the
value of a field is a function of the bytes at its place.
-/

namespace HartLink.Device

open HartLink.Foundation
open HartLink.Wire
open HartLink.Operation

/-! ## The value of a field -/

def latin1Text (bytes : Bytes) : String :=
  String.ofList
    ((bytes.map fun byte => Char.ofNat byte.toNat).rdropWhile isNulOrSpace)

def fieldValue (bytes : Bytes) : FieldKind → DynamicValue
  | .u8 | .u16 | .u24 | .u32 => .unsigned (UInt32.ofNat (beValue bytes))
  | .i8 | .i16 | .i32 => .signed (Int32.ofInt (beSigned bytes))
  | .f32 => .float (UInt32.ofNat (beValue bytes))
  | .boolean => .boolean (beValue bytes != 0)
  | .bytes _ => .bytes bytes
  | .latin1 _ => .text (latin1Text bytes)
  | .packedAscii _ => .text (decodePackedAscii bytes)
  | .enum8 choices =>
      let code := UInt32.ofNat (beValue bytes)
      .enumeration code
        ((choices.find? fun choice => choice.value = code).map (·.name))

/-- The kinds whose values tell their bytes. -/
def FieldKind.Exact : FieldKind → Prop
  | .boolean | .latin1 _ | .packedAscii _ => False
  | _ => True

theorem eq_ofInt_beSigned {bytes : Bytes} {word : Int32}
    (hfour : bytes.length ≤ 4) (h : word.toInt = beSigned bytes) :
    word = Int32.ofInt (beSigned bytes) := by
  have hpow : 256 ^ bytes.length ≤ 256 ^ 4 :=
    Nat.pow_le_pow_right (by decide) hfour
  have hbounds := beSigned_bounds bytes
  apply Int32.toInt_inj.mp
  rw [Int32.toInt_ofInt_of_le (by omega) (by omega), h]

theorem toInt8_ofNat_beValue {bytes : Bytes} (h : bytes.length = 1) :
    (UInt8.ofNat (beValue bytes)).toInt8.toInt32 =
      Int32.ofInt (beSigned bytes) := by
  have hsigned := toInt_beValue bytes
  rw [h] at hsigned
  apply eq_ofInt_beSigned (h.trans_le (by decide))
  rw [Int8.toInt_toInt32]
  exact hsigned

theorem toInt16_ofNat_beValue {bytes : Bytes} (h : bytes.length = 2) :
    (UInt16.ofNat (beValue bytes)).toInt16.toInt32 =
      Int32.ofInt (beSigned bytes) := by
  have hsigned := toInt_beValue bytes
  rw [h] at hsigned
  apply eq_ofInt_beSigned (h.trans_le (by decide))
  rw [Int16.toInt_toInt32]
  exact hsigned

theorem toInt32_ofNat_beValue {bytes : Bytes} (h : bytes.length = 4) :
    (UInt32.ofNat (beValue bytes)).toInt32 = Int32.ofInt (beSigned bytes) := by
  have hsigned := toInt_beValue bytes
  rw [h] at hsigned
  exact eq_ofInt_beSigned h.le hsigned

theorem ofNat_beValue_inj {first second : Bytes}
    (hlength : first.length = second.length) (hfour : second.length ≤ 4)
    (h : UInt32.ofNat (beValue first) = UInt32.ofNat (beValue second)) :
    first = second := by
  have hpow : 256 ^ second.length ≤ 256 ^ 4 :=
    Nat.pow_le_pow_right (by decide) hfour
  have hfirst := beValue_lt first
  have hsecond := beValue_lt second
  rw [hlength] at hfirst
  have hvalue := congrArg UInt32.toNat h
  rw [UInt32.toNat_ofNat', UInt32.toNat_ofNat', Nat.mod_eq_of_lt (by omega),
    Nat.mod_eq_of_lt (by omega)] at hvalue
  exact beValue_inj hlength hvalue

theorem ofInt_beSigned_inj {first second : Bytes}
    (hlength : first.length = second.length) (hfour : second.length ≤ 4)
    (h : Int32.ofInt (beSigned first) = Int32.ofInt (beSigned second)) :
    first = second := by
  have hpow : 256 ^ second.length ≤ 256 ^ 4 :=
    Nat.pow_le_pow_right (by decide) hfour
  have hfirst := beSigned_bounds first
  have hsecond := beSigned_bounds second
  rw [hlength] at hfirst
  have hvalue := congrArg Int32.toInt h
  rw [Int32.toInt_ofInt_of_le (by omega) (by omega),
    Int32.toInt_ofInt_of_le (by omega) (by omega)] at hvalue
  exact beSigned_inj hlength hvalue

theorem fieldValue_inj {kind : FieldKind} (hkind : kind.Exact)
    {first second : Bytes} (hfirst : first.length = kind.encodedLen)
    (hsecond : second.length = kind.encodedLen)
    (h : fieldValue first kind = fieldValue second kind) : first = second := by
  have hlength := hfirst.trans hsecond.symm
  cases kind with
  | u8 | u16 | u24 | u32 =>
      injection h with hvalue
      exact ofNat_beValue_inj hlength (hsecond.trans_le (by decide)) hvalue
  | i8 | i16 | i32 =>
      injection h with hvalue
      exact ofInt_beSigned_inj hlength (hsecond.trans_le (by decide)) hvalue
  | f32 =>
      injection h with hvalue
      exact ofNat_beValue_inj hlength (hsecond.trans_le (by decide)) hvalue
  | bytes length =>
      injection h
  | enum8 choices =>
      injection h with hvalue
      exact ofNat_beValue_inj hlength
        (hsecond.trans_le (show 1 ≤ 4 by decide)) hvalue
  | boolean | latin1 length | packedAscii length => exact hkind.elim

/-! ## One field -/

theorem bind_fieldValue {Result : Type} {reader : PayloadReader} {width : Nat}
    {field : String} {result : Bytes → Result}
    {read : Except CodecError (Result × PayloadReader)} {kind : FieldKind}
    (hread : read = reader.take width field result)
    (change : Result → DynamicValue)
    (hchange : ∀ bytes : Bytes, bytes.length = width →
      change (result bytes) = fieldValue bytes kind) :
    (read >>= fun taken => pure (change taken.1, taken.2)) =
      reader.take width field (fieldValue · kind) := by
  rw [hread, PayloadReader.take_bind reader width field result change]
  exact PayloadReader.take_congr field hchange

theorem toUInt32_ofNat_byte {bytes : Bytes} (h : bytes.length = 1) :
    (UInt8.ofNat (beValue bytes)).toUInt32 = UInt32.ofNat (beValue bytes) := by
  have hlt := beValue_lt bytes
  rw [h] at hlt
  apply UInt32.toNat_inj.mp
  rw [UInt8.toNat_toUInt32, UInt8.toNat_ofNat', UInt32.toNat_ofNat']
  omega

theorem toUInt32_ofNat_word {bytes : Bytes} (h : bytes.length = 2) :
    (UInt16.ofNat (beValue bytes)).toUInt32 = UInt32.ofNat (beValue bytes) := by
  have hlt := beValue_lt bytes
  rw [h] at hlt
  apply UInt32.toNat_inj.mp
  rw [UInt16.toNat_toUInt32, UInt16.toNat_ofNat', UInt32.toNat_ofNat']
  omega

theorem ofNat_byte_bne_zero {bytes : Bytes} (h : bytes.length = 1) :
    (UInt8.ofNat (beValue bytes) != 0) = (beValue bytes != 0) := by
  have hlt := beValue_lt bytes
  rw [h] at hlt
  have hiff : UInt8.ofNat (beValue bytes) = 0 ↔ beValue bytes = 0 := by
    rw [← UInt8.toNat_inj, UInt8.toNat_ofNat']
    change beValue bytes % 256 = 0 ↔ _
    omega
  simp [bne, hiff]

theorem decodeField_eq_take (reader : PayloadReader) (field : FieldSpec) :
    decodeField reader field =
      reader.take field.fieldType.encodedLen "dynamic field"
        (fieldValue · field.fieldType) := by
  obtain ⟨name, kind⟩ := field
  cases kind with
  | u8 =>
      exact bind_fieldValue (reader.u8_eq_take _) (.unsigned ·.toUInt32)
        fun bytes h => congrArg DynamicValue.unsigned (toUInt32_ofNat_byte h)
  | i8 =>
      exact bind_fieldValue (reader.u8_eq_take _)
        (.signed ·.toInt8.toInt32)
        fun bytes h => congrArg DynamicValue.signed (toInt8_ofNat_beValue h)
  | u16 =>
      exact bind_fieldValue (reader.u16_eq_take _) (.unsigned ·.toUInt32)
        fun bytes h => congrArg DynamicValue.unsigned (toUInt32_ofNat_word h)
  | i16 =>
      exact bind_fieldValue (reader.u16_eq_take _)
        (.signed ·.toInt16.toInt32)
        fun bytes h => congrArg DynamicValue.signed (toInt16_ofNat_beValue h)
  | u24 =>
      exact bind_fieldValue (reader.u24_eq_take _) .unsigned fun _ _ => rfl
  | u32 =>
      exact bind_fieldValue (reader.u32_eq_take _) .unsigned fun _ _ => rfl
  | i32 =>
      exact bind_fieldValue (reader.u32_eq_take _) (.signed ·.toInt32)
        fun bytes h => congrArg DynamicValue.signed (toInt32_ofNat_beValue h)
  | f32 =>
      exact bind_fieldValue (reader.u32_eq_take _) .float fun _ _ => rfl
  | boolean =>
      exact bind_fieldValue (reader.u8_eq_take _) (.boolean <| · != 0)
        fun bytes h => congrArg DynamicValue.boolean (ofNat_byte_bne_zero h)
  | bytes length =>
      exact bind_fieldValue (reader.bytes_eq_take _ _) .bytes fun _ _ => rfl
  | latin1 length =>
      have htext : ∀ bytes : Bytes, bytes.length = length →
          .text (latin1Text (id bytes)) = fieldValue bytes (.latin1 length) :=
        fun _ _ => rfl
      have hdecode := bind_fieldValue
        (reader.bytes_eq_take "dynamic field" length)
        (fun value => .text (latin1Text value)) htext
      unfold latin1Text at hdecode
      exact hdecode
  | packedAscii length =>
      refine bind_fieldValue (reader.bytes_eq_take "dynamic field" length)
        (fun value => .text (decodePackedAscii value)) ?_
      intro bytes hlength
      rfl
  | enum8 choices =>
      refine bind_fieldValue (reader.u8_eq_take _)
        (fun value => .enumeration value.toUInt32
          ((choices.find? fun choice =>
            choice.value = value.toUInt32).map (·.name))) ?_
      intro bytes hlength
      simp only [fieldValue, toUInt32_ofNat_byte hlength]

/-! ## All fields -/

def fieldsLen (fields : List FieldSpec) : Nat :=
  (fields.map fun field => field.fieldType.encodedLen).sum

@[simp] theorem fieldsLen_cons (field : FieldSpec) (fields : List FieldSpec) :
    fieldsLen (field :: fields) =
      field.fieldType.encodedLen + fieldsLen fields :=
  List.sum_cons

def fieldEntries (input : Bytes) :
    List FieldSpec → Nat → List (String × DynamicValue)
  | [], _ => []
  | field :: fields, offset =>
      let stop := offset + field.fieldType.encodedLen
      (field.name, fieldValue (slice input offset stop) field.fieldType) ::
        fieldEntries input fields stop

def insertAll (entries values : List (String × DynamicValue)) :
    List (String × DynamicValue) :=
  entries.foldl (fun values entry =>
    OrderedMap.insertEntry entry.1 entry.2 values) values

theorem decodeFields_of_fits {fields : List FieldSpec} {reader : PayloadReader}
    (values : List (String × DynamicValue))
    (h : reader.offset + fieldsLen fields ≤ reader.input.length) :
    decodeFields fields reader values =
      .ok (insertAll (fieldEntries reader.input fields reader.offset) values,
        { reader with offset := reader.offset + fieldsLen fields }) := by
  induction fields generalizing reader values with
  | nil => rfl
  | cons field fields ih =>
      rw [fieldsLen_cons] at h
      have hnext := @ih { reader with
        offset := reader.offset + field.fieldType.encodedLen }
        (OrderedMap.insertEntry field.name (fieldValue (slice reader.input
          reader.offset (reader.offset + field.fieldType.encodedLen))
          field.fieldType) values) (by dsimp only; omega)
      rw [decodeFields, decodeField_eq_take,
        PayloadReader.take_of_fits _ _ (by omega), fieldsLen_cons,
        ← Nat.add_assoc]
      exact hnext

theorem decodeFields_of_short {fields : List FieldSpec}
    {reader : PayloadReader} (values : List (String × DynamicValue))
    (h : reader.input.length < reader.offset + fieldsLen fields)
    (hoffset : reader.offset ≤ reader.input.length) :
    ∃ error, decodeFields fields reader values = .error error := by
  induction fields generalizing reader values with
  | nil => exact absurd hoffset (by simpa [fieldsLen] using h)
  | cons field fields ih =>
      rw [fieldsLen_cons] at h
      rw [decodeFields, decodeField_eq_take]
      by_cases hfits : reader.offset + field.fieldType.encodedLen ≤
          reader.input.length
      · rw [PayloadReader.take_of_fits _ _ hfits]
        exact ih _ (by dsimp only; omega) hfits
      · rw [PayloadReader.take_of_short _ _ hfits]
        exact ⟨_, rfl⟩

theorem getElem?_fieldEntries (input : Bytes) (fields : List FieldSpec)
    (offset index : Nat) :
    (fieldEntries input fields offset)[index]? =
      fields[index]?.map fun field =>
        let start := offset + fieldsLen (fields.take index)
        (field.name, fieldValue (slice input start
          (start + field.fieldType.encodedLen)) field.fieldType) := by
  induction fields generalizing offset index with
  | nil => rfl
  | cons field fields ih =>
      cases index with
      | zero => rfl
      | succ index =>
          rw [fieldEntries, List.getElem?_cons_succ, ih,
            List.getElem?_cons_succ, List.take_succ_cons, fieldsLen_cons,
            Nat.add_assoc]

theorem map_fst_fieldEntries (input : Bytes) (fields : List FieldSpec)
    (offset : Nat) :
    (fieldEntries input fields offset).map Prod.fst =
      fields.map (·.name) := by
  induction fields generalizing offset with
  | nil => rfl
  | cons field fields ih => rw [fieldEntries, List.map_cons, ih, List.map_cons]

/-- Entries with different new names are all kept. -/
theorem insertAll_perm {entries values : List (String × DynamicValue)}
    (h : ((entries ++ values).map Prod.fst).Nodup) :
    (insertAll entries values).Perm (entries ++ values) := by
  induction entries generalizing values with
  | nil => rfl
  | cons entry entries ih =>
      have hnew : entry.1 ∉ values.map Prod.fst := by
        rw [List.cons_append, List.map_cons, List.nodup_cons] at h
        intro hmem
        exact h.1 (by simpa using Or.inr (by simpa using hmem))
      have hinsert : (entries ++ OrderedMap.insertEntry entry.1 entry.2
          values).Perm (entry :: entries ++ values) :=
        ((OrderedMap.insertEntry_perm entry.2 hnew).append_left entries).trans
          List.perm_middle
      have hnodup : ((entries ++ OrderedMap.insertEntry entry.1 entry.2
          values).map Prod.fst).Nodup :=
        (hinsert.map Prod.fst).nodup_iff.mpr h
      exact (ih hnodup).trans hinsert

/-! ## Valid schemas -/

theorem validateFields_ok {fields : List FieldSpec} {names : List String}
    {total : Nat} (h : validateFields fields names total = .ok ()) :
    (fields.map (·.name)).Nodup ∧
      ∀ field ∈ fields, field.name ∉ names := by
  induction fields generalizing names total with
  | nil => exact ⟨List.nodup_nil, nofun⟩
  | cons field fields ih =>
      simp only [validateFields] at h
      split_ifs at h with hblank hlong hduplicate hoverflow
      cases hkind : validateKind field with
      | error error =>
          rw [hkind] at h
          contradiction
      | ok value =>
          rw [hkind] at h
          obtain ⟨hnodup, hnames⟩ := ih h
          refine ⟨List.nodup_cons.mpr ⟨?_, hnodup⟩, ?_⟩
          · rintro hmem
            obtain ⟨other, hother, hname⟩ := List.mem_map.mp hmem
            exact hnames other hother (by simp [hname])
          · intro other hother
            rcases List.mem_cons.mp hother with rfl | hother
            · exact hduplicate
            · exact fun hmem => hnames other hother
                (List.mem_cons_of_mem _ hmem)

namespace DataSchema

def encodedLen (schema : DataSchema) : Nat := fieldsLen schema.fields

def fieldBytes (schema : DataSchema) (index : Nat) (field : FieldSpec)
    (input : Bytes) : Bytes :=
  let start := fieldsLen (schema.fields.take index)
  slice input start (start + field.fieldType.encodedLen)

def Accepts (schema : DataSchema) (input : Bytes) : Prop :=
  input.length = schema.encodedLen ∨
    schema.preserveTail = true ∧ schema.encodedLen ≤ input.length

variable {schema : DataSchema} {input : Bytes}

theorem nodup_names (hvalid : schema.validate = .ok ()) :
    (schema.fields.map (·.name)).Nodup := by
  unfold validate at hvalid
  split_ifs at hvalid
  exact (validateFields_ok hvalid).1

theorem validate_of_decode {record : DynamicRecord}
    (h : schema.decode input = .ok record) : schema.validate = .ok () := by
  unfold decode at h
  cases hvalid : schema.validate with
  | error error =>
      rw [hvalid] at h
      contradiction
  | ok value => rfl

theorem decode_of_fits (hvalid : schema.validate = .ok ())
    (hfits : schema.encodedLen ≤ input.length) :
    schema.decode input =
      if schema.preserveTail = true ∨ input.length = schema.encodedLen then
        .ok { values := insertAll (fieldEntries input schema.fields 0) []
              tail := input.drop schema.encodedLen }
      else
        .error (.codec (.trailingBytes
          (input.length - schema.encodedLen))) := by
  have hreader : (PayloadReader.new input).offset + fieldsLen schema.fields =
      schema.encodedLen := Nat.zero_add _
  unfold decode
  rw [hvalid, decodeFields_of_fits [] (hreader.trans_le hfits), hreader]
  dsimp only [PayloadReader.new, PayloadReader.rest, PayloadReader.finish,
    PayloadReader.remaining]
  cases hpreserve : schema.preserveTail with
  | true => rfl
  | false =>
      by_cases hexact : input.length = schema.encodedLen
      · simp [hexact]
      · have hrest : input.length - schema.encodedLen ≠ 0 := by omega
        simp [hexact, hrest]

theorem decode_of_short (hvalid : schema.validate = .ok ())
    (hshort : input.length < schema.encodedLen) :
    ∃ error, schema.decode input = .error error := by
  obtain ⟨error, herror⟩ := @decodeFields_of_short schema.fields (.new input)
    [] (hshort.trans_eq (Nat.zero_add _).symm) (Nat.zero_le _)
  refine ⟨.codec error, ?_⟩
  unfold decode
  rw [hvalid, herror]

theorem decode_ok_iff (hvalid : schema.validate = .ok ())
    {record : DynamicRecord} :
    schema.decode input = .ok record ↔
      schema.Accepts input ∧
        record =
          { values := insertAll (fieldEntries input schema.fields 0) []
            tail := input.drop schema.encodedLen } := by
  unfold Accepts
  by_cases hfits : schema.encodedLen ≤ input.length
  · rw [decode_of_fits hvalid hfits]
    split_ifs with htail
    · simp only [Except.ok.injEq, eq_comm (a := record), iff_and_self]
      tauto
    · refine iff_of_false nofun ?_
      rintro ⟨haccepts, -⟩
      tauto
  · obtain ⟨error, herror⟩ := decode_of_short hvalid (not_le.mp hfits)
    rw [herror]
    refine iff_of_false nofun ?_
    rintro ⟨haccepts, -⟩
    omega

theorem mem_values (hvalid : schema.validate = .ok ())
    {record : DynamicRecord} (hdecode : schema.decode input = .ok record) :
    record.values.Perm (fieldEntries input schema.fields 0) := by
  obtain ⟨-, rfl⟩ := (decode_ok_iff hvalid).mp hdecode
  have hnodup := nodup_names hvalid
  rw [← map_fst_fieldEntries input schema.fields 0] at hnodup
  have hperm := @insertAll_perm (fieldEntries input schema.fields 0) []
    (by rwa [List.append_nil])
  rwa [List.append_nil] at hperm

theorem names_perm (hvalid : schema.validate = .ok ())
    {record : DynamicRecord} (hdecode : schema.decode input = .ok record) :
    (record.values.map Prod.fst).Perm (schema.fields.map (·.name)) := by
  rw [← map_fst_fieldEntries input schema.fields 0]
  exact (mem_values hvalid hdecode).map Prod.fst

theorem findKey?_values (hvalid : schema.validate = .ok ())
    {record : DynamicRecord} (hdecode : schema.decode input = .ok record)
    {index : Nat} {field : FieldSpec}
    (hfield : schema.fields[index]? = some field) :
    findKey? record.values field.name =
      some (fieldValue (schema.fieldBytes index field input)
        field.fieldType) := by
  have hnodup := (names_perm hvalid hdecode).nodup_iff.mpr
    (nodup_names hvalid)
  rw [findKey?_eq_some_iff hnodup, (mem_values hvalid hdecode).mem_iff]
  apply List.mem_of_getElem? (i := index)
  rw [getElem?_fieldEntries, hfield, Option.map_some, Nat.zero_add]
  rfl

theorem length_fieldBytes (hdecode : schema.Accepts input) {index : Nat}
    {field : FieldSpec} (hfield : schema.fields[index]? = some field) :
    (schema.fieldBytes index field input).length =
      field.fieldType.encodedLen := by
  obtain ⟨hlt, hget⟩ := List.getElem?_eq_some_iff.mp hfield
  have hsplit : fieldsLen schema.fields =
      fieldsLen (schema.fields.take index) +
        fieldsLen (schema.fields.drop index) := by
    unfold fieldsLen
    rw [← List.sum_append, ← List.map_append, List.take_append_drop]
  rw [List.drop_eq_getElem_cons hlt, hget, fieldsLen_cons] at hsplit
  have hfits : fieldsLen (schema.fields.take index) +
      field.fieldType.encodedLen ≤ input.length := by
    unfold Accepts encodedLen at hdecode
    omega
  exact (length_slice hfits).trans (Nat.add_sub_cancel_left ..)

/--
Decoding is positional: the length alone decides whether it succeeds, every
field has exactly one value, this value is that of the bytes at its place, and
the tail is what follows the fields.
-/
theorem schema_decode_positional (hvalid : schema.validate = .ok ())
    (input : Bytes) :
    ((∃ record, schema.decode input = .ok record) ↔
      input.length = schema.encodedLen ∨
        schema.preserveTail = true ∧ schema.encodedLen ≤ input.length) ∧
    ∀ record, schema.decode input = .ok record →
      record.tail = input.drop schema.encodedLen ∧
      (record.values.map Prod.fst).Nodup ∧
      (record.values.map Prod.fst).Perm (schema.fields.map (·.name)) ∧
      ∀ (index : Nat) (field : FieldSpec),
        schema.fields[index]? = some field →
        findKey? record.values field.name =
          some (fieldValue (schema.fieldBytes index field input)
            field.fieldType) ∧
        (field.fieldType.Exact → ∀ other otherRecord,
          schema.decode other = .ok otherRecord →
          findKey? otherRecord.values field.name =
            findKey? record.values field.name →
          schema.fieldBytes index field other =
            schema.fieldBytes index field input) ∧
        ∀ choices, field.fieldType = .enum8 choices →
          let code := UInt32.ofNat
            (beValue (schema.fieldBytes index field input))
          (∀ choice ∈ choices, choice.value ≠ code) →
            findKey? record.values field.name =
              some (.enumeration code none) := by
  constructor
  · constructor
    · rintro ⟨record, hdecode⟩
      exact ((decode_ok_iff hvalid).mp hdecode).1
    · intro haccepts
      exact ⟨_, (decode_ok_iff hvalid).mpr ⟨haccepts, rfl⟩⟩
  · intro record hdecode
    obtain ⟨haccepts, hrecord⟩ := (decode_ok_iff hvalid).mp hdecode
    have hnames := names_perm hvalid hdecode
    refine ⟨congrArg DynamicRecord.tail hrecord,
      hnames.nodup_iff.mpr (nodup_names hvalid), hnames, ?_⟩
    intro index field hfield
    have hvalue := findKey?_values hvalid hdecode hfield
    refine ⟨hvalue, ?_, ?_⟩
    · intro hexact other otherRecord hother hsame
      have hothers := ((decode_ok_iff hvalid).mp hother).1
      rw [hvalue, findKey?_values hvalid hother hfield,
        Option.some.injEq] at hsame
      exact fieldValue_inj hexact (length_fieldBytes hothers hfield)
        (length_fieldBytes haccepts hfield) hsame
    · intro choices hkind code hunknown
      have hfind : choices.find? (fun choice => choice.value = code) =
          none := by
        simpa using hunknown
      rw [hvalue, hkind]
      simp only [fieldValue]
      rw [hfind]
      rfl

def modeSchema : DataSchema :=
  { fields := [⟨"mode", .enum8 [⟨1, "enabled"⟩]⟩, ⟨"value", .f32⟩]
    preserveTail := true }

theorem schema_decode_positional_mode :
    modeSchema.validate = .ok () ∧
      ∃ record,
        modeSchema.decode [99, 0x42, 0x2a, 0, 0, 0xaa, 0xbb] = .ok record ∧
        record.tail = [0xaa, 0xbb] ∧
        findKey? record.values "mode" = some (.enumeration 99 none) := by
  have hvalid : modeSchema.validate = .ok () := by decide +kernel
  obtain ⟨hiff, hrecord⟩ := schema_decode_positional hvalid
    [99, 0x42, 0x2a, 0, 0, 0xaa, 0xbb]
  obtain ⟨record, hdecode⟩ := hiff.mpr (by decide)
  obtain ⟨htail, -, -, hfields⟩ := hrecord record hdecode
  refine ⟨hvalid, record, hdecode, htail, ?_⟩
  exact (hfields 0 _ rfl).2.2 _ rfl (by decide)

end DataSchema

end HartLink.Device
