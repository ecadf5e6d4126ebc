import HartLink.Operation.Reading

/-!
# Payload writers and readers

A writer appends to a vector and a reader moves over a slice.  Both change in
place: a call ends with a value, an error or a panic, and leaves a state behind
in every case.  Reading the types that were written gives the values back.
-/

namespace HartLink.Operation

open HartLink.Foundation
open HartLink.Wire

/-- How a call ends without a value. -/
inductive Stop where
  | error (error : CodecError)
  | panic
  deriving DecidableEq, Repr

/-- The contents of a vector or slice. -/
structure ByteSlice where
  bytes : Bytes
  bounded : bytes.length ≤ maximumLength

/-! ## The writer -/

structure PayloadWriter where
  output : ByteSlice

abbrev WriteM := ExceptT Stop (StateM PayloadWriter)

namespace PayloadWriter

def new : PayloadWriter := ⟨⟨[], Nat.zero_le _⟩⟩

/-- A vector that cannot become longer panics. -/
def extendFromSlice (value : Bytes) : WriteM Unit := do
  let writer ← get
  if h : (writer.output.bytes ++ value).length ≤ maximumLength then
    set (PayloadWriter.mk ⟨writer.output.bytes ++ value, h⟩)
  else throw .panic

def u8 (value : UInt8) : WriteM Unit := extendFromSlice [value]

def u16 (value : UInt16) : WriteM Unit :=
  extendFromSlice (beBytes 2 value.toNat)

def u24 (value : UInt32) : WriteM Unit := do
  if value > 0x00ffffff then
    throw (.error (.operation (.invalidValue "24-bit integer")))
  extendFromSlice ((beBytes 4 value.toNat).drop 1)

def u32 (value : UInt32) : WriteM Unit :=
  extendFromSlice (beBytes 4 value.toNat)

/-- A floating-point value is given by its 32 bits. -/
def f32 (bits : UInt32) : WriteM Unit :=
  extendFromSlice (beBytes 4 bits.toNat)

def bytes (value : Bytes) : WriteM Unit := extendFromSlice value

def finish (writer : PayloadWriter) : ByteSlice := writer.output

end PayloadWriter

/-! ## The reader -/

abbrev Cursor := ExceptT Stop (StateM PayloadReader)

namespace Cursor

def truncated (field : String) (reader : PayloadReader) : Stop :=
  .error (.operation (.truncated field reader.offset))

def u8 (field : String) : Cursor UInt8 := do
  let reader ← get
  match reader.input[reader.offset]? with
  | none => throw (truncated field reader)
  | some value =>
      set { reader with offset := reader.offset + 1 }
      return value

def bytes (length : Nat) (field : String) : Cursor Bytes := do
  let reader ← get
  let stop := saturatingLength reader.offset length
  if reader.offset ≤ stop ∧ stop ≤ reader.input.length then
    set { reader with offset := stop }
    return slice reader.input reader.offset stop
  else throw (truncated field reader)

/-- Copying into an array panics when the lengths differ. -/
def takeArray (width : Nat) (field : String) : Cursor Bytes := do
  let value ← bytes width field
  if value.length = width then return value
  else throw .panic

def u16 (field : String) : Cursor UInt16 := do
  let bytes ← takeArray 2 field
  return UInt16.ofNat (beValue bytes)

def u24 (field : String) : Cursor UInt32 := do
  let bytes ← takeArray 3 field
  return ((bytes.getD 0 0).toUInt32 <<< 16) |||
    ((bytes.getD 1 0).toUInt32 <<< 8) ||| (bytes.getD 2 0).toUInt32

def u32 (field : String) : Cursor UInt32 := do
  let bytes ← takeArray 4 field
  return UInt32.ofNat (beValue bytes)

def f32 (field : String) : Cursor UInt32 := do
  let bytes ← takeArray 4 field
  return UInt32.ofNat (beValue bytes)

/-- A slice that starts behind the end panics. -/
def rest : Cursor Bytes := do
  let reader ← get
  if reader.offset ≤ reader.input.length then
    set { reader with offset := reader.input.length }
    return reader.input.drop reader.offset
  else throw .panic

end Cursor

/-! ## Values and runs -/

inductive Value where
  | u8 (value : UInt8)
  | u16 (value : UInt16)
  | u24 (value : UInt32)
  | u32 (value : UInt32)
  | f32 (bits : UInt32)
  | bytes (value : Bytes)
  deriving DecidableEq, Repr

inductive Read where
  | u8
  | u16
  | u24
  | u32
  | f32
  | bytes (length : Nat)
  | rest
  deriving DecidableEq, Repr

def Value.write : Value → WriteM Unit
  | .u8 value => PayloadWriter.u8 value
  | .u16 value => PayloadWriter.u16 value
  | .u24 value => PayloadWriter.u24 value
  | .u32 value => PayloadWriter.u32 value
  | .f32 bits => PayloadWriter.f32 bits
  | .bytes value => PayloadWriter.bytes value

def Value.read : Value → Read
  | .u8 _ => .u8
  | .u16 _ => .u16
  | .u24 _ => .u24
  | .u32 _ => .u32
  | .f32 _ => .f32
  | .bytes value => .bytes value.length

def Read.call (field : String) : Read → Cursor Value
  | .u8 => return .u8 (← Cursor.u8 field)
  | .u16 => return .u16 (← Cursor.u16 field)
  | .u24 => return .u24 (← Cursor.u24 field)
  | .u32 => return .u32 (← Cursor.u32 field)
  | .f32 => return .f32 (← Cursor.f32 field)
  | .bytes length => return .bytes (← Cursor.bytes length field)
  | .rest => return .bytes (← Cursor.rest)

def writeAll : List Value → WriteM Unit
  | [] => return
  | value :: values => do
      value.write
      writeAll values

/-- A read that fails is followed by the next one. -/
def readAll : List (Read × String) → PayloadReader →
    List (Except Stop Value) × PayloadReader
  | [], reader => ([], reader)
  | (read, field) :: reads, reader =>
      let (result, reader) := read.call field reader
      let (results, reader) := readAll reads reader
      (result :: results, reader)

/-! ## What a call writes -/

namespace Value

/-- The writer refuses other values. -/
def InRange : Value → Prop
  | .u24 value => value.toNat < 2 ^ 24
  | _ => True

def encoded : Value → Bytes
  | .u8 value => [value]
  | .u16 value => beBytes 2 value.toNat
  | .u24 value => (beBytes 4 value.toNat).drop 1
  | .u32 value => beBytes 4 value.toNat
  | .f32 bits => beBytes 4 bits.toNat
  | .bytes value => value

end Value

theorem extendFromSlice_ok_iff {value : Bytes} {writer next : PayloadWriter} :
    PayloadWriter.extendFromSlice value writer = (.ok (), next) ↔
      next.output.bytes = writer.output.bytes ++ value := by
  obtain ⟨⟨written, hwritten⟩⟩ := writer
  obtain ⟨⟨bytes, hbytes⟩⟩ := next
  change (dite _ _ _ : WriteM Unit) _ = _ ↔ _
  constructor
  · intro h
    split_ifs at h
    · injection h with _ hnext
      injection hnext with houtput
      injection houtput with hvalue
      exact hvalue.symm
    · injection h with hresult
      contradiction
  · rintro rfl
    exact congrFun (dif_pos hbytes) _

theorem PayloadWriter.u24_apply (value : UInt32) (writer : PayloadWriter) :
    PayloadWriter.u24 value writer =
      if value.toNat < 2 ^ 24 then
        extendFromSlice ((beBytes 4 value.toNat).drop 1) writer
      else
        (.error (.error (.operation (.invalidValue "24-bit integer"))),
          writer) := by
  have hrange : value > 0x00ffffff ↔ ¬ value.toNat < 2 ^ 24 := by
    rw [gt_iff_lt, UInt32.lt_iff_toNat_lt]
    change 2 ^ 24 - 1 < _ ↔ _
    omega
  unfold PayloadWriter.u24
  by_cases hlarge : value > 0x00ffffff
  · rw [if_pos hlarge, if_neg (hrange.mp hlarge)]
    rfl
  · rw [if_neg hlarge, if_pos (not_not.mp (hrange.not.mp hlarge))]

theorem Value.write_ok_iff {value : Value} {writer next : PayloadWriter} :
    value.write writer = (.ok (), next) ↔
      value.InRange ∧
        next.output.bytes = writer.output.bytes ++ value.encoded := by
  cases value with
  | u24 value =>
      change PayloadWriter.u24 value writer = _ ↔ value.toNat < 2 ^ 24 ∧ _
      rw [PayloadWriter.u24_apply]
      split_ifs with hrange
      · exact extendFromSlice_ok_iff.trans (and_iff_right hrange).symm
      · refine iff_of_false ?_ fun h => hrange h.1
        intro h
        injection h with hresult
        contradiction
  | u8 value => exact extendFromSlice_ok_iff.trans (and_iff_right trivial).symm
  | u16 value => exact extendFromSlice_ok_iff.trans (and_iff_right trivial).symm
  | u32 value => exact extendFromSlice_ok_iff.trans (and_iff_right trivial).symm
  | f32 bits => exact extendFromSlice_ok_iff.trans (and_iff_right trivial).symm
  | bytes value =>
      exact extendFromSlice_ok_iff.trans (and_iff_right trivial).symm

theorem bind_apply {State Result Other : Type}
    (first : ExceptT Stop (StateM State) Result)
    (second : Result → ExceptT Stop (StateM State) Other) (state : State) :
    (first >>= second) state =
      match first state with
      | (.ok result, middle) => second result middle
      | (.error stop, middle) => (.error stop, middle) := by
  change (ExceptT.bindCont second (first state).1) (first state).2 = _
  cases first state with
  | mk result middle =>
      cases result with
      | ok result => rfl
      | error stop => rfl

theorem bind_ok_iff {State Result Other : Type}
    {first : ExceptT Stop (StateM State) Result}
    {second : Result → ExceptT Stop (StateM State) Other}
    {state next : State} {other : Other} :
    (first >>= second) state = (.ok other, next) ↔
      ∃ result middle, first state = (.ok result, middle) ∧
        second result middle = (.ok other, next) := by
  rw [bind_apply]
  cases first state with
  | mk result middle =>
      cases result with
      | ok result =>
          constructor
          · intro h
            exact ⟨result, middle, rfl, h⟩
          · rintro ⟨_, _, hfirst, hsecond⟩
            cases hfirst
            exact hsecond
      | error stop =>
          constructor
          · intro h
            injection h with hresult
            contradiction
          · rintro ⟨_, _, hfirst, -⟩
            injection hfirst with hresult
            contradiction

theorem writeAll_ok_iff {values : List Value} {writer next : PayloadWriter} :
    writeAll values writer = (.ok (), next) ↔
      (∀ value ∈ values, value.InRange) ∧
        next.output.bytes =
          writer.output.bytes ++ values.flatMap Value.encoded := by
  induction values generalizing writer with
  | nil =>
      obtain ⟨⟨written, hwritten⟩⟩ := writer
      obtain ⟨⟨bytes, hbytes⟩⟩ := next
      change (Except.ok (), _) = _ ↔ _
      simp [eq_comm]
  | cons value values ih =>
      rw [List.forall_mem_cons, List.flatMap_cons]
      refine bind_ok_iff.trans ⟨?_, ?_⟩
      · rintro ⟨_, middle, hwrite, hwrites⟩
        obtain ⟨hvalue, hmiddle⟩ := Value.write_ok_iff.mp hwrite
        obtain ⟨hvalues, hnext⟩ := ih.mp hwrites
        rw [hmiddle, List.append_assoc] at hnext
        exact ⟨⟨hvalue, hvalues⟩, hnext⟩
      · rintro ⟨⟨hvalue, hvalues⟩, hnext⟩
        -- The vector between the two writes is not longer than the last one.
        have hbounded : (writer.output.bytes ++ value.encoded).length ≤
            maximumLength := by
          have hlast := next.output.bounded
          rw [hnext, ← List.append_assoc, List.length_append] at hlast
          omega
        refine ⟨(), ⟨⟨_, hbounded⟩⟩, Value.write_ok_iff.mpr ⟨hvalue, rfl⟩, ?_⟩
        exact ih.mpr ⟨hvalues, by rw [hnext, List.append_assoc]⟩

/-! ## What a call reads -/

/-- A pure read as a call: its error leaves the reader where it was. -/
def adopt {Result : Type} (reader : PayloadReader) :
    Except CodecError (Result × PayloadReader) →
      Except Stop Result × PayloadReader
  | .ok (result, next) => (.ok result, next)
  | .error error => (.error (.error error), reader)

namespace Cursor

section Calls

variable {reader : PayloadReader}

theorem bind_take {Result Other : Type} {call : Cursor Result}
    {width : Nat} {field : String} {value : Bytes → Result}
    (change : Result → Other)
    (h : call reader = adopt reader (reader.take width field value)) :
    (call >>= fun result => pure (change result)) reader =
      adopt reader
        (reader.take width field fun bytes => change (value bytes)) := by
  rw [bind_apply, h]
  unfold PayloadReader.take
  split_ifs
  · rfl
  · rfl

theorem u8_apply (field : String) :
    u8 field reader = adopt reader (reader.u8 field) := by
  have hcall : u8 field reader =
      match reader.input[reader.offset]? with
      | none => (.error (truncated field reader), reader)
      | some value =>
          (.ok value, { reader with offset := reader.offset + 1 }) := by
    unfold u8
    rw [bind_apply]
    change (match reader.input[reader.offset]? with
      | none => throw (truncated field reader)
      | some value => _ : Cursor UInt8) reader = _
    cases reader.input[reader.offset]? with
    | none => rfl
    | some value => rfl
  rw [hcall]
  unfold PayloadReader.u8
  cases reader.input[reader.offset]? with
  | none => rfl
  | some byte => rfl

theorem rest_apply (field : String)
    (hoffset : reader.offset ≤ reader.input.length) :
    rest reader = adopt reader (reader.take reader.remaining field id) := by
  have hend : reader.offset + reader.remaining = reader.input.length :=
    Nat.add_sub_cancel' hoffset
  have hslice : slice reader.input reader.offset reader.input.length =
      reader.input.drop reader.offset := by
    rw [slice, ← List.length_drop, List.take_length]
  rw [PayloadReader.take_of_fits field id hend.le, hend, hslice]
  change (ite _ _ _ : Cursor Bytes) reader = _
  rw [if_pos hoffset]
  rfl

variable (hbounded : reader.input.length ≤ maximumLength)

include hbounded

/-- A sum that saturates is behind the end of every slice. -/
theorem bytes_apply (length : Nat) (field : String) :
    bytes length field reader =
      adopt reader (reader.take length field id) := by
  have hcall : bytes length field reader =
      if reader.offset ≤ saturatingLength reader.offset length ∧
          saturatingLength reader.offset length ≤ reader.input.length then
        (.ok (slice reader.input reader.offset
            (saturatingLength reader.offset length)),
          { reader with offset := saturatingLength reader.offset length })
      else (.error (truncated field reader), reader) := by
    change (ite _ _ _ : Cursor Bytes) reader = _
    split_ifs
    · rfl
    · rfl
  rw [hcall]
  by_cases hfits : reader.offset + length ≤ reader.input.length
  · have hstop : saturatingLength reader.offset length =
        reader.offset + length := by
      apply saturatingLength_eq
      unfold maximumLength at hbounded
      omega
    rw [PayloadReader.take_of_fits field id hfits, hstop,
      if_pos ⟨Nat.le_add_right .., hfits⟩]
    rfl
  · rw [PayloadReader.take_of_short field id hfits, if_neg]
    · rfl
    · unfold saturatingLength
      unfold maximumLength at hbounded
      omega

theorem takeArray_apply (width : Nat) (field : String) :
    takeArray width field reader =
      adopt reader (reader.take width field id) := by
  unfold takeArray
  rw [bind_apply, bytes_apply hbounded]
  by_cases hfits : reader.offset + width ≤ reader.input.length
  · have hlength : (slice reader.input reader.offset
        (reader.offset + width)).length = width :=
      (length_slice hfits).trans (Nat.add_sub_cancel_left ..)
    rw [PayloadReader.take_of_fits field id hfits]
    exact congrFun (if_pos hlength) _
  · rw [PayloadReader.take_of_short field id hfits]
    rfl

end Calls

end Cursor

namespace Read

def width (reader : PayloadReader) : Read → Nat
  | .u8 => 1
  | .u16 => 2
  | .u24 => 3
  | .u32 | .f32 => 4
  | .bytes length => length
  | .rest => reader.remaining

def value (taken : Bytes) : Read → Value
  | .u8 => .u8 (UInt8.ofNat (beValue taken))
  | .u16 => .u16 (UInt16.ofNat (beValue taken))
  | .u24 => .u24 (UInt32.ofNat (beValue taken))
  | .u32 => .u32 (UInt32.ofNat (beValue taken))
  | .f32 => .f32 (UInt32.ofNat (beValue taken))
  | .bytes _ | .rest => .bytes taken

/-- Every call takes the bytes of its type or is truncated where it stands. -/
theorem call_apply (read : Read) (field : String) {reader : PayloadReader}
    (hbounded : reader.input.length ≤ maximumLength)
    (hoffset : reader.offset ≤ reader.input.length) :
    read.call field reader =
      adopt reader
        (reader.take (read.width reader) field (read.value ·)) := by
  cases read with
  | u8 =>
      refine Cursor.bind_take Value.u8 ?_
      rw [Cursor.u8_apply, PayloadReader.u8_eq_take]
      rfl
  | u16 =>
      exact Cursor.bind_take Value.u16
        (Cursor.bind_take _ (Cursor.takeArray_apply hbounded 2 field))
  | u24 =>
      refine (Cursor.bind_take Value.u24
        (Cursor.bind_take _ (Cursor.takeArray_apply hbounded 3 field))).trans ?_
      congr 1
      apply PayloadReader.take_congr
      intro bytes hlength
      obtain ⟨b0, b1, b2, rfl⟩ := List.length_eq_three.mp hlength
      simp only [Read.value, ← toNat_threeBytes, UInt32.ofNat_toNat]
      rfl
  | u32 =>
      exact Cursor.bind_take Value.u32
        (Cursor.bind_take _ (Cursor.takeArray_apply hbounded 4 field))
  | f32 =>
      exact Cursor.bind_take Value.f32
        (Cursor.bind_take _ (Cursor.takeArray_apply hbounded 4 field))
  | bytes length =>
      exact Cursor.bind_take Value.bytes
        (Cursor.bytes_apply hbounded length field)
  | rest =>
      exact Cursor.bind_take Value.bytes (Cursor.rest_apply field hoffset)

theorem call_spec (read : Read) (field : String) {reader : PayloadReader}
    (hbounded : reader.input.length ≤ maximumLength)
    (hoffset : reader.offset ≤ reader.input.length) :
    (read.call field reader).2.input = reader.input ∧
      (read.call field reader).2.offset ≤ reader.input.length ∧
      (read.call field reader).1 ≠ .error .panic ∧
      ∀ stop, (read.call field reader).1 = .error stop →
        (read.call field reader).2 = reader := by
  rw [read.call_apply field hbounded hoffset]
  by_cases hfits : reader.offset + read.width reader ≤ reader.input.length
  · rw [PayloadReader.take_of_fits field _ hfits]
    exact ⟨rfl, hfits, nofun, nofun⟩
  · rw [PayloadReader.take_of_short field _ hfits]
    exact ⟨rfl, hoffset, nofun, fun _ _ => rfl⟩

end Read

theorem readAll_cons (read : Read) (field : String)
    (reads : List (Read × String)) (reader : PayloadReader) :
    readAll ((read, field) :: reads) reader =
      ((read.call field reader).1 ::
          (readAll reads (read.call field reader).2).1,
        (readAll reads (read.call field reader).2).2) := rfl

/-- What a run of calls keeps. -/
theorem readAll_spec (reads : List (Read × String)) {reader : PayloadReader}
    (hbounded : reader.input.length ≤ maximumLength)
    (hoffset : reader.offset ≤ reader.input.length) :
    (readAll reads reader).2.input = reader.input ∧
      (readAll reads reader).2.offset ≤ reader.input.length ∧
      ∀ result ∈ (readAll reads reader).1, result ≠ .error .panic := by
  induction reads generalizing reader with
  | nil => exact ⟨rfl, hoffset, nofun⟩
  | cons entry reads ih =>
      obtain ⟨read, field⟩ := entry
      obtain ⟨hinput, hnext, hpanic, -⟩ :=
        read.call_spec field hbounded hoffset
      have hrun := @ih (read.call field reader).2 (hinput ▸ hbounded)
        (hinput ▸ hnext)
      rw [hinput] at hrun
      obtain ⟨hlast, hend, hresults⟩ := hrun
      refine ⟨hlast, hend, ?_⟩
      intro result hresult
      rcases List.mem_cons.mp hresult with rfl | hresult
      · exact hpanic
      · exact hresults result hresult

/-! ## Round trip -/

namespace Value

/-- The type of a value takes the bytes that the value was written to. -/
theorem width_read (value : Value) (reader : PayloadReader) :
    value.read.width reader = value.encoded.length := by
  cases value with
  | u8 value => rfl
  | u16 value => exact (length_beBytes 2 _).symm
  | u24 value => simp [read, Read.width, encoded]
  | u32 value => exact (length_beBytes 4 _).symm
  | f32 bits => exact (length_beBytes 4 _).symm
  | bytes value => rfl

theorem value_read_encoded {value : Value} (h : value.InRange) :
    value.read.value value.encoded = value := by
  cases value with
  | u8 value => simp [read, Read.value, encoded, beValue, leValue]
  | u16 value =>
      have hlt : value.toNat < 256 ^ 2 := value.toNat_lt
      simp [read, Read.value, encoded, beValue_beBytes hlt]
  | u24 value =>
      have hlt : value.toNat < 256 ^ 3 := h
      simp [read, Read.value, encoded, beBytes_succ 3, beValue_beBytes hlt]
  | u32 value =>
      have hlt : value.toNat < 256 ^ 4 := value.toNat_lt
      simp [read, Read.value, encoded, beValue_beBytes hlt]
  | f32 bits =>
      have hlt : bits.toNat < 256 ^ 4 := bits.toNat_lt
      simp [read, Read.value, encoded, beValue_beBytes hlt]
  | bytes value => rfl

theorem call_encoded {value : Value} (hvalue : value.InRange) (field : String)
    {reader : PayloadReader} (front back : Bytes)
    (hbounded : reader.input.length ≤ maximumLength)
    (hinput : reader.input = front ++ (value.encoded ++ back))
    (hoffset : reader.offset = front.length) :
    value.read.call field reader =
      (.ok value,
        { reader with offset := front.length + value.encoded.length }) := by
  have hlength : reader.input.length =
      front.length + (value.encoded.length + back.length) := by
    rw [hinput, List.length_append, List.length_append]
  rw [Read.call_apply _ field hbounded (by omega), value.width_read,
    PayloadReader.take_of_fits field _ (by omega), hoffset,
    slice_middle front hinput rfl rfl, value_read_encoded hvalue]
  rfl

theorem readAll_encoded {values : List (Value × String)}
    (hvalues : ∀ entry ∈ values, entry.1.InRange) {reader : PayloadReader}
    (front : Bytes) (hbounded : reader.input.length ≤ maximumLength)
    (hinput : reader.input =
      front ++ values.flatMap fun entry => entry.1.encoded)
    (hoffset : reader.offset = front.length) :
    readAll (values.map fun entry => (entry.1.read, entry.2)) reader =
      (values.map fun entry => .ok entry.1,
        { reader with offset := reader.input.length }) := by
  induction values generalizing reader front with
  | nil =>
      rw [List.flatMap_nil, List.append_nil] at hinput
      have hend : reader.input.length = reader.offset := by
        rw [hinput, hoffset]
      rw [hend]
      rfl
  | cons entry values ih =>
      rw [List.flatMap_cons] at hinput
      have hcall := call_encoded (hvalues entry (by simp)) entry.2 front _
        hbounded hinput hoffset
      have hrest := @ih (fun other hother => hvalues other (by simp [hother]))
        { reader with offset := front.length + entry.1.encoded.length }
        (front ++ entry.1.encoded) hbounded
        (by rw [hinput, List.append_assoc]) (List.length_append ..).symm
      rw [List.map_cons, readAll_cons, hcall, hrest]
      rfl

end Value

/--
Reading what was written, in the same order, returns the values and uses up the
bytes.  Whatever is read, the reader stays within its slice, nothing panics, and
a truncated read leaves the reader as it was.
-/
theorem payload_reader_undoes_writer :
    (∀ values : List (Value × String),
      ((∃ writer, writeAll (values.map Prod.fst) .new = (.ok (), writer)) ↔
        (∀ entry ∈ values, entry.1.InRange) ∧
          (values.flatMap fun entry => entry.1.encoded).length ≤
            maximumLength) ∧
      ∀ writer, writeAll (values.map Prod.fst) .new = (.ok (), writer) →
        ∃ reader,
          readAll (values.map fun entry => (entry.1.read, entry.2))
              (.new writer.finish.bytes) =
            (values.map fun entry => .ok entry.1, reader) ∧
          reader.finish = .ok ()) ∧
    ∀ (slice : ByteSlice) (reads : List (Read × String)),
      let (results, reader) := readAll reads (.new slice.bytes)
      reader.input = slice.bytes ∧ reader.offset ≤ slice.bytes.length ∧
        reader.offset + reader.remaining = slice.bytes.length ∧
        (∀ result ∈ results, result ≠ .error .panic) ∧
        ∀ (read : Read) (field name : String) (offset : Nat),
          (read.call field reader).1 =
              .error (.error (.operation (.truncated name offset))) →
            (read.call field reader).2 = reader := by
  constructor
  · intro values
    have hwritten : ∀ writer,
        writeAll (values.map Prod.fst) .new = (.ok (), writer) ↔
          (∀ entry ∈ values, entry.1.InRange) ∧
            writer.output.bytes =
              values.flatMap fun entry => entry.1.encoded := by
      intro writer
      rw [writeAll_ok_iff, List.forall_mem_map, List.flatMap_map]
      exact Iff.rfl
    constructor
    · constructor
      · rintro ⟨writer, hwriter⟩
        obtain ⟨hvalues, hbytes⟩ := (hwritten writer).mp hwriter
        exact ⟨hvalues, hbytes ▸ writer.output.bounded⟩
      · rintro ⟨hvalues, hbounded⟩
        exact ⟨⟨⟨_, hbounded⟩⟩, (hwritten _).mpr ⟨hvalues, rfl⟩⟩
    · intro writer hwriter
      obtain ⟨hvalues, hbytes⟩ := (hwritten writer).mp hwriter
      refine ⟨_, Value.readAll_encoded hvalues [] writer.output.bounded
        hbytes rfl, ?_⟩
      simp [PayloadReader.finish, PayloadReader.remaining]
  · intro slice reads
    obtain ⟨hinput, hoffset, hpanic⟩ := @readAll_spec reads
      (.new slice.bytes) slice.bounded (Nat.zero_le _)
    rcases hrun : readAll reads (.new slice.bytes) with ⟨results, reader⟩
    rw [hrun] at hinput hoffset hpanic
    change reader.input = slice.bytes at hinput
    change reader.offset ≤ slice.bytes.length at hoffset
    refine ⟨hinput, hoffset, ?_, hpanic, ?_⟩
    · rw [PayloadReader.remaining, hinput]
      omega
    · intro read field name offset hresult
      have hcall := read.call_spec field (hinput ▸ slice.bounded)
        (hinput ▸ hoffset)
      exact hcall.2.2.2 _ hresult

end HartLink.Operation
