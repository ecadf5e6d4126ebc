import HartLink.Foundation.Blocks
import HartLink.Recording.Trace

/-!
# Export to PCAP-NG

A trace is written as a section header, an interface and one enhanced packet for
every record.  The packet of a record is its direction followed by its bytes.
-/

namespace HartLink.Recording

open HartLink.Foundation

/-! ## Writing -/

def pushU32 (output : Bytes) (value : UInt32) : Bytes :=
  output ++ leBytes 4 value.toNat

def writeSectionHeader (output : Bytes) : Bytes :=
  let output := pushU32 output 0x0a0d0d0a
  let output := pushU32 output 28
  let output := pushU32 output 0x1a2b3c4d
  let output := output ++ leBytes 2 1
  let output := output ++ leBytes 2 0
  let output := output ++ leBytes 8 (2 ^ 64 - 1)
  pushU32 output 28

def writeInterface (output : Bytes) : Bytes :=
  let output := pushU32 output 1
  let output := pushU32 output 20
  let output := output ++ leBytes 2 147
  let output := output ++ leBytes 2 0
  let output := pushU32 output 65535
  pushU32 output 20

def TraceDirection.byte : TraceDirection → UInt8
  | .outbound => 0
  | .inbound => 1

/-- `u32::try_from` with the largest value in the place of an error. -/
def u32OrMaximum (number : Nat) : UInt32 :=
  if number < 2 ^ 32 then UInt32.ofNat number else 0xffffffff

def u64OrMaximum (number : Nat) : UInt64 :=
  if number < 2 ^ 64 then UInt64.ofNat number else 0xffffffffffffffff

/-- Microseconds since the epoch; a time before it counts as the epoch. -/
def TraceRecord.microseconds (record : TraceRecord) : Nat :=
  record.timestamp.toNat / 1000

def TraceRecord.packet (record : TraceRecord) : Bytes :=
  record.direction.byte :: record.bytes

/-- The length with its two lowest bits cleared after rounding up. -/
def padded (length : Nat) : Nat := (length + 3) / 4 * 4

def writePacket (output : Bytes) (record : TraceRecord) : Bytes :=
  let packet := record.packet
  let padded := padded packet.length
  let total := 32 + padded
  let timestampBytes := beBytes 8 (u64OrMaximum record.microseconds).toNat
  let output := pushU32 output 6
  let output := pushU32 output (u32OrMaximum total)
  let output := pushU32 output 0
  let output :=
    pushU32 output (UInt32.ofNat (beValue (timestampBytes.take 4)))
  let output :=
    pushU32 output (UInt32.ofNat (beValue (timestampBytes.drop 4)))
  let output := pushU32 output (u32OrMaximum packet.length)
  let output := pushU32 output (u32OrMaximum packet.length)
  let output := output ++ packet
  let output := output ++ List.replicate (padded - packet.length) 0
  pushU32 output (u32OrMaximum total)

def Trace.toPcapng (trace : Trace) : Bytes :=
  trace.records.foldl writePacket (writeInterface (writeSectionHeader []))

/-! ## Reading -/

structure EnhancedPacket where
  interfaceId : Nat
  timestampHigh : Nat
  timestampLow : Nat
  capturedLength : Nat
  originalLength : Nat
  data : Bytes
  padding : Bytes
  deriving DecidableEq, Repr

def bodyWord (body : Bytes) (index : Nat) : Nat :=
  leValue ((body.drop (4 * index)).take 4)

def readEnhancedPacket (body : Bytes) : Option EnhancedPacket :=
  let capturedLength := bodyWord body 3
  if 20 + capturedLength ≤ body.length then
    some
      { interfaceId := bodyWord body 0
        timestampHigh := bodyWord body 1
        timestampLow := bodyWord body 2
        capturedLength
        originalLength := bodyWord body 4
        data := (body.drop 20).take capturedLength
        padding := body.drop (20 + capturedLength) }
  else none

/-! ## Blocks -/

def sectionBlock : Block :=
  blockOf 0x0a0d0d0a (leBytes 4 0x1a2b3c4d ++ (leBytes 2 1 ++ (leBytes 2 0 ++
    leBytes 8 (2 ^ 64 - 1))))

def interfaceBlock : Block :=
  blockOf 1 (leBytes 2 147 ++ (leBytes 2 0 ++ leBytes 4 65535))

def TraceRecord.exported (record : TraceRecord) : Nat :=
  min record.microseconds (2 ^ 64 - 1)

def packetWords (record : TraceRecord) : List Nat :=
  [0, record.exported / 2 ^ 32, record.exported % 2 ^ 32,
    record.packet.length, record.packet.length]

def packetBody (record : TraceRecord) : Bytes :=
  (packetWords record).flatMap (leBytes 4) ++ (record.packet ++
    List.replicate (padded record.packet.length - record.packet.length) 0)

def packetBlock (record : TraceRecord) : Block := blockOf 6 (packetBody record)

theorem length_packetBody (record : TraceRecord) :
    (packetBody record).length = 20 + padded record.packet.length := by
  simp only [packetBody, packetWords, List.flatMap_cons, List.flatMap_nil,
    List.length_append, length_leBytes, List.length_replicate,
    List.length_nil]
  unfold padded
  omega

/-- The packet of a record fits the lengths of a block. -/
def Exportable (record : TraceRecord) : Prop :=
  record.bytes.length ≤ maximumTraceBytes

theorem toNat_u64OrMaximum (number : Nat) :
    (u64OrMaximum number).toNat = min number (2 ^ 64 - 1) := by
  unfold u64OrMaximum
  split_ifs with hfits
  · rw [UInt64.toNat_ofNat']
    omega
  · change 2 ^ 64 - 1 = _
    omega

theorem toNat_u32OrMaximum {number : Nat} (h : number < 2 ^ 32) :
    (u32OrMaximum number).toNat = number := by
  rw [u32OrMaximum, if_pos h, UInt32.toNat_ofNat', Nat.mod_eq_of_lt h]

theorem toNat_timestamp (record : TraceRecord) :
    let timestampBytes := beBytes 8 (u64OrMaximum record.microseconds).toNat
    (UInt32.ofNat (beValue (timestampBytes.take 4))).toNat =
        record.exported / 2 ^ 32 ∧
      (UInt32.ofNat (beValue (timestampBytes.drop 4))).toNat =
        record.exported % 2 ^ 32 := by
  have hlt : record.exported < 2 ^ 64 := by
    unfold TraceRecord.exported
    omega
  have hhigh : record.exported / 256 ^ 4 < 256 ^ 4 := by omega
  rw [toNat_u64OrMaximum]
  change _ = record.exported / 2 ^ 32 ∧ _ = record.exported % 2 ^ 32
  rw [show min record.microseconds (2 ^ 64 - 1) = record.exported from rfl,
    show beBytes 8 record.exported = _ from beBytes_add 4 4 record.exported,
    List.take_left' (length_beBytes ..), List.drop_left' (length_beBytes ..)]
  constructor
  · rw [beValue_beBytes hhigh, UInt32.toNat_ofNat']
    exact Nat.mod_eq_of_lt hhigh
  · rw [beValue_beBytes_mod, UInt32.toNat_ofNat']
    exact Nat.mod_mod ..

theorem length_packet (record : TraceRecord) :
    record.packet.length = 1 + record.bytes.length :=
  Nat.add_comm ..

theorem writePacket_eq {record : TraceRecord} (h : Exportable record)
    (output : Bytes) :
    writePacket output record = output ++ writeBlock (packetBlock record) := by
  have hlength := length_packet record
  have hbody := length_packetBody record
  have hpacket : record.packet.length < 2 ^ 32 := by
    unfold Exportable maximumTraceBytes at h
    omega
  have htotal : 32 + padded record.packet.length < 2 ^ 32 := by
    unfold Exportable maximumTraceBytes at h
    unfold padded
    omega
  obtain ⟨hhigh, hlow⟩ := toNat_timestamp record
  unfold writePacket pushU32
  dsimp only
  rw [hhigh, hlow, toNat_u32OrMaximum hpacket, toNat_u32OrMaximum htotal]
  have hblock : (packetBody record).length + 12 =
      32 + padded record.packet.length := by omega
  simp only [writeBlock, packetBlock, blockOf, hblock]
  simp only [packetBody, packetWords, List.flatMap_cons, List.flatMap_nil,
    List.nil_append, List.append_assoc]
  rfl

theorem writeSectionHeader_eq (output : Bytes) :
    writeSectionHeader output = output ++ writeBlock sectionBlock := by
  unfold writeSectionHeader pushU32
  simp only [List.append_assoc]
  rfl

theorem writeInterface_eq (output : Bytes) :
    writeInterface output = output ++ writeBlock interfaceBlock := by
  unfold writeInterface pushU32
  simp only [List.append_assoc]
  rfl

theorem foldl_writePacket {records : List TraceRecord}
    (h : ∀ record ∈ records, Exportable record) (output : Bytes) :
    records.foldl writePacket output =
      output ++ (records.map packetBlock).flatMap writeBlock := by
  induction records generalizing output with
  | nil => simp
  | cons record records ih =>
      rw [List.forall_mem_cons] at h
      rw [List.foldl_cons, writePacket_eq h.1, ih h.2, List.map_cons,
        List.flatMap_cons, List.append_assoc]

theorem toPcapng_eq {trace : Trace}
    (h : ∀ record ∈ trace.records, Exportable record) :
    trace.toPcapng =
      (sectionBlock :: interfaceBlock ::
        trace.records.map packetBlock).flatMap writeBlock := by
  rw [Trace.toPcapng, foldl_writePacket h, writeInterface_eq,
    writeSectionHeader_eq, List.nil_append, List.flatMap_cons,
    List.flatMap_cons, List.append_assoc]

/-! ## What a reader finds -/

theorem readable_blockOf {blockType : Nat} {body : Bytes}
    (htype : blockType < 2 ^ 32) (hbody : body.length + 12 < 2 ^ 32) :
    (blockOf blockType body).Readable :=
  ⟨htype, rfl, rfl, hbody⟩

theorem readable_packetBlock {record : TraceRecord} (h : Exportable record) :
    (packetBlock record).Readable := by
  refine readable_blockOf (by decide) ?_
  have hlength := length_packet record
  rw [length_packetBody, hlength]
  unfold Exportable maximumTraceBytes at h
  unfold padded
  omega

theorem totalLength_packetBlock (record : TraceRecord) :
    (packetBlock record).totalLength % 4 = 0 := by
  change ((packetBody record).length + 12) % 4 = 0
  rw [length_packetBody]
  unfold padded
  omega

def enhancedPacket (record : TraceRecord) : EnhancedPacket where
  interfaceId := 0
  timestampHigh := record.exported / 2 ^ 32
  timestampLow := record.exported % 2 ^ 32
  capturedLength := record.packet.length
  originalLength := record.packet.length
  data := record.packet
  padding := List.replicate
    (padded record.packet.length - record.packet.length) 0

theorem length_words (words : List Nat) :
    (words.flatMap (leBytes 4)).length = 4 * words.length := by
  induction words with
  | nil => rfl
  | cons word words ih =>
      rw [List.flatMap_cons, List.length_append, length_leBytes, ih,
        List.length_cons]
      omega

theorem bodyWord_words {words : List Nat} (h : ∀ word ∈ words, word < 2 ^ 32)
    (rest : Bytes) {index word : Nat} (hword : words[index]? = some word) :
    bodyWord (words.flatMap (leBytes 4) ++ rest) index = word := by
  induction words generalizing index with
  | nil => contradiction
  | cons first words ih =>
      rw [List.forall_mem_cons] at h
      rw [List.flatMap_cons, List.append_assoc, bodyWord]
      cases index with
      | zero =>
          injection hword with hword
          subst hword
          rw [List.drop_zero, List.take_left' (length_leBytes ..)]
          exact leValue_leBytes h.1
      | succ index =>
          rw [Nat.mul_succ, Nat.add_comm, ← List.drop_drop,
            List.drop_left' (length_leBytes ..)]
          exact ih h.2 hword

theorem readEnhancedPacket_packetBody {record : TraceRecord}
    (h : Exportable record) :
    readEnhancedPacket (packetBody record) = some (enhancedPacket record) := by
  have hlength := length_packet record
  have hbody := length_packetBody record
  have hpacket : record.packet.length < 2 ^ 32 := by
    unfold Exportable maximumTraceBytes at h
    omega
  have hexported : record.exported < 2 ^ 64 := by
    unfold TraceRecord.exported
    omega
  have hwords : ∀ word ∈ packetWords record, word < 2 ^ 32 := by
    simp only [packetWords, List.forall_mem_cons]
    exact ⟨by omega, by omega, by omega, hpacket, hpacket, nofun⟩
  have hword : ∀ index word, (packetWords record)[index]? = some word →
      bodyWord (packetBody record) index = word :=
    fun _ _ => bodyWord_words hwords _
  have hdata : (packetBody record).drop 20 = record.packet ++
      List.replicate (padded record.packet.length - record.packet.length)
        0 :=
    List.drop_left' (length_words _)
  have hroom : 20 + record.packet.length ≤ (packetBody record).length := by
    rw [hbody]
    unfold padded
    omega
  unfold readEnhancedPacket
  dsimp only
  rw [hword 0 _ rfl, hword 1 _ rfl, hword 2 _ rfl, hword 3 _ rfl,
    hword 4 _ rfl, if_pos hroom, hdata, ← List.drop_drop, hdata,
    List.take_left, List.drop_left]
  rfl

theorem exportable_of_fits {limits : TraceLimits}
    {records : List TraceRecord}
    (hlimit : limits.maximumBytes ≤ maximumTraceBytes)
    (hfits : limits.Fits records) {record : TraceRecord}
    (hrecord : record ∈ records) : Exportable record := by
  obtain ⟨before, after, rfl⟩ := List.append_of_mem hrecord
  have hbytes := hfits.2
  rw [payloadBytes_append, payloadBytes_cons] at hbytes
  unfold Exportable
  omega

/-- A block holds a record, with the given time in microseconds. -/
def HoldsRecord (time : TraceRecord → Nat) (block : Block)
    (record : TraceRecord) : Prop :=
  block.blockType = 6 ∧
    ∃ packet, readEnhancedPacket block.body = some packet ∧
      packet.capturedLength = 1 + record.bytes.length ∧
      packet.originalLength = 1 + record.bytes.length ∧
      packet.data = record.direction.byte :: record.bytes ∧
      (∀ byte ∈ packet.padding, byte = 0) ∧
      packet.timestampHigh * 2 ^ 32 + packet.timestampLow = time record

theorem holdsRecord_packetBlock {record : TraceRecord}
    (h : Exportable record) :
    HoldsRecord TraceRecord.exported (packetBlock record) record := by
  refine ⟨rfl, _, readEnhancedPacket_packetBody h, length_packet record,
    length_packet record, rfl, ?_, ?_⟩
  · intro byte hbyte
    exact List.eq_of_mem_replicate hbyte
  · exact Nat.div_add_mod' ..

/-- A file is a section header, an interface and a packet for every record. -/
def Exports (time : TraceRecord → Nat) (file : Bytes)
    (records : List TraceRecord) : Prop :=
  ∃ sectionHeader interface packets,
    parseBlocks file = some (sectionHeader :: interface :: packets) ∧
    sectionHeader.blockType = 0x0a0d0d0a ∧
    bodyWord sectionHeader.body 0 = 0x1a2b3c4d ∧
    interface.blockType = 1 ∧
    (∀ block ∈ sectionHeader :: interface :: packets,
      block.totalLength % 4 = 0 ∧ block.trailer = block.totalLength) ∧
    List.Forall₂ (HoldsRecord time) packets records

/--
The export of a recorder is read to its last byte, with one packet for every
record.  The time is exact as far as 64 bits of microseconds reach.
-/
theorem pcapng_export_lossless (limits : TraceLimits)
    (pushed : List TraceRecord) :
    let trace := (Trace.withLimits limits).pushAll pushed
    Exports (fun record => min record.microseconds (2 ^ 64 - 1))
      trace.toPcapng trace.records := by
  intro trace
  have hrecorded := Trace.recorded limits pushed
  have hexportable : ∀ record ∈ trace.records, Exportable record :=
    fun _ => exportable_of_fits (Trace.bounded_clamped limits).2
      hrecorded.kept.fits
  have hreadable : ∀ block ∈ sectionBlock :: interfaceBlock ::
      trace.records.map packetBlock, block.Readable := by
    rw [List.forall_mem_cons, List.forall_mem_cons, List.forall_mem_map]
    exact ⟨readable_blockOf (by decide) (by decide),
      readable_blockOf (by decide) (by decide),
      fun record hrecord => readable_packetBlock (hexportable record hrecord)⟩
  refine ⟨sectionBlock, interfaceBlock, trace.records.map packetBlock, ?_,
    rfl, ?_, rfl, ?_, ?_⟩
  · rw [toPcapng_eq hexportable]
    exact parseBlocks_writeBlocks hreadable
  · decide
  · rw [List.forall_mem_cons, List.forall_mem_cons, List.forall_mem_map]
    exact ⟨⟨rfl, rfl⟩, ⟨rfl, rfl⟩,
      fun record _ => ⟨totalLength_packetBlock record, rfl⟩⟩
  · rw [List.forall₂_map_left_iff, List.forall₂_same]
    exact fun record hrecord =>
      holdsRecord_packetBlock (hexportable record hrecord)

/-- A record from far ahead, whose microseconds do not fit 64 bits. -/
def lateRecord : TraceRecord where
  direction := .inbound
  timestamp := 2 ^ 64 * 1000
  bytes := [1]

/-- The time of such a record is exported as the last one that fits. -/
theorem pcapng_timestamp_saturates :
    ¬ ∀ (limits : TraceLimits) (pushed : List TraceRecord),
      Exports TraceRecord.microseconds
        ((Trace.withLimits limits).pushAll pushed).toPcapng
        ((Trace.withLimits limits).pushAll pushed).records := by
  intro h
  obtain ⟨sectionHeader, interface, packets, hparse, -, -, -, -, hpackets⟩ :=
    h ⟨1, 1⟩ [lateRecord]
  have hfile : parseBlocks
      ((Trace.withLimits ⟨1, 1⟩).pushAll [lateRecord]).toPcapng =
        some [sectionBlock, interfaceBlock, packetBlock lateRecord] := by
    decide +kernel
  rw [hfile] at hparse
  injection hparse with hblocks
  injection hblocks with _ hblocks
  injection hblocks with _ hblocks
  subst hblocks
  rw [show ((Trace.withLimits ⟨1, 1⟩).pushAll [lateRecord]).records =
    [lateRecord] by decide +kernel, List.forall₂_cons] at hpackets
  obtain ⟨⟨-, packet, hread, -, -, -, -, htime⟩, -⟩ := hpackets
  have hpacket : readEnhancedPacket (packetBlock lateRecord).body =
      some (enhancedPacket lateRecord) := by
    decide +kernel
  rw [hpacket] at hread
  injection hread with hread
  subst hread
  revert htime
  decide +kernel

end HartLink.Recording
