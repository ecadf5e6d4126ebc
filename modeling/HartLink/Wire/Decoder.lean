import HartLink.Wire.Frame

/-!
# The streaming frame decoder

The decoder appends each transport fragment to a bounded buffer and repeatedly
analyses the buffer's front: it searches the first possible delimiter behind
enough preambles, discards what precedes its preambles, waits until the
declared length is present, checks the checksum under the configured policy and
either emits the frame or rejects the candidate up to and including its
delimiter.
-/

namespace HartLink.Wire

open HartLink.Foundation

def maximumDecodeBufferCapacity : Nat := 16 * 1024 * 1024

def maximumDecodeEventsPerPush : Nat := 4096

inductive ChecksumPolicy where
  | strict
  | knownGateway (delimiterBit : Bool) (checksumSourceNode : Option UInt8)
  deriving DecidableEq, Repr

structure DecodeLimits where
  bufferCapacity : Nat
  minimumPreambles : UInt8
  checksumPolicy : ChecksumPolicy
  deriving DecidableEq, Repr

structure DecodeStatistics where
  frames : UInt64 := 0
  discardedBytes : UInt64 := 0
  checksumFailures : UInt64 := 0
  overflowBytes : UInt64 := 0
  repairedFrames : UInt64 := 0
  eventLimitHits : UInt64 := 0
  deriving DecidableEq, Repr

inductive DecodeEvent where
  | frame (frame : Frame)
  | rejected (error : WireError)
  deriving DecidableEq, Repr

structure FrameDecoder where
  bytes : Bytes
  limits : DecodeLimits
  statistics : DecodeStatistics
  deriving DecidableEq, Repr

inductive DecoderStep where
  | noCandidate
  | needMore
  | discard (count : Nat)
  | rejected (error : WireError) (consumed : Nat) (checksumFailure : Bool)
  | frame (frame : Frame) (consumed : Nat) (repaired : Bool)
  deriving DecidableEq, Repr

/-! ## Candidates -/

def allowDelimiterRepair : ChecksumPolicy → Bool
  | .knownGateway true _ => true
  | _ => false

def isPossibleDelimiter (byte : UInt8) (policy : ChecksumPolicy) : Bool :=
  (FrameKind.fromDelimiter byte).isSome ||
    (allowDelimiterRepair policy &&
      (FrameKind.fromDelimiter (byte ^^^ 0x10)).isSome)

def isPreamble (byte : UInt8) : Bool := byte == 0xff

def candidateAt (bytes : Bytes) (limits : DecodeLimits) (index : Nat)
    (byte : UInt8) : Option (Nat × Nat × Nat) :=
  if !isPossibleDelimiter byte limits.checksumPolicy then none
  else
    let preambleStart :=
      (rposition (fun value => !isPreamble value) (bytes.take index)).elim
        0 (· + 1)
    let preambleCount := index - preambleStart
    let retainedCount := min preambleCount 255
    let retainedStart := index - retainedCount
    if preambleCount ≥ limits.minimumPreambles.toNat then
      some (index, retainedStart, retainedCount)
    else none

/-- Delimiter index, retained preamble start and retained preamble count. -/
def findCandidate (bytes : Bytes) (limits : DecodeLimits) :
    Option (Nat × Nat × Nat) :=
  bytes.zipIdx.findSome? fun entry =>
    candidateAt bytes limits entry.2 entry.1

def shortAddressRepair (policy : ChecksumPolicy)
    (receivedAddress expected actual : UInt8) : Option FrameRepair :=
  match policy with
  | .knownGateway _ (some source) =>
      if source > 63 then none
      else
        let reconstructed := receivedAddress ^^^ expected ^^^ actual
        if reconstructed &&& 0xc0 = receivedAddress &&& 0xc0 ∧
            reconstructed &&& 0x3f = source then
          some (.shortAddressRewrite source)
        else none
  | _ => none

def slice (bytes : Bytes) (start stop : Nat) : Bytes :=
  (bytes.drop start).take (stop - start)

/-! ## Analysing the front of the buffer -/

def effectiveDelimiter (policy : ChecksumPolicy) (byte : UInt8) :
    UInt8 × Option FrameRepair :=
  if (FrameKind.fromDelimiter byte).isNone && allowDelimiterRepair policy &&
      (FrameKind.fromDelimiter (byte ^^^ 0x10)).isSome then
    (byte ^^^ 0x10, some .delimiterBit)
  else (byte, none)

def isLong (delimiter : UInt8) : Bool := delimiter &&& 0x80 != 0

def addressLen (delimiter : UInt8) : Nat := if isLong delimiter then 5 else 1

def expansionLen (delimiter : UInt8) : Nat :=
  ((delimiter >>> 5) &&& 0x03).toNat

/--
A complete candidate: the delimiter stands at `delimiterIndex`, the checksum at
`checksumIndex`, and both are inside the buffer.
-/
def analyzeComplete (bytes : Bytes) (policy : ChecksumPolicy)
    (delimiterIndex preambleCount countIndex checksumIndex : Nat)
    (delimiter : UInt8) (delimiterRepair : Option FrameRepair) :
    DecoderStep :=
  let commandIndex := countIndex - 1
  let addressStart := delimiterIndex + 1
  let addressEnd := addressStart + addressLen delimiter
  let expected := xorChecksum (slice bytes delimiterIndex checksumIndex)
  let actual := bytes.getD checksumIndex 0
  let delimiterChecksumMatches :=
    allowDelimiterRepair policy && (expected ^^^ 0x10 == actual)
  let addressRepair :=
    if expected != actual && !delimiterChecksumMatches &&
        !isLong delimiter then
      shortAddressRepair policy (bytes.getD (delimiterIndex + 1) 0)
        expected actual
    else none
  if expected != actual && !delimiterChecksumMatches &&
      addressRepair.isNone then
    .rejected (.checksum expected actual) (delimiterIndex + 1) true
  else
    let repair :=
      if delimiterChecksumMatches then some .delimiterBit else delimiterRepair
    let repair := if addressRepair.isSome then addressRepair else repair
    match Address.readFrom (slice bytes addressStart addressEnd)
        (isLong delimiter) with
    | .error error => .rejected error (checksumIndex + 1) false
    | .ok address =>
        match FrameKind.fromDelimiter delimiter with
        | none => .rejected (.delimiter delimiter) (delimiterIndex + 1) false
        | some kind =>
            .frame
              { preambles := UInt8.ofNat (min preambleCount 255)
                kind
                physicalLayer := PhysicalLayer.fromDelimiter delimiter
                address
                expansion := slice bytes addressEnd commandIndex
                wireCommand := bytes.getD commandIndex 0
                payload := slice bytes (countIndex + 1) checksumIndex
                repair }
              (checksumIndex + 1) repair.isSome

def analyze (bytes : Bytes) (limits : DecodeLimits) : DecoderStep :=
  match findCandidate bytes limits with
  | none => .noCandidate
  | some (delimiterIndex, preambleStart, preambleCount) =>
      if preambleStart > 0 then .discard preambleStart
      else
        let (delimiter, delimiterRepair) :=
          effectiveDelimiter limits.checksumPolicy
            (bytes.getD delimiterIndex 0)
        let commandIndex := delimiterIndex + 1 + addressLen delimiter +
          expansionLen delimiter
        let countIndex := commandIndex + 1
        if bytes.length ≤ countIndex then .needMore
        else
          let payloadLen := (bytes.getD countIndex 0).toNat
          let checksumIndex := countIndex + 1 + payloadLen
          if bytes.length ≤ checksumIndex then .needMore
          else
            analyzeComplete bytes limits.checksumPolicy delimiterIndex
              preambleCount countIndex checksumIndex delimiter delimiterRepair

/-! ## The decoder -/

namespace FrameDecoder

/-- Limits after the clamping that every constructed decoder applies. -/
def effectiveLimits (limits : DecodeLimits) : DecodeLimits :=
  { bufferCapacity := max 1 (min limits.bufferCapacity
      maximumDecodeBufferCapacity)
    minimumPreambles := max limits.minimumPreambles 1
    checksumPolicy := limits.checksumPolicy }

def new (limits : DecodeLimits) : FrameDecoder :=
  { bytes := [], limits := effectiveLimits limits, statistics := {} }

def clear (decoder : FrameDecoder) : FrameDecoder :=
  { decoder with bytes := [] }

def discard (decoder : FrameDecoder) (count : Nat) : FrameDecoder :=
  { decoder with
    bytes := decoder.bytes.drop (min count decoder.bytes.length)
    statistics := { decoder.statistics with
      discardedBytes :=
        saturatingAdd decoder.statistics.discardedBytes count } }

def retainPossiblePreambles (decoder : FrameDecoder) : FrameDecoder :=
  let keep := min (trailingCount isPreamble decoder.bytes) 255
  decoder.discard (decoder.bytes.length - keep)

def appendBounded (decoder : FrameDecoder) (fragment : Bytes) :
    FrameDecoder :=
  let overflow :=
    decoder.bytes.length + fragment.length - decoder.limits.bufferCapacity
  if overflow = 0 then
    { decoder with bytes := decoder.bytes ++ fragment }
  else
    let fromBuffer := min overflow decoder.bytes.length
    let fromFragment := min (overflow - fromBuffer) fragment.length
    { decoder with
      bytes := decoder.bytes.drop fromBuffer ++ fragment.drop fromFragment
      statistics := { decoder.statistics with
        overflowBytes :=
          saturatingAdd decoder.statistics.overflowBytes overflow } }

def noteRejected (decoder : FrameDecoder) (checksumFailure : Bool) :
    FrameDecoder :=
  if checksumFailure then
    { decoder with
      statistics := { decoder.statistics with
        checksumFailures :=
          saturatingAdd decoder.statistics.checksumFailures 1 } }
  else decoder

def takeFrame (decoder : FrameDecoder) (consumed : Nat) (repaired : Bool) :
    FrameDecoder :=
  { decoder with
    bytes := decoder.bytes.drop consumed
    statistics := { decoder.statistics with
      frames := saturatingAdd decoder.statistics.frames 1
      repairedFrames :=
        saturatingAdd decoder.statistics.repairedFrames
          (if repaired then 1 else 0) } }

/-- The loop of `next_event`; each further turn has discarded some bytes. -/
def nextEventLoop : Nat → FrameDecoder → Option DecodeEvent × FrameDecoder
  | 0, decoder => (none, decoder)
  | fuel + 1, decoder =>
      match analyze decoder.bytes decoder.limits with
      | .noCandidate => (none, decoder.retainPossiblePreambles)
      | .needMore => (none, decoder)
      | .discard count => nextEventLoop fuel (decoder.discard count)
      | .rejected error consumed checksumFailure =>
          (some (.rejected error),
            (decoder.noteRejected checksumFailure).discard consumed)
      | .frame frame consumed repaired =>
          (some (.frame frame), decoder.takeFrame consumed repaired)

def nextEvent (decoder : FrameDecoder) : Option DecodeEvent × FrameDecoder :=
  nextEventLoop (decoder.bytes.length + 1) decoder

/-- The loop of `push`, which stops after the given number of events. -/
def collectEvents : Nat → FrameDecoder → List DecodeEvent × FrameDecoder
  | 0, decoder => ([], decoder)
  | room + 1, decoder =>
      match decoder.nextEvent with
      | (none, decoder) => ([], decoder)
      | (some event, decoder) =>
          let (events, decoder) := collectEvents room decoder
          (event :: events, decoder)

def push (decoder : FrameDecoder) (fragment : Bytes) :
    List DecodeEvent × FrameDecoder :=
  let (events, decoder) :=
    collectEvents maximumDecodeEventsPerPush (decoder.appendBounded fragment)
  if events.length = maximumDecodeEventsPerPush ∧ decoder.bytes ≠ [] then
    (events, { decoder with
      statistics := { decoder.statistics with
        eventLimitHits :=
          saturatingAdd decoder.statistics.eventLimitHits 1 } }
      |>.retainPossiblePreambles)
  else (events, decoder)

def pushAll (decoder : FrameDecoder) :
    List Bytes → List DecodeEvent × FrameDecoder
  | [] => ([], decoder)
  | fragment :: fragments =>
      let (events, decoder) := decoder.push fragment
      let (later, decoder) := pushAll decoder fragments
      (events ++ later, decoder)

end FrameDecoder

end HartLink.Wire
