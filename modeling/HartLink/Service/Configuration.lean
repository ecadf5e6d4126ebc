import HartLink.Wire.Losses

/-!
# What a validated link configuration promises about decoding

`validate` asks for a decoder buffer that holds the largest frame with the
smallest number of preambles.  That is enough for the frame itself, but a read
may end a frame and bring further bytes, which push the front of the frame out.
A link decodes like a decoder without limits exactly when a whole read fits
behind the longest incomplete frame, as long as no read reaches the event limit.
-/

namespace HartLink.Service

open HartLink.Foundation
open HartLink.Wire

def maximumQueueCapacity : Nat := 1048576

def maximumLinkReadBuffer : Nat := 1048576

def maximumLinkDecoderBuffer : Nat := maximumDecodeBufferCapacity

def maxEncodedFrameSize : Nat := 522

structure LinkConfig where
  queueCapacity : Nat
  readBufferSize : Nat
  decoder : DecodeLimits
  deriving DecidableEq, Repr

inductive LinkConfigError where
  | queueCapacity
  | queueCapacityLimit (capacity : Nat)
  | readBufferSize
  | readBufferLimit (size : Nat)
  | decoderCapacity
  | decoderCapacityLimit (capacity : Nat)
  | decoderFrameCapacity (actual required : Nat)
  | minimumPreambles
  | checksumSourceNode
  deriving DecidableEq, Repr

def requiredDecoderCapacity (minimumPreambles : UInt8) : Nat :=
  maxEncodedFrameSize - 255 + minimumPreambles.toNat

def sourceOutOfRange : ChecksumPolicy → Bool
  | .knownGateway _ (some node) => node > 63
  | _ => false

namespace LinkConfig

def validate (config : LinkConfig) : Except LinkConfigError Unit :=
  if config.queueCapacity = 0 then .error .queueCapacity
  else if config.queueCapacity > maximumQueueCapacity then
    .error (.queueCapacityLimit config.queueCapacity)
  else if config.readBufferSize = 0 then .error .readBufferSize
  else if config.readBufferSize > maximumLinkReadBuffer then
    .error (.readBufferLimit config.readBufferSize)
  else if config.decoder.bufferCapacity = 0 then .error .decoderCapacity
  else if config.decoder.minimumPreambles = 0 then .error .minimumPreambles
  else if sourceOutOfRange config.decoder.checksumPolicy then
    .error .checksumSourceNode
  else if config.decoder.bufferCapacity > maximumLinkDecoderBuffer then
    .error (.decoderCapacityLimit config.decoder.bufferCapacity)
  else if config.decoder.bufferCapacity <
      requiredDecoderCapacity config.decoder.minimumPreambles then
    .error (.decoderFrameCapacity config.decoder.bufferCapacity
      (requiredDecoderCapacity config.decoder.minimumPreambles))
  else .ok ()

def frames (events : List DecodeEvent) : List Frame :=
  events.filterMap DecodeEvent.frame?

theorem frames_of_map {first second : List DecodeEvent}
    (h : first.map DecodeEvent.erasePreambles =
      second.map DecodeEvent.erasePreambles) :
    frames first = frames second := by
  have hframes (events : List DecodeEvent) : frames events =
      (events.map DecodeEvent.erasePreambles).filterMap DecodeEvent.frame? := by
    rw [frames, List.filterMap_map]
    refine List.filterMap_congr ?_
    intro event _
    cases event <;> rfl
  rw [hframes, h, ← hframes]

section Validated

variable {config : LinkConfig}

/-- What `validate` leaves of the decoder limits for `FrameDecoder.new`. -/
structure Validated (config : LinkConfig) : Prop where
  minimum : 1 ≤ config.decoder.minimumPreambles.toNat
  holds : config.decoder.minimumPreambles.toNat + 267 ≤
    config.decoder.bufferCapacity
  limits : (FrameDecoder.new config.decoder).limits = config.decoder

theorem validated_of_validate (h : config.validate = .ok ()) :
    config.Validated := by
  unfold validate at h
  split_ifs at h with hqueue hqueueLimit hread hreadLimit hcapacity hpreambles
    hsource hlimit hframe
  have hminimum : 1 ≤ config.decoder.minimumPreambles.toNat := by
    have hne : config.decoder.minimumPreambles.toNat ≠ 0 := by
      intro hzero
      exact hpreambles (UInt8.toNat_inj.mp hzero)
    omega
  refine ⟨hminimum, ?_, ?_⟩
  · unfold requiredDecoderCapacity maxEncodedFrameSize at hframe
    omega
  · have hcapacities : max 1 (min config.decoder.bufferCapacity
        maximumDecodeBufferCapacity) = config.decoder.bufferCapacity := by
      unfold maximumLinkDecoderBuffer at hlimit
      omega
    have hpreambles : max config.decoder.minimumPreambles 1 =
        config.decoder.minimumPreambles := by
      change (if config.decoder.minimumPreambles ≤ 1 then 1
        else config.decoder.minimumPreambles) = _
      split_ifs with hle
      · refine UInt8.toNat_inj.mp ?_
        have hsmall := UInt8.le_iff_toNat_le.mp hle
        change 1 = _
        change _ ≤ 1 at hsmall
        omega
      · rfl
    change FrameDecoder.effectiveLimits config.decoder = config.decoder
    rw [FrameDecoder.effectiveLimits, hcapacities, hpreambles]

end Validated

/--
With a validated configuration the decoder of a link finds the frames of the
unlimited decoder in all reads that push out no more than surplus preambles.
Every read does so exactly when the buffer has room for a whole read behind the
longest incomplete frame.
-/
theorem decodes_as_unlimited_iff (config : LinkConfig)
    (hvalid : config.validate = .ok ()) :
    (∀ reads, (FrameDecoder.new config.decoder).SparesFrames reads →
        (FrameDecoder.new config.decoder).BelowEventLimit reads →
        frames ((FrameDecoder.new config.decoder).pushAll reads).1 =
          frames ((FrameDecoder.new config.decoder).pushAllUnlimited
            reads).1) ∧
      ((∀ reads, (∀ read ∈ reads,
            1 ≤ read.length ∧ read.length ≤ config.readBufferSize) →
          (FrameDecoder.new config.decoder).BelowEventLimit reads →
          frames ((FrameDecoder.new config.decoder).pushAll reads).1 =
            frames ((FrameDecoder.new config.decoder).pushAllUnlimited
              reads).1) ↔
        config.readBufferSize + config.decoder.minimumPreambles.toNat + 266 ≤
          config.decoder.bufferCapacity) := by
  obtain ⟨hminimum, hholds, hlimits⟩ := validated_of_validate hvalid
  have hempty : (FrameDecoder.new config.decoder).bytes = [] := rfl
  have hsettled := FrameDecoder.settled_new config.decoder
  generalize FrameDecoder.new config.decoder = decoder at *
  have hspared : ∀ reads, decoder.SparesFrames reads →
      decoder.BelowEventLimit reads →
      frames (decoder.pushAll reads).1 =
        frames (decoder.pushAllUnlimited reads).1 := by
    intro reads hspares hbelow
    exact frames_of_map (FrameDecoder.pushAll_eq_unlimited rfl (.refl _ _)
      hspares hbelow)
  refine ⟨hspared, ?_, ?_⟩
  · intro hall
    by_contra hsmall
    have hloses := @FrameDecoder.loses_largestFrame decoder
      config.readBufferSize hempty (by rw [hlimits]; exact hminimum)
      (by rw [hlimits]; exact hholds) (by rw [hlimits]; omega)
    obtain ⟨hsizes, hbelow, hbounded, hunlimited⟩ := hloses
    have hsame := hall _ hsizes hbelow
    rw [hbounded, hunlimited] at hsame
    contradiction
  · intro hroom reads hsizes hbelow
    refine hspared reads ?_ hbelow
    refine FrameDecoder.sparesFrames_of_roomy hsettled
      (by rw [hlimits]; exact hroom) ?_
    intro read hread
    exact (hsizes read hread).2

def defaultConfig : LinkConfig := ⟨256, 512, ⟨4096, 2, .strict⟩⟩

theorem decodes_as_unlimited_iff_default :
    (∀ reads, (FrameDecoder.new defaultConfig.decoder).SparesFrames reads →
        (FrameDecoder.new defaultConfig.decoder).BelowEventLimit reads →
        frames ((FrameDecoder.new defaultConfig.decoder).pushAll reads).1 =
          frames ((FrameDecoder.new defaultConfig.decoder).pushAllUnlimited
            reads).1) ∧
      ((∀ reads, (∀ read ∈ reads,
            1 ≤ read.length ∧ read.length ≤ defaultConfig.readBufferSize) →
          (FrameDecoder.new defaultConfig.decoder).BelowEventLimit reads →
          frames ((FrameDecoder.new defaultConfig.decoder).pushAll reads).1 =
            frames ((FrameDecoder.new defaultConfig.decoder).pushAllUnlimited
              reads).1) ↔
        defaultConfig.readBufferSize +
            defaultConfig.decoder.minimumPreambles.toNat + 266 ≤
          defaultConfig.decoder.bufferCapacity) :=
  decodes_as_unlimited_iff defaultConfig (by decide +kernel)

def tightConfig : LinkConfig := ⟨256, 512, ⟨268, 1, .strict⟩⟩

def denseConfig : LinkConfig := ⟨256, 32768, FrameDecoder.damagedLimits⟩

theorem validated_configs_lose_frames :
    (tightConfig.validate = .ok () ∧
      (∀ read ∈ FrameDecoder.losingReads 1 512,
        1 ≤ read.length ∧ read.length ≤ tightConfig.readBufferSize) ∧
      frames ((FrameDecoder.new tightConfig.decoder).pushAll
        (FrameDecoder.losingReads 1 512)).1 = [] ∧
      frames ((FrameDecoder.new tightConfig.decoder).pushAllUnlimited
        (FrameDecoder.losingReads 1 512)).1 = [largestFrame 0]) ∧
    (denseConfig.validate = .ok () ∧
      (∀ read ∈ [FrameDecoder.denseRead],
        1 ≤ read.length ∧ read.length ≤ denseConfig.readBufferSize) ∧
      frames ((FrameDecoder.new denseConfig.decoder).pushAll
        [FrameDecoder.denseRead]).1 = [] ∧
      frames ((FrameDecoder.new denseConfig.decoder).pushAllUnlimited
        [FrameDecoder.denseRead]).1 = [largestFrame 0]) := by
  have hrejected : ∀ count, frames (List.replicate count
      (.rejected (.checksum 2 1))) = [] := by
    intro count
    refine List.filterMap_eq_nil_iff.mpr ?_
    intro event hevent
    rw [List.eq_of_mem_replicate hevent]
    rfl
  have htight := @FrameDecoder.loses_largestFrame
    (FrameDecoder.new tightConfig.decoder) 512 rfl (by decide +kernel)
    (by decide +kernel) (by decide +kernel)
  have hminimum : (FrameDecoder.new
      tightConfig.decoder).limits.minimumPreambles = 1 := by
    decide +kernel
  rw [hminimum] at htight
  obtain ⟨hsizes, -, hbounded, hunlimited⟩ := htight
  have hbehind : ∀ count, frames (List.replicate count
      (.rejected (.checksum 2 1)) ++ [.frame (largestFrame 1)]) =
        [largestFrame 0] := by
    intro count
    have hframes := hrejected count
    unfold frames at hframes ⊢
    rw [List.filterMap_append, hframes]
    rfl
  have hdense : denseConfig.decoder = FrameDecoder.damagedLimits := rfl
  obtain ⟨hfull, hall⟩ := FrameDecoder.push_denseRead
  refine ⟨⟨by decide +kernel, hsizes, ?_, ?_⟩,
    ⟨by decide +kernel, ?_, ?_, ?_⟩⟩
  · rw [hbounded]
    rfl
  · rw [hunlimited]
    rfl
  · intro read hread
    rw [List.mem_singleton.mp hread, FrameDecoder.length_denseRead]
    decide
  · rw [hdense, hfull]
    exact hrejected _
  · rw [hdense, hall, hbehind]

end LinkConfig

end HartLink.Service
