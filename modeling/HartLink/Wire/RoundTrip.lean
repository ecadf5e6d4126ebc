import HartLink.Wire.Anatomy
import HartLink.Wire.Fragmentation

/-!
# Decoding what the encoder writes

`analyzeCandidate_framed` reads a frame back from its body and checksum behind
any leading bytes.  It gives the round trip of whole streams here, and later the
resynchronisation results, where the leading bytes are not the frame's own
preambles alone.
-/

namespace HartLink.Wire

open HartLink.Foundation

/-! ## Frames that the encoder accepts -/

namespace Frame

/-- The fields fit their wire encoding and carry no repair mark. -/
structure Encodable (frame : Frame) : Prop where
  address : frame.address.Accepted
  expansion : frame.expansion.length ≤ 3
  payload : frame.payload.length ≤ 255
  repair : frame.repair = none

def encoding (frame : Frame) : Bytes :=
  List.replicate frame.preambles.toNat 0xff ++
    (frame.body ++ [xorChecksum frame.body])

theorem encode_eq {frame : Frame} (h : frame.Encodable) :
    frame.encode = .ok frame.encoding := by
  have hexpansion := h.expansion
  have hpayload := h.payload
  simp [encode, encoding, Nat.not_lt.mpr hexpansion, Nat.not_lt.mpr hpayload]

theorem packedDelimiter_fields {frame : Frame}
    (h : frame.expansion.length ≤ 3) :
    FrameKind.fromDelimiter frame.packedDelimiter = some frame.kind ∧
      PhysicalLayer.fromDelimiter frame.packedDelimiter =
        frame.physicalLayer ∧
      isLong frame.packedDelimiter = (frame.address.encodedLen == 5) ∧
      expansionLen frame.packedDelimiter = frame.expansion.length := by
  have haddress : frame.address.encodedLen = 1 ∨
      frame.address.encodedLen = 5 := by
    cases frame.address
    · exact .inl rfl
    · exact .inr rfl
  unfold packedDelimiter longBit
  generalize frame.expansion.length = length at h ⊢
  -- Only the 48 combinations of the packed fields matter.
  rcases haddress with hshort | hlong
  · rw [hshort]
    cases frame.kind <;> cases frame.physicalLayer <;>
      interval_cases length <;> decide
  · rw [hlong]
    cases frame.kind <;> cases frame.physicalLayer <;>
      interval_cases length <;> decide

theorem length_body (frame : Frame) :
    frame.body.length = frame.address.encodedLen + frame.expansion.length +
      frame.payload.length + 3 := by
  simp only [body, List.length_cons, List.length_append,
    Address.length_writeTo]
  omega

theorem length_encoding (frame : Frame) :
    frame.encoding.length =
      frame.preambles.toNat + (frame.body.length + 1) := by
  simp [encoding]

end Frame

theorem addressLen_packedDelimiter {frame : Frame}
    (h : frame.expansion.length ≤ 3) :
    addressLen frame.packedDelimiter = frame.address.encodedLen := by
  rw [addressLen, (Frame.packedDelimiter_fields h).2.2.1]
  cases frame.address <;> rfl

/-! ## Equal encodings -/

theorem ne_preamble_of_fromDelimiter {delimiter : UInt8} {kind : FrameKind}
    (h : FrameKind.fromDelimiter delimiter = some kind) :
    delimiter ≠ 0xff := by
  intro hpreamble
  have hnone : FrameKind.fromDelimiter 0xff = none := by decide
  rw [hpreamble, hnone] at h
  contradiction

theorem packedDelimiter_ne_preamble {frame : Frame}
    (h : frame.expansion.length ≤ 3) : frame.packedDelimiter ≠ 0xff :=
  ne_preamble_of_fromDelimiter (Frame.packedDelimiter_fields h).1

theorem replicate_append_inj {first second : Nat} {byte head head' : UInt8}
    {tail tail' : Bytes} (hhead : head ≠ byte) (hhead' : head' ≠ byte)
    (h : List.replicate first byte ++ head :: tail =
      List.replicate second byte ++ head' :: tail') :
    head = head' ∧ tail = tail' := by
  induction first generalizing second with
  | zero =>
      cases second with
      | zero => simpa using h
      | succ second =>
          simp only [List.replicate_zero, List.nil_append,
            List.replicate_succ, List.cons_append, List.cons.injEq] at h
          exact absurd h.1 hhead
  | succ first ih =>
      cases second with
      | zero =>
          simp only [List.replicate_zero, List.nil_append,
            List.replicate_succ, List.cons_append, List.cons.injEq] at h
          exact absurd h.1.symm hhead'
      | succ second =>
          simp only [List.replicate_succ, List.cons_append,
            List.cons.injEq, true_and] at h
          exact ih h

theorem encoding_inj {first second : Frame}
    (hfirst : first.expansion.length ≤ 3)
    (hsecond : second.expansion.length ≤ 3)
    (h : first.encoding = second.encoding) :
    first.wireCommand = second.wireCommand ∧
      first.payload = second.payload := by
  simp only [Frame.encoding, Frame.body, List.cons_append] at h
  obtain ⟨hdelimiter, hrest⟩ := replicate_append_inj
    (packedDelimiter_ne_preamble hfirst)
    (packedDelimiter_ne_preamble hsecond) h
  have haddress : first.address.encodedLen = second.address.encodedLen := by
    rw [← addressLen_packedDelimiter hfirst, hdelimiter,
      addressLen_packedDelimiter hsecond]
  have hexpansion : first.expansion.length = second.expansion.length := by
    rw [← (Frame.packedDelimiter_fields hfirst).2.2.2, hdelimiter,
      (Frame.packedDelimiter_fields hsecond).2.2.2]
  simp only [List.append_assoc] at hrest
  have hbehind := List.append_inj_right hrest
    (by rw [Address.length_writeTo, Address.length_writeTo, haddress])
  have hheader := List.append_inj_right hbehind hexpansion
  simp only [List.cons_append, List.cons.injEq] at hheader
  obtain ⟨hcommand, -, hpayload⟩ := hheader
  exact ⟨hcommand, List.append_inj_left' hpayload rfl⟩

/-! ## Reading a body back -/

section Body

variable (limits : DecodeLimits) {frame : Frame} (front rest : Bytes)

def framed (front : Bytes) (frame : Frame) (rest : Bytes) : Bytes :=
  front ++ (frame.body ++ xorChecksum frame.body :: rest)

theorem isPossibleDelimiter_packed (policy : ChecksumPolicy)
    (h : frame.Encodable) :
    isPossibleDelimiter frame.packedDelimiter policy = true := by
  simp [isPossibleDelimiter, (Frame.packedDelimiter_fields h.expansion).1]

def Frame.parts (frame : Frame) : SpanParts :=
  { delimiter := frame.packedDelimiter
    address := frame.address.writeTo (frame.kind = .burst)
    expansion := frame.expansion
    command := frame.wireCommand
    payload := frame.payload
    checksum := xorChecksum frame.body }

theorem body_parts (frame : Frame) : frame.parts.body = frame.body := rfl

theorem framed_eq_behind :
    framed front frame rest = SpanParts.behind front frame.parts rest := rfl

theorem effectiveDelimiter_packed (policy : ChecksumPolicy)
    (h : frame.Encodable) :
    effectiveDelimiter policy frame.packedDelimiter =
      (frame.packedDelimiter, none) := by
  simp [effectiveDelimiter, (Frame.packedDelimiter_fields h.expansion).1]

theorem sized_parts (policy : ChecksumPolicy) (h : frame.Encodable) :
    frame.parts.Sized policy := by
  refine ⟨isPossibleDelimiter_packed policy h, ?_, ?_, h.payload⟩
  · simp [SpanParts.effective, Frame.parts, effectiveDelimiter_packed policy h,
      addressLen_packedDelimiter h.expansion, Address.length_writeTo]
  · simp [SpanParts.effective, Frame.parts, effectiveDelimiter_packed policy h,
      (Frame.packedDelimiter_fields h.expansion).2.2.2]

theorem reads_parts (policy : ChecksumPolicy) (h : frame.Encodable) :
    frame.parts.Reads policy frame := by
  obtain ⟨hkind, hlayer, hlong, -⟩ :=
    Frame.packedDelimiter_fields h.expansion
  have heffective : frame.parts.effective policy = frame.packedDelimiter := by
    simp [SpanParts.effective, Frame.parts, effectiveDelimiter_packed policy h]
  refine ⟨?_, ?_, ?_, rfl, rfl, rfl, ?_⟩
  · rw [heffective, hkind]
  · rw [heffective, hlayer]
  · rw [heffective, hlong]
    exact Address.readFrom_writeTo _ h.address
  · have hmatch : xorChecksum frame.parts.body = frame.parts.checksum := rfl
    have hrepair : (effectiveDelimiter policy frame.parts.delimiter).2 =
        none := by
      simp [Frame.parts, effectiveDelimiter_packed policy h]
    rw [SpanParts.acceptance, if_pos hmatch, hrepair, h.repair]

theorem declaredEnd_framed (h : frame.Encodable) :
    declaredEnd limits (framed front frame rest) front.length =
      front.length + frame.body.length + 1 := by
  rw [framed_eq_behind, SpanParts.declaredEnd_behind limits front rest
    (sized_parts limits.checksumPolicy h), body_parts]

theorem analyzeCandidate_framed (h : frame.Encodable) {count : Nat}
    (hcount : count ≤ 255) :
    analyzeCandidate limits (framed front frame rest) front.length count =
      .frame { frame with preambles := UInt8.ofNat count }
        (front.length + frame.body.length + 1) false := by
  have hreads := reads_parts limits.checksumPolicy h
  rcases SpanParts.analyzeCandidate_behind limits front rest
    (sized_parts limits.checksumPolicy h) hcount with
    ⟨hnone, -⟩ | ⟨found, hfound, hpreambles, hanalyze⟩
  · rw [hreads.repair] at hnone
    contradiction
  · have hsame : found = { frame with preambles := UInt8.ofNat count } :=
      hfound.unique
        ⟨hreads.kind, hreads.physicalLayer, hreads.address, rfl, rfl, rfl,
          hreads.repair⟩ hpreambles
    rw [framed_eq_behind, hanalyze, hsame]
    simp only [h.repair]
    rfl

theorem candidate_framed (h : frame.Encodable)
    (hrun : limits.minimumPreambles.toNat ≤ trailingCount isPreamble front) :
    Candidate limits (framed front frame rest) front.length := by
  refine ⟨frame.packedDelimiter, ?_, isPossibleDelimiter_packed _ h, ?_⟩
  · simp [framed, Frame.body]
  · simpa [preambleRun, framed] using hrun

end Body

/-! ## Whole streams -/

theorem encoding_append (frame : Frame) (rest : Bytes) :
    frame.encoding ++ rest =
      framed (List.replicate frame.preambles.toNat 0xff) frame rest := by
  simp [Frame.encoding, framed]

theorem encoding_eq_span (frame : Frame) :
    frame.encoding = frame.parts.span frame.preambles.toNat := rfl

theorem findCandidate_encoding {limits : DecodeLimits} {frame : Frame}
    (h : frame.Encodable)
    (hpreambles : limits.minimumPreambles ≤ frame.preambles) (rest : Bytes) :
    findCandidate (frame.encoding ++ rest) limits =
      some (frame.preambles.toNat, 0, frame.preambles.toNat) := by
  have hlt := frame.preambles.toNat_lt
  have hfits : frame.parts.Fits limits frame.preambles.toNat :=
    ⟨sized_parts _ h, UInt8.le_iff_toNat_le.mp hpreambles, by omega⟩
  rw [encoding_eq_span]
  exact hfits.findCandidate rest

theorem judge_encoding {limits : DecodeLimits} {frame : Frame}
    (h : frame.Encodable)
    (hpreambles : limits.minimumPreambles ≤ frame.preambles) (rest : Bytes) :
    judge limits (frame.encoding ++ rest) =
      .emit (.frame frame) frame.encoding.length := by
  have hfound := findCandidate_encoding h hpreambles rest
  have hlt := frame.preambles.toNat_lt
  have hend : declaredEnd limits (frame.encoding ++ rest)
      frame.preambles.toNat = frame.encoding.length := by
    have := declaredEnd_framed limits
      (List.replicate frame.preambles.toNat 0xff) rest h
    rw [List.length_replicate, ← encoding_append] at this
    rw [this, Frame.length_encoding]
    omega
  have hanalyze : analyze (frame.encoding ++ rest) limits =
      .frame frame frame.encoding.length false := by
    rw [analyze_of_some hfound, if_neg (lt_irrefl 0), hend,
      if_neg (by rw [List.length_append]; omega)]
    have := analyzeCandidate_framed limits
      (List.replicate frame.preambles.toNat 0xff) rest h
      (show frame.preambles.toNat ≤ 255 by omega)
    rw [List.length_replicate, ← encoding_append, UInt8.ofNat_toNat] at this
    rw [this, Frame.length_encoding]
    congr 1
  simp only [judge, hanalyze]

/-- The scanner emits a stream of encodings frame by frame. -/
theorem scan_encodings {limits : DecodeLimits} (frames : List Frame)
    (hframes : ∀ frame ∈ frames,
      frame.Encodable ∧ limits.minimumPreambles ≤ frame.preambles)
    (events : List DecodeEvent) (statistics : DecodeStatistics) :
    ∃ final : DecodeStatistics,
      (frameScanner limits).scan decodeObserver
        (frames.map Frame.encoding).flatten (events, statistics) =
        ([], events ++ frames.map .frame, final) ∧
      final.discardedBytes = statistics.discardedBytes := by
  induction frames generalizing events statistics with
  | nil =>
      refine ⟨statistics, ?_, rfl⟩
      simpa using (frameScanner limits).scan_wait decodeObserver
        (events, statistics) (frameScanner limits).judge_nil
  | cons frame frames ih =>
      obtain ⟨hencodable, hpreambles⟩ := hframes frame (by simp)
      have hjudge := judge_encoding hencodable hpreambles
        (frames.map Frame.encoding).flatten
      obtain ⟨final, hscan, hdiscarded⟩ := ih
        (fun other hother => hframes other (by simp [hother]))
        (events ++ [.frame frame])
        (statistics.noteEvent (.frame frame) frame.encoding.length)
      refine ⟨final, ?_, hdiscarded⟩
      rw [List.map_cons, List.flatten_cons,
        (frameScanner limits).scan_emit decodeObserver _ hjudge,
        List.drop_left]
      exact hscan.trans (by simp)

theorem mapM_encode {frames : List Frame}
    (hframes : ∀ frame ∈ frames, frame.Encodable) :
    frames.mapM Frame.encode = .ok (frames.map Frame.encoding) := by
  induction frames with
  | nil => rfl
  | cons frame frames ih =>
      rw [List.mapM_cons, Frame.encode_eq (hframes frame (by simp)),
        ih (fun other hother => hframes other (by simp [hother]))]
      rfl

theorem length_encodings_le {frames : List Frame}
    (hframes : ∀ frame ∈ frames, frame.Encodable) :
    (frames.map Frame.encoding).flatten.length ≤ 522 * frames.length := by
  induction frames with
  | nil => simp
  | cons frame frames ih =>
      have hfirst := hframes frame (by simp)
      have haddress : frame.address.encodedLen ≤ 5 := by
        cases frame.address <;> simp [Address.encodedLen]
      have hlater := ih (fun other hother => hframes other (by simp [hother]))
      have hpreambles := frame.preambles.toNat_lt
      have hexpansion := hfirst.expansion
      have hpayload := hfirst.payload
      rw [List.map_cons, List.flatten_cons, List.length_append,
        Frame.length_encoding, Frame.length_body, List.length_cons]
      omega

namespace FrameDecoder

/--
Decoding undoes encoding on whole streams: every frame is encoded, and a fresh
decoder gives the frames back in order, keeps nothing and discards nothing.
-/
theorem push_encode_stream (limits : DecodeLimits) (frames : List Frame)
    (hcount : frames.length < maximumDecodeEventsPerPush)
    (hframes : ∀ frame ∈ frames, frame.Encodable ∧
      (effectiveLimits limits).minimumPreambles ≤ frame.preambles) :
    ∃ encodings, frames.mapM Frame.encode = .ok encodings ∧
      (encodings.flatten.length ≤ limits.bufferCapacity →
        ((new limits).push encodings.flatten).1 = frames.map .frame ∧
        ((new limits).push encodings.flatten).2.bytes = [] ∧
        ((new limits).push encodings.flatten).2.statistics.discardedBytes =
          0) := by
  have hencodable : ∀ frame ∈ frames, frame.Encodable :=
    fun frame hframe => (hframes frame hframe).1
  refine ⟨_, mapM_encode hencodable, ?_⟩
  intro hcapacity
  have hlength := length_encodings_le hencodable
  have hfits : (new limits).bytes.length +
      (frames.map Frame.encoding).flatten.length ≤
      (new limits).limits.bufferCapacity := by
    simp only [new, effectiveLimits, List.length_nil,
      maximumDecodeBufferCapacity]
    unfold maximumDecodeEventsPerPush at hcount
    omega
  obtain ⟨final, hscan, hdiscarded⟩ := scan_encodings frames hframes [] {}
  have hscan : (new limits).scanPush (frames.map Frame.encoding).flatten =
      ([], frames.map .frame, final) := hscan
  rw [push_eq_of_fits hfits (by simpa [hscan] using hcount), afterScan, hscan]
  exact ⟨rfl, rfl, hdiscarded⟩

/--
A long-address burst whose payload imitates a preamble and a delimiter, and a
short request whose checksum is itself `0xff`.
-/
def sampleFrames : List Frame :=
  [{ preambles := 2, kind := .burst, physicalLayer := .psk
     address := .Unique 0x3fff 0x123456 .primary, expansion := [0xff]
     wireCommand := 1, payload := [0xff, 0xff, 0x02], repair := none },
   { preambles := 3, kind := .request, physicalLayer := .fsk
     address := .Polling 0 .primary, expansion := [], wireCommand := 0x7d
     payload := [], repair := none }]

theorem sampleFrames_encodable :
    ∀ frame ∈ sampleFrames, frame.Encodable ∧
      (effectiveLimits ⟨32, 2, .knownGateway true (some 1)⟩).minimumPreambles ≤
        frame.preambles := by
  intro frame hframe
  simp only [sampleFrames, List.mem_cons, List.not_mem_nil, or_false] at hframe
  rcases hframe with rfl | rfl
  · refine ⟨⟨.inr ⟨0x3fff, 0x123456, .primary, rfl⟩, ?_, ?_, rfl⟩, ?_⟩ <;>
      decide
  · refine ⟨⟨.inl ⟨0, .primary, rfl⟩, ?_, ?_, rfl⟩, ?_⟩ <;> decide

theorem push_encode_stream_sample :
    ∃ encodings, sampleFrames.mapM Frame.encode = .ok encodings ∧
      ((new ⟨32, 2, .knownGateway true (some 1)⟩).push encodings.flatten).1 =
        sampleFrames.map .frame := by
  obtain ⟨encodings, hencode, hpush⟩ := push_encode_stream
    ⟨32, 2, .knownGateway true (some 1)⟩ sampleFrames (by decide)
    sampleFrames_encodable
  have hlength : encodings.flatten.length = 23 := by
    have hcomputed : sampleFrames.mapM Frame.encode =
        .ok (sampleFrames.map Frame.encoding) := by decide +kernel
    rw [hcomputed, Except.ok.injEq] at hencode
    rw [← hencode]
    decide +kernel
  exact ⟨encodings, hencode, (hpush (by rw [hlength]; decide)).1⟩

end FrameDecoder

end HartLink.Wire
