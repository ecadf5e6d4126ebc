import HartLink.Wire.Capacity

/-!
# Events and the bytes they consume

The loops of the decoder once more, with the bytes that each event consumes.
Every frame event consumes a span whose parts are read as the frame, and
encoding the frame of a strict decoder gives this span back, apart from the
burst bit.
-/

namespace HartLink.Wire

open HartLink.Foundation

/-! ## The loops with their spans -/

namespace FrameDecoder

/-- The event of `next_event` and the bytes it consumes. -/
def nextSpanLoop : Nat → FrameDecoder → Option (Bytes × DecodeEvent)
  | 0, _ => none
  | fuel + 1, decoder =>
      match analyze decoder.bytes decoder.limits with
      | .noCandidate => none
      | .needMore => none
      | .discard count => nextSpanLoop fuel (decoder.discard count)
      | .rejected error consumed _ =>
          some (decoder.bytes.take consumed, .rejected error)
      | .frame frame consumed _ =>
          some (decoder.bytes.take consumed, .frame frame)

def nextSpan (decoder : FrameDecoder) : Option (Bytes × DecodeEvent) :=
  nextSpanLoop (decoder.bytes.length + 1) decoder

def collectSpans : Nat → FrameDecoder → List (Bytes × DecodeEvent)
  | 0, _ => []
  | room + 1, decoder =>
      match decoder.nextSpan with
      | none => []
      | some consumed => consumed :: collectSpans room decoder.nextEvent.2

def pushSpans (decoder : FrameDecoder) (fragment : Bytes) :
    List (Bytes × DecodeEvent) :=
  collectSpans maximumDecodeEventsPerPush (decoder.appendBounded fragment)

def pushAllSpans (decoder : FrameDecoder) :
    List Bytes → List (Bytes × DecodeEvent)
  | [] => []
  | fragment :: fragments =>
      decoder.pushSpans fragment ++
        pushAllSpans (decoder.push fragment).2 fragments

/-! The events are those of the decoder. -/

theorem map_nextSpanLoop (fuel : Nat) (decoder : FrameDecoder) :
    (nextSpanLoop fuel decoder).map Prod.snd =
      (nextEventLoop fuel decoder).1 := by
  induction fuel generalizing decoder with
  | zero => rfl
  | succ fuel ih =>
      simp only [nextSpanLoop, nextEventLoop]
      cases analyze decoder.bytes decoder.limits with
      | discard count => simp [ih]
      | _ => simp

theorem map_collectSpans (room : Nat) (decoder : FrameDecoder) :
    (collectSpans room decoder).map Prod.snd =
      (collectEvents room decoder).1 := by
  induction room generalizing decoder with
  | zero => rfl
  | succ room ih =>
      have hnext : decoder.nextSpan.map Prod.snd = decoder.nextEvent.1 :=
        map_nextSpanLoop _ decoder
      simp only [collectSpans, collectEvents]
      rcases hevent : decoder.nextEvent with ⟨event, next⟩
      rw [hevent] at hnext
      cases hspan : decoder.nextSpan with
      | none =>
          rw [hspan] at hnext
          subst hnext
          rfl
      | some consumed =>
          rw [hspan] at hnext
          subst hnext
          simp [ih]

theorem map_pushAllSpans (decoder : FrameDecoder) (fragments : List Bytes) :
    (decoder.pushAllSpans fragments).map Prod.snd =
      (decoder.pushAll fragments).1 := by
  induction fragments generalizing decoder with
  | nil => rfl
  | cons fragment fragments ih =>
      simp [pushAllSpans, pushAll, pushSpans, map_collectSpans, push_fst, ih]

end FrameDecoder

/-! ## What an event consumes -/

/-- A frame consumes a span that is read as it; rejections are for checksums. -/
inductive Consumes (limits : DecodeLimits) (span : Bytes) : DecodeEvent → Prop
  | frame {frame : Frame} {preambles : Nat} {parts : SpanParts}
      (hfits : parts.Fits limits preambles)
      (hreads : parts.Reads limits.checksumPolicy frame)
      (hpreambles : frame.preambles = UInt8.ofNat preambles)
      (hspan : span = parts.span preambles) :
      Consumes limits span (.frame frame)
  | rejected (expected actual : UInt8) :
      Consumes limits span (.rejected (.checksum expected actual))

namespace FrameDecoder

theorem nextSpanLoop_consumes {fuel : Nat} {decoder : FrameDecoder}
    {span : Bytes} {event : DecodeEvent}
    (h : nextSpanLoop fuel decoder = some (span, event)) :
    Consumes decoder.limits span event ∧ span <:+: decoder.bytes := by
  induction fuel generalizing decoder with
  | zero => contradiction
  | succ fuel ih =>
      have hdecision := judge_decision decoder.limits decoder.bytes
      generalize judge decoder.limits decoder.bytes = decided at hdecision
      cases hdecision with
      | idle hnone hlength =>
          simp [nextSpanLoop, analyze_of_none hnone] at h
      | noise hnone hlength =>
          simp [nextSpanLoop, analyze_of_none hnone] at h
      | incomplete hfound hend hanalyze =>
          simp [nextSpanLoop, hanalyze] at h
      | @discard index start count hfound hstart hanalyze =>
          simp only [nextSpanLoop, hanalyze] at h
          obtain ⟨hconsumes, hinfix⟩ := ih h
          exact ⟨hconsumes, hinfix.trans (List.drop_suffix _ _).isInfix⟩
      | rejected hfound hend hanalyze =>
          simp only [nextSpanLoop, hanalyze, Option.some.injEq,
            Prod.mk.injEq] at h
          obtain ⟨rfl, rfl⟩ := h
          exact ⟨.rejected .., (List.take_prefix _ _).isInfix⟩
      | frame hfound hend hanalyze =>
          simp only [nextSpanLoop, hanalyze, Option.some.injEq,
            Prod.mk.injEq] at h
          obtain ⟨rfl, rfl⟩ := h
          obtain ⟨preambles, parts, hfits, hreads, hpreambles, hspan⟩ :=
            SpanParts.exists_span_of_frame hanalyze
          exact ⟨.frame hfits hreads hpreambles hspan,
            (List.take_prefix _ _).isInfix⟩

/-- Looking for an event keeps the limits and an end of the buffer. -/
theorem nextEventLoop_suffix (fuel : Nat) (decoder : FrameDecoder) :
    (nextEventLoop fuel decoder).2.limits = decoder.limits ∧
      (nextEventLoop fuel decoder).2.bytes <:+ decoder.bytes := by
  induction fuel generalizing decoder with
  | zero => simp [nextEventLoop]
  | succ fuel ih =>
      simp only [nextEventLoop]
      cases analyze decoder.bytes decoder.limits with
      | noCandidate => exact ⟨rfl, List.drop_suffix _ _⟩
      | needMore => simp
      | discard count =>
          obtain ⟨hlimits, hsuffix⟩ := ih (decoder.discard count)
          exact ⟨hlimits, hsuffix.trans (List.drop_suffix _ _)⟩
      | rejected error consumed checksumFailure =>
          cases checksumFailure <;> exact ⟨rfl, List.drop_suffix _ _⟩
      | frame frame consumed repaired => exact ⟨rfl, List.drop_suffix _ _⟩

theorem collectEvents_suffix (room : Nat) (decoder : FrameDecoder) :
    (collectEvents room decoder).2.bytes <:+ decoder.bytes := by
  induction room generalizing decoder with
  | zero => exact List.suffix_refl _
  | succ room ih =>
      have hnext := (nextEventLoop_suffix (decoder.bytes.length + 1)
        decoder).2
      rw [← nextEvent] at hnext
      unfold collectEvents
      split
      next next hevent =>
        rw [hevent] at hnext
        exact hnext
      next event next hevent =>
        rw [hevent] at hnext
        exact (ih next).trans hnext

theorem push_suffix (decoder : FrameDecoder) (fragment : Bytes) :
    (decoder.push fragment).2.bytes <:+
      (decoder.appendBounded fragment).bytes := by
  have hcollect := collectEvents_suffix maximumDecodeEventsPerPush
    (decoder.appendBounded fragment)
  unfold push
  dsimp only
  split
  · exact (List.drop_suffix _ _).trans hcollect
  · exact hcollect

theorem collectSpans_consumes {room : Nat} {decoder : FrameDecoder}
    {span : Bytes} {event : DecodeEvent}
    (h : (span, event) ∈ collectSpans room decoder) :
    Consumes decoder.limits span event ∧ span <:+: decoder.bytes := by
  induction room generalizing decoder with
  | zero => simp [collectSpans] at h
  | succ room ih =>
      simp only [collectSpans] at h
      cases hspan : decoder.nextSpan with
      | none => simp [hspan] at h
      | some consumed =>
          simp only [hspan, List.mem_cons] at h
          rcases h with rfl | h
          · exact nextSpanLoop_consumes hspan
          · obtain ⟨hlimits, hsuffix⟩ :=
              nextEventLoop_suffix (decoder.bytes.length + 1) decoder
            rw [← nextEvent] at hlimits hsuffix
            obtain ⟨hconsumes, hinfix⟩ := ih h
            rw [hlimits] at hconsumes
            exact ⟨hconsumes, hinfix.trans hsuffix.isInfix⟩

theorem length_appendBounded_le (decoder : FrameDecoder) (fragment : Bytes) :
    (decoder.appendBounded fragment).bytes.length ≤
      decoder.limits.bufferCapacity := by
  rw [bytes_appendBounded, overflow, List.length_drop, List.length_append]
  omega

theorem pushAllSpans_consumes {decoder : FrameDecoder}
    {fragments : List Bytes} {span : Bytes} {event : DecodeEvent}
    (h : (span, event) ∈ decoder.pushAllSpans fragments) :
    Consumes decoder.limits span event ∧
      span.length ≤ decoder.limits.bufferCapacity := by
  induction fragments generalizing decoder with
  | nil => simp [pushAllSpans] at h
  | cons fragment fragments ih =>
      simp only [pushAllSpans, List.mem_append] at h
      rcases h with h | h
      · obtain ⟨hconsumes, hinfix⟩ := collectSpans_consumes h
        rw [limits_appendBounded] at hconsumes
        exact ⟨hconsumes, hinfix.length_le.trans
          (decoder.length_appendBounded_le fragment)⟩
      · have hlater := ih h
        rwa [limits_push] at hlater

end FrameDecoder

/-! ## Strict spans -/

theorem xorChecksum_cons (byte : UInt8) (bytes : Bytes) :
    xorChecksum (byte :: bytes) = byte ^^^ xorChecksum bytes := by
  have hfold : ∀ (rest : Bytes) (sum : UInt8),
      rest.foldl (fun sum byte => sum ^^^ byte) sum =
        sum ^^^ xorChecksum rest := by
    intro rest
    induction rest with
    | nil => simp [xorChecksum]
    | cons next rest ih =>
        intro sum
        rw [xorChecksum, List.foldl_cons, List.foldl_cons, ih, ih,
          UInt8.zero_xor, UInt8.xor_assoc]
  rw [xorChecksum, List.foldl_cons, hfold, UInt8.zero_xor]

theorem effectiveDelimiter_strict (byte : UInt8) :
    effectiveDelimiter .strict byte = (byte, none) := by
  simp [effectiveDelimiter, allowDelimiterRepair]

namespace SpanParts

theorem effective_strict (parts : SpanParts) :
    parts.effective .strict = parts.delimiter := by
  simp [effective, effectiveDelimiter_strict]

theorem acceptance_strict (parts : SpanParts) :
    parts.acceptance .strict =
      if xorChecksum parts.body = parts.checksum then some none
      else none := by
  simp [acceptance, effectiveDelimiter_strict, allowDelimiterRepair,
    shortAddressRepair]

theorem Reads.address_accepted {policy : ChecksumPolicy} {parts : SpanParts}
    {frame : Frame} (hreads : parts.Reads policy frame)
    (hsized : parts.Sized policy) :
    frame.address.Accepted ∧
      frame.address.encodedLen = parts.address.length := by
  obtain ⟨address, hok, haccepted, hencoded⟩ := Address.readFrom_ok
    (show parts.address.length =
      if isLong (parts.effective policy) then 5 else 1 from hsized.address)
  rw [hreads.address] at hok
  injection hok with hok
  subst hok
  exact ⟨haccepted, hencoded⟩

theorem Fits.toNat_ofNat {limits : DecodeLimits} {preambles : Nat}
    {parts : SpanParts} (h : parts.Fits limits preambles) :
    (UInt8.ofNat preambles).toNat = preambles := by
  have := h.most
  rw [UInt8.toNat_ofNat']
  omega

end SpanParts

theorem packed_of_fromDelimiter {delimiter : UInt8} {kind : FrameKind}
    (h : FrameKind.fromDelimiter delimiter = some kind) :
    kind.delimiterBase ||| (PhysicalLayer.fromDelimiter delimiter).delimiterBit
        ||| (if addressLen delimiter = 5 then (0x80 : UInt8) else 0) |||
        (UInt8.ofNat (expansionLen delimiter) <<< 5) = delimiter := by
  have hall : ∀ byte : UInt8, (FrameKind.fromDelimiter byte).all
      (fun kind => kind.delimiterBase |||
        (PhysicalLayer.fromDelimiter byte).delimiterBit |||
        (if addressLen byte = 5 then (0x80 : UInt8) else 0) |||
        (UInt8.ofNat (expansionLen byte) <<< 5) == byte) = true :=
    forall_byte (by decide +kernel)
  simpa [h] using hall delimiter

/--
The encoding of the frame is the span, except for bit `0x40` of the first
address byte and with it bit `0x40` of the checksum; the encoding has that
address bit exactly for bursts.
-/
def EncodesBack (frame : Frame) (span : Bytes) : Prop :=
  ∃ (delimiter first : UInt8) (rest : Bytes) (checksum flipped : UInt8),
    (flipped = 0 ∨ flipped = 0x40) ∧
    (first ^^^ flipped) &&& 0x40 =
      Address.burstBit (frame.kind = .burst) ∧
    span = List.replicate frame.preambles.toNat 0xff ++
      delimiter :: first :: (rest ++ [checksum]) ∧
    frame.encode = .ok (List.replicate frame.preambles.toNat 0xff ++
      delimiter :: (first ^^^ flipped) :: (rest ++ [checksum ^^^ flipped]))

theorem withBurstBit_eq_xor (first : UInt8) (burst : Bool) :
    ∃ flipped : UInt8, (flipped = 0 ∨ flipped = 0x40) ∧
      Address.withBurstBit first burst = first ^^^ flipped ∧
      (first ^^^ flipped) &&& 0x40 = Address.burstBit burst := by
  refine ⟨first ^^^ Address.withBurstBit first burst, ?_, ?_, ?_⟩
  · revert first
    cases burst <;> exact forall_byte (by decide +kernel)
  · rw [← UInt8.xor_assoc, UInt8.xor_self, UInt8.zero_xor]
  · revert first
    cases burst <;> exact forall_byte (by decide +kernel)

theorem SpanParts.Reads.encodesBack {parts : SpanParts} {frame : Frame}
    {preambles : Nat} (hreads : parts.Reads .strict frame)
    (hsized : parts.Sized .strict)
    (hcount : frame.preambles.toNat = preambles) :
    EncodesBack frame (parts.span preambles) := by
  have hlength := hsized.address
  have hexpansion := hsized.expansion
  have hencoded := (hreads.address_accepted hsized).2
  obtain ⟨hkind, hlayer, hread, hexpansionEq, hcommand, hpayload, hrepair⟩ :=
    hreads
  rw [SpanParts.effective_strict] at hkind hlayer hread hlength hexpansion
  obtain ⟨first, rest, haddress⟩ := List.exists_cons_of_length_pos
    (show 0 < parts.address.length by
      rw [hlength]
      exact addressLen_pos _)
  have hwrite := Address.writeTo_readFrom (frame.kind = .burst)
    (show (first :: rest).length = if isLong parts.delimiter then 5 else 1 by
      rw [← haddress]
      exact hlength) (haddress ▸ hread)
  obtain ⟨flipped, hflipped, hbit, hburst⟩ :=
    withBurstBit_eq_xor first (frame.kind = .burst)
  have hpacked : frame.packedDelimiter = parts.delimiter := by
    rw [Frame.packedDelimiter, Frame.longBit, hencoded, hlayer, hexpansionEq,
      hlength, hexpansion]
    exact packed_of_fromDelimiter hkind
  have hsum : xorChecksum parts.body = parts.checksum := by
    rw [SpanParts.acceptance_strict] at hrepair
    by_contra hmismatch
    simp [hmismatch] at hrepair
  let fields : Bytes := rest ++ parts.expansion ++
    parts.command :: UInt8.ofNat parts.payload.length :: parts.payload
  have hparts : parts.body = parts.delimiter :: first :: fields := by
    simp [SpanParts.body, haddress, fields]
  have hframe : frame.body =
      parts.delimiter :: (first ^^^ flipped) :: fields := by
    simp [Frame.body, hpacked, hwrite, hbit, hexpansionEq, hcommand, hpayload,
      fields]
  have hchecksum : xorChecksum frame.body = parts.checksum ^^^ flipped := by
    rw [← hsum, hframe, hparts]
    simp only [xorChecksum_cons]
    ac_rfl
  have hshort : parts.expansion.length ≤ 3 := by
    rw [hexpansion]
    exact expansionLen_le _
  refine ⟨parts.delimiter, first, fields, parts.checksum, flipped, hflipped,
    hburst, ?_, ?_⟩
  · rw [hcount, SpanParts.span, SpanParts.behind, hparts]
    rfl
  · rw [Frame.encode, hexpansionEq, hpayload,
      if_neg (Nat.not_lt.mpr hshort),
      if_neg (Nat.not_lt.mpr hsized.payload), hchecksum, hframe]
    rfl

theorem EncodesBack.length {frame : Frame} {span bytes : Bytes}
    (h : EncodesBack frame span) (hencode : frame.encode = .ok bytes) :
    bytes.length = span.length := by
  obtain ⟨delimiter, first, rest, checksum, flipped, -, -, hspan, hok⟩ := h
  rw [hencode] at hok
  injection hok with hok
  rw [hok, hspan]
  simp

namespace FrameDecoder

/--
Encoding undoes strict decoding: whatever bytes arrive, every frame of a strict
decoder encodes back to the span it was read from, apart from the burst bit.
Under every policy, rejections are for checksums only.
-/
theorem strict_frames_encode_back (limits : DecodeLimits)
    (fragments : List Bytes) :
    ((new limits).pushAllSpans fragments).map Prod.snd =
        ((new limits).pushAll fragments).1 ∧
      (limits.checksumPolicy = .strict → ∀ span frame,
        (span, DecodeEvent.frame frame) ∈
            (new limits).pushAllSpans fragments →
          frame.address.Accepted ∧ EncodesBack frame span ∧
          ∃ bytes, frame.encode = .ok bytes ∧ bytes.length = span.length) ∧
      ∀ error, DecodeEvent.rejected error ∈
          ((new limits).pushAll fragments).1 →
        ∃ expected actual, error = .checksum expected actual := by
  have hevents := map_pushAllSpans (new limits) fragments
  refine ⟨hevents, ?_, ?_⟩
  · intro hstrict span frame hmem
    obtain ⟨hconsumes, -⟩ := pushAllSpans_consumes hmem
    have hpolicy : (new limits).limits.checksumPolicy = .strict := hstrict
    cases hconsumes with
    | @frame _ preambles parts hfits hreads hpreambles hspan =>
        have hsized := hfits.sized
        rw [hpolicy] at hsized hreads
        have hback := hreads.encodesBack hsized
          ((congrArg UInt8.toNat hpreambles).trans hfits.toNat_ofNat)
        rw [hspan]
        refine ⟨(hreads.address_accepted hsized).1, hback, ?_⟩
        obtain ⟨_, _, _, _, _, _, _, _, hencode⟩ := id hback
        exact ⟨_, hencode, hback.length hencode⟩
  · intro error hmem
    rw [← hevents, List.mem_map] at hmem
    obtain ⟨⟨span, event⟩, hspan, rfl⟩ := hmem
    obtain ⟨hconsumes, -⟩ := pushAllSpans_consumes hspan
    cases hconsumes with
    | rejected expected actual => exact ⟨expected, actual, rfl⟩

/-- A response whose sender has set the burst bit, behind line noise. -/
def markedResponse : Bytes :=
  [0x00, 0xff, 0xff, 0x06, 0xc1, 0x00, 0x02, 0x00, 0x00, 0xc5]

theorem strict_frames_encode_back_marked :
    ∃ frame, (markedResponse.drop 1, DecodeEvent.frame frame) ∈
        (new ⟨64, 2, .strict⟩).pushAllSpans [markedResponse] ∧
      frame.address.Accepted ∧ EncodesBack frame (markedResponse.drop 1) := by
  have hmem : (markedResponse.drop 1, DecodeEvent.frame
      { preambles := 2, kind := .response, physicalLayer := .fsk
        address := .Polling 1 .primary, expansion := [], wireCommand := 0
        payload := [0, 0], repair := none }) ∈
      (new ⟨64, 2, .strict⟩).pushAllSpans [markedResponse] := by
    decide +kernel
  have hback := (strict_frames_encode_back ⟨64, 2, .strict⟩
    [markedResponse]).2.1 rfl _ _ hmem
  exact ⟨_, hmem, hback.1, hback.2.1⟩

end FrameDecoder

end HartLink.Wire
