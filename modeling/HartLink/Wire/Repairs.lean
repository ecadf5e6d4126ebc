import HartLink.Wire.Spans

/-!
# Repairs and the distortions they report

Under a known-gateway policy the decoder accepts spans that a strict decoder
rejects, and names one distortion of each.  `Explained` says that undoing this
distortion gives a span which a strict decoder accepts.  It fails exactly for
spans with an altered delimiter whose checksum is also wrong in other bits: the
address repair then replaces the report of the delimiter repair.
-/

namespace HartLink.Wire

open HartLink.Foundation

/-! ## Strict acceptance -/

def strictly (limits : DecodeLimits) : DecodeLimits :=
  { limits with checksumPolicy := .strict }

def StrictAccepts (limits : DecodeLimits) (span : Bytes)
    (frame : Frame) : Prop :=
  (FrameDecoder.new (strictly limits)).pushSpans span =
    [(span, .frame frame)]

theorem SpanParts.Fits.pushSpans {limits : DecodeLimits} {preambles : Nat}
    {parts : SpanParts} {frame : Frame}
    (hfits : parts.Fits (FrameDecoder.effectiveLimits limits) preambles)
    (hreads : parts.Reads limits.checksumPolicy frame)
    (hcount : frame.preambles = UInt8.ofNat preambles)
    (hcapacity : (parts.span preambles).length ≤
      (FrameDecoder.effectiveLimits limits).bufferCapacity) :
    (FrameDecoder.new limits).pushSpans (parts.span preambles) =
      [(parts.span preambles, .frame frame)] := by
  let start := (FrameDecoder.new limits).appendBounded (parts.span preambles)
  have hbytes : start.bytes = parts.span preambles := by
    have hoverflow : (FrameDecoder.new limits).overflow
        (parts.span preambles) = 0 := by
      simpa [FrameDecoder.overflow, FrameDecoder.new] using
        Nat.sub_eq_zero_of_le hcapacity
    rw [FrameDecoder.bytes_appendBounded, hoverflow]
    simp [FrameDecoder.new]
  have hlimits : start.limits = FrameDecoder.effectiveLimits limits :=
    FrameDecoder.limits_appendBounded ..
  have hanalyze : Wire.analyze start.bytes start.limits =
      .frame frame (parts.span preambles).length frame.repair.isSome := by
    rw [hbytes, hlimits]
    rcases hfits.analyze [] with ⟨hnone, -⟩ | ⟨found, hfound, hfirst, hframe⟩
    · have haccepted := hreads.repair
      rw [show parts.acceptance limits.checksumPolicy = none from hnone]
        at haccepted
      contradiction
    · rw [hreads.unique hfound (hcount.trans hfirst.symm)]
      simpa using hframe
  have hnext : start.nextSpan = some (parts.span preambles, .frame frame) := by
    simp only [FrameDecoder.nextSpan, FrameDecoder.nextSpanLoop, hanalyze]
    rw [hbytes, List.take_length]
  have hempty : start.nextEvent.2.bytes = [] := by
    simp only [FrameDecoder.nextEvent, FrameDecoder.nextEventLoop, hanalyze,
      FrameDecoder.takeFrame]
    rw [hbytes, List.drop_length]
  have hstop : start.nextEvent.2.nextSpan = none := by
    simp [FrameDecoder.nextSpan, FrameDecoder.nextSpanLoop, hempty,
      Wire.analyze, Wire.findCandidate]
  change FrameDecoder.collectSpans (4094 + 1 + 1) start = _
  simp only [FrameDecoder.collectSpans, hnext, hstop]

theorem StrictAccepts.known {limits : DecodeLimits} {preambles : Nat}
    {parts : SpanParts} {frame : Frame}
    (h : StrictAccepts limits (parts.span preambles) frame)
    (hne : parts.delimiter ≠ 0xff) :
    (FrameKind.fromDelimiter parts.delimiter).isSome = true := by
  have hmem : (parts.span preambles, DecodeEvent.frame frame) ∈
      (FrameDecoder.new (strictly limits)).pushSpans
        (parts.span preambles) := by
    rw [h]
    simp
  obtain ⟨hconsumes, -⟩ := FrameDecoder.collectSpans_consumes hmem
  rw [FrameDecoder.limits_appendBounded] at hconsumes
  cases hconsumes with
  | @frame _ found accepted hfits hreads hcount hspan =>
      have hkind := hreads.kind
      rw [show (FrameDecoder.new (strictly limits)).limits.checksumPolicy =
        .strict from rfl, SpanParts.effective_strict] at hkind
      simp only [SpanParts.span, SpanParts.behind, SpanParts.body,
        List.cons_append] at hspan
      rw [(replicate_append_inj hne
        (ne_preamble_of_fromDelimiter hkind) hspan).1, hkind]
      rfl

/-! ## Undoing a distortion -/

theorem modify_length (front back : Bytes) (byte : UInt8)
    (edit : UInt8 → UInt8) :
    (front ++ byte :: back).modify front.length edit =
      front ++ edit byte :: back := by
  induction front with
  | nil => simp
  | cons first front ih => simpa using ih

namespace SpanParts

theorem modify_delimiter (parts : SpanParts) (preambles : Nat)
    (edit : UInt8 → UInt8) :
    (parts.span preambles).modify preambles edit =
      { parts with delimiter := edit parts.delimiter }.span preambles := by
  have h := modify_length (List.replicate preambles 0xff)
    (parts.address ++ parts.expansion ++ parts.command ::
      UInt8.ofNat parts.payload.length :: parts.payload ++ [parts.checksum])
    parts.delimiter edit
  rw [List.length_replicate] at h
  simpa [span, behind, body] using h

theorem modify_checksum (parts : SpanParts) {preambles last : Nat}
    (edit : UInt8 → UInt8) (hlast : last = preambles + parts.body.length) :
    (parts.span preambles).modify last edit =
      { parts with checksum := edit parts.checksum }.span preambles := by
  have h := modify_length (List.replicate preambles 0xff ++ parts.body) []
    parts.checksum edit
  rw [List.length_append, List.length_replicate] at h
  rw [hlast]
  simpa [span, behind, body] using h

theorem modify_address {parts : SpanParts} {first : UInt8}
    (haddress : parts.address = [first]) (preambles : Nat)
    (edit : UInt8 → UInt8) :
    (parts.span preambles).modify (preambles + 1) edit =
      { parts with address := [edit first] }.span preambles := by
  have h := modify_length
    (List.replicate preambles 0xff ++ [parts.delimiter])
    (parts.expansion ++ parts.command ::
      UInt8.ofNat parts.payload.length :: parts.payload ++ [parts.checksum])
    first edit
  rw [List.length_append, List.length_replicate] at h
  simpa [span, behind, body, haddress] using h

def restored (policy : ChecksumPolicy) (parts : SpanParts) (address : Bytes)
    (checksum : UInt8) : SpanParts :=
  { parts with delimiter := parts.effective policy, address, checksum }

theorem length_span_restored (policy : ChecksumPolicy) {parts : SpanParts}
    {address : Bytes} (checksum : UInt8) (preambles : Nat)
    (h : address.length = parts.address.length) :
    ((parts.restored policy address checksum).span preambles).length =
      (parts.span preambles).length := by
  rw [length_span, length_span, length_body, length_body]
  simp [restored, h]

theorem strictAccepts_restored {limits : DecodeLimits} {preambles : Nat}
    {parts : SpanParts} {frame : Frame} {address : Bytes}
    {read : Address} (checksum : UInt8)
    (hfits : parts.Fits (FrameDecoder.effectiveLimits limits) preambles)
    (hreads : parts.Reads limits.checksumPolicy frame)
    (hcount : frame.preambles = UInt8.ofNat preambles)
    (hcapacity : (parts.span preambles).length ≤
      (FrameDecoder.effectiveLimits limits).bufferCapacity)
    (hlength : address.length = parts.address.length)
    (hread : Address.readFrom address
      (isLong (parts.effective limits.checksumPolicy)) = .ok read)
    (hsum : xorChecksum (parts.restored limits.checksumPolicy address
      checksum).body = checksum) :
    StrictAccepts limits ((parts.restored limits.checksumPolicy address
      checksum).span preambles)
      { frame with address := read, repair := none } := by
  have hsized := hfits.sized
  obtain ⟨hkind, hlayer, -, hexpansion, hcommand, hpayload, -⟩ := hreads
  apply Fits.pushSpans
  · refine ⟨⟨?_, ?_, ?_, hsized.payload⟩, hfits.least, hfits.most⟩
    · simp [isPossibleDelimiter, restored, hkind]
    · rw [show (FrameDecoder.effectiveLimits
        (strictly limits)).checksumPolicy = .strict from rfl,
        effective_strict]
      exact hlength.trans hsized.address
    · rw [show (FrameDecoder.effectiveLimits
        (strictly limits)).checksumPolicy = .strict from rfl,
        effective_strict]
      exact hsized.expansion
  · change Reads .strict _ _
    refine ⟨?_, ?_, ?_, hexpansion, hcommand, hpayload, ?_⟩
    · rw [effective_strict]
      exact hkind
    · rw [effective_strict]
      exact hlayer
    · rw [effective_strict]
      exact hread
    · rw [acceptance_strict]
      exact if_pos hsum
  · exact hcount
  · rw [length_span_restored _ _ _ hlength]
    exact hcapacity

end SpanParts

/-! ## Explained repairs -/

/--
The span differs from one that a strict decoder accepts as this frame, and it
differs only in bit `0x10` of the delimiter, of the checksum or of both.
-/
def DelimiterDistorted (limits : DecodeLimits) (span : Bytes)
    (frame : Frame) : Prop :=
  ∃ delimiterBits checksumBits : UInt8,
    (delimiterBits = 0 ∨ delimiterBits = 0x10) ∧
    (checksumBits = 0 ∨ checksumBits = 0x10) ∧
    (delimiterBits ≠ 0 ∨ checksumBits ≠ 0) ∧
    StrictAccepts limits
      ((span.modify frame.preambles.toNat (· ^^^ delimiterBits)).modify
        (span.length - 1) (· ^^^ checksumBits))
      { frame with repair := none }

/-- The one distortion that the frame reports explains its span. -/
def Explained (limits : DecodeLimits) (delimiterBit : Bool)
    (checksumSourceNode : Option UInt8) (span : Bytes)
    (frame : Frame) : Prop :=
  match frame.repair with
  | none => StrictAccepts limits span frame
  | some .delimiterBit =>
      delimiterBit = true ∧ DelimiterDistorted limits span frame
  | some (.shortAddressRewrite node) =>
      checksumSourceNode = some node ∧ frame.address.encodedLen = 1 ∧
        ∃ accepted, StrictAccepts limits
          (span.modify (frame.preambles.toNat + 1)
            fun byte => (byte &&& 0xc0) ||| node) accepted

/--
The delimiter behind the preambles is a known one, or the checksum is that of
the span up to bit `0x10`.
-/
def SinglyDistorted (span : Bytes) : Prop :=
  let block := span.dropWhile isPreamble
  (FrameKind.fromDelimiter (block.headD 0)).isSome = true ∨
    xorChecksum block.dropLast = block.getLastD 0 ∨
    xorChecksum block.dropLast ^^^ 0x10 = block.getLastD 0

theorem singlyDistorted_span {parts : SpanParts} (preambles : Nat)
    (hne : parts.delimiter ≠ 0xff) :
    SinglyDistorted (parts.span preambles) ↔
      (FrameKind.fromDelimiter parts.delimiter).isSome = true ∨
        xorChecksum parts.body = parts.checksum ∨
        xorChecksum parts.body ^^^ 0x10 = parts.checksum := by
  have hblock : (parts.span preambles).dropWhile isPreamble =
      parts.body ++ [parts.checksum] := by
    have hstop : isPreamble parts.delimiter = false := by
      simpa [isPreamble] using hne
    rw [SpanParts.span, SpanParts.behind,
      List.dropWhile_append_of_pos (by simp [isPreamble])]
    simp [SpanParts.body, hstop]
  have hhead : (parts.body ++ [parts.checksum]).headD 0 =
      parts.delimiter := rfl
  simp only [SinglyDistorted, hblock, hhead, List.dropLast_concat,
    List.getLastD_concat]

/-! What an acceptance says about the delimiter and the checksum. -/

theorem effectiveDelimiter_cases {policy : ChecksumPolicy} {byte : UInt8}
    (h : isPossibleDelimiter byte policy = true) :
    ((FrameKind.fromDelimiter byte).isSome = true ∧
      effectiveDelimiter policy byte = (byte, none)) ∨
    ((FrameKind.fromDelimiter byte).isSome = false ∧
      allowDelimiterRepair policy = true ∧ byte ≠ 0xff ∧
      effectiveDelimiter policy byte =
        (byte ^^^ 0x10, some .delimiterBit)) := by
  cases hkind : FrameKind.fromDelimiter byte with
  | some kind =>
      left
      simp [effectiveDelimiter, hkind]
  | none =>
      right
      simp only [isPossibleDelimiter, hkind, Option.isSome_none,
        Bool.false_or, Bool.and_eq_true] at h
      refine ⟨rfl, h.1, ?_, by simp [effectiveDelimiter, hkind, h.1, h.2]⟩
      rintro rfl
      exact absurd h.2 (by decide)

theorem shortAddressRepair_eq_some {policy : ChecksumPolicy}
    {received expected actual : UInt8} {repair : FrameRepair}
    (h : shortAddressRepair policy received expected actual = some repair) :
    ∃ delimiterBit source, policy = .knownGateway delimiterBit (some source) ∧
      repair = .shortAddressRewrite source ∧
      received ^^^ expected ^^^ actual = (received &&& 0xc0) ||| source := by
  have hjoin : ∀ byte : UInt8, (byte &&& 0xc0) ||| (byte &&& 0x3f) = byte :=
    forall_byte (by decide +kernel)
  cases policy with
  | strict => simp [shortAddressRepair] at h
  | knownGateway delimiterBit source =>
      cases source with
      | none => simp [shortAddressRepair] at h
      | some source =>
          simp only [shortAddressRepair] at h
          split_ifs at h with hbound hmatch
          injection h with h
          refine ⟨delimiterBit, source, rfl, h.symm, ?_⟩
          rw [← hmatch.1, ← hmatch.2, hjoin]

theorem xor_cancel (delimiter first rest checksum : UInt8) :
    delimiter ^^^ ((first ^^^ (delimiter ^^^ (first ^^^ rest)) ^^^
      checksum) ^^^ rest) = checksum := by
  calc _ = (delimiter ^^^ delimiter) ^^^ (first ^^^ first) ^^^
        (rest ^^^ rest) ^^^ checksum := by ac_rfl
    _ = checksum := by simp

namespace SpanParts

theorem acceptance_cases {policy : ChecksumPolicy} {parts : SpanParts}
    {repair : Option FrameRepair} (h : parts.acceptance policy = some repair) :
    (xorChecksum parts.body = parts.checksum ∧
      repair = (effectiveDelimiter policy parts.delimiter).2) ∨
    (allowDelimiterRepair policy = true ∧
      xorChecksum parts.body ^^^ 0x10 = parts.checksum ∧
      repair = some .delimiterBit) ∨
    (xorChecksum parts.body ≠ parts.checksum ∧
      ¬(allowDelimiterRepair policy = true ∧
        xorChecksum parts.body ^^^ 0x10 = parts.checksum) ∧
      isLong (parts.effective policy) = false ∧
      ∃ found, shortAddressRepair policy (parts.address.getD 0 0)
        (xorChecksum parts.body) parts.checksum = some found ∧
        repair = some found) := by
  unfold acceptance at h
  split_ifs at h with hmatch hbit hlong
  · exact .inl ⟨hmatch, (Option.some.inj h).symm⟩
  · exact .inr (.inl ⟨hbit.1, hbit.2, (Option.some.inj h).symm⟩)
  · obtain ⟨found, hfound, hrepair⟩ := Option.map_eq_some_iff.mp h
    exact .inr (.inr ⟨hmatch, hbit, by simpa using hlong, found, hfound,
      hrepair.symm⟩)

section Explained

variable {limits : DecodeLimits} {preambles : Nat} {parts : SpanParts}
  {frame : Frame}
  (hfits : parts.Fits (FrameDecoder.effectiveLimits limits) preambles)
  (hreads : parts.Reads limits.checksumPolicy frame)
  (hcount : frame.preambles = UInt8.ofNat preambles)
  (hcapacity : (parts.span preambles).length ≤
    (FrameDecoder.effectiveLimits limits).bufferCapacity)

include hfits hreads hcount hcapacity

theorem delimiterDistorted_of {delimiterBits checksumBits : UInt8}
    (hdelimiter : delimiterBits = 0 ∨ delimiterBits = 0x10)
    (hchecksum : checksumBits = 0 ∨ checksumBits = 0x10)
    (hsome : delimiterBits ≠ 0 ∨ checksumBits ≠ 0)
    (heffective : parts.effective limits.checksumPolicy =
      parts.delimiter ^^^ delimiterBits)
    (hsum : xorChecksum parts.body ^^^ delimiterBits =
      parts.checksum ^^^ checksumBits) :
    DelimiterDistorted limits (parts.span preambles) frame := by
  refine ⟨delimiterBits, checksumBits, hdelimiter, hchecksum, hsome, ?_⟩
  have htoNat : frame.preambles.toNat = preambles :=
    (congrArg UInt8.toNat hcount).trans hfits.toNat_ofNat
  have hrestored := strictAccepts_restored (parts.checksum ^^^ checksumBits)
    hfits hreads hcount hcapacity rfl hreads.address (by
      rw [← hsum]
      simp only [restored, body, heffective, xorChecksum_cons]
      ac_rfl)
  rw [restored, heffective] at hrestored
  rw [htoNat, modify_delimiter, modify_checksum]
  · exact hrestored
  · rw [length_span, Nat.add_sub_cancel]
    simp [body]

theorem addressDistorted_of {node : UInt8}
    (hknown : parts.effective limits.checksumPolicy = parts.delimiter)
    (hshort : isLong (parts.effective limits.checksumPolicy) = false)
    (hsum : parts.address.getD 0 0 ^^^ xorChecksum parts.body ^^^
      parts.checksum = (parts.address.getD 0 0 &&& 0xc0) ||| node) :
    ∃ accepted, StrictAccepts limits
      ((parts.span preambles).modify (frame.preambles.toNat + 1)
        fun byte => (byte &&& 0xc0) ||| node) accepted := by
  have hlength := hfits.sized.address
  rw [show (FrameDecoder.effectiveLimits limits).checksumPolicy =
    limits.checksumPolicy from rfl, addressLen, hshort] at hlength
  obtain ⟨first, hfirst⟩ := List.length_eq_one_iff.mp hlength
  have htoNat : frame.preambles.toNat = preambles :=
    (congrArg UInt8.toNat hcount).trans hfits.toNat_ofNat
  rw [hfirst, List.getD_cons_zero] at hsum
  obtain ⟨read, hread, -⟩ := Address.readFrom_ok
    (show [(first &&& 0xc0) ||| node].length = if false then 5 else 1
      from rfl)
  have hrestored := strictAccepts_restored parts.checksum hfits hreads hcount
    hcapacity (show [(first &&& 0xc0) ||| node].length =
      parts.address.length by rw [hfirst]; rfl)
    (by rw [hshort]; exact hread) (by
      rw [← hsum]
      simp only [restored, body, hknown, hfirst, List.cons_append,
        List.nil_append, xorChecksum_cons]
      exact xor_cancel ..)
  rw [restored, hknown] at hrestored
  rw [htoNat, modify_address hfirst]
  exact ⟨_, hrestored⟩

omit hfits hreads hcount hcapacity in
theorem enabled_of_policy {delimiterBit : Bool} {source : Option UInt8}
    (hpolicy : limits.checksumPolicy = .knownGateway delimiterBit source)
    (h : allowDelimiterRepair limits.checksumPolicy = true) :
    delimiterBit = true := by
  rw [hpolicy] at h
  cases delimiterBit with
  | true => rfl
  | false => contradiction

section Policy

variable {delimiterBit : Bool} {source : Option UInt8}
  (hpolicy : limits.checksumPolicy = .knownGateway delimiterBit source)

include hpolicy

theorem explained_of_intact
    (heffective : effectiveDelimiter limits.checksumPolicy parts.delimiter =
      (parts.delimiter, none)) :
    Explained limits delimiterBit source (parts.span preambles) frame := by
  have hread : parts.effective limits.checksumPolicy = parts.delimiter :=
    congrArg Prod.fst heffective
  rcases acceptance_cases hreads.repair with ⟨hsum, hrepair⟩ |
    ⟨henabled, hsum, hrepair⟩ | ⟨-, -, hshort, found, hfound, hrepair⟩
  · rw [heffective] at hrepair
    dsimp only at hrepair
    have hrestored := strictAccepts_restored parts.checksum hfits hreads
      hcount hcapacity rfl hreads.address (by
        rw [restored, hread]
        exact hsum)
    rw [restored, hread] at hrestored
    simp only [Explained, hrepair]
    rw [← hrepair] at hrestored
    exact hrestored
  · simp only [Explained, hrepair]
    refine ⟨enabled_of_policy hpolicy henabled, delimiterDistorted_of hfits
      hreads hcount hcapacity (.inl rfl) (.inr rfl) (.inr (by decide)) ?_ ?_⟩
    · simp [hread]
    · rw [← hsum, UInt8.xor_assoc]
      simp
  · obtain ⟨_, node, hconfigured, rfl, hsource⟩ :=
      shortAddressRepair_eq_some hfound
    rw [hpolicy] at hconfigured
    injection hconfigured with _ hnode
    simp only [Explained, hrepair]
    refine ⟨hnode, ?_, addressDistorted_of hfits hreads hcount hcapacity
      hread hshort hsource⟩
    rw [(hreads.address_accepted hfits.sized).2, hfits.sized.address]
    exact congrArg (if · = true then 5 else 1) hshort

omit hreads hcapacity hpolicy in
theorem not_explained_of_both
    (hunknown : (FrameKind.fromDelimiter parts.delimiter).isSome = false)
    (hne : parts.delimiter ≠ 0xff)
    (hshort : isLong (parts.effective limits.checksumPolicy) = false)
    {node : UInt8} (hrepair : frame.repair = some (.shortAddressRewrite node)) :
    ¬ Explained limits delimiterBit source (parts.span preambles) frame := by
  have hlength : parts.address.length = 1 :=
    hfits.sized.address.trans (congrArg (if · = true then 5 else 1) hshort)
  obtain ⟨first, hfirst⟩ := List.length_eq_one_iff.mp hlength
  have hcounted : frame.preambles.toNat = preambles :=
    (congrArg UInt8.toNat hcount).trans hfits.toNat_ofNat
  simp only [Explained, hrepair]
  rintro ⟨-, -, accepted, haccepts⟩
  rw [hcounted, modify_address hfirst] at haccepts
  have hknown := haccepts.known hne
  rw [hunknown] at hknown
  contradiction

theorem explained_iff_of_altered
    (hunknown : (FrameKind.fromDelimiter parts.delimiter).isSome = false)
    (henabled : allowDelimiterRepair limits.checksumPolicy = true)
    (hne : parts.delimiter ≠ 0xff)
    (heffective : effectiveDelimiter limits.checksumPolicy parts.delimiter =
      (parts.delimiter ^^^ 0x10, some .delimiterBit)) :
    Explained limits delimiterBit source (parts.span preambles) frame ↔
      xorChecksum parts.body = parts.checksum ∨
        xorChecksum parts.body ^^^ 0x10 = parts.checksum := by
  have hread : parts.effective limits.checksumPolicy =
      parts.delimiter ^^^ 0x10 := congrArg Prod.fst heffective
  have hallowed := enabled_of_policy hpolicy henabled
  rcases acceptance_cases hreads.repair with ⟨hsum, hrepair⟩ |
    ⟨-, hsum, hrepair⟩ | ⟨hmismatch, hbit, hshort, found, hfound, hrepair⟩
  · rw [heffective] at hrepair
    simp only [Explained, hrepair, hsum, true_or, iff_true]
    exact ⟨hallowed, delimiterDistorted_of hfits hreads hcount hcapacity
      (.inr rfl) (.inr rfl) (.inr (by decide)) hread (by rw [hsum])⟩
  · simp only [Explained, hrepair, hsum, or_true, iff_true]
    exact ⟨hallowed, delimiterDistorted_of hfits hreads hcount hcapacity
      (.inr rfl) (.inl rfl) (.inl (by decide)) hread (by simp [hsum])⟩
  · obtain ⟨_, node, -, rfl, -⟩ := shortAddressRepair_eq_some hfound
    have hother : ¬(xorChecksum parts.body ^^^ 0x10 = parts.checksum) :=
      fun hsum => hbit ⟨henabled, hsum⟩
    simp only [hmismatch, hother, or_self, iff_false]
    exact not_explained_of_both hfits hcount hunknown hne hshort hrepair

/-- The report explains the span unless both repairs were needed. -/
theorem explained_span_iff :
    Explained limits delimiterBit source (parts.span preambles) frame ↔
      SinglyDistorted (parts.span preambles) := by
  rcases effectiveDelimiter_cases hfits.sized.delimiter with
    ⟨hknown, heffective⟩ | ⟨hunknown, henabled, hne, heffective⟩
  · obtain ⟨kind, hkind⟩ := Option.isSome_iff_exists.mp hknown
    have hsingly : SinglyDistorted (parts.span preambles) :=
      (singlyDistorted_span preambles
        (ne_preamble_of_fromDelimiter hkind)).mpr (.inl hknown)
    exact iff_of_true (explained_of_intact hfits hreads hcount hcapacity
      hpolicy heffective) hsingly
  · rw [singlyDistorted_span preambles hne, hunknown, explained_iff_of_altered
      hfits hreads hcount hcapacity hpolicy hunknown henabled hne heffective]
    simp only [Bool.false_eq_true, false_or]

end Policy

end Explained

end SpanParts

/-! ## Whole runs -/

namespace FrameDecoder

/--
A frame of a known-gateway decoder is explained by the one distortion it
reports, exactly if its span is singly distorted.
-/
theorem gateway_frame_explained_iff (capacity : Nat)
    (minimumPreambles : UInt8) (delimiterBit : Bool)
    (checksumSourceNode : Option UInt8) (fragments : List Bytes)
    (span : Bytes) (frame : Frame)
    (hframe : (span, DecodeEvent.frame frame) ∈
      (new ⟨capacity, minimumPreambles,
        .knownGateway delimiterBit checksumSourceNode⟩).pushAllSpans
        fragments) :
    Explained ⟨capacity, minimumPreambles,
        .knownGateway delimiterBit checksumSourceNode⟩
        delimiterBit checksumSourceNode span frame ↔
      SinglyDistorted span := by
  obtain ⟨hconsumes, hcapacity⟩ := pushAllSpans_consumes hframe
  cases hconsumes with
  | @frame _ preambles parts hfits hreads hpreambles hspan =>
      subst hspan
      exact SpanParts.explained_span_iff hfits hreads hpreambles hcapacity rfl

/--
A response whose delimiter bit, address and checksum are all distorted: an
intact frame has delimiter `0x06`, address `0x80` and checksum `0x8e`.
-/
def doublyDistorted : Bytes :=
  [0xff, 0xff, 0x16, 0x91, 0x08, 0x00, 0x9e]

def rewrittenResponse : Frame :=
  { preambles := 2, kind := .response, physicalLayer := .fsk
    address := .Polling 17 .primary, expansion := [], wireCommand := 8
    payload := [], repair := some (.shortAddressRewrite 0) }

/-- Both repairs are made and one is reported. -/
theorem gateway_frame_unexplained :
    (doublyDistorted, DecodeEvent.frame rewrittenResponse) ∈
        (new ⟨64, 2, .knownGateway true (some 0)⟩).pushAllSpans
          [doublyDistorted] ∧
      ¬Explained ⟨64, 2, .knownGateway true (some 0)⟩ true (some 0)
        doublyDistorted rewrittenResponse := by
  have hmem : (doublyDistorted, DecodeEvent.frame rewrittenResponse) ∈
      (new ⟨64, 2, .knownGateway true (some 0)⟩).pushAllSpans
        [doublyDistorted] := by
    decide +kernel
  refine ⟨hmem, ?_⟩
  rintro ⟨-, -, accepted, haccepts⟩
  have hnone : (new (strictly ⟨64, 2, .knownGateway true (some 0)⟩)).pushSpans
      (doublyDistorted.modify 3 fun byte => (byte &&& 0xc0) ||| 0) = [] := by
    decide +kernel
  rw [StrictAccepts, show rewrittenResponse.preambles.toNat + 1 = 3 from rfl,
    hnone] at haccepts
  contradiction

/-- A rewritten address alone is explained. -/
theorem gateway_frame_explained_iff_rewritten :
    Explained ⟨64, 2, .knownGateway true (some 0)⟩ true (some 0)
      [0xff, 0xff, 0x06, 0x91, 0x08, 0x00, 0x8e] rewrittenResponse :=
  (gateway_frame_explained_iff 64 2 true (some 0)
    [[0xff, 0xff, 0x06, 0x91, 0x08, 0x00, 0x8e]] _ _
    (by decide +kernel)).mpr (.inl (by decide +kernel))

end FrameDecoder

end HartLink.Wire
