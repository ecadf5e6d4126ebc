import HartLink.Wire.Scan

/-!
# The parts of a frame on the wire

A complete candidate falls into delimiter, address, expansion, command, count,
payload and checksum.  `analyzeCandidate_behind` says what the decoder makes of
these parts behind any leading bytes, and `exists_parts` that every complete
candidate has them.
-/

namespace HartLink.Wire

open HartLink.Foundation

/-! ## Slices of a concatenation -/

theorem slice_middle {whole middle back : Bytes} {start stop : Nat}
    (front : Bytes)
    (hwhole : whole = front ++ (middle ++ back))
    (hstart : start = front.length)
    (hstop : stop = front.length + middle.length) :
    slice whole start stop = middle := by
  subst hwhole hstart hstop
  simp [slice]

theorem getD_middle {whole back : Bytes} {byte : UInt8} {index : Nat}
    (front : Bytes) (hwhole : whole = front ++ byte :: back)
    (hindex : index = front.length) :
    whole.getD index 0 = byte := by
  subst hwhole hindex
  simp

theorem drop_eq_getD_cons {bytes : Bytes} {index : Nat}
    (h : index < bytes.length) :
    bytes.drop index = bytes.getD index 0 :: bytes.drop (index + 1) := by
  rw [List.drop_eq_getElem_cons h]
  simp [h]

theorem drop_eq_slice_append {start stop : Nat} (bytes : Bytes)
    (h : start ≤ stop) :
    bytes.drop start = slice bytes start stop ++ bytes.drop stop := by
  have hsplit := List.take_append_drop (stop - start) (bytes.drop start)
  rw [List.drop_drop, Nat.add_sub_cancel' h] at hsplit
  exact hsplit.symm

/-! ## Parts -/

structure SpanParts where
  delimiter : UInt8
  address : Bytes
  expansion : Bytes
  command : UInt8
  payload : Bytes
  checksum : UInt8
  deriving DecidableEq, Repr

namespace SpanParts

def body (parts : SpanParts) : Bytes :=
  parts.delimiter :: (parts.address ++ parts.expansion ++
    parts.command :: UInt8.ofNat parts.payload.length :: parts.payload)

/-- The parts in a buffer, between leading bytes and what follows. -/
def behind (front : Bytes) (parts : SpanParts) (rest : Bytes) : Bytes :=
  front ++ (parts.body ++ parts.checksum :: rest)

/-- The delimiter with which the decoder reads the parts. -/
def effective (policy : ChecksumPolicy) (parts : SpanParts) : UInt8 :=
  (effectiveDelimiter policy parts.delimiter).1

/-- The parts have the lengths that their delimiter declares. -/
structure Sized (policy : ChecksumPolicy) (parts : SpanParts) : Prop where
  delimiter : isPossibleDelimiter parts.delimiter policy = true
  address : parts.address.length = addressLen (parts.effective policy)
  expansion : parts.expansion.length = expansionLen (parts.effective policy)
  payload : parts.payload.length ≤ 255

/--
The repair with which the decoder accepts the parts, `some none` for an intact
checksum, or `none` for a rejection.
-/
def acceptance (policy : ChecksumPolicy) (parts : SpanParts) :
    Option (Option FrameRepair) :=
  if xorChecksum parts.body = parts.checksum then
    some (effectiveDelimiter policy parts.delimiter).2
  else if allowDelimiterRepair policy = true ∧
      xorChecksum parts.body ^^^ 0x10 = parts.checksum then
    some (some .delimiterBit)
  else if isLong (parts.effective policy) then none
  else
    (shortAddressRepair policy (parts.address.getD 0 0)
      (xorChecksum parts.body) parts.checksum).map some

/-- The frame that the parts are read as, apart from its preambles. -/
structure Reads (policy : ChecksumPolicy) (parts : SpanParts)
    (frame : Frame) : Prop where
  kind : FrameKind.fromDelimiter (parts.effective policy) = some frame.kind
  physicalLayer : frame.physicalLayer =
    PhysicalLayer.fromDelimiter (parts.effective policy)
  address : Address.readFrom parts.address
    (isLong (parts.effective policy)) = .ok frame.address
  expansion : frame.expansion = parts.expansion
  wireCommand : frame.wireCommand = parts.command
  payload : frame.payload = parts.payload
  repair : parts.acceptance policy = some frame.repair

theorem Reads.unique {policy : ChecksumPolicy} {parts : SpanParts}
    {frame other : Frame} (h : parts.Reads policy frame)
    (hother : parts.Reads policy other)
    (hpreambles : frame.preambles = other.preambles) : frame = other := by
  obtain ⟨hkind, hlayer, haddress, hexpansion, hcommand, hpayload, hrepair⟩ :=
    h
  obtain ⟨hkind', hlayer', haddress', hexpansion', hcommand', hpayload',
    hrepair'⟩ := hother
  rw [hkind] at hkind'
  rw [haddress] at haddress'
  rw [hrepair] at hrepair'
  injection hkind' with hkind'
  injection haddress' with haddress'
  injection hrepair' with hrepair'
  cases frame
  cases other
  simp_all

theorem length_body (parts : SpanParts) :
    parts.body.length = 1 + parts.address.length + parts.expansion.length +
      2 + parts.payload.length := by
  simp [body]
  omega

/-! ## The parts at the positions where they are read -/

section Behind

variable (limits : DecodeLimits) {parts : SpanParts} (front rest : Bytes)

theorem getD_delimiter :
    (behind front parts rest).getD front.length 0 = parts.delimiter :=
  getD_middle front rfl rfl

theorem readDelimiter_behind :
    readDelimiter limits (behind front parts rest) front.length =
      parts.effective limits.checksumPolicy := by
  rw [readDelimiter, getD_delimiter, effective]

theorem countPosition_behind (h : parts.Sized limits.checksumPolicy) :
    countPosition limits (behind front parts rest) front.length =
      front.length + 1 + parts.address.length + parts.expansion.length + 1 := by
  rw [countPosition, readDelimiter_behind, h.address, h.expansion]

theorem declaredEnd_behind (h : parts.Sized limits.checksumPolicy) :
    declaredEnd limits (behind front parts rest) front.length =
      front.length + parts.body.length + 1 := by
  have hcount : (behind front parts rest).getD
      (front.length + 1 + parts.address.length + parts.expansion.length + 1)
      0 = UInt8.ofNat parts.payload.length := by
    apply getD_middle (front ++ parts.delimiter ::
      (parts.address ++ parts.expansion ++ [parts.command]))
    · simp only [behind, body, List.append_assoc, List.cons_append,
        List.nil_append]
      rfl
    · simp
      omega
  have hpayload : (UInt8.ofNat parts.payload.length).toNat =
      parts.payload.length := by
    have := h.payload
    rw [UInt8.toNat_ofNat']
    omega
  rw [declaredEnd, countPosition_behind limits front rest h, hcount, hpayload,
    length_body]
  omega

theorem slice_body :
    slice (behind front parts rest) front.length
      (front.length + parts.body.length + 1 - 1) = parts.body :=
  slice_middle front rfl rfl (by omega)

theorem getD_checksum :
    (behind front parts rest).getD
      (front.length + parts.body.length + 1 - 1) 0 = parts.checksum :=
  getD_middle (front ++ parts.body) (List.append_assoc front _ _).symm
    (by rw [List.length_append]; omega)

theorem slice_address :
    slice (behind front parts rest) (front.length + 1)
      (front.length + 1 + parts.address.length) = parts.address := by
  apply slice_middle (front ++ [parts.delimiter])
  · simp only [behind, body, List.append_assoc, List.cons_append,
      List.nil_append]
    rfl
  · simp
  · simp

theorem getD_address (h : 0 < parts.address.length) :
    (behind front parts rest).getD (front.length + 1) 0 =
      parts.address.getD 0 0 := by
  obtain ⟨first, address, haddress⟩ :=
    List.exists_cons_of_length_pos h
  apply getD_middle (front ++ [parts.delimiter])
  · simp only [behind, body, haddress, List.append_assoc, List.cons_append,
      List.nil_append, List.getD_cons_zero]
    rfl
  · simp

theorem slice_expansion :
    slice (behind front parts rest) (front.length + 1 + parts.address.length)
      (front.length + 1 + parts.address.length + parts.expansion.length +
        1 - 1) = parts.expansion := by
  apply slice_middle (front ++ parts.delimiter :: parts.address)
  · simp only [behind, body, List.append_assoc, List.cons_append]
    rfl
  · simp
    omega
  · simp
    omega

theorem getD_command :
    (behind front parts rest).getD
      (front.length + 1 + parts.address.length + parts.expansion.length +
        1 - 1) 0 = parts.command := by
  apply getD_middle (front ++ parts.delimiter ::
    (parts.address ++ parts.expansion))
  · simp only [behind, body, List.append_assoc, List.cons_append]
    rfl
  · simp
    omega

theorem slice_payload :
    slice (behind front parts rest)
      (front.length + 1 + parts.address.length + parts.expansion.length +
        1 + 1) (front.length + parts.body.length + 1 - 1) =
      parts.payload := by
  have hlength := parts.length_body
  apply slice_middle (front ++ parts.delimiter ::
    (parts.address ++ parts.expansion ++
      [parts.command, UInt8.ofNat parts.payload.length]))
  · simp only [behind, body, List.append_assoc, List.cons_append,
      List.nil_append]
    rfl
  · simp
    omega
  · simp
    omega

/-- What the decoder makes of a complete candidate. -/
theorem analyzeCandidate_behind (h : parts.Sized limits.checksumPolicy)
    {count : Nat} (hcount : count ≤ 255) :
    (parts.acceptance limits.checksumPolicy = none ∧
      analyzeCandidate limits (behind front parts rest) front.length count =
        .rejected (.checksum (xorChecksum parts.body) parts.checksum)
          (front.length + 1) true) ∨
    ∃ frame : Frame, parts.Reads limits.checksumPolicy frame ∧
      frame.preambles = UInt8.ofNat count ∧
      analyzeCandidate limits (behind front parts rest) front.length count =
        .frame frame (front.length + parts.body.length + 1)
          frame.repair.isSome := by
  have haddress : parts.address.length =
      if isLong (parts.effective limits.checksumPolicy) then 5 else 1 :=
    h.address
  have hpositive : 0 < parts.address.length := by
    rw [h.address]
    exact addressLen_pos _
  obtain ⟨address, hread, -⟩ := Address.readFrom_ok haddress
  obtain ⟨kind, hkind⟩ := Option.isSome_iff_exists.mp
    (fromDelimiter_effectiveDelimiter h.delimiter)
  rw [← effective] at hkind
  unfold analyzeCandidate analyzeComplete
  simp only [countPosition_behind limits front rest h,
    declaredEnd_behind limits front rest h, readDelimiter_behind,
    getD_delimiter, slice_body, getD_checksum, slice_address, slice_expansion,
    getD_command, slice_payload, getD_address front rest hpositive, ← h.address,
    hread, hkind, Nat.min_eq_left hcount]
  let found (repair : Option FrameRepair) : Frame :=
    { preambles := UInt8.ofNat count
      kind
      physicalLayer :=
        PhysicalLayer.fromDelimiter (parts.effective limits.checksumPolicy)
      address
      expansion := parts.expansion
      wireCommand := parts.command
      payload := parts.payload
      repair }
  have hreads : ∀ repair, parts.acceptance limits.checksumPolicy =
      some repair → parts.Reads limits.checksumPolicy (found repair) :=
    fun repair haccepted => ⟨hkind, rfl, hread, rfl, rfl, rfl, haccepted⟩
  by_cases hmatch : xorChecksum parts.body = parts.checksum
  · -- A matching checksum leaves no room for the delimiter-bit repair.
    have hmismatch : (parts.checksum ^^^ 0x10 == parts.checksum) = false := by
      generalize parts.checksum = byte
      revert byte
      exact forall_byte (by decide +kernel)
    refine .inr ⟨found (effectiveDelimiter limits.checksumPolicy
      parts.delimiter).2, hreads _ ?_, rfl, ?_⟩
    · simp [acceptance, hmatch]
    · simp [hmatch, hmismatch, found]
  by_cases hbit : allowDelimiterRepair limits.checksumPolicy = true ∧
      xorChecksum parts.body ^^^ 0x10 = parts.checksum
  · refine .inr ⟨found (some .delimiterBit), hreads _ ?_, rfl, ?_⟩
    · simp [acceptance, hmatch, hbit]
    · simp [hbit.1, hbit.2, found]
  have hnot : (allowDelimiterRepair limits.checksumPolicy &&
      (xorChecksum parts.body ^^^ 0x10 == parts.checksum)) = false := by
    simpa using hbit
  cases hlong : isLong (parts.effective limits.checksumPolicy) with
  | true =>
      left
      simp [acceptance, hmatch, hbit, hlong, hnot]
  | false =>
      cases hrepair : shortAddressRepair limits.checksumPolicy
          (parts.address.getD 0 0) (xorChecksum parts.body)
          parts.checksum with
      | none =>
          left
          simp [acceptance, hmatch, hbit, hlong, hnot, hrepair,
            -List.getD_eq_getElem?_getD]
      | some repair =>
          refine .inr ⟨found (some repair), hreads _ ?_, rfl, ?_⟩
          · simp [acceptance, hmatch, hbit, hlong, hrepair,
              -List.getD_eq_getElem?_getD]
          · simp [hmatch, hnot, found]

end Behind

theorem exists_parts {limits : DecodeLimits} {bytes : Bytes} {index : Nat}
    (hcandidate : Candidate limits bytes index)
    (hend : declaredEnd limits bytes index ≤ bytes.length) :
    ∃ parts : SpanParts, parts.Sized limits.checksumPolicy ∧
      bytes = behind (bytes.take index) parts
        (bytes.drop (declaredEnd limits bytes index)) := by
  let delimiter := readDelimiter limits bytes index
  let addressEnd := index + 1 + addressLen delimiter
  let position := countPosition limits bytes index
  let stop := declaredEnd limits bytes index
  have hposition : position = addressEnd + expansionLen delimiter + 1 := rfl
  have hstop : stop =
      position + 1 + (bytes.getD position 0).toNat + 1 := rfl
  have hcount := (bytes.getD position 0).toNat_lt
  obtain ⟨byte, hbyte, hpossible, -⟩ := hcandidate
  have hgetD : bytes.getD index 0 = byte := by
    simp [List.getD_eq_getElem?_getD, hbyte]
  have hpayload : (slice bytes (position + 1) (stop - 1)).length =
      (bytes.getD position 0).toNat := by
    rw [length_slice (by omega)]
    omega
  refine ⟨⟨bytes.getD index 0, slice bytes (index + 1) addressEnd,
    slice bytes addressEnd (position - 1), bytes.getD (position - 1) 0,
    slice bytes (position + 1) (stop - 1), bytes.getD (stop - 1) 0⟩,
    ⟨?_, ?_, ?_, ?_⟩, ?_⟩
  · rwa [hgetD]
  · rw [length_slice (by omega)]
    exact Nat.add_sub_cancel_left ..
  · rw [length_slice (by omega), hposition]
    change _ = expansionLen delimiter
    omega
  · rw [hpayload]
    omega
  · have hlast : stop - 1 + 1 = stop := by omega
    have hcommand : position - 1 + 1 = position := by omega
    rw [behind, body, hpayload, UInt8.ofNat_toNat]
    calc bytes = bytes.take index ++ bytes.drop index :=
          (List.take_append_drop index bytes).symm
      _ = _ := by
        rw [drop_eq_getD_cons (show index < bytes.length by omega),
          drop_eq_slice_append bytes (show index + 1 ≤ addressEnd by omega),
          drop_eq_slice_append bytes
            (show addressEnd ≤ position - 1 by omega),
          drop_eq_getD_cons (show position - 1 < bytes.length by omega),
          hcommand,
          drop_eq_getD_cons (show position < bytes.length by omega),
          drop_eq_slice_append bytes
            (show position + 1 ≤ stop - 1 by omega),
          drop_eq_getD_cons (show stop - 1 < bytes.length by omega), hlast]
        simp [stop]

/-! ## Spans -/

def span (preambles : Nat) (parts : SpanParts) : Bytes :=
  behind (List.replicate preambles 0xff) parts []

theorem length_span (preambles : Nat) (parts : SpanParts) :
    (parts.span preambles).length = preambles + parts.body.length + 1 := by
  simp [span, behind, Nat.add_assoc]

theorem behind_eq_span_append (preambles : Nat) (parts : SpanParts)
    (rest : Bytes) :
    behind (List.replicate preambles 0xff) parts rest =
      parts.span preambles ++ rest := by
  simp [span, behind]

/-- The decoder finds the parts behind these preambles. -/
structure Fits (limits : DecodeLimits) (preambles : Nat)
    (parts : SpanParts) : Prop where
  sized : parts.Sized limits.checksumPolicy
  least : limits.minimumPreambles.toNat ≤ preambles
  most : preambles ≤ 255

section Span

variable {limits : DecodeLimits} {preambles : Nat} {parts : SpanParts}

theorem Fits.findCandidate (h : parts.Fits limits preambles) (rest : Bytes) :
    findCandidate (parts.span preambles ++ rest) limits =
      some (preambles, 0, preambles) := by
  have hrun : preambleRun (parts.span preambles ++ rest) preambles =
      preambles := by
    rw [preambleRun, ← behind_eq_span_append, behind,
      List.take_append_of_le_length (by simp), List.take_replicate,
      Nat.min_self, trailingCount_replicate _ _ _ rfl]
  have hmost := h.most
  rw [findCandidate_eq_some_iff]
  refine ⟨⟨parts.delimiter, ?_, h.sized.delimiter, ?_⟩, ?_, ?_, ?_⟩
  · simp [span, behind, body]
  · rw [hrun]
    exact h.least
  · -- Everything in front of the delimiter is a preamble.
    intro earlier hearlier hother
    have hget := List.getElem?_eq_getElem hother.lt_length
    have hpreamble := isPreamble_of_preambleRun preambles earlier
      (by omega) hearlier hget
    have hnot := hother.not_isPreamble hget
    rw [hpreamble] at hnot
    contradiction
  · omega
  · omega

/-- What the decoder makes of a span, whatever follows it. -/
theorem Fits.analyze (h : parts.Fits limits preambles) (rest : Bytes) :
    (parts.acceptance limits.checksumPolicy = none ∧
      analyze (parts.span preambles ++ rest) limits =
        .rejected (.checksum (xorChecksum parts.body) parts.checksum)
          (preambles + 1) true) ∨
    ∃ frame : Frame, parts.Reads limits.checksumPolicy frame ∧
      frame.preambles = UInt8.ofNat preambles ∧
      analyze (parts.span preambles ++ rest) limits =
        .frame frame (parts.span preambles).length frame.repair.isSome := by
  have hend : declaredEnd limits (parts.span preambles ++ rest) preambles =
      (parts.span preambles).length := by
    have hbehind := declaredEnd_behind limits
      (List.replicate preambles 0xff) rest h.sized
    rwa [List.length_replicate, behind_eq_span_append, ← length_span]
      at hbehind
  have hanalyze := analyzeCandidate_behind limits
    (List.replicate preambles 0xff) rest h.sized h.most
  rw [List.length_replicate, behind_eq_span_append, ← length_span] at hanalyze
  rw [analyze_of_some (h.findCandidate rest), if_neg (lt_irrefl 0), hend,
    if_neg (by simp)]
  exact hanalyze

theorem take_eq_replicate {bytes : Bytes} {index : Nat}
    (hlength : index ≤ bytes.length) (hrun : index ≤ preambleRun bytes index) :
    bytes.take index = List.replicate index 0xff := by
  apply List.eq_replicate_iff.mpr
  refine ⟨by simp [hlength], ?_⟩
  intro byte hbyte
  obtain ⟨position, hposition, hget⟩ := List.mem_iff_getElem.mp hbyte
  rw [List.length_take] at hposition
  rw [List.getElem_take] at hget
  have hpreamble := isPreamble_of_preambleRun index position (by omega)
    (by omega) (List.getElem?_eq_some_iff.mpr ⟨by omega, hget⟩)
  simpa [isPreamble] using hpreamble

theorem exists_span {bytes : Bytes} {index count : Nat}
    (hfound : findCandidate bytes limits = some (index, 0, count))
    (hend : declaredEnd limits bytes index ≤ bytes.length) :
    ∃ parts : SpanParts, parts.Fits limits index ∧
      (parts.span index).length = declaredEnd limits bytes index ∧
      bytes = parts.span index ++
        bytes.drop (declaredEnd limits bytes index) := by
  obtain ⟨hcandidate, -, hcount, hstart⟩ :=
    (findCandidate_eq_some_iff ..).mp hfound
  have hlength := hcandidate.lt_length
  have hle := preambleRun_le bytes index
  obtain ⟨parts, hsized, hbytes⟩ := exists_parts hcandidate hend
  rw [take_eq_replicate (by omega) (by omega), behind_eq_span_append]
    at hbytes
  obtain ⟨-, -, -, hrun⟩ := hcandidate
  refine ⟨parts, ⟨hsized, by omega, by omega⟩, ?_, hbytes⟩
  have htotal := congrArg List.length hbytes
  rw [List.length_append, List.length_drop] at htotal
  omega

theorem exists_span_of_frame {bytes : Bytes} {frame : Frame}
    {consumed : Nat} {repaired : Bool}
    (hanalyze : Wire.analyze bytes limits = .frame frame consumed repaired) :
    ∃ (preambles : Nat) (parts : SpanParts), parts.Fits limits preambles ∧
      parts.Reads limits.checksumPolicy frame ∧
      frame.preambles = UInt8.ofNat preambles ∧
      bytes.take consumed = parts.span preambles := by
  have hdecision := judge_decision limits bytes
  have hjudge : judge limits bytes = .emit (.frame frame) consumed := by
    simp only [judge, hanalyze]
  rw [hjudge] at hdecision
  cases hdecision with
  | @frame index count _ hfound hend _ =>
      obtain ⟨parts, hfits, hlength, hbytes⟩ := exists_span hfound hend
      have hspan := hfits.analyze
        (bytes.drop (declaredEnd limits bytes index))
      rw [← hbytes, hanalyze] at hspan
      refine ⟨index, parts, hfits, ?_⟩
      rcases hspan with ⟨-, hrejected⟩ | ⟨found, hreads, hcount, hframe⟩
      · contradiction
      · injection hframe with hframe
        subst hframe
        refine ⟨hreads, hcount, ?_⟩
        rw [← hlength]
        nth_rewrite 1 [hbytes]
        simp

end Span

end SpanParts

end HartLink.Wire
