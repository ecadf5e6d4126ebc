import HartLink.Wire.Capacity

/-!
# What a bounded decoder loses

A buffer that has no room for a whole read behind the longest incomplete frame
drops the front of that frame.  The largest frame whose bytes hold no second
candidate shows that such a frame is lost for good; a read full of damaged
candidates shows the same for the event limit.
-/

namespace HartLink.Wire

open HartLink.Foundation

/-! ## The largest frame -/

def largestFrame (preambles : UInt8) : Frame :=
  { preambles, kind := .request, physicalLayer := .fsk
    address := .Unique 0 0 .primary, expansion := [0, 0, 0], wireCommand := 0
    payload := List.replicate 255 0, repair := none }

@[irreducible] def largestBody : Bytes := (largestFrame 0).body

theorem body_largestFrame (preambles : UInt8) :
    (largestFrame preambles).body = largestBody := by
  unfold largestBody
  rfl

theorem largestFrame_encodable (preambles : UInt8) :
    (largestFrame preambles).Encodable :=
  ⟨.inr ⟨0, 0, .primary, rfl⟩, Nat.le_refl 3, List.length_replicate.le, rfl⟩

def largestHead : Bytes := [0xe2, 0x80, 0, 0, 0, 0, 0, 0, 0, 0, 0xff]

theorem largestBody_eq : largestBody = largestHead ++ List.replicate 255 0 := by
  decide +kernel

theorem length_largestBody : largestBody.length = 266 := by
  rw [largestBody_eq, List.length_append, List.length_replicate]
  rfl

def padded (preambles : UInt8) (padding : Nat) : Bytes :=
  (largestFrame preambles).encoding ++ List.replicate padding 0

theorem padded_eq (preambles : UInt8) (padding : Nat) :
    padded preambles padding = List.replicate preambles.toNat 0xff ++
      (largestBody ++
        xorChecksum largestBody :: List.replicate padding 0) := by
  rw [padded, Frame.encoding, body_largestFrame, List.append_assoc,
    List.append_assoc]
  rfl

/-- Behind the delimiter only the count looks like a preamble. -/
theorem index_of_preamble {padding index : Nat}
    (h : (largestBody ++
      xorChecksum largestBody :: List.replicate padding 0)[index]? =
        some 0xff) : index = 10 := by
  have hhead : ∀ position : Fin 11,
      largestHead[position.val]? = some 0xff → position.val = 10 := by
    decide
  have hchecksum : xorChecksum largestBody ≠ 0xff := by decide +kernel
  have hzeros : ∀ count position : Nat,
      (List.replicate count (0 : UInt8))[position]? ≠ some 0xff := by
    intro count position hbyte
    have hzero := List.eq_of_mem_replicate (List.mem_of_getElem? hbyte)
    contradiction
  rw [List.getElem?_append, length_largestBody] at h
  split_ifs at h with hbody
  · rw [largestBody_eq, List.getElem?_append] at h
    split_ifs at h with hfront
    · exact hhead ⟨index, hfront⟩ h
    · exact absurd h (hzeros _ _)
  · cases hrest : index - 266 with
    | zero =>
        rw [hrest, List.getElem?_cons_zero, Option.some.injEq] at h
        exact absurd h hchecksum
    | succ position =>
        rw [hrest, List.getElem?_cons_succ] at h
        exact absurd h (hzeros _ _)

theorem isPossibleDelimiter_zero (policy : ChecksumPolicy) :
    isPossibleDelimiter 0 policy = false := by
  have hplain : FrameKind.fromDelimiter 0 = none := by decide
  have hrepaired : FrameKind.fromDelimiter 0x10 = none := by decide
  simp [isPossibleDelimiter, hplain, hrepaired]

/-- The frame's own delimiter is the only candidate. -/
theorem index_of_candidate {limits : DecodeLimits} {preambles : UInt8}
    {padding index : Nat} (hminimum : 1 ≤ limits.minimumPreambles.toNat)
    (h : Candidate limits (padded preambles padding) index) :
    index = preambles.toNat := by
  have hget := List.getElem?_eq_getElem h.lt_length
  have hnot := h.not_isPreamble hget
  obtain ⟨byte, hbyte, hpossible, hrun⟩ := h
  have hle := preambleRun_le (padded preambles padding) index
  rw [padded_eq] at hbyte
  rcases Nat.lt_trichotomy index preambles.toNat with hlt | heq | hgt
  · rw [List.getElem?_append_left (by simpa using hlt),
      List.getElem?_replicate, if_pos hlt, Option.some.injEq] at hbyte
    subst hbyte
    rw [not_possible_of_isPreamble _ rfl] at hpossible
    contradiction
  · exact heq
  · have hbefore : index - 1 < (padded preambles padding).length := by
      have hlength := (List.getElem?_eq_some_iff.mp hget).1
      omega
    have hpreamble := isPreamble_of_preambleRun index (index - 1) (by omega)
      (by omega) (List.getElem?_eq_getElem hbefore)
    have hcount : index - 1 - preambles.toNat = 10 := by
      refine @index_of_preamble padding _ ?_
      have hlast := List.getElem?_eq_getElem hbefore
      have hbyte : (padded preambles padding)[index - 1] = 0xff := by
        simpa [isPreamble] using hpreamble
      rw [hbyte, padded_eq, List.getElem?_append_right
        (by rw [List.length_replicate]; omega), List.length_replicate]
        at hlast
      exact hlast
    have hzero : byte = 0 := by
      rw [List.getElem?_append_right (by rw [List.length_replicate]; omega),
        List.length_replicate, show index - preambles.toNat = 11 by omega,
        List.getElem?_append_left (by rw [length_largestBody]; omega)]
        at hbyte
      have heleven : largestBody[11]? = some 0 := by
        rw [largestBody_eq]
        rfl
      rw [heleven, Option.some.injEq] at hbyte
      exact hbyte.symm
    rw [hzero, isPossibleDelimiter_zero] at hpossible
    contradiction

theorem findCandidate_padded_drop {limits : DecodeLimits} {padding lost : Nat}
    (hminimum : 1 ≤ limits.minimumPreambles.toNat) (hlost : 0 < lost) :
    findCandidate ((padded limits.minimumPreambles padding).drop lost)
      limits = none := by
  rw [findCandidate_eq_none_iff]
  intro index hcandidate
  have hindex := index_of_candidate hminimum hcandidate.of_drop
  obtain ⟨byte, -, -, hrun⟩ := hcandidate
  have hle := preambleRun_le
    ((padded limits.minimumPreambles padding).drop lost) index
  omega

theorem judge_tail (limits : DecodeLimits) :
    judge limits
      (List.replicate limits.minimumPreambles.toNat 0xff ++ largestBody) =
        .wait := by
  have hwhole := @judge_encoding limits
    (largestFrame limits.minimumPreambles)
    (largestFrame_encodable limits.minimumPreambles) (UInt8.le_refl _) []
  rw [List.append_nil, Frame.length_encoding, Frame.encoding,
    body_largestFrame, ← List.append_assoc] at hwhole
  cases hjudge : judge limits
      (List.replicate limits.minimumPreambles.toNat 0xff ++ largestBody) with
  | wait => rfl
  | skip count =>
      obtain ⟨extra, hlonger, -⟩ := judge_skip_append
        [xorChecksum largestBody] hjudge
      exact absurd (hwhole.symm.trans hlonger) (by simp)
  | emit event count =>
      have hbounds := judge_emit_bounds hjudge
      have hlonger := judge_emit_append [xorChecksum largestBody] hjudge
      have hsame := hwhole.symm.trans hlonger
      injection hsame with _ hcount
      rw [List.length_append, List.length_replicate] at hbounds
      have hpreambles : (largestFrame limits.minimumPreambles).preambles =
          limits.minimumPreambles := rfl
      rw [hpreambles] at hcount
      omega

theorem decodeAll_zeros (limits : DecodeLimits) (padding : Nat) :
    (decodeAll limits (List.replicate padding 0)).2 = [] := by
  have hnone : findCandidate (List.replicate padding 0) limits = none := by
    rw [findCandidate_eq_none_iff]
    rintro index ⟨byte, hbyte, hpossible, -⟩
    have hzero := List.eq_of_mem_replicate (List.mem_of_getElem? hbyte)
    rw [hzero, isPossibleDelimiter_zero] at hpossible
    contradiction
  rw [decodeAll_of_none hnone]

theorem decodeAll_padded (limits : DecodeLimits) (padding : Nat) :
    (decodeAll limits (padded limits.minimumPreambles padding)).2 =
      [.frame (largestFrame limits.minimumPreambles)] := by
  have hjudge := @judge_encoding limits
    (largestFrame limits.minimumPreambles)
    (largestFrame_encodable limits.minimumPreambles) (UInt8.le_refl _)
    (List.replicate padding 0)
  rw [padded, decodeAll_emit hjudge, List.drop_left, decodeAll_zeros]

namespace FrameDecoder

def tailReads (preambles : UInt8) : List Bytes :=
  (List.replicate preambles.toNat 0xff ++ largestBody).map fun byte => [byte]

def lastRead (size : Nat) : Bytes :=
  xorChecksum largestBody :: List.replicate (size - 1) 0

def losingReads (preambles : UInt8) (size : Nat) : List Bytes :=
  tailReads preambles ++ [lastRead size]

theorem flatten_singletons (bytes : Bytes) :
    (bytes.map fun byte => [byte]).flatten = bytes := by
  induction bytes with
  | nil => rfl
  | cons byte bytes ih =>
      rw [List.map_cons, List.flatten_cons, ih, List.singleton_append]

theorem flatten_tailReads (preambles : UInt8) :
    (tailReads preambles).flatten =
      List.replicate preambles.toNat 0xff ++ largestBody :=
  flatten_singletons _

theorem length_tailReads (preambles : UInt8) :
    (tailReads preambles).flatten.length = preambles.toNat + 266 := by
  rw [flatten_tailReads, List.length_append, List.length_replicate,
    length_largestBody]

theorem flatten_losingReads (preambles : UInt8) (size : Nat) :
    (tailReads preambles).flatten ++ lastRead size =
      padded preambles (size - 1) := by
  rw [padded_eq, flatten_tailReads, lastRead, List.append_assoc]

theorem pushAll_append (decoder : FrameDecoder) (first second : List Bytes) :
    decoder.pushAll (first ++ second) =
      ((decoder.pushAll first).1 ++
          ((decoder.pushAll first).2.pushAll second).1,
        ((decoder.pushAll first).2.pushAll second).2) := by
  induction first generalizing decoder with
  | nil => rfl
  | cons fragment first ih =>
      rw [List.cons_append, pushAll, pushAll]
      dsimp only
      rw [ih, List.append_assoc]

theorem pushAll_singleton (decoder : FrameDecoder) (fragment : Bytes) :
    (decoder.pushAll [fragment]).1 = (decoder.push fragment).1 := by
  simp only [pushAll, List.append_nil]

theorem BelowEventLimit.append {decoder : FrameDecoder}
    {first second : List Bytes} (hfirst : decoder.BelowEventLimit first)
    (hsecond : (decoder.pushAll first).2.BelowEventLimit second) :
    decoder.BelowEventLimit (first ++ second) := by
  induction first generalizing decoder with
  | nil => exact hsecond
  | cons fragment first ih => exact ⟨hfirst.1, ih hfirst.2 hsecond⟩

theorem KeepsAll.belowEventLimit {decoder : FrameDecoder}
    {fragments : List Bytes} (h : decoder.KeepsAll fragments) :
    decoder.BelowEventLimit fragments := by
  induction fragments generalizing decoder with
  | nil => trivial
  | cons fragment fragments ih =>
      obtain ⟨hfits, hevents, hrest⟩ := h
      refine ⟨?_, ih hrest⟩
      rw [push_eq_of_fits hfits hevents]
      exact hevents

section Losing

variable {decoder : FrameDecoder} {size : Nat}

/-- The bytes before the last read fit, and wait for the rest of the frame. -/
theorem pushAll_tail (hempty : decoder.bytes = [])
    (hroom : decoder.limits.minimumPreambles.toNat + 267 ≤
      decoder.limits.bufferCapacity) :
    decoder.KeepsAll (tailReads decoder.limits.minimumPreambles) ∧
      (decoder.pushAll (tailReads decoder.limits.minimumPreambles)).1 = [] ∧
      (decoder.pushAll (tailReads
        decoder.limits.minimumPreambles)).2.limits = decoder.limits ∧
      (decoder.pushAll (tailReads
        decoder.limits.minimumPreambles)).2.bytes =
          (tailReads decoder.limits.minimumPreambles).flatten := by
  have hlength := length_tailReads decoder.limits.minimumPreambles
  obtain ⟨hrest, hevents⟩ := scan_decodeObserver decoder.limits
    (tailReads decoder.limits.minimumPreambles).flatten [] decoder.statistics
  have hwait := judge_tail decoder.limits
  rw [← flatten_tailReads] at hwait
  rw [decodeAll_wait hwait] at hrest hevents
  generalize tailReads decoder.limits.minimumPreambles = reads at *
  have hscan : decoder.scanPush reads.flatten =
      (frameScanner decoder.limits).scan decodeObserver reads.flatten
        ([], decoder.statistics) := by
    rw [scanPush, hempty, List.nil_append]
  have hkeeps : decoder.KeepsAll reads := by
    refine keepsAll_of_total ?_ ?_
    · rw [hempty, hlength, List.length_nil, Nat.zero_add]
      exact Nat.le_of_succ_le hroom
    · rw [hscan, hevents]
      exact Nat.zero_lt_succ _
  have hsettled : decoder.Settled := by
    rw [Settled, hempty]
    exact (frameScanner decoder.limits).judge_nil
  rw [pushAll_eq_scanPush hsettled hkeeps, afterScan, hscan]
  exact ⟨hkeeps, hevents, rfl, hrest⟩

/--
Without room for a read behind the tail, a decoder loses the largest frame that
the unlimited decoder finds.
-/
theorem loses_largestFrame (hempty : decoder.bytes = [])
    (hminimum : 1 ≤ decoder.limits.minimumPreambles.toNat)
    (hroom : decoder.limits.minimumPreambles.toNat + 267 ≤
      decoder.limits.bufferCapacity)
    (hsmall : decoder.limits.bufferCapacity <
      size + decoder.limits.minimumPreambles.toNat + 266) :
    (∀ read ∈ losingReads decoder.limits.minimumPreambles size,
        1 ≤ read.length ∧ read.length ≤ size) ∧
      decoder.BelowEventLimit
        (losingReads decoder.limits.minimumPreambles size) ∧
      (decoder.pushAll
        (losingReads decoder.limits.minimumPreambles size)).1 = [] ∧
      (decoder.pushAllUnlimited
        (losingReads decoder.limits.minimumPreambles size)).1 =
          [.frame (largestFrame decoder.limits.minimumPreambles)] := by
  obtain ⟨hkeeps, hevents, hlimits, hbytes⟩ := pushAll_tail hempty hroom
  have hpadded := flatten_losingReads decoder.limits.minimumPreambles size
  have hlength := length_tailReads decoder.limits.minimumPreambles
  have hlast : (lastRead size).length = size - 1 + 1 := by
    rw [lastRead, List.length_cons, List.length_replicate]
  generalize htail : (decoder.pushAll _).2 = tail at hlimits hbytes
  have hlost : 0 < tail.overflow (lastRead size) := by
    rw [overflow, hbytes, hlimits, hlength, hlast]
    omega
  have hnone : (decodeAll tail.limits
      (tail.appendBounded (lastRead size)).bytes).2 = [] := by
    rw [bytes_appendBounded, hbytes, hlimits, hpadded, decodeAll_of_none
      (findCandidate_padded_drop hminimum hlost)]
  have hfew : (tail.push (lastRead size)).1.length <
      maximumDecodeEventsPerPush := by
    refine length_push_lt ?_
    rw [hnone]
    exact Nat.zero_lt_succ _
  refine ⟨?_, ?_, ?_, ?_⟩
  · intro read hread
    rcases List.mem_append.mp hread with hbyte | hend
    · obtain ⟨byte, -, rfl⟩ := List.mem_map.mp hbyte
      rw [List.length_singleton]
      omega
    · rw [List.mem_singleton.mp hend, hlast]
      omega
  · refine hkeeps.belowEventLimit.append ?_
    rw [htail]
    exact ⟨hfew, trivial⟩
  · have hpush := congrArg Prod.snd (push_eq_decodeAll hfew)
    rw [hnone] at hpush
    rw [losingReads, pushAll_append, hevents, htail, List.nil_append,
      pushAll_singleton]
    exact hpush
  · have hsettled : decoder.Settled := by
      rw [Settled, hempty]
      exact (frameScanner decoder.limits).judge_nil
    rw [pushAllUnlimited_eq _ hsettled, hempty, List.nil_append, losingReads,
      List.flatten_append, List.flatten_singleton, hpadded, decodeAll_padded]

end Losing

/-! ## The event limit -/

def damaged : Bytes := [0xff, 0x02, 0x00, 0x00, 0x00, 0x01]

def damagedLimits : DecodeLimits := ⟨65536, 1, .strict⟩

theorem decodeAll_damaged :
    decodeAll damagedLimits damaged = ([], [.rejected (.checksum 2 1)]) := by
  decide +kernel

theorem decodeAll_noise (count : Nat) (more : Bytes) :
    (decodeAll damagedLimits
      ((List.replicate count damaged).flatten ++ more)).2 =
        List.replicate count (.rejected (.checksum 2 1)) ++
          (decodeAll damagedLimits more).2 := by
  induction count with
  | zero => rfl
  | succ count ih =>
      rw [List.replicate_succ, List.flatten_cons, List.append_assoc,
        decodeAll_append, decodeAll_damaged, List.nil_append, ih]
      rfl

theorem length_noise (count : Nat) :
    (List.replicate count damaged).flatten.length = 6 * count := by
  induction count with
  | zero => rfl
  | succ count ih =>
      have hlength : damaged.length = 6 := rfl
      rw [List.replicate_succ, List.flatten_cons, List.length_append, ih,
        hlength]
      omega

/-- As many damaged candidates as a push may emit events, and a frame. -/
@[irreducible] def denseRead : Bytes :=
  (List.replicate maximumDecodeEventsPerPush damaged).flatten ++ padded 1 0

theorem length_denseRead : denseRead.length = 24844 := by
  have hframe : (padded 1 0).length = 268 := by
    rw [padded_eq, List.length_append, List.length_replicate,
      List.length_append, length_largestBody, List.length_cons,
      List.length_replicate]
    rfl
  rw [denseRead, List.length_append, length_noise, hframe]
  rfl

theorem decodeAll_denseRead :
    (decodeAll damagedLimits denseRead).2 =
      List.replicate maximumDecodeEventsPerPush
          (.rejected (.checksum 2 1)) ++ [.frame (largestFrame 1)] := by
  have hframe : (decodeAll damagedLimits (padded 1 0)).2 =
      [.frame (largestFrame 1)] :=
    decodeAll_padded damagedLimits 0
  rw [denseRead, decodeAll_noise, hframe]

theorem push_of_full {decoder : FrameDecoder} {fragment : Bytes}
    {first rest : List DecodeEvent}
    (h : (decodeAll decoder.limits
      (decoder.appendBounded fragment).bytes).2 = first ++ rest)
    (hfirst : first.length = maximumDecodeEventsPerPush) :
    (decoder.push fragment).1 = first := by
  have hfull : ¬ (decoder.push fragment).1.length <
      maximumDecodeEventsPerPush := by
    intro hfew
    have hevents : (decoder.push fragment).1 = first ++ rest :=
      (congrArg Prod.snd (push_eq_decodeAll hfew)).trans h
    rw [hevents, List.length_append] at hfew
    omega
  have hfirstEvents := push_isFirst hfull
  rw [h] at hfirstEvents
  have hlength := length_collectEvents_le maximumDecodeEventsPerPush
    (decoder.appendBounded fragment)
  rw [← push_fst] at hlength
  have hsame := List.prefix_of_prefix_length_le hfirstEvents
    (List.prefix_append first rest) (by omega)
  exact hsame.eq_of_length (by omega)

theorem push_denseRead :
    ((new damagedLimits).pushAll [denseRead]).1 =
        List.replicate maximumDecodeEventsPerPush
          (.rejected (.checksum 2 1)) ∧
      ((new damagedLimits).pushAllUnlimited [denseRead]).1 =
        List.replicate maximumDecodeEventsPerPush
          (.rejected (.checksum 2 1)) ++ [.frame (largestFrame 1)] := by
  have hlimits : (new damagedLimits).limits = damagedLimits := by
    decide +kernel
  have hempty : (new damagedLimits).bytes = [] := rfl
  have hbytes : ((new damagedLimits).appendBounded denseRead).bytes =
      denseRead := by
    have hfits : 0 + 24844 - damagedLimits.bufferCapacity = 0 := by decide
    rw [bytes_appendBounded, overflow, hempty, hlimits, length_denseRead,
      List.length_nil, hfits, List.drop_zero, List.nil_append]
  have hdecoded := decodeAll_denseRead
  constructor
  · rw [pushAll_singleton]
    refine @push_of_full _ _ _ [.frame (largestFrame 1)] ?_
      List.length_replicate
    rw [hbytes, hlimits]
    exact hdecoded
  · rw [pushAllUnlimited_eq _ (settled_new _), hempty, hlimits,
      List.nil_append, List.flatten_singleton, hdecoded]

end FrameDecoder

end HartLink.Wire
