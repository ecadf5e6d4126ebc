import HartLink.Wire.Decoder
import HartLink.Wire.FrameCodec

/-!
# Candidates and what the analysis of a buffer can do

`Candidate` says, position by position, where the search may stop, and
`findCandidate_eq_some_iff` identifies the search with the first such position.
`analyzeCandidate_cases` lists everything one analysis of the buffer can do.
Later results use these two facts and do not unfold the decoder again.
-/

namespace HartLink.Wire

open HartLink.Foundation

theorem not_possible_of_isPreamble {byte : UInt8} (policy : ChecksumPolicy)
    (h : isPreamble byte = true) : isPossibleDelimiter byte policy = false := by
  obtain rfl : byte = 0xff := by simpa [isPreamble] using h
  have hplain : FrameKind.fromDelimiter 0xff = none := by decide
  have hrepaired : FrameKind.fromDelimiter (0xff ^^^ 0x10) = none := by decide
  simp [isPossibleDelimiter, hplain, hrepaired]

/-! ## Candidate positions -/

/-- Number of consecutive preambles directly before a position. -/
def preambleRun (bytes : Bytes) (index : Nat) : Nat :=
  trailingCount isPreamble (bytes.take index)

def Candidate (limits : DecodeLimits) (bytes : Bytes) (index : Nat) : Prop :=
  ∃ byte, bytes[index]? = some byte ∧
    isPossibleDelimiter byte limits.checksumPolicy = true ∧
    limits.minimumPreambles.toNat ≤ preambleRun bytes index

theorem preambleRun_le (bytes : Bytes) (index : Nat) :
    preambleRun bytes index ≤ index := by
  have h := trailingCount_le_length isPreamble (bytes.take index)
  rw [List.length_take] at h
  unfold preambleRun
  omega

theorem preambleRun_append {bytes : Bytes} {index : Nat} (more : Bytes)
    (h : index ≤ bytes.length) :
    preambleRun (bytes ++ more) index = preambleRun bytes index := by
  simp [preambleRun, List.take_append_of_le_length h]

theorem preambleRun_drop {bytes : Bytes} {n index : Nat}
    (h : n + index ≤ bytes.length) :
    preambleRun (bytes.drop n) index =
      min (preambleRun bytes (n + index)) index := by
  rw [preambleRun, List.take_drop, trailingCount_drop, List.length_take,
    Nat.min_eq_left h, Nat.add_sub_cancel_left, preambleRun]

theorem isPreamble_of_preambleRun {bytes : Bytes} (index position : Nat)
    (hlow : index - preambleRun bytes index ≤ position)
    (hhigh : position < index) {byte : UInt8}
    (hbyte : bytes[position]? = some byte) : isPreamble byte = true := by
  apply getElem?_of_trailingCount isPreamble (bytes.take index) position
  · have hlength := List.length_take_le index bytes
    unfold preambleRun at hlow
    omega
  · rwa [List.getElem?_take_of_lt hhigh]

namespace Candidate

variable {limits : DecodeLimits} {bytes : Bytes} {index : Nat}

theorem lt_length (h : Candidate limits bytes index) :
    index < bytes.length := by
  obtain ⟨byte, hbyte, -⟩ := h
  exact (List.getElem?_eq_some_iff.mp hbyte).1

theorem not_isPreamble (h : Candidate limits bytes index) {byte : UInt8}
    (hbyte : bytes[index]? = some byte) : isPreamble byte = false := by
  obtain ⟨found, hfound, hpossible, -⟩ := h
  rw [hbyte, Option.some.injEq] at hfound
  subst found
  by_contra hpreamble
  rw [Bool.not_eq_false] at hpreamble
  rw [not_possible_of_isPreamble _ hpreamble] at hpossible
  contradiction

theorem append_iff (more : Bytes) (h : index < bytes.length) :
    Candidate limits (bytes ++ more) index ↔ Candidate limits bytes index := by
  unfold Candidate
  rw [List.getElem?_append_left h, preambleRun_append more h.le]

theorem drop {n : Nat} (h : Candidate limits bytes index)
    (hn : n + limits.minimumPreambles.toNat ≤ index) :
    Candidate limits (bytes.drop n) (index - n) := by
  have hlt := h.lt_length
  obtain ⟨byte, hbyte, hpossible, hrun⟩ := h
  refine ⟨byte, ?_, hpossible, ?_⟩
  · rwa [List.getElem?_drop, Nat.add_sub_cancel' (by omega)]
  · rw [preambleRun_drop (by omega), Nat.add_sub_cancel' (by omega)]
    omega

theorem of_drop {n : Nat} (h : Candidate limits (bytes.drop n) index) :
    Candidate limits bytes (n + index) := by
  have hlt := h.lt_length
  rw [List.length_drop] at hlt
  obtain ⟨byte, hbyte, hpossible, hrun⟩ := h
  refine ⟨byte, ?_, hpossible, ?_⟩
  · rwa [List.getElem?_drop] at hbyte
  · rw [preambleRun_drop (by omega)] at hrun
    omega

end Candidate

/-! ## The search -/

theorem candidateAt_eq {bytes : Bytes} {limits : DecodeLimits} {index : Nat}
    {byte : UInt8} (h : index ≤ bytes.length) :
    candidateAt bytes limits index byte =
      if isPossibleDelimiter byte limits.checksumPolicy = true ∧
          limits.minimumPreambles.toNat ≤ preambleRun bytes index then
        some (index, index - min (preambleRun bytes index) 255,
          min (preambleRun bytes index) 255)
      else none := by
  have hlength : (bytes.take index).length = index :=
    List.length_take_of_le h
  have hstart := rposition_not isPreamble (bytes.take index)
  have hrun := preambleRun_le bytes index
  have hcount : index - (index - trailingCount isPreamble (bytes.take index)) =
      preambleRun bytes index := by
    unfold preambleRun at hrun ⊢
    omega
  simp only [candidateAt, hstart, hlength, hcount]
  by_cases hpossible : isPossibleDelimiter byte limits.checksumPolicy = true
  · simp [hpossible]
  · simp [hpossible]

theorem findCandidate_eq_none_iff (bytes : Bytes) (limits : DecodeLimits) :
    findCandidate bytes limits = none ↔
      ∀ index, ¬ Candidate limits bytes index := by
  rw [findCandidate, findSome?_zipIdx_eq_none_iff]
  constructor
  · rintro h index ⟨byte, hbyte, hpossible, hrun⟩
    have hle := (List.getElem?_eq_some_iff.mp hbyte).1.le
    have hnone := h index byte hbyte
    rw [candidateAt_eq hle, if_pos ⟨hpossible, hrun⟩] at hnone
    contradiction
  · intro h index byte hbyte
    have hle := (List.getElem?_eq_some_iff.mp hbyte).1.le
    rw [candidateAt_eq hle, if_neg]
    rintro ⟨hpossible, hrun⟩
    exact h index ⟨byte, hbyte, hpossible, hrun⟩

theorem findCandidate_eq_some_iff (bytes : Bytes) (limits : DecodeLimits)
    (index start count : Nat) :
    findCandidate bytes limits = some (index, start, count) ↔
      Candidate limits bytes index ∧
        (∀ earlier < index, ¬ Candidate limits bytes earlier) ∧
        count = min (preambleRun bytes index) 255 ∧ start = index - count := by
  rw [findCandidate, findSome?_zipIdx_eq_some_iff]
  constructor
  · rintro ⟨i, byte, hbyte, hfound, hbefore⟩
    have hle := (List.getElem?_eq_some_iff.mp hbyte).1.le
    rw [candidateAt_eq hle] at hfound
    split_ifs at hfound with hcandidate
    simp only [Option.some.injEq, Prod.mk.injEq] at hfound
    obtain ⟨rfl, rfl, rfl⟩ := hfound
    refine ⟨⟨byte, hbyte, hcandidate⟩, ?_, rfl, rfl⟩
    rintro earlier hlt ⟨other, hother, hpossible, hrun⟩
    have hnone := hbefore earlier hlt other hother
    rw [candidateAt_eq (by omega), if_pos ⟨hpossible, hrun⟩] at hnone
    contradiction
  · rintro ⟨⟨byte, hbyte, hpossible, hrun⟩, hbefore, rfl, rfl⟩
    have hle := (List.getElem?_eq_some_iff.mp hbyte).1.le
    refine ⟨index, byte, hbyte, ?_, ?_⟩
    · rw [candidateAt_eq hle, if_pos ⟨hpossible, hrun⟩]
    · intro earlier hlt other hother
      rw [candidateAt_eq (by omega), if_neg]
      rintro ⟨hpossible, hrun⟩
      exact hbefore earlier hlt ⟨other, hother, hpossible, hrun⟩

/-! ## Length and completeness of a candidate -/

def readDelimiter (limits : DecodeLimits) (bytes : Bytes) (index : Nat) :
    UInt8 :=
  (effectiveDelimiter limits.checksumPolicy (bytes.getD index 0)).1

def countPosition (limits : DecodeLimits) (bytes : Bytes) (index : Nat) : Nat :=
  index + 1 + addressLen (readDelimiter limits bytes index) +
    expansionLen (readDelimiter limits bytes index) + 1

/--
Position after the checksum that a candidate declares.  While the count byte is
still missing this is the end of the shortest candidate, which lies behind the
buffer as well.
-/
def declaredEnd (limits : DecodeLimits) (bytes : Bytes) (index : Nat) : Nat :=
  countPosition limits bytes index + 1 +
    (bytes.getD (countPosition limits bytes index) 0).toNat + 1

theorem addressLen_le (delimiter : UInt8) : addressLen delimiter ≤ 5 := by
  unfold addressLen
  split <;> omega

theorem addressLen_pos (delimiter : UInt8) : 0 < addressLen delimiter := by
  unfold addressLen
  split <;> omega

theorem expansionLen_le (delimiter : UInt8) : expansionLen delimiter ≤ 3 := by
  revert delimiter
  exact forall_byte (by decide +kernel)

theorem declaredEnd_le (limits : DecodeLimits) (bytes : Bytes) (index : Nat) :
    declaredEnd limits bytes index ≤ index + 267 := by
  have haddress := addressLen_le (readDelimiter limits bytes index)
  have hexpansion := expansionLen_le (readDelimiter limits bytes index)
  have hcount :=
    (bytes.getD (countPosition limits bytes index) 0).toNat_lt
  have hposition : countPosition limits bytes index ≤ index + 10 := by
    unfold countPosition
    omega
  unfold declaredEnd
  omega

theorem lt_declaredEnd (limits : DecodeLimits) (bytes : Bytes) (index : Nat) :
    index + 4 < declaredEnd limits bytes index := by
  have haddress := addressLen_pos (readDelimiter limits bytes index)
  have hposition : index + 3 ≤ countPosition limits bytes index := by
    unfold countPosition
    omega
  unfold declaredEnd
  omega

theorem getD_append {bytes : Bytes} {index : Nat} (more : Bytes)
    (h : index < bytes.length) :
    (bytes ++ more).getD index 0 = bytes.getD index 0 := by
  simp [List.getD_eq_getElem?_getD, List.getElem?_append_left h]

theorem countPosition_append {limits : DecodeLimits} {bytes : Bytes}
    {index : Nat} (more : Bytes) (h : index < bytes.length) :
    countPosition limits (bytes ++ more) index =
      countPosition limits bytes index := by
  simp only [countPosition, readDelimiter, getD_append more h]

theorem declaredEnd_append {limits : DecodeLimits} {bytes : Bytes}
    {index : Nat} (more : Bytes)
    (h : declaredEnd limits bytes index ≤ bytes.length) :
    declaredEnd limits (bytes ++ more) index =
      declaredEnd limits bytes index := by
  have hindex := lt_declaredEnd limits bytes index
  have hcount : countPosition limits bytes index < bytes.length := by
    unfold declaredEnd at h
    omega
  unfold declaredEnd
  rw [countPosition_append more (by omega), getD_append more hcount]

/-! ## Everything one analysis can do -/

theorem slice_append {bytes : Bytes} {start stop : Nat} (more : Bytes)
    (h : stop ≤ bytes.length) :
    slice (bytes ++ more) start stop = slice bytes start stop := by
  unfold slice
  by_cases hle : start ≤ stop
  · rw [List.drop_append_of_le_length (by omega),
      List.take_append_of_le_length (by rw [List.length_drop]; omega)]
  · have hzero : stop - start = 0 := by omega
    simp [hzero]

theorem length_slice {bytes : Bytes} {start stop : Nat}
    (h : stop ≤ bytes.length) :
    (slice bytes start stop).length = stop - start := by
  simp only [slice, List.length_take, List.length_drop]
  omega

theorem fromDelimiter_effectiveDelimiter {byte : UInt8}
    {policy : ChecksumPolicy} (h : isPossibleDelimiter byte policy = true) :
    (FrameKind.fromDelimiter (effectiveDelimiter policy byte).1).isSome := by
  unfold isPossibleDelimiter at h
  unfold effectiveDelimiter
  cases hplain : FrameKind.fromDelimiter byte with
  | some kind => simp [hplain]
  | none =>
      simp only [hplain, Option.isSome_none, Bool.false_or,
        Bool.and_eq_true] at h
      simp [h.1, h.2]

/-- The analysis of a complete candidate whose preambles start the buffer. -/
def analyzeCandidate (limits : DecodeLimits) (bytes : Bytes)
    (index count : Nat) : DecoderStep :=
  analyzeComplete bytes limits.checksumPolicy index count
    (countPosition limits bytes index) (declaredEnd limits bytes index - 1)
    (readDelimiter limits bytes index)
    (effectiveDelimiter limits.checksumPolicy (bytes.getD index 0)).2

theorem analyze_of_none {bytes : Bytes} {limits : DecodeLimits}
    (h : findCandidate bytes limits = none) :
    analyze bytes limits = .noCandidate := by
  simp [analyze, h]

theorem analyze_of_some {bytes : Bytes} {limits : DecodeLimits}
    {index start count : Nat}
    (h : findCandidate bytes limits = some (index, start, count)) :
    analyze bytes limits =
      if start > 0 then .discard start
      else if bytes.length < declaredEnd limits bytes index then .needMore
      else analyzeCandidate limits bytes index count := by
  have hunfold : analyze bytes limits =
      if start > 0 then .discard start
      else if bytes.length ≤ countPosition limits bytes index then .needMore
      else if bytes.length ≤ countPosition limits bytes index + 1 +
          (bytes.getD (countPosition limits bytes index) 0).toNat then
        .needMore
      else analyzeCandidate limits bytes index count := by
    unfold analyze
    rw [h]
    rfl
  rw [hunfold]
  by_cases hstart : start > 0
  · rw [if_pos hstart, if_pos hstart]
  rw [if_neg hstart, if_neg hstart]
  by_cases hend : bytes.length < declaredEnd limits bytes index
  · rw [if_pos hend]
    by_cases hcount : bytes.length ≤ countPosition limits bytes index
    · rw [if_pos hcount]
    · unfold declaredEnd at hend
      rw [if_neg hcount, if_pos (by omega)]
  · rw [if_neg hend]
    unfold declaredEnd at hend
    rw [if_neg (by omega), if_neg (by omega)]

theorem analyzeCandidate_cases {limits : DecodeLimits} {bytes : Bytes}
    {index : Nat} (count : Nat) (hcandidate : Candidate limits bytes index)
    (hcomplete : declaredEnd limits bytes index ≤ bytes.length) :
    (∃ expected actual, analyzeCandidate limits bytes index count =
      .rejected (.checksum expected actual) (index + 1) true) ∨
    ∃ frame : Frame, analyzeCandidate limits bytes index count =
      .frame frame (declaredEnd limits bytes index) frame.repair.isSome := by
  have hposition : countPosition limits bytes index + 1 <
      declaredEnd limits bytes index := by
    unfold declaredEnd
    omega
  have hstop : declaredEnd limits bytes index - 1 + 1 =
      declaredEnd limits bytes index := by omega
  have hkind : (FrameKind.fromDelimiter
      (readDelimiter limits bytes index)).isSome := by
    obtain ⟨byte, hbyte, hpossible, -⟩ := hcandidate
    have hgetD : bytes.getD index 0 = byte := by
      simp [List.getD_eq_getElem?_getD, hbyte]
    rw [readDelimiter, hgetD]
    exact fromDelimiter_effectiveDelimiter hpossible
  obtain ⟨kind, hkind⟩ := Option.isSome_iff_exists.mp hkind
  have haddress : (slice bytes (index + 1) (index + 1 +
      addressLen (readDelimiter limits bytes index))).length =
      if isLong (readDelimiter limits bytes index) then 5 else 1 := by
    rw [length_slice, Nat.add_sub_cancel_left, addressLen]
    unfold countPosition at hposition
    omega
  obtain ⟨address, hread, -, -⟩ := Address.readFrom_ok haddress
  unfold analyzeCandidate analyzeComplete
  simp only [hread, hkind, hstop]
  split_ifs
  all_goals first
    | exact .inl ⟨_, _, rfl⟩
    | exact .inr ⟨_, rfl⟩

/-! ## Stability under more input and under dropped leading bytes -/

theorem findCandidate_append {bytes : Bytes} {limits : DecodeLimits}
    {index start count : Nat} (more : Bytes)
    (h : findCandidate bytes limits = some (index, start, count)) :
    findCandidate (bytes ++ more) limits = some (index, start, count) := by
  rw [findCandidate_eq_some_iff] at h ⊢
  obtain ⟨hcandidate, hbefore, hcount, hstart⟩ := h
  have hlt := hcandidate.lt_length
  refine ⟨(Candidate.append_iff more hlt).mpr hcandidate, ?_, ?_, hstart⟩
  · intro earlier hearlier hother
    exact hbefore earlier hearlier
      ((Candidate.append_iff more (by omega)).mp hother)
  · rw [preambleRun_append more hlt.le, hcount]

theorem findCandidate_drop {bytes : Bytes} {limits : DecodeLimits}
    {index start count n : Nat}
    (h : findCandidate bytes limits = some (index, start, count))
    (hn : n ≤ start) :
    findCandidate (bytes.drop n) limits =
      some (index - n, start - n, count) := by
  rw [findCandidate_eq_some_iff] at h ⊢
  obtain ⟨hcandidate, hbefore, hcount, hstart⟩ := h
  have hlt := hcandidate.lt_length
  have hrun := preambleRun_le bytes index
  have hminimum := limits.minimumPreambles.toNat_lt
  have hrequired : limits.minimumPreambles.toNat ≤ preambleRun bytes index := by
    obtain ⟨-, -, -, hrequired⟩ := hcandidate
    exact hrequired
  refine ⟨hcandidate.drop (by omega), ?_, ?_, by omega⟩
  · intro earlier hearlier hother
    exact hbefore (n + earlier) (by omega) hother.of_drop
  · rw [preambleRun_drop (by omega), Nat.add_sub_cancel' (by omega)]
    omega

theorem analyzeCandidate_append {limits : DecodeLimits} {bytes : Bytes}
    {index count : Nat} (more : Bytes)
    (h : declaredEnd limits bytes index ≤ bytes.length) :
    analyzeCandidate limits (bytes ++ more) index count =
      analyzeCandidate limits bytes index count := by
  have hindex := lt_declaredEnd limits bytes index
  have hposition : countPosition limits bytes index + 1 <
      declaredEnd limits bytes index := by
    unfold declaredEnd
    omega
  have hdelimiter : readDelimiter limits (bytes ++ more) index =
      readDelimiter limits bytes index := by
    rw [readDelimiter, readDelimiter, getD_append more (by omega)]
  have haddress : index + 1 + addressLen (readDelimiter limits bytes index) ≤
      countPosition limits bytes index := by
    unfold countPosition
    omega
  have hbytes : ∀ position < declaredEnd limits bytes index,
      (bytes ++ more).getD position 0 = bytes.getD position 0 :=
    fun position hlt => getD_append more (by omega)
  have hslices : ∀ start stop, stop < declaredEnd limits bytes index →
      slice (bytes ++ more) start stop = slice bytes start stop :=
    fun start stop hlt => slice_append more (by omega)
  unfold analyzeCandidate analyzeComplete
  simp only [declaredEnd_append more h, hdelimiter,
    countPosition_append more (show index < bytes.length by omega)]
  simp only [hbytes index (by omega), hbytes (index + 1) (by omega),
    hbytes (declaredEnd limits bytes index - 1) (by omega),
    hbytes (countPosition limits bytes index - 1) (by omega),
    hslices index (declaredEnd limits bytes index - 1) (by omega),
    hslices (countPosition limits bytes index + 1)
      (declaredEnd limits bytes index - 1) (by omega),
    hslices (index + 1)
      (index + 1 + addressLen (readDelimiter limits bytes index)) (by omega),
    hslices (index + 1 + addressLen (readDelimiter limits bytes index))
      (countPosition limits bytes index - 1) (by omega)]

theorem getD_drop (bytes : Bytes) (offset index : Nat) :
    (bytes.drop offset).getD index 0 = bytes.getD (offset + index) 0 := by
  simp [List.getD_eq_getElem?_getD]

theorem slice_drop (bytes : Bytes) (offset start stop : Nat) :
    slice (bytes.drop offset) start stop =
      slice bytes (offset + start) (offset + stop) := by
  rw [slice, slice, List.drop_drop, Nat.add_sub_add_left]

theorem readDelimiter_drop (limits : DecodeLimits) (bytes : Bytes)
    (offset index : Nat) :
    readDelimiter limits (bytes.drop offset) index =
      readDelimiter limits bytes (offset + index) := by
  rw [readDelimiter, readDelimiter, getD_drop]

theorem countPosition_drop (limits : DecodeLimits) (bytes : Bytes)
    (offset index : Nat) :
    offset + countPosition limits (bytes.drop offset) index =
      countPosition limits bytes (offset + index) := by
  simp only [countPosition, readDelimiter_drop]
  omega

theorem declaredEnd_drop (limits : DecodeLimits) (bytes : Bytes)
    (offset index : Nat) :
    offset + declaredEnd limits (bytes.drop offset) index =
      declaredEnd limits bytes (offset + index) := by
  rw [declaredEnd, getD_drop, countPosition_drop, declaredEnd,
    ← countPosition_drop limits bytes offset index]
  omega

/-- The same step on a buffer with some bytes more in front. -/
def DecoderStep.shift (offset : Nat) (preambles : UInt8) :
    DecoderStep → DecoderStep
  | .rejected error consumed checksumFailure =>
      .rejected error (offset + consumed) checksumFailure
  | .frame found consumed repaired =>
      .frame { found with preambles } (offset + consumed) repaired
  | step => step

theorem analyzeComplete_drop (bytes : Bytes) (policy : ChecksumPolicy)
    (offset delimiterIndex preambleCount preambleCount' checksumIndex : Nat)
    {countIndex : Nat} (delimiter : UInt8)
    (delimiterRepair : Option FrameRepair) (hcount : 1 ≤ countIndex) :
    analyzeComplete bytes policy (offset + delimiterIndex) preambleCount
        (offset + countIndex) (offset + checksumIndex) delimiter
        delimiterRepair =
      (analyzeComplete (bytes.drop offset) policy delimiterIndex
        preambleCount' countIndex checksumIndex delimiter
        delimiterRepair).shift offset
          (UInt8.ofNat (min preambleCount 255)) := by
  have hcommand : offset + countIndex - 1 = offset + (countIndex - 1) :=
    Nat.add_sub_assoc hcount offset
  unfold analyzeComplete
  simp only [getD_drop, slice_drop, hcommand, Nat.add_assoc]
  cases Address.readFrom (slice bytes (offset + (delimiterIndex + 1))
      (offset + (delimiterIndex + (1 + addressLen delimiter))))
      (isLong delimiter) with
  | error error =>
      dsimp only
      split_ifs <;> rfl
  | ok address =>
      dsimp only
      cases FrameKind.fromDelimiter delimiter with
      | none =>
          dsimp only
          split_ifs <;> rfl
      | some kind =>
          dsimp only
          split_ifs <;> rfl

theorem analyzeCandidate_drop (limits : DecodeLimits) (bytes : Bytes)
    (offset index count count' : Nat) :
    analyzeCandidate limits bytes (offset + index) count =
      (analyzeCandidate limits (bytes.drop offset) index count').shift offset
        (UInt8.ofNat (min count 255)) := by
  have hposition : 1 ≤ countPosition limits (bytes.drop offset) index := by
    unfold countPosition
    omega
  have hend : declaredEnd limits bytes (offset + index) - 1 =
      offset + (declaredEnd limits (bytes.drop offset) index - 1) := by
    have hlater := lt_declaredEnd limits (bytes.drop offset) index
    rw [← declaredEnd_drop]
    omega
  unfold analyzeCandidate
  rw [hend, ← countPosition_drop, readDelimiter_drop, getD_drop]
  exact analyzeComplete_drop bytes limits.checksumPolicy offset index count
    count' _ _ _ hposition

end HartLink.Wire
