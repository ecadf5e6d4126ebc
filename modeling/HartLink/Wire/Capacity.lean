import HartLink.Wire.Approach

/-!
# Decoding with and without limits

The unlimited decoder keeps every byte and every event.  A bounded decoder that
overflows loses the front of its buffer.  As long as it loses nothing but
preambles in excess of the minimum, its buffer trails that of the unlimited
decoder, and both emit the same frames but for the number of preambles.
-/

namespace HartLink.Wire

open HartLink.Foundation

/-! ## The unlimited decoder -/

namespace FrameDecoder

/--
A push without limits: each event consumes a byte, so the loop of `push` never
runs out of room.
-/
def pushUnlimited (decoder : FrameDecoder) (fragment : Bytes) :
    List DecodeEvent × FrameDecoder :=
  collectEvents (decoder.bytes.length + fragment.length + 1)
    { decoder with bytes := decoder.bytes ++ fragment }

def pushAllUnlimited (decoder : FrameDecoder) :
    List Bytes → List DecodeEvent × FrameDecoder
  | [] => ([], decoder)
  | fragment :: fragments =>
      let (events, decoder) := decoder.pushUnlimited fragment
      let (later, decoder) := pushAllUnlimited decoder fragments
      (events ++ later, decoder)

end FrameDecoder

def DecodeEvent.erasePreambles : DecodeEvent → DecodeEvent
  | .frame found => .frame { found with preambles := 0 }
  | .rejected error => .rejected error

def DecodeEvent.frame? : DecodeEvent → Option Frame
  | .frame found => some { found with preambles := 0 }
  | .rejected _ => none

/-! ## One scan of the whole buffer -/

/-- What a buffer decodes to: the rest that waits, and the events. -/
def decodeAll (limits : DecodeLimits) (bytes : Bytes) :
    Bytes × List DecodeEvent :=
  (frameScanner limits).scan eventObserver bytes []

section DecodeAll

variable {limits : DecodeLimits} {bytes : Bytes}

theorem scan_eventObserver (limits : DecodeLimits) (bytes : Bytes)
    (events : List DecodeEvent) :
    (frameScanner limits).scan eventObserver bytes events =
      ((decodeAll limits bytes).1, events ++ (decodeAll limits bytes).2) := by
  have hmap := (frameScanner limits).scan_map eventObserver eventObserver
    (fun log => events ++ log) (fun _ _ => rfl)
    (fun _ _ _ => by simp [eventObserver]) bytes []
  rw [List.append_nil] at hmap
  exact hmap

theorem scan_decodeObserver (limits : DecodeLimits) (bytes : Bytes)
    (events : List DecodeEvent) (statistics : DecodeStatistics) :
    ((frameScanner limits).scan decodeObserver bytes (events, statistics)).1 =
        (decodeAll limits bytes).1 ∧
      ((frameScanner limits).scan decodeObserver bytes
        (events, statistics)).2.1 =
          events ++ (decodeAll limits bytes).2 := by
  have hmap := (frameScanner limits).scan_map decodeObserver eventObserver
    Prod.fst (fun _ _ => rfl) (fun _ _ _ => rfl) bytes (events, statistics)
  rw [scan_eventObserver] at hmap
  exact ⟨(congrArg Prod.fst hmap).symm, (congrArg Prod.snd hmap).symm⟩

theorem decodeAll_wait (h : judge limits bytes = .wait) :
    decodeAll limits bytes = (bytes, []) :=
  Scanner.scan_wait _ _ _ h

theorem decodeAll_skip {count : Nat} (h : judge limits bytes = .skip count) :
    decodeAll limits bytes = decodeAll limits (bytes.drop count) :=
  Scanner.scan_skip _ _ _ h

theorem decodeAll_emit {event : DecodeEvent} {count : Nat}
    (h : judge limits bytes = .emit event count) :
    decodeAll limits bytes =
      ((decodeAll limits (bytes.drop count)).1,
        event :: (decodeAll limits (bytes.drop count)).2) := by
  rw [decodeAll, Scanner.scan_emit _ _ _ h]
  exact scan_eventObserver limits _ [event]

theorem decodeAll_append (limits : DecodeLimits) (bytes more : Bytes) :
    decodeAll limits (bytes ++ more) =
      ((decodeAll limits ((decodeAll limits bytes).1 ++ more)).1,
        (decodeAll limits bytes).2 ++
          (decodeAll limits ((decodeAll limits bytes).1 ++ more)).2) := by
  rw [decodeAll, Scanner.scan_append]
  exact scan_eventObserver limits _ _

theorem decodeAll_of_none (h : findCandidate bytes limits = none) :
    decodeAll limits bytes =
      (bytes.drop (bytes.length - retainedPreambles bytes), []) := by
  have hscan := @FrameDecoder.scanFrom_retainPossiblePreambles
    ⟨bytes, limits, {}⟩ h []
  obtain ⟨hrest, hevents⟩ := scan_decodeObserver limits bytes [] {}
  rw [FrameDecoder.scanFrom] at hscan
  rw [hscan] at hrest hevents
  refine Prod.ext ?_ hevents.symm
  rw [← hrest]
  simp [FrameDecoder.retainPossiblePreambles, FrameDecoder.discard,
    retainedPreambles]

theorem decodeAll_of_some {index start count : Nat}
    (h : findCandidate bytes limits = some (index, start, count)) :
    decodeAll limits bytes = decodeAll limits (bytes.drop start) := by
  by_cases hstart : start > 0
  · refine decodeAll_skip ?_
    simp only [judge, analyze_of_some h, if_pos hstart]
  · have hzero : start = 0 := by omega
    rw [hzero, List.drop_zero]

end DecodeAll

/-! ## Buffers that differ in surplus preambles -/

/--
The kept bytes are the whole ones without some preambles in front, and enough
preambles are left.
-/
def Trails (minimum : Nat) (whole kept : Bytes) : Prop :=
  ∃ surplus, kept = whole.drop surplus ∧
    (surplus = 0 ∨ surplus + minimum ≤ leadingCount isPreamble whole)

section Trails

variable {limits : DecodeLimits} {minimum surplus : Nat}
  {whole kept bytes : Bytes}

theorem Trails.refl (minimum : Nat) (bytes : Bytes) :
    Trails minimum bytes bytes :=
  ⟨0, rfl, .inl rfl⟩

theorem Trails.append (h : Trails minimum whole kept) (more : Bytes) :
    Trails minimum (whole ++ more) (kept ++ more) := by
  obtain ⟨surplus, rfl, hsurplus⟩ := h
  have hlength := leadingCount_le_length isPreamble whole
  have hleading := leadingCount_le_append isPreamble whole more
  refine ⟨surplus, (List.drop_append_of_le_length (by omega)).symm, ?_⟩
  omega

theorem Trails.drop (h : Trails minimum whole kept) {count : Nat}
    (hcount : count = 0 ∨ count + minimum ≤ leadingCount isPreamble kept) :
    Trails minimum whole (kept.drop count) := by
  obtain ⟨surplus, rfl, hsurplus⟩ := h
  have hleading := @leadingCount_drop _ isPreamble whole surplus (by omega)
  rw [hleading] at hcount
  refine ⟨surplus + count, List.drop_drop, ?_⟩
  omega

theorem Candidate.leadingCount_le {index : Nat}
    (h : Candidate limits bytes index) :
    leadingCount isPreamble bytes ≤ index := by
  by_contra hlt
  have hget := List.getElem?_eq_getElem h.lt_length
  have hpreamble := getElem?_of_leadingCount isPreamble bytes index
    (by omega) _ hget
  rw [h.not_isPreamble hget] at hpreamble
  contradiction

theorem trails_of_none (h : findCandidate bytes limits = none)
    (hminimum : minimum ≤ 255)
    (hsurplus : surplus + minimum ≤ leadingCount isPreamble bytes) :
    Trails minimum (decodeAll limits bytes).1
        (decodeAll limits (bytes.drop surplus)).1 ∧
      (decodeAll limits (bytes.drop surplus)).2 =
        (decodeAll limits bytes).2 := by
  have hdropped : findCandidate (bytes.drop surplus) limits = none := by
    rw [findCandidate_eq_none_iff] at h ⊢
    exact fun index hcandidate => h _ hcandidate.of_drop
  have hlength := leadingCount_le_length isPreamble bytes
  have htrailing := trailingCount_le_length isPreamble bytes
  rw [decodeAll_of_none h, decodeAll_of_none hdropped]
  refine ⟨?_, rfl⟩
  dsimp only
  rw [List.drop_drop, List.length_drop]
  have hkept : retainedPreambles (bytes.drop surplus) =
      min (min (trailingCount isPreamble bytes) (bytes.length - surplus))
        255 := by
    rw [retainedPreambles, trailingCount_drop]
  by_cases hshort : trailingCount isPreamble bytes ≤ bytes.length - surplus
  · have hsame : surplus + (bytes.length - surplus -
        retainedPreambles (bytes.drop surplus)) =
        bytes.length - retainedPreambles bytes := by
      rw [hkept, retainedPreambles]
      omega
    rw [hsame]
    exact .refl _ _
  · -- only preambles were buffered
    have hall := trailingCount_eq_length_of_overlap isPreamble bytes
      (by omega)
    have hleading := leadingCount_eq_length isPreamble hall
    have hdrop := @leadingCount_drop _ isPreamble bytes
      (bytes.length - retainedPreambles bytes) (by omega)
    refine ⟨retainedPreambles bytes - retainedPreambles (bytes.drop surplus),
      ?_, ?_⟩
    · rw [List.drop_drop]
      congr 1
      rw [hkept, retainedPreambles]
      omega
    · right
      rw [hdrop, hkept, retainedPreambles]
      omega

theorem findCandidate_drop_leading {index start count : Nat}
    (h : findCandidate bytes limits = some (index, start, count))
    (hsurplus : surplus + limits.minimumPreambles.toNat ≤
      leadingCount isPreamble bytes) :
    findCandidate (bytes.drop surplus) limits =
      some (index - surplus,
        index - surplus - min (min (preambleRun bytes index)
          (index - surplus)) 255,
        min (min (preambleRun bytes index) (index - surplus)) 255) := by
  rw [findCandidate_eq_some_iff] at h ⊢
  obtain ⟨hcandidate, hbefore, -, -⟩ := h
  have hleading := hcandidate.leadingCount_le
  have hlt := hcandidate.lt_length
  refine ⟨hcandidate.drop (by omega), ?_, ?_, rfl⟩
  · intro earlier hearlier hother
    exact hbefore (surplus + earlier) (by omega) hother.of_drop
  · rw [preambleRun_drop (by omega), Nat.add_sub_cancel' (by omega)]

theorem trails_of_aligned {index : Nat}
    (h : findCandidate bytes limits = some (index, 0, index))
    (hsurplus : surplus + limits.minimumPreambles.toNat ≤ index) :
    Trails limits.minimumPreambles.toNat (decodeAll limits bytes).1
        (decodeAll limits (bytes.drop surplus)).1 ∧
      (decodeAll limits (bytes.drop surplus)).2.map
          DecodeEvent.erasePreambles =
        (decodeAll limits bytes).2.map DecodeEvent.erasePreambles := by
  obtain ⟨hcandidate, -, hcount, -⟩ := (findCandidate_eq_some_iff ..).mp h
  have hlt := hcandidate.lt_length
  have hrun := preambleRun_le bytes index
  have hleading : index ≤ leadingCount isPreamble bytes :=
    le_leadingCount isPreamble hlt.le (by rw [← preambleRun]; omega)
  have hkept : findCandidate (bytes.drop surplus) limits =
      some (index - surplus, 0, index - surplus) := by
    have hrest := findCandidate_drop_leading h (hsurplus.trans hleading)
    have hmin : min (min (preambleRun bytes index) (index - surplus)) 255 =
        index - surplus := by
      omega
    rw [hmin, Nat.sub_self] at hrest
    exact hrest
  have hindex : surplus + (index - surplus) = index := by omega
  have hend := declaredEnd_drop limits bytes surplus (index - surplus)
  have hshift := analyzeCandidate_drop limits bytes surplus
    (index - surplus) index (index - surplus)
  rw [hindex] at hend hshift
  have hwhole := analyze_of_some h
  have hpart := analyze_of_some hkept
  rw [if_neg (lt_irrefl 0)] at hwhole hpart
  rw [List.length_drop] at hpart
  by_cases hwait : bytes.length < declaredEnd limits bytes index
  · rw [if_pos hwait] at hwhole
    rw [if_pos (by omega)] at hpart
    have hjudge : judge limits bytes = .wait := by
      simp only [judge, hwhole]
    have hjudge' : judge limits (bytes.drop surplus) = .wait := by
      simp only [judge, hpart]
    rw [decodeAll_wait hjudge, decodeAll_wait hjudge']
    exact ⟨⟨surplus, rfl, .inr (hsurplus.trans hleading)⟩, rfl⟩
  · rw [if_neg hwait, hshift] at hwhole
    rw [if_neg (by omega)] at hpart
    have hcandidate' := ((findCandidate_eq_some_iff ..).mp hkept).1
    rcases analyzeCandidate_cases (index - surplus) hcandidate'
      (by rw [List.length_drop]; omega) with
      ⟨expected, actual, hrejected⟩ | ⟨found, hframe⟩
    · rw [hrejected] at hwhole hpart
      have hjudge : judge limits bytes =
          .emit (.rejected (.checksum expected actual))
            (surplus + (index - surplus + 1)) := by
        simp only [judge, hwhole, DecoderStep.shift]
      have hjudge' : judge limits (bytes.drop surplus) =
          .emit (.rejected (.checksum expected actual))
            (index - surplus + 1) := by
        simp only [judge, hpart]
      rw [decodeAll_emit hjudge, decodeAll_emit hjudge', List.drop_drop]
      exact ⟨.refl _ _, rfl⟩
    · rw [hframe] at hwhole hpart
      have hjudge : judge limits bytes =
          .emit (.frame { found with
            preambles := UInt8.ofNat (min index 255) })
            (surplus + declaredEnd limits (bytes.drop surplus)
              (index - surplus)) := by
        simp only [judge, hwhole, DecoderStep.shift]
      have hjudge' : judge limits (bytes.drop surplus) =
          .emit (.frame found) (declaredEnd limits (bytes.drop surplus)
            (index - surplus)) := by
        simp only [judge, hpart]
      rw [decodeAll_emit hjudge, decodeAll_emit hjudge', List.drop_drop]
      exact ⟨.refl _ _, rfl⟩

/-- Decoding keeps two buffers apart by nothing but surplus preambles. -/
theorem Trails.decodeAll
    (h : Trails limits.minimumPreambles.toNat whole kept) :
    Trails limits.minimumPreambles.toNat (decodeAll limits whole).1
        (decodeAll limits kept).1 ∧
      (Wire.decodeAll limits kept).2.map DecodeEvent.erasePreambles =
        (Wire.decodeAll limits whole).2.map DecodeEvent.erasePreambles := by
  have hminimum := limits.minimumPreambles.toNat_lt
  obtain ⟨surplus, rfl, rfl | hsurplus⟩ := h
  · exact ⟨.refl _ _, rfl⟩
  cases hfound : findCandidate whole limits with
  | none =>
      obtain ⟨htrails, hevents⟩ := trails_of_none hfound (by omega) hsurplus
      exact ⟨htrails, by rw [hevents]⟩
  | some found =>
      obtain ⟨index, start, count⟩ := found
      have hkept := findCandidate_drop_leading hfound hsurplus
      obtain ⟨hcandidate, -, hcount, hstart⟩ :=
        (findCandidate_eq_some_iff ..).mp hfound
      have hlt := hcandidate.lt_length
      have hleading := hcandidate.leadingCount_le
      have hrun := preambleRun_le whole index
      rw [decodeAll_of_some hfound, decodeAll_of_some hkept, List.drop_drop]
      by_cases hbehind : surplus ≤ start
      · -- the candidate's own run starts behind the surplus
        have hsame : surplus + (index - surplus -
            min (min (preambleRun whole index) (index - surplus)) 255) =
            start := by
          omega
        rw [hsame]
        exact ⟨.refl _ _, rfl⟩
      · have hzero : surplus + (index - surplus -
            min (min (preambleRun whole index) (index - surplus)) 255) =
            surplus := by
          omega
        have haligned : findCandidate (whole.drop start) limits =
            some (index - start, 0, index - start) := by
          have hrest := findCandidate_drop hfound le_rfl
          rw [Nat.sub_self] at hrest
          rw [hrest, show count = index - start by omega]
        have htrails := @trails_of_aligned limits (surplus - start) _ _
          haligned (by omega)
        rw [List.drop_drop, Nat.add_sub_cancel' (by omega)] at htrails
        rw [hzero]
        exact htrails

end Trails

/-! ## Pushes as scans -/

namespace FrameDecoder

variable {decoder unlimited : FrameDecoder} {fragment : Bytes}

theorem length_decodeAll_le (limits : DecodeLimits) (bytes : Bytes) :
    (decodeAll limits bytes).2.length ≤ bytes.length := by
  have hscan := length_scan_events_le limits bytes [] {}
  rw [(scan_decodeObserver limits bytes [] {}).2] at hscan
  simpa using hscan

theorem collectEvents_decodeAll {room : Nat}
    (h : (decoder.collectEvents room).1.length < room) :
    ((decoder.collectEvents room).2.bytes, (decoder.collectEvents room).1) =
      decodeAll decoder.limits decoder.bytes := by
  obtain ⟨-, hscan⟩ := collectEvents_scan room decoder []
  obtain ⟨hrest, hevents⟩ := scan_decodeObserver decoder.limits decoder.bytes
    [] decoder.statistics
  rw [if_pos h, scanFrom] at hscan
  rw [hscan] at hrest hevents
  exact Prod.ext hrest hevents

theorem collectEvents_isFirst {room : Nat}
    (h : ¬ (decoder.collectEvents room).1.length < room) :
    (decoder.collectEvents room).1 <+:
      (decodeAll decoder.limits decoder.bytes).2 := by
  obtain ⟨-, hscan⟩ := collectEvents_scan room decoder []
  have hevents := (scan_decodeObserver decoder.limits decoder.bytes []
    decoder.statistics).2
  rw [if_neg h, scanFrom] at hscan
  rw [hscan, scanFrom, (scan_decodeObserver _ _ _ _).2] at hevents
  simp only [List.nil_append] at hevents
  rw [← hevents]
  exact List.prefix_append _ _

theorem pushUnlimited_eq (decoder : FrameDecoder) (fragment : Bytes) :
    ((decoder.pushUnlimited fragment).2.bytes,
        (decoder.pushUnlimited fragment).1) =
      decodeAll decoder.limits (decoder.bytes ++ fragment) ∧
      (decoder.pushUnlimited fragment).2.limits = decoder.limits := by
  refine ⟨?_, (collectEvents_scan _ _ []).1⟩
  refine collectEvents_decodeAll ?_
  by_contra hfull
  have hlength := (collectEvents_isFirst hfull).length_le
  dsimp only at hlength
  have hbound := length_decodeAll_le decoder.limits
    (decoder.bytes ++ fragment)
  rw [List.length_append] at hbound
  omega

theorem limits_appendBounded (decoder : FrameDecoder) (fragment : Bytes) :
    (decoder.appendBounded fragment).limits = decoder.limits := by
  unfold appendBounded
  dsimp only
  split <;> rfl

theorem push_fst (decoder : FrameDecoder) (fragment : Bytes) :
    (decoder.push fragment).1 =
      ((decoder.appendBounded fragment).collectEvents
        maximumDecodeEventsPerPush).1 := by
  unfold push
  dsimp only
  split <;> rfl

theorem push_eq_decodeAll
    (h : (decoder.push fragment).1.length < maximumDecodeEventsPerPush) :
    ((decoder.push fragment).2.bytes, (decoder.push fragment).1) =
      decodeAll decoder.limits (decoder.appendBounded fragment).bytes := by
  rw [push_fst] at h
  have hcollect := collectEvents_decodeAll h
  rw [limits_appendBounded] at hcollect
  unfold push
  dsimp only
  rw [if_neg (fun hlimit => absurd hlimit.1 (Nat.ne_of_lt h))]
  exact hcollect

theorem push_isFirst
    (h : ¬ (decoder.push fragment).1.length < maximumDecodeEventsPerPush) :
    (decoder.push fragment).1 <+:
      (decodeAll decoder.limits (decoder.appendBounded fragment).bytes).2 := by
  rw [push_fst] at h ⊢
  have hfirstEvents := collectEvents_isFirst h
  rw [limits_appendBounded] at hfirstEvents
  exact hfirstEvents

theorem length_push_lt
    (h : (decodeAll decoder.limits
      (decoder.appendBounded fragment).bytes).2.length <
        maximumDecodeEventsPerPush) :
    (decoder.push fragment).1.length < maximumDecodeEventsPerPush := by
  by_contra hfull
  have hlength := (push_isFirst hfull).length_le
  omega

theorem pushAllUnlimited_eq (fragments : List Bytes)
    (h : decoder.Settled) :
    (decoder.pushAllUnlimited fragments).1 =
      (decodeAll decoder.limits (decoder.bytes ++ fragments.flatten)).2 := by
  induction fragments generalizing decoder with
  | nil =>
      rw [List.flatten_nil, List.append_nil, decodeAll_wait h]
      rfl
  | cons fragment fragments ih =>
      obtain ⟨hpush, hlimits⟩ := decoder.pushUnlimited_eq fragment
      have hevents : (decoder.pushUnlimited fragment).1 =
          (decodeAll decoder.limits (decoder.bytes ++ fragment)).2 :=
        congrArg Prod.snd hpush
      have hbytes : (decoder.pushUnlimited fragment).2.bytes =
          (decodeAll decoder.limits (decoder.bytes ++ fragment)).1 :=
        congrArg Prod.fst hpush
      have hsettled : (decoder.pushUnlimited fragment).2.Settled := by
        rw [Settled, hlimits, hbytes]
        exact (frameScanner decoder.limits).judge_scan_fst eventObserver
          (decoder.bytes ++ fragment) []
      rw [List.flatten_cons, ← List.append_assoc, decodeAll_append]
      simp only [pushAllUnlimited]
      rw [ih hsettled, hlimits, hevents, hbytes]

/-! ## Runs of a bounded decoder -/

def overflow (decoder : FrameDecoder) (fragment : Bytes) : Nat :=
  decoder.bytes.length + fragment.length - decoder.limits.bufferCapacity

def BelowEventLimit (decoder : FrameDecoder) : List Bytes → Prop
  | [] => True
  | fragment :: fragments =>
      (decoder.push fragment).1.length < maximumDecodeEventsPerPush ∧
        BelowEventLimit (decoder.push fragment).2 fragments

/-- Every push drops at most preambles in excess of the minimum. -/
def SparesFrames (decoder : FrameDecoder) : List Bytes → Prop
  | [] => True
  | fragment :: fragments =>
      (decoder.overflow fragment = 0 ∨
        decoder.overflow fragment + decoder.limits.minimumPreambles.toNat ≤
          leadingCount isPreamble decoder.bytes) ∧
        SparesFrames (decoder.push fragment).2 fragments

theorem bytes_appendBounded (decoder : FrameDecoder) (fragment : Bytes) :
    (decoder.appendBounded fragment).bytes =
      (decoder.bytes ++ fragment).drop (decoder.overflow fragment) := by
  unfold overflow appendBounded
  dsimp only
  split_ifs with hzero
  · rw [hzero, List.drop_zero]
  · have hrest (lost size : Nat) : lost - min lost size = lost - size := by
      omega
    rw [List.drop_append, ← List.drop_eq_drop_min, ← List.drop_eq_drop_min,
      hrest]

theorem trails_push
    (hlimits : unlimited.limits = decoder.limits)
    (htrails : Trails decoder.limits.minimumPreambles.toNat unlimited.bytes
      decoder.bytes)
    (hspares : decoder.overflow fragment = 0 ∨
      decoder.overflow fragment + decoder.limits.minimumPreambles.toNat ≤
        leadingCount isPreamble decoder.bytes)
    (hbelow : (decoder.push fragment).1.length <
      maximumDecodeEventsPerPush) :
    Trails decoder.limits.minimumPreambles.toNat
        (unlimited.pushUnlimited fragment).2.bytes
        (decoder.push fragment).2.bytes ∧
      (decoder.push fragment).1.map DecodeEvent.erasePreambles =
        (unlimited.pushUnlimited fragment).1.map
          DecodeEvent.erasePreambles := by
  have hlength := leadingCount_le_length isPreamble decoder.bytes
  have hbytes : (decoder.appendBounded fragment).bytes =
      decoder.bytes.drop (decoder.overflow fragment) ++ fragment := by
    rw [bytes_appendBounded, List.drop_append_of_le_length (by omega)]
  have hpush := push_eq_decodeAll hbelow
  have hunlimited := (unlimited.pushUnlimited_eq fragment).1
  rw [hbytes] at hpush
  rw [hlimits] at hunlimited
  have hdecoded := ((htrails.drop hspares).append fragment).decodeAll
  rw [← hpush, ← hunlimited] at hdecoded
  exact hdecoded

/-- A decoder that spares frames emits what the unlimited decoder emits. -/
theorem pushAll_eq_unlimited {fragments : List Bytes}
    (hlimits : unlimited.limits = decoder.limits)
    (htrails : Trails decoder.limits.minimumPreambles.toNat unlimited.bytes
      decoder.bytes)
    (hspares : decoder.SparesFrames fragments)
    (hbelow : decoder.BelowEventLimit fragments) :
    (decoder.pushAll fragments).1.map DecodeEvent.erasePreambles =
      (unlimited.pushAllUnlimited fragments).1.map
        DecodeEvent.erasePreambles := by
  induction fragments generalizing decoder unlimited with
  | nil => rfl
  | cons fragment fragments ih =>
      obtain ⟨hspare, hspares⟩ := hspares
      obtain ⟨hfew, hbelow⟩ := hbelow
      obtain ⟨hnext, hevents⟩ := trails_push hlimits htrails hspare hfew
      have hkept := decoder.limits_push fragment
      have hlater := @ih (decoder.push fragment).2
        (unlimited.pushUnlimited fragment).2
        (by rw [hkept, (unlimited.pushUnlimited_eq fragment).2, hlimits])
        (by rw [hkept]; exact hnext) hspares hbelow
      simp only [pushAll, pushAllUnlimited, List.map_append, hevents, hlater]

theorem length_le_leadingCount (h : decoder.Settled) :
    decoder.bytes.length ≤ 255 ∨
      decoder.bytes.length ≤ leadingCount isPreamble decoder.bytes + 266 ∧
        decoder.limits.minimumPreambles.toNat ≤
          leadingCount isPreamble decoder.bytes := by
  have hdecision := judge_decision decoder.limits decoder.bytes
  rw [h] at hdecision
  cases hdecision with
  | idle hnone hlength =>
      unfold retainedPreambles at hlength
      omega
  | @incomplete index count hfound hend hanalyze =>
      obtain ⟨hcandidate, -, hcount, hstart⟩ :=
        (findCandidate_eq_some_iff ..).mp hfound
      have hlong := declaredEnd_le decoder.limits decoder.bytes index
      have hrun := preambleRun_le decoder.bytes index
      have hleading : index ≤ leadingCount isPreamble decoder.bytes :=
        le_leadingCount isPreamble hcandidate.lt_length.le
          (by rw [← preambleRun]; omega)
      obtain ⟨-, -, -, hrequired⟩ := hcandidate
      omega

theorem sparesFrames_of_roomy {size : Nat} {fragments : List Bytes}
    (hsettled : decoder.Settled)
    (hroom : size + decoder.limits.minimumPreambles.toNat + 266 ≤
      decoder.limits.bufferCapacity)
    (hsize : ∀ fragment ∈ fragments, fragment.length ≤ size) :
    decoder.SparesFrames fragments := by
  induction fragments generalizing decoder with
  | nil => trivial
  | cons fragment fragments ih =>
      have hfragment := hsize fragment List.mem_cons_self
      refine ⟨?_, ih (decoder.settled_push fragment) ?_ ?_⟩
      · unfold overflow
        have htail := length_le_leadingCount hsettled
        omega
      · rw [limits_push]
        exact hroom
      · intro other hother
        exact hsize other (List.mem_cons_of_mem _ hother)

end FrameDecoder

end HartLink.Wire
