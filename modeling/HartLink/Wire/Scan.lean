import HartLink.Foundation.Scanner
import HartLink.Wire.Candidate

/-!
# The decoder as an online scanner

`frameScanner` packages the analysis of a buffer as a stable scanner, and
`collectEvents_scan` shows that the event loop of the decoder is a scan under
the observer that collects events and updates the statistics.
-/

namespace HartLink.Wire

open HartLink.Foundation

/-! ## The scanner -/

def retainedPreambles (bytes : Bytes) : Nat :=
  min (trailingCount isPreamble bytes) 255

def judge (limits : DecodeLimits) (bytes : Bytes) : Verdict DecodeEvent :=
  match analyze bytes limits with
  | .noCandidate =>
      if bytes.length = retainedPreambles bytes then .wait
      else .skip (bytes.length - retainedPreambles bytes)
  | .needMore => .wait
  | .discard count => .skip count
  | .rejected error consumed _ => .emit (.rejected error) consumed
  | .frame frame consumed _ => .emit (.frame frame) consumed

/-- Everything the scanner can decide, with the analysis that decided it. -/
inductive Decision (limits : DecodeLimits) (bytes : Bytes) :
    Verdict DecodeEvent → Prop
  | idle (hnone : findCandidate bytes limits = none)
      (hlength : bytes.length = retainedPreambles bytes) :
      Decision limits bytes .wait
  | noise (hnone : findCandidate bytes limits = none)
      (hlength : retainedPreambles bytes < bytes.length) :
      Decision limits bytes (.skip (bytes.length - retainedPreambles bytes))
  | discard {index start count : Nat}
      (hfound : findCandidate bytes limits = some (index, start, count))
      (hstart : 0 < start) (hanalyze : analyze bytes limits = .discard start) :
      Decision limits bytes (.skip start)
  | incomplete {index count : Nat}
      (hfound : findCandidate bytes limits = some (index, 0, count))
      (hend : bytes.length < declaredEnd limits bytes index)
      (hanalyze : analyze bytes limits = .needMore) :
      Decision limits bytes .wait
  | rejected {index count : Nat} {expected actual : UInt8}
      (hfound : findCandidate bytes limits = some (index, 0, count))
      (hend : declaredEnd limits bytes index ≤ bytes.length)
      (hanalyze : analyze bytes limits =
        .rejected (.checksum expected actual) (index + 1) true) :
      Decision limits bytes
        (.emit (.rejected (.checksum expected actual)) (index + 1))
  | frame {index count : Nat} {frame : Frame}
      (hfound : findCandidate bytes limits = some (index, 0, count))
      (hend : declaredEnd limits bytes index ≤ bytes.length)
      (hanalyze : analyze bytes limits =
        .frame frame (declaredEnd limits bytes index) frame.repair.isSome) :
      Decision limits bytes
        (.emit (.frame frame) (declaredEnd limits bytes index))

theorem retainedPreambles_le (bytes : Bytes) :
    retainedPreambles bytes ≤ bytes.length := by
  have := trailingCount_le_length isPreamble bytes
  unfold retainedPreambles
  omega

theorem judge_decision (limits : DecodeLimits) (bytes : Bytes) :
    Decision limits bytes (judge limits bytes) := by
  cases hfound : findCandidate bytes limits with
  | none =>
      have hle := retainedPreambles_le bytes
      by_cases hlength : bytes.length = retainedPreambles bytes
      · simpa only [judge, analyze_of_none hfound, if_pos hlength] using
          Decision.idle hfound hlength
      · simpa only [judge, analyze_of_none hfound, if_neg hlength] using
          Decision.noise hfound (by omega)
  | some found =>
      obtain ⟨index, start, count⟩ := found
      have hcandidate := ((findCandidate_eq_some_iff ..).mp hfound).1
      have hanalyze := analyze_of_some hfound
      by_cases hstart : start > 0
      · rw [if_pos hstart] at hanalyze
        simpa only [judge, hanalyze] using
          Decision.discard hfound hstart hanalyze
      obtain rfl : start = 0 := by omega
      rw [if_neg hstart] at hanalyze
      by_cases hend : bytes.length < declaredEnd limits bytes index
      · rw [if_pos hend] at hanalyze
        simpa only [judge, hanalyze] using
          Decision.incomplete hfound hend hanalyze
      rw [if_neg hend] at hanalyze
      rw [not_lt] at hend
      rcases analyzeCandidate_cases count hcandidate hend with
        ⟨expected, actual, hrejected⟩ | ⟨frame, hframe⟩
      · rw [hrejected] at hanalyze
        simpa only [judge, hanalyze] using
          Decision.rejected hfound hend hanalyze
      · rw [hframe] at hanalyze
        simpa only [judge, hanalyze] using
          Decision.frame hfound hend hanalyze

/-! ## Bounds and stability of the decisions -/

theorem judge_skip_bounds {limits : DecodeLimits} {bytes : Bytes}
    {count : Nat} (h : judge limits bytes = .skip count) :
    0 < count ∧ count ≤ bytes.length := by
  have hdecision := judge_decision limits bytes
  rw [h] at hdecision
  cases hdecision with
  | noise hnone hlength => omega
  | discard hfound hstart hanalyze =>
      obtain ⟨hcandidate, -, -, hstartEq⟩ :=
        (findCandidate_eq_some_iff ..).mp hfound
      have := hcandidate.lt_length
      omega

theorem judge_emit_bounds {limits : DecodeLimits} {bytes : Bytes}
    {event : DecodeEvent} {count : Nat}
    (h : judge limits bytes = .emit event count) :
    0 < count ∧ count ≤ bytes.length := by
  have hdecision := judge_decision limits bytes
  rw [h] at hdecision
  cases hdecision with
  | rejected hfound hend hanalyze =>
      have := ((findCandidate_eq_some_iff ..).mp hfound).1.lt_length
      omega
  | @frame index _ _ hfound hend hanalyze =>
      have := lt_declaredEnd limits bytes index
      omega

/-- More input never changes the analysis of a complete candidate. -/
theorem analyze_append {limits : DecodeLimits} {bytes : Bytes}
    {index count : Nat} (more : Bytes)
    (hfound : findCandidate bytes limits = some (index, 0, count))
    (hend : declaredEnd limits bytes index ≤ bytes.length) :
    analyze (bytes ++ more) limits = analyze bytes limits := by
  have hlonger : ¬ (bytes ++ more).length <
      declaredEnd limits (bytes ++ more) index := by
    rw [declaredEnd_append more hend, List.length_append]
    omega
  rw [analyze_of_some hfound, analyze_of_some (findCandidate_append more hfound),
    if_neg (lt_irrefl 0), if_neg (lt_irrefl 0), if_neg hlonger,
    if_neg (not_lt.mpr hend), analyzeCandidate_append more hend]

theorem judge_emit_append {limits : DecodeLimits} {bytes : Bytes}
    {event : DecodeEvent} {count : Nat} (more : Bytes)
    (h : judge limits bytes = .emit event count) :
    judge limits (bytes ++ more) = .emit event count := by
  have hdecision := judge_decision limits bytes
  rw [h] at hdecision
  cases hdecision with
  | rejected hfound hend hanalyze =>
      simp only [judge, analyze_append more hfound hend, hanalyze]
  | frame hfound hend hanalyze =>
      simp only [judge, analyze_append more hfound hend, hanalyze]

theorem min_trailingCount_append_le (bytes more : Bytes) :
    min (trailingCount isPreamble (bytes ++ more)) 255 ≤
      retainedPreambles bytes + more.length := by
  have hle := trailingCount_le_length isPreamble more
  have happend := trailingCount_append isPreamble bytes more
  unfold retainedPreambles
  by_cases hall : trailingCount isPreamble more = more.length
  · rw [if_pos hall] at happend
    omega
  · rw [if_neg hall] at happend
    omega

theorem le_start_of_noise {limits : DecodeLimits} {bytes more : Bytes}
    {index start count : Nat} (hnone : findCandidate bytes limits = none)
    (hfound : findCandidate (bytes ++ more) limits =
      some (index, start, count)) :
    bytes.length - retainedPreambles bytes ≤ start := by
  obtain ⟨hcandidate, -, hcount, hstart⟩ :=
    (findCandidate_eq_some_iff ..).mp hfound
  have hindex : bytes.length ≤ index := by
    by_contra hlt
    exact (findCandidate_eq_none_iff ..).mp hnone index
      ((Candidate.append_iff more (by omega)).mp hcandidate)
  have hsplit : (bytes ++ more).take index =
      bytes ++ more.take (index - bytes.length) := by
    rw [List.take_append, List.take_of_length_le hindex]
  have hrun := min_trailingCount_append_le bytes
    (more.take (index - bytes.length))
  have hlength := List.length_take_le (index - bytes.length) more
  rw [preambleRun, hsplit] at hcount
  omega

/--
Without a candidate the decoder keeps at most 255 trailing preambles.  Whatever
arrives later skips at least as much, and skips the difference if the noise is
already gone.
-/
theorem judge_noise_append {limits : DecodeLimits} {bytes : Bytes}
    (more : Bytes) (hnone : findCandidate bytes limits = none)
    (hlength : retainedPreambles bytes < bytes.length) :
    ∃ extra,
      judge limits (bytes ++ more) =
        .skip (bytes.length - retainedPreambles bytes + extra) ∧
      (extra = 0 ∨
        judge limits (bytes.drop (bytes.length - retainedPreambles bytes) ++
          more) = .skip extra) := by
  rw [← List.drop_append_of_le_length (Nat.sub_le _ _)]
  generalize hcut : bytes.length - retainedPreambles bytes = cut
  cases hall : findCandidate (bytes ++ more) limits with
  | none =>
      have hbound := min_trailingCount_append_le bytes more
      have hretained : retainedPreambles (bytes ++ more) =
          min (trailingCount isPreamble (bytes ++ more)) 255 := rfl
      have hdropped : findCandidate ((bytes ++ more).drop cut) limits =
          none := by
        rw [findCandidate_eq_none_iff] at hall ⊢
        exact fun index hcandidate => hall _ hcandidate.of_drop
      have hkept : retainedPreambles ((bytes ++ more).drop cut) =
          retainedPreambles (bytes ++ more) := by
        unfold retainedPreambles
        rw [trailingCount_drop, List.length_append]
        omega
      have hsum : (bytes ++ more).length = bytes.length + more.length :=
        List.length_append
      refine ⟨(bytes ++ more).length - retainedPreambles (bytes ++ more) - cut,
        ?_, ?_⟩
      · simp only [judge, analyze_of_none hall]
        rw [if_neg (by omega)]
        congr 1
        omega
      · by_cases hzero : (bytes ++ more).length -
            retainedPreambles (bytes ++ more) - cut = 0
        · exact .inl hzero
        right
        simp only [judge, analyze_of_none hdropped, hkept, List.length_drop]
        rw [if_neg (by omega)]
        congr 1
        omega
  | some found =>
      obtain ⟨index, start, count⟩ := found
      have hle := le_start_of_noise hnone hall
      rw [hcut] at hle
      refine ⟨start - cut, ?_, ?_⟩
      · simp only [judge, analyze_of_some hall]
        rw [if_pos (by omega), Nat.add_sub_cancel' hle]
      · by_cases hzero : start - cut = 0
        · exact .inl hzero
        right
        simp only [judge, analyze_of_some (findCandidate_drop hall hle)]
        rw [if_pos (by omega)]

theorem judge_skip_append {limits : DecodeLimits} {bytes : Bytes}
    {count : Nat} (more : Bytes) (h : judge limits bytes = .skip count) :
    ∃ extra, judge limits (bytes ++ more) = .skip (count + extra) ∧
      (extra = 0 ∨
        judge limits (bytes.drop count ++ more) = .skip extra) := by
  have hdecision := judge_decision limits bytes
  rw [h] at hdecision
  cases hdecision with
  | noise hnone hlength => exact judge_noise_append more hnone hlength
  | discard hfound hstart hanalyze =>
      refine ⟨0, ?_, .inl rfl⟩
      simp only [judge, analyze_of_some (findCandidate_append more hfound),
        if_pos hstart, Nat.add_zero]

def frameScanner (limits : DecodeLimits) : Scanner UInt8 DecodeEvent where
  judge := judge limits
  skip_bounds := judge_skip_bounds
  emit_bounds := judge_emit_bounds
  emit_append := judge_emit_append
  skip_append := judge_skip_append

/-! ## The event loop is a scan -/

namespace DecodeStatistics

def noteSkip (count : Nat) (statistics : DecodeStatistics) :
    DecodeStatistics :=
  { statistics with
    discardedBytes := saturatingAdd statistics.discardedBytes count }

def noteEvent (event : DecodeEvent) (consumed : Nat)
    (statistics : DecodeStatistics) : DecodeStatistics :=
  match event with
  | .frame frame =>
      { statistics with
        frames := saturatingAdd statistics.frames 1
        repairedFrames := saturatingAdd statistics.repairedFrames
          (if frame.repair.isSome then 1 else 0) }
  | .rejected _ =>
      noteSkip consumed { statistics with
        checksumFailures := saturatingAdd statistics.checksumFailures 1 }

end DecodeStatistics

/-- Collects the events in order and keeps the decoder's statistics. -/
def decodeObserver :
    Observer DecodeEvent (List DecodeEvent × DecodeStatistics) where
  onSkip count log := (log.1, log.2.noteSkip count)
  onEmit event count log := (log.1 ++ [event], log.2.noteEvent event count)
  onSkip_onSkip a b log := by
    simp [DecodeStatistics.noteSkip, saturatingAdd_saturatingAdd]

namespace FrameDecoder

def scanFrom (decoder : FrameDecoder) (events : List DecodeEvent) :
    Bytes × List DecodeEvent × DecodeStatistics :=
  (frameScanner decoder.limits).scan decodeObserver decoder.bytes
    (events, decoder.statistics)

theorem scanFrom_retainPossiblePreambles {decoder : FrameDecoder}
    (h : findCandidate decoder.bytes decoder.limits = none)
    (events : List DecodeEvent) :
    decoder.scanFrom events =
      (decoder.retainPossiblePreambles.bytes, events,
        decoder.retainPossiblePreambles.statistics) := by
  have hretain : decoder.retainPossiblePreambles =
      decoder.discard (decoder.bytes.length -
        retainedPreambles decoder.bytes) := rfl
  have hjudge : (frameScanner decoder.limits).judge decoder.bytes =
      if decoder.bytes.length = retainedPreambles decoder.bytes then .wait
      else .skip (decoder.bytes.length - retainedPreambles decoder.bytes) := by
    simp only [frameScanner, judge, analyze_of_none h]
  by_cases hlength : decoder.bytes.length = retainedPreambles decoder.bytes
  · rw [if_pos hlength] at hjudge
    rw [scanFrom, Scanner.scan_wait _ _ _ hjudge, hretain, ← hlength]
    simp [discard]
  · rw [if_neg hlength] at hjudge
    have hle := retainedPreambles_le decoder.bytes
    have hdropped : findCandidate (decoder.bytes.drop
        (decoder.bytes.length - retainedPreambles decoder.bytes))
        decoder.limits = none := by
      rw [findCandidate_eq_none_iff] at h ⊢
      exact fun index hcandidate => h _ hcandidate.of_drop
    have hkept : (decoder.bytes.drop
        (decoder.bytes.length - retainedPreambles decoder.bytes)).length =
        retainedPreambles (decoder.bytes.drop
          (decoder.bytes.length - retainedPreambles decoder.bytes)) := by
      unfold retainedPreambles at hle ⊢
      rw [trailingCount_drop, List.length_drop]
      omega
    have hwait : (frameScanner decoder.limits).judge (decoder.bytes.drop
        (decoder.bytes.length - retainedPreambles decoder.bytes)) = .wait := by
      simp only [frameScanner, judge, analyze_of_none hdropped, if_pos hkept]
    rw [scanFrom, Scanner.scan_skip _ _ _ hjudge,
      Scanner.scan_wait _ _ _ hwait, hretain]
    simp [discard, decodeObserver, DecodeStatistics.noteSkip]

theorem nextEventLoop_scan (fuel : Nat) (decoder : FrameDecoder)
    (hfuel : decoder.bytes.length < fuel) (events : List DecodeEvent) :
    (nextEventLoop fuel decoder).2.limits = decoder.limits ∧
    decoder.scanFrom events =
      match (nextEventLoop fuel decoder).1 with
      | none => ((nextEventLoop fuel decoder).2.bytes, events,
          (nextEventLoop fuel decoder).2.statistics)
      | some event =>
          (nextEventLoop fuel decoder).2.scanFrom (events ++ [event]) := by
  induction fuel generalizing decoder with
  | zero => omega
  | succ fuel ih =>
      have hdecision := judge_decision decoder.limits decoder.bytes
      generalize hverdict : judge decoder.limits decoder.bytes = verdict
        at hdecision
      cases hdecision with
      | idle hnone hlength =>
          simp only [nextEventLoop, analyze_of_none hnone]
          exact ⟨rfl, scanFrom_retainPossiblePreambles hnone events⟩
      | noise hnone hlength =>
          simp only [nextEventLoop, analyze_of_none hnone]
          exact ⟨rfl, scanFrom_retainPossiblePreambles hnone events⟩
      | incomplete hfound hend hanalyze =>
          simp only [nextEventLoop, hanalyze]
          exact ⟨trivial, Scanner.scan_wait _ _ _ hverdict⟩
      | @discard index start count hfound hstart hanalyze =>
          have hbounds := judge_skip_bounds hverdict
          have hscan : decoder.scanFrom events =
              (decoder.discard start).scanFrom events := by
            rw [scanFrom, Scanner.scan_skip _ _ _ hverdict]
            simp [scanFrom, discard, decodeObserver,
              DecodeStatistics.noteSkip, Nat.min_eq_left hbounds.2]
          have hshorter : (decoder.discard start).bytes.length < fuel := by
            simp only [discard, List.length_drop]
            omega
          simp only [nextEventLoop, hanalyze, hscan]
          exact ih (decoder.discard start) hshorter
      | rejected hfound hend hanalyze =>
          have hbounds := judge_emit_bounds hverdict
          simp only [nextEventLoop, hanalyze]
          refine ⟨rfl, ?_⟩
          rw [scanFrom, Scanner.scan_emit _ _ _ hverdict]
          simp [scanFrom, noteRejected, discard, decodeObserver,
            DecodeStatistics.noteEvent, DecodeStatistics.noteSkip,
            Nat.min_eq_left hbounds.2]
      | frame hfound hend hanalyze =>
          simp only [nextEventLoop, hanalyze]
          refine ⟨rfl, ?_⟩
          rw [scanFrom, Scanner.scan_emit _ _ _ hverdict]
          rfl

theorem collectEvents_scan (room : Nat) (decoder : FrameDecoder)
    (events : List DecodeEvent) :
    (collectEvents room decoder).2.limits = decoder.limits ∧
    decoder.scanFrom events =
      if (collectEvents room decoder).1.length < room then
        ((collectEvents room decoder).2.bytes,
          events ++ (collectEvents room decoder).1,
          (collectEvents room decoder).2.statistics)
      else
        (collectEvents room decoder).2.scanFrom
          (events ++ (collectEvents room decoder).1) := by
  induction room generalizing decoder events with
  | zero => simp [collectEvents]
  | succ room ih =>
      obtain ⟨hlimits, hscan⟩ := nextEventLoop_scan
        (decoder.bytes.length + 1) decoder (Nat.lt_succ_self _) events
      rw [← nextEvent] at hlimits hscan
      rcases hresult : decoder.nextEvent with ⟨event?, next⟩
      rw [hresult] at hlimits hscan
      cases event? with
      | none =>
          simp only at hlimits hscan
          simp [collectEvents, hresult, hlimits, hscan]
      | some event =>
          simp only at hlimits hscan
          obtain ⟨hlater, hrest⟩ := ih next (events ++ [event])
          simp only [collectEvents, hresult, hlater, hlimits, true_and]
          rw [hscan, hrest]
          simp

theorem length_collectEvents_le (room : Nat) (decoder : FrameDecoder) :
    (collectEvents room decoder).1.length ≤ room := by
  induction room generalizing decoder with
  | zero => simp [collectEvents]
  | succ room ih =>
      unfold collectEvents
      split
      · simp
      next event next hevent =>
        have hlater := ih next
        simp only [List.length_cons]
        omega

end FrameDecoder

end HartLink.Wire
