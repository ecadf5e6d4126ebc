import HartLink.Wire.Scan

/-!
# Fragmentation independence of the decoder

As long as the buffer does not overflow and the event limit is not reached, one
push is exactly one scan of the buffered bytes followed by the fragment.  The
scanner cannot see how its input was cut, and so neither can the decoder.
-/

namespace HartLink.Wire

open HartLink.Foundation

/-! ## Events accumulate at the end of the log -/

theorem scan_events_append (limits : DecodeLimits) (bytes : Bytes)
    (events : List DecodeEvent) (statistics : DecodeStatistics) :
    (frameScanner limits).scan decodeObserver bytes (events, statistics) =
      (((frameScanner limits).scan decodeObserver bytes ([], statistics)).1,
        events ++
          ((frameScanner limits).scan decodeObserver bytes
            ([], statistics)).2.1,
        ((frameScanner limits).scan decodeObserver bytes
          ([], statistics)).2.2) := by
  have hmap := (frameScanner limits).scan_map decodeObserver decodeObserver
    (fun log => (events ++ log.1, log.2)) (fun _ _ => rfl)
    (fun _ _ _ => by simp [decodeObserver]) bytes ([], statistics)
  simpa using hmap

namespace FrameDecoder

/-- A decoder that has processed everything it can. -/
def Settled (decoder : FrameDecoder) : Prop :=
  judge decoder.limits decoder.bytes = .wait

theorem settled_new (limits : DecodeLimits) : (new limits).Settled :=
  (frameScanner (new limits).limits).judge_nil

theorem appendBounded_of_fits {decoder : FrameDecoder} {fragment : Bytes}
    (h : decoder.bytes.length + fragment.length ≤
      decoder.limits.bufferCapacity) :
    decoder.appendBounded fragment =
      { decoder with bytes := decoder.bytes ++ fragment } := by
  simp [appendBounded, Nat.sub_eq_zero_of_le h]

def scanPush (decoder : FrameDecoder) (fragment : Bytes) :
    Bytes × List DecodeEvent × DecodeStatistics :=
  (frameScanner decoder.limits).scan decodeObserver
    (decoder.bytes ++ fragment) ([], decoder.statistics)

def afterScan (decoder : FrameDecoder) (fragment : Bytes) : FrameDecoder :=
  { decoder with
    bytes := (decoder.scanPush fragment).1
    statistics := (decoder.scanPush fragment).2.2 }

theorem settled_afterScan (decoder : FrameDecoder) (fragment : Bytes) :
    (decoder.afterScan fragment).Settled :=
  (frameScanner decoder.limits).judge_scan_fst _ _ _

theorem push_eq_of_fits {decoder : FrameDecoder} {fragment : Bytes}
    (hfits : decoder.bytes.length + fragment.length ≤
      decoder.limits.bufferCapacity)
    (hevents : (decoder.scanPush fragment).2.1.length <
      maximumDecodeEventsPerPush) :
    decoder.push fragment =
      ((decoder.scanPush fragment).2.1, decoder.afterScan fragment) := by
  obtain ⟨hlimits, hscan⟩ := collectEvents_scan maximumDecodeEventsPerPush
    { decoder with bytes := decoder.bytes ++ fragment } []
  rw [push, appendBounded_of_fits hfits]
  generalize collectEvents maximumDecodeEventsPerPush
    { decoder with bytes := decoder.bytes ++ fragment } = result
    at hlimits hscan ⊢
  obtain ⟨events, final⟩ := result
  change decoder.scanPush fragment = _ at hscan
  by_cases hlt : events.length < maximumDecodeEventsPerPush
  · rw [if_pos hlt] at hscan
    rw [afterScan, hscan]
    simp only [List.nil_append]
    rw [if_neg (fun h => absurd h.1 (Nat.ne_of_lt hlt))]
    simp only at hlimits
    rw [← hlimits]
  · -- Reaching the limit would put at least as many events into the scan.
    rw [if_neg hlt, scanFrom, scan_events_append] at hscan
    rw [hscan] at hevents
    simp only [List.nil_append, List.length_append] at hevents
    omega

theorem length_scanPush_lt {decoder : FrameDecoder} {fragment : Bytes}
    (hfits : decoder.bytes.length + fragment.length ≤
      decoder.limits.bufferCapacity)
    (hevents : (decoder.push fragment).1.length <
      maximumDecodeEventsPerPush) :
    (decoder.scanPush fragment).2.1.length < maximumDecodeEventsPerPush := by
  obtain ⟨-, hscan⟩ := collectEvents_scan maximumDecodeEventsPerPush
    { decoder with bytes := decoder.bytes ++ fragment } []
  rw [push, appendBounded_of_fits hfits] at hevents
  generalize collectEvents maximumDecodeEventsPerPush
    { decoder with bytes := decoder.bytes ++ fragment } = result
    at hevents hscan
  obtain ⟨events, final⟩ := result
  change decoder.scanPush fragment = _ at hscan
  have hlt : events.length < maximumDecodeEventsPerPush := by
    simp only at hevents
    split_ifs at hevents <;> exact hevents
  rw [if_pos hlt] at hscan
  rw [hscan]
  simpa using hlt

/-! ## Every push leaves a settled decoder -/

theorem judge_preambles {limits : DecodeLimits} {bytes : Bytes}
    (hall : trailingCount isPreamble bytes = bytes.length)
    (hlength : bytes.length ≤ 255) : judge limits bytes = .wait := by
  have hnone : findCandidate bytes limits = none := by
    rw [findCandidate_eq_none_iff]
    intro index hcandidate
    have hget := List.getElem?_eq_getElem hcandidate.lt_length
    have hnot := hcandidate.not_isPreamble hget
    rw [(trailingCount_eq_length_iff _ _).mp hall _ (List.getElem_mem _)]
      at hnot
    contradiction
  have hretained : bytes.length = retainedPreambles bytes := by
    unfold retainedPreambles
    omega
  simp only [judge, analyze_of_none hnone, if_pos hretained]

theorem settled_retainPossiblePreambles (decoder : FrameDecoder) :
    decoder.retainPossiblePreambles.Settled := by
  have hle := trailingCount_le_length isPreamble decoder.bytes
  have hdrop : decoder.retainPossiblePreambles.bytes = decoder.bytes.drop
      (decoder.bytes.length - min (trailingCount isPreamble decoder.bytes)
        255) := by
    simp [retainPossiblePreambles, discard]
  unfold Settled
  rw [hdrop]
  apply judge_preambles
  · rw [trailingCount_drop, List.length_drop]
    omega
  · rw [List.length_drop]
    omega

theorem limits_push (decoder : FrameDecoder) (fragment : Bytes) :
    (decoder.push fragment).2.limits = decoder.limits := by
  have happend : (decoder.appendBounded fragment).limits =
      decoder.limits := by
    unfold appendBounded
    dsimp only
    split <;> rfl
  have hcollect := (collectEvents_scan maximumDecodeEventsPerPush
    (decoder.appendBounded fragment) []).1
  rw [← happend, ← hcollect, push]
  generalize collectEvents maximumDecodeEventsPerPush
    (decoder.appendBounded fragment) = collected
  dsimp only
  split <;> rfl

theorem settled_push (decoder : FrameDecoder) (fragment : Bytes) :
    (decoder.push fragment).2.Settled := by
  obtain ⟨hlimits, hscan⟩ := collectEvents_scan maximumDecodeEventsPerPush
    (decoder.appendBounded fragment) []
  unfold push
  dsimp only
  split
  · exact settled_retainPossiblePreambles _
  next hlimit =>
    split_ifs at hscan with hroom
    · have hwait := (frameScanner
        (decoder.appendBounded fragment).limits).judge_scan_fst decodeObserver
        (decoder.appendBounded fragment).bytes
        ([], (decoder.appendBounded fragment).statistics)
      rw [← hlimits] at hwait
      rw [scanFrom, ← hlimits] at hscan
      rw [hscan] at hwait
      exact hwait
    · -- The limit was reached with nothing left in the buffer.
      have hlength := length_collectEvents_le maximumDecodeEventsPerPush
        (decoder.appendBounded fragment)
      have hempty : (collectEvents maximumDecodeEventsPerPush
          (decoder.appendBounded fragment)).2.bytes = [] := by
        by_contra hne
        exact hlimit ⟨by omega, hne⟩
      unfold Settled
      rw [hempty]
      exact judge_preambles rfl (by simp)

theorem settled_pushAll {decoder : FrameDecoder} (h : decoder.Settled)
    (fragments : List Bytes) : (decoder.pushAll fragments).2.Settled := by
  induction fragments generalizing decoder with
  | nil => exact h
  | cons fragment fragments ih =>
      exact ih (decoder.settled_push fragment)

/-! ## Pushing piece by piece -/

/-- No push of the fragments overflows the buffer or reaches the event limit. -/
def KeepsAll (decoder : FrameDecoder) : List Bytes → Prop
  | [] => True
  | fragment :: fragments =>
      decoder.bytes.length + fragment.length ≤
          decoder.limits.bufferCapacity ∧
        (decoder.scanPush fragment).2.1.length < maximumDecodeEventsPerPush ∧
        KeepsAll (decoder.push fragment).2 fragments

theorem scanPush_append (decoder : FrameDecoder) (fragment more : Bytes) :
    decoder.scanPush (fragment ++ more) =
      (((decoder.afterScan fragment).scanPush more).1,
        (decoder.scanPush fragment).2.1 ++
          ((decoder.afterScan fragment).scanPush more).2.1,
        ((decoder.afterScan fragment).scanPush more).2.2) := by
  have hscan := (frameScanner decoder.limits).scan_append decodeObserver
    (decoder.bytes ++ fragment) more ([], decoder.statistics)
  rw [List.append_assoc] at hscan
  exact hscan.trans (scan_events_append _ _ _ _)

theorem afterScan_append (decoder : FrameDecoder) (fragment more : Bytes) :
    decoder.afterScan (fragment ++ more) =
      (decoder.afterScan fragment).afterScan more := by
  rw [afterScan, scanPush_append]
  rfl

theorem pushAll_eq_scanPush {fragments : List Bytes} {decoder : FrameDecoder}
    (hsettled : decoder.Settled) (hkeeps : decoder.KeepsAll fragments) :
    decoder.pushAll fragments =
      ((decoder.scanPush fragments.flatten).2.1,
        decoder.afterScan fragments.flatten) := by
  induction fragments generalizing decoder with
  | nil =>
      have hscan : decoder.scanPush [] =
          (decoder.bytes, [], decoder.statistics) := by
        rw [scanPush, List.append_nil]
        exact (frameScanner decoder.limits).scan_wait _ _ hsettled
      simp [pushAll, afterScan, hscan]
  | cons fragment fragments ih =>
      obtain ⟨hfits, hevents, hrest⟩ := hkeeps
      have hfirst := push_eq_of_fits hfits hevents
      rw [hfirst] at hrest
      have hlater := ih (decoder.settled_afterScan fragment) hrest
      simp only [pushAll, hfirst, hlater, List.flatten_cons, scanPush_append,
        afterScan_append]

theorem keepsAll_of_total {fragments : List Bytes} {decoder : FrameDecoder}
    (hfits : decoder.bytes.length + fragments.flatten.length ≤
      decoder.limits.bufferCapacity)
    (hevents : (decoder.scanPush fragments.flatten).2.1.length <
      maximumDecodeEventsPerPush) :
    decoder.KeepsAll fragments := by
  induction fragments generalizing decoder with
  | nil => trivial
  | cons fragment fragments ih =>
      rw [List.flatten_cons, scanPush_append] at hevents
      rw [List.flatten_cons, List.length_append] at hfits
      simp only [List.length_append] at hevents
      have hshorter : (decoder.scanPush fragment).1.length ≤
          decoder.bytes.length + fragment.length := by
        rw [← List.length_append]
        exact (Scanner.scan_fst_suffix _ _ _ _).length_le
      have hfirst : decoder.bytes.length + fragment.length ≤
          decoder.limits.bufferCapacity := by omega
      refine ⟨hfirst, by omega, ?_⟩
      rw [push_eq_of_fits hfirst (by omega)]
      apply ih
      · have hbytes : (decoder.afterScan fragment).bytes.length =
            (decoder.scanPush fragment).1.length := rfl
        have hlimits : (decoder.afterScan fragment).limits =
            decoder.limits := rfl
        simp only [hlimits, hbytes]
        omega
      · exact Nat.lt_of_le_of_lt (Nat.le_add_left _ _) hevents

/-! ## Decoders with enough room -/

theorem length_le_of_settled {decoder : FrameDecoder}
    (h : decoder.Settled) : decoder.bytes.length ≤ 521 := by
  have hdecision := judge_decision decoder.limits decoder.bytes
  rw [h] at hdecision
  cases hdecision with
  | idle hnone hlength =>
      rw [hlength]
      unfold retainedPreambles
      omega
  | @incomplete index count hfound hend hanalyze =>
      obtain ⟨-, -, hcount, hstart⟩ := (findCandidate_eq_some_iff ..).mp hfound
      have hlong := declaredEnd_le decoder.limits decoder.bytes index
      have hrun := preambleRun_le decoder.bytes index
      omega

theorem length_scan_events_le (limits : DecodeLimits) (bytes : Bytes)
    (events : List DecodeEvent) (statistics : DecodeStatistics) :
    ((frameScanner limits).scan decodeObserver bytes
      (events, statistics)).2.1.length ≤ events.length + bytes.length := by
  induction bytes using (frameScanner limits).scan_induction
    generalizing events statistics with
  | wait bytes hwait =>
      rw [Scanner.scan_wait _ _ _ hwait]
      exact Nat.le_add_right _ _
  | skip bytes count hskip ih =>
      have hbounds := (frameScanner limits).skip_bounds hskip
      have hlater := ih events (statistics.noteSkip count)
      rw [Scanner.scan_skip _ _ _ hskip]
      rw [List.length_drop] at hlater
      exact hlater.trans (by omega)
  | emit bytes event count hemit ih =>
      have hbounds := (frameScanner limits).emit_bounds hemit
      have hlater := ih (events ++ [event]) (statistics.noteEvent event count)
      rw [Scanner.scan_emit _ _ _ hemit]
      rw [List.length_drop, List.length_append, List.length_singleton]
        at hlater
      exact hlater.trans (by omega)

/-- With room for the longest tail and one read, nothing is ever dropped. -/
theorem keepsAll_of_roomy {size : Nat} {fragments : List Bytes}
    {decoder : FrameDecoder} (hsettled : decoder.Settled)
    (hroom : 521 + size ≤ decoder.limits.bufferCapacity)
    (hevents : 521 + size < maximumDecodeEventsPerPush)
    (hsize : ∀ fragment ∈ fragments, fragment.length ≤ size) :
    decoder.KeepsAll fragments := by
  induction fragments generalizing decoder with
  | nil => trivial
  | cons fragment fragments ih =>
      have htail := length_le_of_settled hsettled
      have hfragment := hsize fragment (by simp)
      have hscan := length_scan_events_le decoder.limits
        (decoder.bytes ++ fragment) [] decoder.statistics
      rw [List.length_nil, List.length_append] at hscan
      refine ⟨by omega, ?_, ih (decoder.settled_push fragment) ?_
        fun other hother => hsize other (by simp [hother])⟩
      · exact Nat.lt_of_le_of_lt hscan (by omega)
      · rw [limits_push]
        exact hroom

/--
Fragmentation independence: cutting a stream in any way gives the events, the
retained tail and the counters of one push of the whole stream.
-/
theorem pushAll_eq_push (limits : DecodeLimits) (stream : Bytes)
    (fragments : List Bytes) (hcut : fragments.flatten = stream)
    (hcapacity : stream.length ≤ (new limits).limits.bufferCapacity)
    (hevents : ((new limits).push stream).1.length <
      maximumDecodeEventsPerPush) :
    ((new limits).pushAll fragments).1 = ((new limits).push stream).1 ∧
      ((new limits).pushAll fragments).2 = ((new limits).push stream).2 := by
  subst hcut
  have hfits : (new limits).bytes.length + fragments.flatten.length ≤
      (new limits).limits.bufferCapacity := by
    simpa [new] using hcapacity
  have hscan := length_scanPush_lt hfits hevents
  rw [push_eq_of_fits hfits hscan,
    pushAll_eq_scanPush (settled_new limits) (keepsAll_of_total hfits hscan)]
  exact ⟨rfl, rfl⟩

theorem pushAll_eq_push_noise :
    ((new ⟨64, 2, .strict⟩).pushAll
        [[0x00, 0xff], [], [0xff, 0x02, 0x80], [0x00, 0x00, 0x82]]).1 =
      ((new ⟨64, 2, .strict⟩).push
        [0x00, 0xff, 0xff, 0x02, 0x80, 0x00, 0x00, 0x82]).1 :=
  (pushAll_eq_push ⟨64, 2, .strict⟩ _ _ rfl (by decide)
    (by decide +kernel)).1

end FrameDecoder

end HartLink.Wire
