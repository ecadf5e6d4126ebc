import HartLink.Wire.RoundTrip

/-!
# The way to an intact frame

An observer that counts consumed bytes gives every event the span of the stream
it consumed.  `approach_of_walked` follows the decoder from any position in
front of an intact frame to that frame: either the frame is emitted, or another
frame reaches into it, or an earlier candidate still waits for bytes that never
came.
-/

namespace HartLink.Wire

open HartLink.Foundation

/-! ## Events with their spans -/

/-- An event and the span of the stream it consumed. -/
structure Emission where
  start : Nat
  stop : Nat
  event : DecodeEvent
  deriving DecidableEq, Repr

namespace Emission

def isFrame (emission : Emission) : Prop :=
  ∃ frame, emission.event = .frame frame

/-- The event is the frame, read at the given delimiter position. -/
def Carries (emission : Emission) (frame : Frame) (delimiter : Nat) : Prop :=
  ∃ preambles : UInt8, emission.event = .frame { frame with preambles } ∧
    emission.start + preambles.toNat = delimiter

end Emission

/-- Counts the consumed bytes and collects the events with their spans. -/
def spanObserver : Observer DecodeEvent (Nat × List Emission) where
  onSkip count log := (log.1 + count, log.2)
  onEmit event count log :=
    (log.1 + count, log.2 ++ [⟨log.1, log.1 + count, event⟩])
  onSkip_onSkip a b log := by simp [Nat.add_assoc]

def emissions (limits : DecodeLimits) (stream : Bytes) : List Emission :=
  ((frameScanner limits).scan spanObserver stream (0, [])).2.2

def eventObserver : Observer DecodeEvent (List DecodeEvent) where
  onSkip _ events := events
  onEmit event _ events := events ++ [event]
  onSkip_onSkip _ _ _ := rfl

theorem map_event_emissions (limits : DecodeLimits) (stream : Bytes)
    (statistics : DecodeStatistics) :
    (emissions limits stream).map Emission.event =
      ((frameScanner limits).scan decodeObserver stream
        ([], statistics)).2.1 := by
  have hspan := (frameScanner limits).scan_map spanObserver eventObserver
    (fun log => log.2.map Emission.event) (fun _ _ => rfl)
    (fun _ _ _ => by simp [spanObserver, eventObserver]) stream (0, [])
  have hdecode := (frameScanner limits).scan_map decodeObserver eventObserver
    Prod.fst (fun _ _ => rfl) (fun _ _ _ => rfl) stream ([], statistics)
  have hsame := hspan.symm.trans hdecode
  exact congrArg Prod.snd hsame

theorem scan_span_log (limits : DecodeLimits) (buffer : Bytes)
    (position : Nat) (log : List Emission) :
    ((frameScanner limits).scan spanObserver buffer (position, log)).2.2 =
      log ++ ((frameScanner limits).scan spanObserver buffer
        (position, [])).2.2 := by
  have hmap := (frameScanner limits).scan_map spanObserver spanObserver
    (fun state => (state.1, log ++ state.2)) (fun _ _ => rfl)
    (fun _ _ _ => by simp [spanObserver]) buffer (position, [])
  simp only [List.append_nil] at hmap
  rw [hmap]

def emissionsFrom (limits : DecodeLimits) (stream : Bytes) (position : Nat) :
    List Emission :=
  ((frameScanner limits).scan spanObserver (stream.drop position)
    (position, [])).2.2

theorem emissionsFrom_zero (limits : DecodeLimits) (stream : Bytes) :
    emissionsFrom limits stream 0 = emissions limits stream := rfl

section Unfold

variable {limits : DecodeLimits} {stream : Bytes} {position count : Nat}

theorem emissionsFrom_wait
    (h : judge limits (stream.drop position) = .wait) :
    emissionsFrom limits stream position = [] := by
  rw [emissionsFrom, Scanner.scan_wait _ _ _ h]

theorem emissionsFrom_skip
    (h : judge limits (stream.drop position) = .skip count) :
    emissionsFrom limits stream position =
      emissionsFrom limits stream (position + count) := by
  rw [emissionsFrom, Scanner.scan_skip _ _ _ h, List.drop_drop]
  rfl

theorem emissionsFrom_emit {event : DecodeEvent}
    (h : judge limits (stream.drop position) = .emit event count) :
    emissionsFrom limits stream position =
      ⟨position, position + count, event⟩ ::
        emissionsFrom limits stream (position + count) := by
  rw [emissionsFrom, Scanner.scan_emit _ _ _ h, List.drop_drop]
  exact scan_span_log limits _ _ [_]

end Unfold

theorem le_start_of_mem_emissionsFrom {limits : DecodeLimits}
    {stream : Bytes} {position : Nat} {emission : Emission}
    (h : emission ∈ emissionsFrom limits stream position) :
    position ≤ emission.start ∧ emission.start < emission.stop := by
  induction hleft : stream.length - position using Nat.strong_induction_on
    generalizing position with
  | _ left ih =>
      cases hjudge : judge limits (stream.drop position) with
      | wait =>
          rw [emissionsFrom_wait hjudge] at h
          contradiction
      | skip count =>
          have hbounds := judge_skip_bounds hjudge
          rw [List.length_drop] at hbounds
          rw [emissionsFrom_skip hjudge] at h
          have := ih _ (by omega) h rfl
          omega
      | emit event count =>
          have hbounds := judge_emit_bounds hjudge
          rw [List.length_drop] at hbounds
          rw [emissionsFrom_emit hjudge, List.mem_cons] at h
          rcases h with rfl | h
          · exact ⟨le_rfl, by simp only; omega⟩
          · have := ih _ (by omega) h rfl
            omega

def lastFrameEnd (floor : Nat) : List Emission → Nat
  | [] => floor
  | emission :: later =>
      match emission.event with
      | .frame _ => lastFrameEnd emission.stop later
      | .rejected _ => lastFrameEnd floor later

/-! ## Positions and candidates behind a floor -/

/-- Preambles directly before a position that lie behind the floor. -/
def runAfter (stream : Bytes) (floor index : Nat) : Nat :=
  min (preambleRun stream index) (index - floor)

def CandidateAfter (limits : DecodeLimits) (stream : Bytes)
    (floor index : Nat) : Prop :=
  floor ≤ index ∧ Candidate limits (stream.drop floor) (index - floor)

theorem candidateAfter_iff {limits : DecodeLimits} {stream : Bytes}
    {floor index : Nat} :
    CandidateAfter limits stream floor index ↔
      floor ≤ index ∧ ∃ byte, stream[index]? = some byte ∧
        isPossibleDelimiter byte limits.checksumPolicy = true ∧
        limits.minimumPreambles.toNat ≤ runAfter stream floor index := by
  constructor
  · rintro ⟨hfloor, hcandidate⟩
    have hlength := hcandidate.lt_length
    rw [List.length_drop] at hlength
    obtain ⟨byte, hbyte, hpossible, hrun⟩ := hcandidate
    rw [List.getElem?_drop, Nat.add_sub_cancel' hfloor] at hbyte
    rw [preambleRun_drop (by omega), Nat.add_sub_cancel' hfloor] at hrun
    exact ⟨hfloor, byte, hbyte, hpossible, hrun⟩
  · rintro ⟨hfloor, byte, hbyte, hpossible, hrun⟩
    have hlength := (List.getElem?_eq_some_iff.mp hbyte).1
    refine ⟨hfloor, byte, ?_, hpossible, ?_⟩
    · rwa [List.getElem?_drop, Nat.add_sub_cancel' hfloor]
    · rwa [preambleRun_drop (by omega), Nat.add_sub_cancel' hfloor]

theorem CandidateAfter.not_isPreamble {limits : DecodeLimits}
    {stream : Bytes} {floor index : Nat}
    (h : CandidateAfter limits stream floor index) {byte : UInt8}
    (hbyte : stream[index]? = some byte) : isPreamble byte = false := by
  apply h.2.not_isPreamble
  rwa [List.getElem?_drop, Nat.add_sub_cancel' h.1]

theorem preambleRun_lt {stream : Bytes} {index : Nat} (later : Nat)
    {byte : UInt8} (hbyte : stream[index]? = some byte)
    (hnot : isPreamble byte = false) (hlater : index < later) :
    preambleRun stream later < later - index := by
  by_contra hle
  have hpreamble := isPreamble_of_preambleRun later index (by omega) hlater
    hbyte
  rw [hnot] at hpreamble
  contradiction

/--
No candidate between the floor and the given position waits for bytes behind
the end of the stream.
-/
def Unblocked (limits : DecodeLimits) (stream : Bytes)
    (floor stop : Nat) : Prop :=
  ∀ index < stop, CandidateAfter limits stream floor index →
    declaredEnd limits stream index ≤ stream.length

theorem Unblocked.mono {limits : DecodeLimits} {stream : Bytes}
    {floor stop stop' : Nat} (h : Unblocked limits stream floor stop)
    (hle : stop' ≤ stop) : Unblocked limits stream floor stop' :=
  fun index hindex => h index (hindex.trans_le hle)

/-! ## Walking through noise -/

/--
The decoder went from the floor, where the last frame ended, to a position: the
capped preamble runs of later delimiters are still whole, and every candidate
on the way was complete.
-/
structure Walked (limits : DecodeLimits) (stream : Bytes)
    (floor position : Nat) : Prop where
  floor_le : floor ≤ position
  runs : ∀ index byte, position ≤ index → stream[index]? = some byte →
    isPreamble byte = false →
      min (runAfter stream position index) 255 =
        min (runAfter stream floor index) 255
  unblocked : Unblocked limits stream floor position

namespace Walked

variable {limits : DecodeLimits} {stream : Bytes} {floor position : Nat}

theorem refl (limits : DecodeLimits) (stream : Bytes) (position : Nat) :
    Walked limits stream position position where
  floor_le := le_rfl
  runs _ _ _ _ _ := rfl
  unblocked index hindex hcandidate := by
    have := hcandidate.1
    omega

theorem candidateAfter_iff_of_le (h : Walked limits stream floor position)
    {index : Nat} (hindex : position ≤ index) :
    CandidateAfter limits stream position index ↔
      CandidateAfter limits stream floor index := by
  have hfloor := h.floor_le
  have hlimit := limits.minimumPreambles.toNat_lt
  have hsame : ∀ byte, stream[index]? = some byte →
      isPossibleDelimiter byte limits.checksumPolicy = true →
      min (runAfter stream position index) 255 =
        min (runAfter stream floor index) 255 := by
    intro byte hbyte hpossible
    apply h.runs index byte hindex hbyte
    by_contra hpreamble
    rw [Bool.not_eq_false] at hpreamble
    rw [not_possible_of_isPreamble _ hpreamble] at hpossible
    contradiction
  rw [candidateAfter_iff, candidateAfter_iff]
  constructor
  · rintro ⟨-, byte, hbyte, hpossible, hrun⟩
    have := hsame byte hbyte hpossible
    exact ⟨by omega, byte, hbyte, hpossible, by omega⟩
  · rintro ⟨-, byte, hbyte, hpossible, hrun⟩
    have := hsame byte hbyte hpossible
    exact ⟨hindex, byte, hbyte, hpossible, by omega⟩

theorem first_candidate {index start count : Nat}
    (hfound : findCandidate (stream.drop position) limits =
      some (index, start, count)) :
    CandidateAfter limits stream position (position + index) ∧
      (∀ earlier < position + index,
        ¬ CandidateAfter limits stream position earlier) ∧
      count = min (runAfter stream position (position + index)) 255 ∧
      start = index - count := by
  obtain ⟨hcandidate, hbefore, hcount, hstart⟩ :=
    (findCandidate_eq_some_iff ..).mp hfound
  have hlength := hcandidate.lt_length
  rw [List.length_drop] at hlength
  refine ⟨⟨by omega, by rwa [Nat.add_sub_cancel_left]⟩, ?_, ?_, hstart⟩
  · rintro earlier hearlier ⟨hle, hother⟩
    exact hbefore (earlier - position) (by omega) hother
  · rw [preambleRun_drop (by omega)] at hcount
    rwa [runAfter, Nat.add_sub_cancel_left]

theorem count_le_index {index start count : Nat}
    (hfound : findCandidate (stream.drop position) limits =
      some (index, start, count)) : count ≤ index := by
  obtain ⟨-, -, hcount, -⟩ := first_candidate hfound
  have hrun : runAfter stream position (position + index) ≤ index := by
    unfold runAfter
    omega
  omega

theorem skip (h : Walked limits stream floor position)
    {index start count : Nat}
    (hfound : findCandidate (stream.drop position) limits =
      some (index, start, count)) :
    Walked limits stream floor (position + start) := by
  obtain ⟨hcandidate, hfirst, hcount, hstart⟩ := first_candidate hfound
  have hfloor := h.floor_le
  obtain ⟨-, delimiter, hdelimiter, -, -⟩ := candidateAfter_iff.mp hcandidate
  have hnot := hcandidate.not_isPreamble hdelimiter
  refine ⟨by omega, ?_, ?_⟩
  · intro later byte hlater hbyte hother
    rw [← h.runs later byte (by omega) hbyte hother]
    unfold runAfter at hcount ⊢
    -- Between the kept start and the delimiter there are only preambles.
    have hbehind : position + index ≤ later := by
      by_contra hlt
      have hpreamble := isPreamble_of_preambleRun (position + index) later
        (by omega) (by omega) hbyte
      rw [hother] at hpreamble
      contradiction
    rcases Nat.eq_or_lt_of_le hbehind with rfl | hlt
    · omega
    · have := preambleRun_lt later hdelimiter hnot hlt
      omega
  · intro earlier hearlier hother
    by_cases hlt : earlier < position
    · exact h.unblocked earlier hlt hother
    · have hsame := (h.candidateAfter_iff_of_le (by omega)).mpr hother
      exact absurd hsame (hfirst earlier (by omega))

theorem reject (h : Walked limits stream floor position)
    {index count : Nat}
    (hfound : findCandidate (stream.drop position) limits =
      some (index, 0, count))
    (hend : declaredEnd limits (stream.drop position) index ≤
      (stream.drop position).length) :
    Walked limits stream floor (position + (index + 1)) := by
  obtain ⟨hcandidate, hfirst, -, -⟩ := first_candidate hfound
  have hfloor := h.floor_le
  obtain ⟨-, delimiter, hdelimiter, -, -⟩ := candidateAfter_iff.mp hcandidate
  have hnot := hcandidate.not_isPreamble hdelimiter
  refine ⟨by omega, ?_, ?_⟩
  · intro later byte hlater hbyte hother
    have := preambleRun_lt later hdelimiter hnot (by omega)
    unfold runAfter
    omega
  · intro earlier hearlier hother
    by_cases hlt : earlier < position
    · exact h.unblocked earlier hlt hother
    · have hsame := (h.candidateAfter_iff_of_le (by omega)).mpr hother
      obtain rfl : earlier = position + index := by
        by_contra hne
        exact hfirst earlier (by omega) hsame
      have := declaredEnd_drop limits stream position index
      have := lt_declaredEnd limits (stream.drop position) index
      rw [List.length_drop] at hend
      omega

end Walked

/-! ## An intact frame in a stream -/

section Intact

variable {limits : DecodeLimits} {front : Bytes} {frame : Frame} {rest : Bytes}

theorem preambles_of_analyze {bytes : Bytes} {index start count : Nat}
    {consumed : Nat} {repaired : Bool}
    (hfound : findCandidate bytes limits = some (index, start, count))
    (h : analyze bytes limits = .frame frame consumed repaired) :
    frame.preambles.toNat = count := by
  have hcount := ((findCandidate_eq_some_iff ..).mp hfound).2.2.1
  rw [analyze_of_some hfound] at h
  have hsmall : (UInt8.ofNat (min count 255)).toNat = count := by
    rw [UInt8.toNat_ofNat']
    omega
  split_ifs at h
  unfold analyzeCandidate analyzeComplete at h
  dsimp only at h
  split_ifs at h
  all_goals
    split at h
    · contradiction
    split at h
    · contradiction
    injection h with hframe
    rw [← hframe]
    exact hsmall

theorem drop_embedded {position : Nat} (h : position ≤ front.length) :
    (front ++ (frame.encoding ++ rest)).drop position =
      framed (front.drop position ++
        List.replicate frame.preambles.toNat 0xff) frame rest := by
  rw [List.drop_append_of_le_length h, encoding_append]
  simp [framed]

theorem candidateAfter_embedded (rest : Bytes) (hencodable : frame.Encodable)
    (hpreambles : limits.minimumPreambles ≤ frame.preambles)
    {position : Nat} (h : position ≤ front.length) :
    CandidateAfter limits (front ++ (frame.encoding ++ rest)) position
      (front.length + frame.preambles.toNat) := by
  refine ⟨by omega, ?_⟩
  rw [drop_embedded h]
  have hlength : (front.drop position ++
      List.replicate frame.preambles.toNat (0xff : UInt8)).length =
      front.length + frame.preambles.toNat - position := by
    simp only [List.length_append, List.length_drop, List.length_replicate]
    omega
  rw [← hlength]
  apply candidate_framed limits _ rest hencodable
  have hrun : trailingCount isPreamble
      (List.replicate frame.preambles.toNat 0xff) = frame.preambles.toNat :=
    trailingCount_replicate _ _ _ rfl
  have hle := UInt8.le_iff_toNat_le.mp hpreambles
  rw [trailingCount_append, hrun, if_pos (by rw [List.length_replicate]),
    List.length_replicate]
  omega

theorem le_runAfter_embedded (frame : Frame) (rest : Bytes) {position : Nat}
    (h : position ≤ front.length) :
    frame.preambles.toNat ≤ runAfter (front ++ (frame.encoding ++ rest))
      position (front.length + frame.preambles.toNat) := by
  have htake : (front ++ (frame.encoding ++ rest)).take
      (front.length + frame.preambles.toNat) =
      front ++ List.replicate frame.preambles.toNat 0xff := by
    rw [List.take_length_add_append, Frame.encoding, List.append_assoc,
      List.take_append_of_le_length (by rw [List.length_replicate]),
      List.take_of_length_le (by rw [List.length_replicate])]
  have hrun : trailingCount isPreamble
      (List.replicate frame.preambles.toNat 0xff) = frame.preambles.toNat :=
    trailingCount_replicate _ _ _ rfl
  rw [runAfter, preambleRun, htake, trailingCount_append, hrun,
    List.length_replicate, if_pos rfl]
  omega

theorem first_candidate_embedded (hencodable : frame.Encodable)
    (hpreambles : limits.minimumPreambles ≤ frame.preambles)
    {position index start count : Nat} (h : position ≤ front.length)
    (hfound : findCandidate
      ((front ++ (frame.encoding ++ rest)).drop position) limits =
        some (index, start, count)) :
    position + index = front.length + frame.preambles.toNat ∨
      position + index < front.length := by
  obtain ⟨hcandidate, hfirst, -, -⟩ := Walked.first_candidate hfound
  have hown := candidateAfter_embedded rest hencodable hpreambles h
  have hle : position + index ≤ front.length + frame.preambles.toNat := by
    by_contra hlt
    exact hfirst _ (by omega) hown
  rcases Nat.eq_or_lt_of_le hle with heq | hlt
  · exact .inl heq
  right
  by_contra hge
  -- Between the end of the front and the delimiter stand the preambles.
  have hbyte : (front ++ (frame.encoding ++ rest))[position + index]? =
      some 0xff := by
    rw [List.getElem?_append_right (by omega), Frame.encoding,
      List.append_assoc, List.getElem?_append_left
        (by rw [List.length_replicate]; omega),
      List.getElem?_replicate_of_lt (by omega)]
  have := hcandidate.not_isPreamble hbyte
  contradiction

theorem judge_embedded (hencodable : frame.Encodable)
    {position index count : Nat} (h : position ≤ front.length)
    (hfound : findCandidate
      ((front ++ (frame.encoding ++ rest)).drop position) limits =
        some (index, 0, count))
    (hindex : position + index = front.length + frame.preambles.toNat) :
    judge limits ((front ++ (frame.encoding ++ rest)).drop position) =
      .emit (.frame { frame with preambles := UInt8.ofNat count })
        (front.length + frame.encoding.length - position) := by
  have hcount := ((findCandidate_eq_some_iff ..).mp hfound).2.2.1
  have hanalyze := analyze_of_some hfound
  rw [drop_embedded h] at hanalyze ⊢
  generalize hlead : front.drop position ++
    List.replicate frame.preambles.toNat (0xff : UInt8) = lead at hanalyze ⊢
  have hlength : lead.length = index := by
    rw [← hlead]
    simp only [List.length_append, List.length_drop, List.length_replicate]
    omega
  have hend := declaredEnd_framed limits lead rest hencodable
  have htotal : (framed lead frame rest).length =
      lead.length + frame.body.length + 1 + rest.length := by
    simp only [framed, List.length_append, List.length_cons]
    omega
  rw [← hlength, if_neg (lt_irrefl 0), hend, if_neg (by omega),
    analyzeCandidate_framed limits lead rest hencodable (by omega)]
    at hanalyze
  simp only [judge, hanalyze, Frame.length_encoding]
  congr 1
  omega

/--
What the decoder emits on its way to an intact frame, starting behind the floor
with nothing of the frame consumed.
-/
inductive Approach (limits : DecodeLimits) (front : Bytes) (frame : Frame)
    (rest : Bytes) (floor : Nat) : List Emission → Prop
  | reached {before after : List Emission} {own : Emission}
      (hbefore : ∀ emission ∈ before, emission.stop ≤ front.length)
      (hunblocked : Unblocked limits (front ++ (frame.encoding ++ rest))
        (lastFrameEnd floor before) (front.length + frame.preambles.toNat))
      (hevent : own.event = .frame { frame with
        preambles := UInt8.ofNat (min (runAfter
          (front ++ (frame.encoding ++ rest)) (lastFrameEnd floor before)
          (front.length + frame.preambles.toNat)) 255) })
      (hcarries : own.Carries frame (front.length + frame.preambles.toNat))
      (hstop : own.stop = front.length + frame.encoding.length)
      (hafter : ∀ emission ∈ after, own.stop ≤ emission.start) :
      Approach limits front frame rest floor (before ++ own :: after)
  | overlapped {before after : List Emission} {other : Emission}
      {found : Frame} (hevent : other.event = .frame found)
      (hdelimiter : other.start + found.preambles.toNat < front.length)
      (hstart : other.start ≤ front.length)
      (hstop : front.length < other.stop) :
      Approach limits front frame rest floor (before ++ other :: after)
  | blocked {before : List Emission}
      (hbefore : ∀ emission ∈ before, emission.stop ≤ front.length)
      (hblocked : ¬ Unblocked limits (front ++ (frame.encoding ++ rest))
        (lastFrameEnd floor before) front.length) :
      Approach limits front frame rest floor before

theorem Approach.cons {floor next : Nat} {emission : Emission}
    {later : List Emission} (hstop : emission.stop ≤ front.length)
    (hnext : lastFrameEnd floor [emission] = next)
    (h : Approach limits front frame rest next later) :
    Approach limits front frame rest floor (emission :: later) := by
  have hfloor : ∀ before, lastFrameEnd floor (emission :: before) =
      lastFrameEnd next before := by
    intro before
    rw [← hnext]
    cases hevent : emission.event <;> simp [lastFrameEnd, hevent]
  have hmem : ∀ before : List Emission,
      (∀ emission ∈ before, emission.stop ≤ front.length) →
        ∀ other ∈ emission :: before, other.stop ≤ front.length := by
    intro before hbefore other hother
    rcases List.mem_cons.mp hother with rfl | hother
    · exact hstop
    · exact hbefore other hother
  cases h with
  | reached hbefore hunblocked hevent hcarries hown hafter =>
      rw [← hfloor] at hunblocked hevent
      exact .reached (hmem _ hbefore) hunblocked hevent hcarries hown hafter
  | @overlapped before after other found hevent hdelimiter hstart hover =>
      rw [← List.cons_append]
      exact .overlapped hevent hdelimiter hstart hover
  | blocked hbefore hblocked =>
      rw [← hfloor] at hblocked
      exact .blocked (hmem _ hbefore) hblocked

theorem approach_reached (rest : Bytes) (hencodable : frame.Encodable)
    (hpreambles : limits.minimumPreambles ≤ frame.preambles)
    {floor position index count : Nat} (hposition : position ≤ front.length)
    (hwalked : Walked limits (front ++ (frame.encoding ++ rest))
      floor position)
    (hfound : findCandidate
      ((front ++ (frame.encoding ++ rest)).drop position) limits =
        some (index, 0, count))
    (hindex : position + index = front.length + frame.preambles.toNat) :
    Approach limits front frame rest floor
      (emissionsFrom limits (front ++ (frame.encoding ++ rest)) position) := by
  have hown := candidateAfter_embedded rest hencodable hpreambles hposition
  obtain ⟨-, hfirst, hrun, hstart⟩ := Walked.first_candidate hfound
  have hbound := Walked.count_le_index hfound
  rw [emissionsFrom_emit (judge_embedded hencodable hposition hfound hindex)]
  rw [hindex] at hrun
  rw [← List.nil_append (_ :: _)]
  refine .reached (by simp) ?_ ?_ ?_ ?_ ?_
  · intro earlier hearlier hother
    rw [← hindex] at hearlier
    by_cases hlt : earlier < position
    · exact hwalked.unblocked earlier hlt hother
    · exact absurd ((hwalked.candidateAfter_iff_of_le
        (by omega)).mpr hother) (hfirst earlier hearlier)
  · obtain ⟨-, delimiter, hdelimiter, -⟩ := candidateAfter_iff.mp hown
    simp only [lastFrameEnd]
    rw [hrun, hwalked.runs _ _ (by omega) hdelimiter
      (hown.not_isPreamble hdelimiter)]
  · refine ⟨UInt8.ofNat count, rfl, ?_⟩
    have hsmall : (UInt8.ofNat count).toNat = count := by
      rw [UInt8.toNat_ofNat']
      omega
    simp only [hsmall]
    omega
  · simp only
    omega
  · intro emission hmem
    exact (le_start_of_mem_emissionsFrom hmem).1

/-- The walk of the decoder from any position in front of an intact frame. -/
theorem approach_of_walked (rest : Bytes) (hencodable : frame.Encodable)
    (hpreambles : limits.minimumPreambles ≤ frame.preambles)
    {floor position : Nat} (hposition : position ≤ front.length)
    (hwalked : Walked limits (front ++ (frame.encoding ++ rest))
      floor position) :
    Approach limits front frame rest floor
      (emissionsFrom limits (front ++ (frame.encoding ++ rest)) position) := by
  -- Every decision in front of the frame consumes something.
  induction hleft : front.length + 1 - position using Nat.strong_induction_on
    generalizing floor position with
  | _ left ih =>
      have hown := candidateAfter_embedded rest hencodable hpreambles hposition
      have hdecision := judge_decision limits
        ((front ++ (frame.encoding ++ rest)).drop position)
      generalize hverdict : judge limits
        ((front ++ (frame.encoding ++ rest)).drop position) = verdict
        at hdecision
      cases hdecision with
      | idle hnone hlength =>
          exact absurd hown.2 ((findCandidate_eq_none_iff ..).mp hnone _)
      | noise hnone hlength =>
          exact absurd hown.2 ((findCandidate_eq_none_iff ..).mp hnone _)
      | @discard index start count hfound hstart hanalyze =>
          have hnext := hwalked.skip hfound
          obtain ⟨-, -, hcount, hstartEq⟩ := Walked.first_candidate hfound
          have hbefore : position + start ≤ front.length := by
            rcases first_candidate_embedded hencodable hpreambles hposition
              hfound with hindex | hindex
            · have := le_runAfter_embedded frame rest hposition
              have := frame.preambles.toNat_lt
              rw [hindex] at hcount
              omega
            · omega
          rw [emissionsFrom_skip hverdict]
          exact ih _ (by omega) hbefore hnext rfl
      | @incomplete index count hfound hend hanalyze =>
          rw [emissionsFrom_wait hverdict]
          obtain ⟨hcandidate, -⟩ := Walked.first_candidate hfound
          have hlong := declaredEnd_drop limits
            (front ++ (frame.encoding ++ rest)) position index
          rcases first_candidate_embedded hencodable hpreambles hposition
            hfound with hindex | hindex
          · have hemit := judge_embedded hencodable hposition hfound hindex
            rw [hverdict] at hemit
            contradiction
          · refine .blocked (by simp) fun hunblocked => ?_
            have hcomplete := hunblocked _ hindex
              ((hwalked.candidateAfter_iff_of_le (by omega)).mp hcandidate)
            rw [List.length_drop] at hend
            omega
      | @rejected index count expected actual hfound hend hanalyze =>
          rw [emissionsFrom_emit hverdict]
          have hnext := hwalked.reject hfound hend
          rcases first_candidate_embedded hencodable hpreambles hposition
            hfound with hindex | hindex
          · have hemit := judge_embedded hencodable hposition hfound hindex
            rw [hverdict] at hemit
            simp at hemit
          · exact .cons (by simp only; omega) rfl
              (ih _ (by omega) (by omega) hnext rfl)
      | @frame index count found hfound hend hanalyze =>
          rcases first_candidate_embedded hencodable hpreambles hposition
            hfound with hindex | hindex
          · exact approach_reached rest hencodable hpreambles hposition hwalked
              hfound hindex
          rw [emissionsFrom_emit hverdict]
          have hcount := preambles_of_analyze hfound hanalyze
          have hrun := Walked.count_le_index hfound
          have hlong := lt_declaredEnd limits
            ((front ++ (frame.encoding ++ rest)).drop position) index
          by_cases hpast : position + declaredEnd limits
              ((front ++ (frame.encoding ++ rest)).drop position) index ≤
                front.length
          · exact .cons hpast rfl (ih _ (by omega) hpast (.refl ..) rfl)
          · rw [← List.nil_append (_ :: _)]
            refine .overlapped rfl ?_ hposition (by simpa using hpast)
            simp only
            omega

end Intact

end HartLink.Wire
