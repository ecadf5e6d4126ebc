import HartLink.Wire.Spans

/-!
# What the decoder keeps and what it counts

Between two pushes the decoder keeps less than one frame, whatever its
capacity.  The statistics account for every byte: what was pushed is buffered,
was discarded, has overflowed, or belongs to a frame that was emitted.
-/

namespace HartLink.Wire

open HartLink.Foundation

namespace FrameDecoder

/-! ## Retained bytes -/

theorem length_push_le (decoder : FrameDecoder) (fragment : Bytes) :
    (decoder.push fragment).2.bytes.length ≤
      decoder.limits.bufferCapacity :=
  (decoder.push_suffix fragment).length_le.trans
    (decoder.length_appendBounded_le fragment)

inductive Call where
  | push (fragment : Bytes)
  | clear
  deriving DecidableEq, Repr

def call (decoder : FrameDecoder) : Call → FrameDecoder
  | .push fragment => (decoder.push fragment).2
  | .clear => decoder.clear

theorem limits_foldl_call (decoder : FrameDecoder) (calls : List Call) :
    (calls.foldl call decoder).limits = decoder.limits := by
  induction calls generalizing decoder with
  | nil => rfl
  | cons first calls ih =>
      rw [List.foldl_cons, ih]
      cases first with
      | push fragment => exact decoder.limits_push fragment
      | clear => rfl

/--
After any calls, a push leaves less than one frame in the buffer and returns a
bounded number of events.
-/
theorem push_retains_less_than_a_frame (limits : DecodeLimits)
    (calls : List Call) (fragment : Bytes) :
    (((calls.foldl call (new limits)).push fragment).2.bytes.length ≤
        min (effectiveLimits limits).bufferCapacity 521) ∧
      ((calls.foldl call (new limits)).push fragment).1.length ≤ 4096 := by
  have hcapacity := length_push_le (calls.foldl call (new limits)) fragment
  rw [limits_foldl_call] at hcapacity
  refine ⟨le_min hcapacity (length_le_of_settled (settled_push _ fragment)),
    ?_⟩
  rw [push_fst]
  exact length_collectEvents_le ..

end FrameDecoder

/-! ## Sizes -/

def Frame.wireLen (frame : Frame) : Nat :=
  frame.preambles.toNat + 1 + frame.address.encodedLen +
    frame.expansion.length + 2 + frame.payload.length + 1

namespace DecodeEvent

def frameLen : DecodeEvent → Nat
  | .frame found => found.wireLen
  | .rejected _ => 0

def isFrame : DecodeEvent → Bool
  | .frame _ => true
  | .rejected _ => false

def isRejected (event : DecodeEvent) : Bool := !event.isFrame

def isRepaired : DecodeEvent → Bool
  | .frame found => found.repair.isSome
  | .rejected _ => false

end DecodeEvent

theorem SpanParts.length_span_wireLen {limits : DecodeLimits}
    {preambles : Nat} {parts : SpanParts} {frame : Frame}
    (hfits : parts.Fits limits preambles)
    (hreads : parts.Reads limits.checksumPolicy frame)
    (hcount : frame.preambles = UInt8.ofNat preambles) :
    (parts.span preambles).length = frame.wireLen := by
  rw [length_span, length_body, Frame.wireLen, hcount, hfits.toNat_ofNat,
    (hreads.address_accepted hfits.sized).2, hreads.expansion,
    hreads.payload]
  omega

theorem consumed_eq_wireLen {limits : DecodeLimits} {bytes : Bytes}
    {frame : Frame} {consumed : Nat} {repaired : Bool}
    (hanalyze : analyze bytes limits = .frame frame consumed repaired)
    (hlength : consumed ≤ bytes.length) : consumed = frame.wireLen := by
  obtain ⟨preambles, parts, hfits, hreads, hcount, hspan⟩ :=
    SpanParts.exists_span_of_frame hanalyze
  rw [← SpanParts.length_span_wireLen hfits hreads hcount, ← hspan,
    List.length_take, Nat.min_eq_left hlength]

/-! ## Accounts -/

/--
From `before` to `after`, `incoming` bytes arrive and `events` are emitted;
`discarded` and `lost` bytes leave the buffer otherwise, and the statistics
say so.
-/
structure Account (before after : FrameDecoder) (incoming : Nat)
    (events : List DecodeEvent) (discarded lost : Nat) : Prop where
  bytes : before.bytes.length + incoming = after.bytes.length + discarded +
    lost + (events.map DecodeEvent.frameLen).sum
  discardedBytes : after.statistics.discardedBytes =
    saturatingAdd before.statistics.discardedBytes discarded
  overflowBytes : after.statistics.overflowBytes =
    saturatingAdd before.statistics.overflowBytes lost
  frames : after.statistics.frames = saturatingAdd before.statistics.frames
    (events.countP DecodeEvent.isFrame)
  checksumFailures : after.statistics.checksumFailures =
    saturatingAdd before.statistics.checksumFailures
      (events.countP DecodeEvent.isRejected)
  repairedFrames : after.statistics.repairedFrames =
    saturatingAdd before.statistics.repairedFrames
      (events.countP DecodeEvent.isRepaired)

namespace Account

variable {first second third : FrameDecoder} {incoming later : Nat}
  {events others : List DecodeEvent} {discarded gone lost missed : Nat}

theorem refl (decoder : FrameDecoder) : Account decoder decoder 0 [] 0 0 := by
  constructor <;> simp

theorem trans (h : Account first second incoming events discarded lost)
    (hnext : Account second third later others gone missed) :
    Account first third (incoming + later) (events ++ others)
      (discarded + gone) (lost + missed) := by
  refine ⟨?_, ?_, ?_, ?_, ?_, ?_⟩
  · have hfirst := h.bytes
    have hsecond := hnext.bytes
    rw [List.map_append, List.sum_append]
    omega
  · rw [hnext.discardedBytes, h.discardedBytes, saturatingAdd_saturatingAdd]
  · rw [hnext.overflowBytes, h.overflowBytes, saturatingAdd_saturatingAdd]
  · rw [hnext.frames, h.frames, saturatingAdd_saturatingAdd,
      List.countP_append]
  · rw [hnext.checksumFailures, h.checksumFailures,
      saturatingAdd_saturatingAdd, List.countP_append]
  · rw [hnext.repairedFrames, h.repairedFrames, saturatingAdd_saturatingAdd,
      List.countP_append]

end Account

/-! ## What each step of the decoder accounts for -/

namespace FrameDecoder

theorem account_discard (decoder : FrameDecoder) {count : Nat}
    (h : count ≤ decoder.bytes.length) :
    Account decoder (decoder.discard count) 0 [] count 0 := by
  constructor
  case bytes =>
    simp [discard, Nat.min_eq_left h]
    omega
  all_goals simp [discard]

theorem account_retainPossiblePreambles (decoder : FrameDecoder) :
    Account decoder decoder.retainPossiblePreambles 0 []
      (decoder.bytes.length -
        min (trailingCount isPreamble decoder.bytes) 255) 0 :=
  decoder.account_discard (Nat.sub_le ..)

theorem account_rejected (decoder : FrameDecoder) {error : WireError}
    {count : Nat} (h : count ≤ decoder.bytes.length) :
    Account decoder ((decoder.noteRejected true).discard count) 0
      [.rejected error] count 0 := by
  constructor
  case bytes =>
    simp [noteRejected, discard, DecodeEvent.frameLen, Nat.min_eq_left h]
    omega
  all_goals simp [noteRejected, discard, DecodeEvent.isFrame,
    DecodeEvent.isRejected, DecodeEvent.isRepaired]

theorem account_takeFrame (decoder : FrameDecoder) {frame : Frame}
    (h : frame.wireLen ≤ decoder.bytes.length) :
    Account decoder (decoder.takeFrame frame.wireLen frame.repair.isSome) 0
      [.frame frame] 0 0 := by
  constructor
  case bytes =>
    simp [takeFrame, DecodeEvent.frameLen]
    omega
  case repairedFrames =>
    cases hrepair : frame.repair <;>
      simp [takeFrame, DecodeEvent.isRepaired, hrepair]
  all_goals simp [takeFrame, DecodeEvent.isFrame, DecodeEvent.isRejected]

theorem account_nextEventLoop (fuel : Nat) (decoder : FrameDecoder) :
    ∃ discarded, Account decoder (nextEventLoop fuel decoder).2 0
      (nextEventLoop fuel decoder).1.toList discarded 0 := by
  induction fuel generalizing decoder with
  | zero => exact ⟨0, .refl decoder⟩
  | succ fuel ih =>
      have hdecision := judge_decision decoder.limits decoder.bytes
      generalize hverdict : judge decoder.limits decoder.bytes = verdict
        at hdecision
      cases hdecision with
      | idle hnone hlength =>
          simp only [nextEventLoop, analyze_of_none hnone]
          exact ⟨_, decoder.account_retainPossiblePreambles⟩
      | noise hnone hlength =>
          simp only [nextEventLoop, analyze_of_none hnone]
          exact ⟨_, decoder.account_retainPossiblePreambles⟩
      | incomplete hfound hend hanalyze =>
          simp only [nextEventLoop, hanalyze]
          exact ⟨0, .refl decoder⟩
      | @discard index start count hfound hstart hanalyze =>
          have hbounds := judge_skip_bounds hverdict
          obtain ⟨discarded, hlater⟩ := ih (decoder.discard start)
          simp only [nextEventLoop, hanalyze]
          exact ⟨_, (decoder.account_discard hbounds.2).trans hlater⟩
      | rejected hfound hend hanalyze =>
          have hbounds := judge_emit_bounds hverdict
          simp only [nextEventLoop, hanalyze]
          exact ⟨_, decoder.account_rejected hbounds.2⟩
      | frame hfound hend hanalyze =>
          have hsize := consumed_eq_wireLen hanalyze hend
          rw [hsize] at hanalyze hend
          simp only [nextEventLoop, hanalyze]
          exact ⟨0, decoder.account_takeFrame hend⟩

theorem account_collectEvents (room : Nat) (decoder : FrameDecoder) :
    ∃ discarded, Account decoder (collectEvents room decoder).2 0
      (collectEvents room decoder).1 discarded 0 := by
  induction room generalizing decoder with
  | zero => exact ⟨0, .refl decoder⟩
  | succ room ih =>
      obtain ⟨discarded, hnext⟩ :=
        account_nextEventLoop (decoder.bytes.length + 1) decoder
      rw [← nextEvent] at hnext
      simp only [collectEvents]
      rcases hresult : decoder.nextEvent with ⟨event, next⟩
      rw [hresult] at hnext
      cases event with
      | none => exact ⟨discarded, hnext⟩
      | some event =>
          obtain ⟨gone, hlater⟩ := ih next
          exact ⟨discarded + gone, hnext.trans hlater⟩

theorem account_appendBounded (decoder : FrameDecoder) (fragment : Bytes) :
    Account decoder (decoder.appendBounded fragment) fragment.length [] 0
      (decoder.overflow fragment) := by
  have hbytes := congrArg List.length (decoder.bytes_appendBounded fragment)
  rw [List.length_drop, List.length_append] at hbytes
  have hoverflow : decoder.overflow fragment ≤
      decoder.bytes.length + fragment.length := Nat.sub_le ..
  constructor
  case bytes =>
    simp only [List.map_nil, List.sum_nil]
    omega
  all_goals
    simp only [overflow, appendBounded]
    split_ifs with hfits
    all_goals simp [hfits]

def noteEventLimit (decoder : FrameDecoder) : FrameDecoder :=
  { decoder with
    statistics := { decoder.statistics with
      eventLimitHits :=
        saturatingAdd decoder.statistics.eventLimitHits 1 } }

theorem account_noteEventLimit (decoder : FrameDecoder) :
    Account decoder decoder.noteEventLimit 0 [] 0 0 := by
  constructor <;> simp [noteEventLimit]

theorem account_push (decoder : FrameDecoder) (fragment : Bytes) :
    ∃ discarded, Account decoder (decoder.push fragment).2
      fragment.length (decoder.push fragment).1 discarded
      (decoder.overflow fragment) := by
  obtain ⟨discarded, hcollect⟩ := account_collectEvents
    maximumDecodeEventsPerPush (decoder.appendBounded fragment)
  have haccount := (decoder.account_appendBounded fragment).trans hcollect
  rw [List.nil_append, Nat.add_zero, Nat.add_zero] at haccount
  unfold push
  dsimp only
  split_ifs
  · have hstop := (haccount.trans (account_noteEventLimit _)).trans
      (account_retainPossiblePreambles _)
    rw [List.append_nil, List.append_nil] at hstop
    exact ⟨_, hstop⟩
  · exact ⟨_, haccount⟩

theorem account_pushAll (decoder : FrameDecoder) (fragments : List Bytes) :
    ∃ discarded lost, Account decoder (decoder.pushAll fragments).2
      (fragments.map List.length).sum (decoder.pushAll fragments).1
      discarded lost := by
  induction fragments generalizing decoder with
  | nil => exact ⟨0, 0, .refl decoder⟩
  | cons fragment fragments ih =>
      obtain ⟨discarded, hpush⟩ := decoder.account_push fragment
      obtain ⟨gone, missed, hlater⟩ := ih (decoder.push fragment).2
      exact ⟨_, _, hpush.trans hlater⟩

theorem toNat_of_unsaturated {counter : UInt64} {amount : Nat}
    (h : counter = saturatingAdd 0 amount)
    (hlt : counter.toNat < 2 ^ 64 - 1) : counter.toNat = amount := by
  have hmin : counter.toNat = min amount (2 ^ 64 - 1) := by
    rw [h, saturatingAdd_toNat]
    simp
  omega

/--
Bytes are conserved: unless a counter has saturated, every byte that was pushed
is buffered, counted as discarded or as overflow, or part of an emitted frame,
and the event counters agree with the events.
-/
theorem pushed_bytes_are_accounted_for (limits : DecodeLimits)
    (fragments : List Bytes)
    (hdiscarded : ((new limits).pushAll
      fragments).2.statistics.discardedBytes.toNat < 2 ^ 64 - 1)
    (hoverflow : ((new limits).pushAll
      fragments).2.statistics.overflowBytes.toNat < 2 ^ 64 - 1)
    (hframes : ((new limits).pushAll
      fragments).2.statistics.frames.toNat < 2 ^ 64 - 1)
    (hfailures : ((new limits).pushAll
      fragments).2.statistics.checksumFailures.toNat < 2 ^ 64 - 1)
    (hrepaired : ((new limits).pushAll
      fragments).2.statistics.repairedFrames.toNat < 2 ^ 64 - 1) :
    let events := ((new limits).pushAll fragments).1
    let decoder := ((new limits).pushAll fragments).2
    (fragments.map List.length).sum = decoder.bytes.length +
        decoder.statistics.discardedBytes.toNat +
        decoder.statistics.overflowBytes.toNat +
        (events.map DecodeEvent.frameLen).sum ∧
      decoder.statistics.frames.toNat =
        events.countP DecodeEvent.isFrame ∧
      decoder.statistics.checksumFailures.toNat =
        events.countP DecodeEvent.isRejected ∧
      decoder.statistics.repairedFrames.toNat =
        events.countP DecodeEvent.isRepaired := by
  intro events decoder
  obtain ⟨discarded, lost, haccount⟩ := (new limits).account_pushAll fragments
  have hbytes := haccount.bytes
  rw [← toNat_of_unsaturated haccount.discardedBytes hdiscarded,
    ← toNat_of_unsaturated haccount.overflowBytes hoverflow,
    show (new limits).bytes.length = 0 from rfl, Nat.zero_add] at hbytes
  exact ⟨hbytes, toNat_of_unsaturated haccount.frames hframes,
    toNat_of_unsaturated haccount.checksumFailures hfailures,
    toNat_of_unsaturated haccount.repairedFrames hrepaired⟩

def noisyFragments : List Bytes :=
  [[0x00, 0xff, 0xff, 0x16, 0x80],
    [0x00, 0x00, 0x86, 0xff, 0xff, 0x02, 0x80, 0x00, 0x00, 0x01]]

theorem pushed_bytes_are_accounted_for_noisy :
    let decoder := ((new ⟨64, 2, .knownGateway true none⟩).pushAll
      noisyFragments).2
    decoder.statistics.frames.toNat = 1 ∧
      15 = decoder.bytes.length + decoder.statistics.discardedBytes.toNat +
        decoder.statistics.overflowBytes.toNat + 7 := by
  have hcounted := pushed_bytes_are_accounted_for
    ⟨64, 2, .knownGateway true none⟩ noisyFragments (by decide +kernel)
    (by decide +kernel) (by decide +kernel) (by decide +kernel)
    (by decide +kernel)
  have hlengths : (((new ⟨64, 2, .knownGateway true none⟩).pushAll
      noisyFragments).1.map DecodeEvent.frameLen).sum = 7 := by
    decide +kernel
  have hcount : ((new ⟨64, 2, .knownGateway true none⟩).pushAll
      noisyFragments).1.countP DecodeEvent.isFrame = 1 := by
    decide +kernel
  refine ⟨hcounted.2.1.trans hcount, ?_⟩
  rw [← hlengths]
  exact hcounted.1

end FrameDecoder

end HartLink.Wire
