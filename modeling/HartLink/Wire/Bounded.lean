import HartLink.Wire.Balance

/-!
# What a bounded decoder emits

A push analyses one window of the stream: what the decoder has kept and the
fragment, without the front that the capacity cuts off.  Windows never move
back, and each emits the first events of a scan of its own bytes.  `Uncovers`
says when a window shows an intact frame of the stream.
-/

namespace HartLink.Wire

open HartLink.Foundation

/-! ## One scan -/

section Scan

variable {limits : DecodeLimits} {stream : Bytes} {position : Nat}
  {emission : Emission}

theorem emissionsFrom_induct (limits : DecodeLimits) (stream : Bytes)
    {motive : Nat → List Emission → Prop}
    (wait : ∀ position, motive position [])
    (skip : ∀ position count later, motive (position + count) later →
      motive position later)
    (emit : ∀ position count event later, 0 < count →
      judge limits (stream.drop position) = .emit event count →
      motive (position + count) later →
        motive position (⟨position, position + count, event⟩ :: later))
    (position : Nat) :
    motive position (emissionsFrom limits stream position) := by
  induction hleft : stream.length - position using Nat.strong_induction_on
    generalizing position with
  | _ left ih =>
      cases hjudge : judge limits (stream.drop position) with
      | wait =>
          rw [emissionsFrom_wait hjudge]
          exact wait position
      | skip count =>
          have hbounds := judge_skip_bounds hjudge
          rw [List.length_drop] at hbounds
          rw [emissionsFrom_skip hjudge]
          exact skip position count _ (ih _ (by omega) _ rfl)
      | emit event count =>
          have hbounds := judge_emit_bounds hjudge
          rw [List.length_drop] at hbounds
          rw [emissionsFrom_emit hjudge]
          exact emit position count event _ hbounds.1 hjudge
            (ih _ (by omega) _ rfl)

theorem judge_of_mem_emissionsFrom
    (h : emission ∈ emissionsFrom limits stream position) :
    ∃ count, emission.stop = emission.start + count ∧
      judge limits (stream.drop emission.start) =
        .emit emission.event count := by
  revert h
  refine emissionsFrom_induct limits stream (motive := fun _ found => emission ∈ found →
    ∃ count, emission.stop = emission.start + count ∧
      judge limits (stream.drop emission.start) =
        .emit emission.event count) ?_ ?_ ?_ position
  · simp
  · intro _ _ _ ih
    exact ih
  · intro position count event later _ hjudge ih hmem
    rcases List.mem_cons.mp hmem with rfl | hmem
    · exact ⟨count, rfl, hjudge⟩
    · exact ih hmem

/-- An event starts where the one before it has ended, or behind. -/
theorem pairwise_emissionsFrom (limits : DecodeLimits) (stream : Bytes)
    (position : Nat) :
    (emissionsFrom limits stream position).Pairwise
      fun earlier later => earlier.stop ≤ later.start := by
  have hall := emissionsFrom_induct limits stream
    (motive := fun position found =>
      (∀ emission ∈ found, position ≤ emission.start) ∧
        found.Pairwise fun earlier later => earlier.stop ≤ later.start)
    ?_ ?_ ?_ position
  · exact hall.2
  · simp
  · intro position count later ⟨hstart, hsorted⟩
    exact ⟨fun emission hmem =>
      (Nat.le_add_right _ _).trans (hstart emission hmem), hsorted⟩
  · intro position count event later _ _ ⟨hstart, hsorted⟩
    refine ⟨fun emission hmem => ?_, List.pairwise_cons.mpr
      ⟨hstart, hsorted⟩⟩
    rcases List.mem_cons.mp hmem with rfl | hmem
    · exact le_rfl
    · exact (Nat.le_add_right _ _).trans (hstart emission hmem)

theorem stop_le_of_mem_emissions (h : emission ∈ emissions limits stream) :
    emission.start < emission.stop ∧ emission.stop ≤ stream.length := by
  rw [← emissionsFrom_zero] at h
  obtain ⟨count, hstop, hjudge⟩ := judge_of_mem_emissionsFrom h
  have hbounds := judge_emit_bounds hjudge
  rw [List.length_drop] at hbounds
  omega

theorem stop_eq_of_frame (h : emission ∈ emissions limits stream)
    {frame : Frame} (hevent : emission.event = .frame frame) :
    emission.stop = emission.start + frame.wireLen ∧
      limits.minimumPreambles.toNat ≤ frame.preambles.toNat := by
  rw [← emissionsFrom_zero] at h
  obtain ⟨count, hstop, hjudge⟩ := judge_of_mem_emissionsFrom h
  have hdecision := judge_decision limits (stream.drop emission.start)
  rw [hjudge, hevent] at hdecision
  cases hdecision with
  | frame hfound hend hanalyze =>
      obtain ⟨preambles, parts, hfits, -, hcount, -⟩ :=
        SpanParts.exists_span_of_frame hanalyze
      refine ⟨by rw [hstop, consumed_eq_wireLen hanalyze hend], ?_⟩
      rw [hcount, hfits.toNat_ofNat]
      exact hfits.least

end Scan

def emissionsBefore (limits : DecodeLimits) (stream : Bytes)
    (position : Nat) : List Emission :=
  (emissions limits stream).filter fun emission => emission.stop ≤ position

/-! ## Windows -/

/-- The bytes that a push analyses, and where the first of them stands. -/
structure Window where
  start : Nat
  bytes : Bytes
  deriving DecidableEq, Repr

def Emission.shift (offset : Nat) (emission : Emission) : Emission :=
  { emission with
    start := offset + emission.start
    stop := offset + emission.stop }

namespace Window

/-- What a push emits: the first events, at their places in the stream. -/
def emitted (limits : DecodeLimits) (window : Window) : List Emission :=
  ((emissions limits window.bytes).take maximumDecodeEventsPerPush).map
    (Emission.shift window.start)

theorem map_event_emitted (limits : DecodeLimits) (window : Window) :
    (window.emitted limits).map Emission.event =
      (decodeAll limits window.bytes).2.take maximumDecodeEventsPerPush := by
  have hevents := map_event_emissions limits window.bytes {}
  rw [(scan_decodeObserver _ _ _ _).2, List.nil_append] at hevents
  rw [emitted, List.map_map, ← hevents, List.map_take]
  rfl

end Window

namespace FrameDecoder

/-- The windows of the pushes; the buffer starts at the given position. -/
def windows (decoder : FrameDecoder) (position : Nat) :
    List Bytes → List Window
  | [] => []
  | fragment :: fragments =>
      let next := (decoder.push fragment).2
      ⟨position + decoder.overflow fragment,
          (decoder.appendBounded fragment).bytes⟩ ::
        next.windows (position + (decoder.bytes.length + fragment.length -
          next.bytes.length)) fragments

theorem push_fst_eq_take (decoder : FrameDecoder) (fragment : Bytes) :
    (decoder.push fragment).1 =
      (decodeAll decoder.limits (decoder.appendBounded fragment).bytes).2.take
        maximumDecodeEventsPerPush := by
  by_cases hfew : (decoder.push fragment).1.length < maximumDecodeEventsPerPush
  · rw [← push_eq_decodeAll hfew, List.take_of_length_le hfew.le]
  · have hlength : (decoder.push fragment).1.length =
        maximumDecodeEventsPerPush := by
      have := length_collectEvents_le maximumDecodeEventsPerPush
        (decoder.appendBounded fragment)
      rw [← push_fst] at this
      omega
    have hfirst := List.prefix_iff_eq_take.mp (push_isFirst hfew)
    rwa [hlength] at hfirst

theorem map_emitted_windows (decoder : FrameDecoder) (position : Nat)
    (fragments : List Bytes) :
    ((decoder.windows position fragments).flatMap
        (Window.emitted decoder.limits)).map Emission.event =
      (decoder.pushAll fragments).1 := by
  induction fragments generalizing decoder position with
  | nil => rfl
  | cons fragment fragments ih =>
      have hlater := ih (decoder.push fragment).2 (position +
        (decoder.bytes.length + fragment.length -
          (decoder.push fragment).2.bytes.length))
      rw [limits_push] at hlater
      simp only [windows, List.flatMap_cons, List.map_append, hlater, pushAll]
      rw [Window.map_event_emitted, push_fst_eq_take]

/-- Each window is cut out of the stream, and none starts before another. -/
theorem windows_spec {decoder : FrameDecoder} {position : Nat}
    {fragments : List Bytes} {stream : Bytes}
    (h : stream.drop position = decoder.bytes ++ fragments.flatten) :
    (∀ window ∈ decoder.windows position fragments,
      position ≤ window.start ∧
        window.bytes <+: stream.drop window.start) ∧
      (decoder.windows position fragments).Pairwise
        fun earlier later => earlier.start ≤ later.start := by
  induction fragments generalizing decoder position with
  | nil => simp [windows]
  | cons fragment fragments ih =>
      have hsuffix := decoder.push_suffix fragment
      rw [bytes_appendBounded] at hsuffix
      have hkept := hsuffix.length_le
      rw [List.length_drop, List.length_append] at hkept
      have hoverflow : decoder.overflow fragment ≤
          decoder.bytes.length + fragment.length := Nat.sub_le ..
      rw [List.flatten_cons, ← List.append_assoc] at h
      have hnext := List.suffix_iff_eq_drop.mp
        (hsuffix.trans (List.drop_suffix _ _))
      rw [List.length_append] at hnext
      obtain ⟨hlater, hsorted⟩ := @ih (decoder.push fragment).2 (position +
        (decoder.bytes.length + fragment.length -
          (decoder.push fragment).2.bytes.length)) (by
        rw [← List.drop_drop, h, List.drop_append_of_le_length
          (by rw [List.length_append]; omega), ← hnext])
      refine ⟨?_, List.pairwise_cons.mpr ⟨fun window hmem => ?_, hsorted⟩⟩
      · intro window hmem
        rcases List.mem_cons.mp hmem with rfl | hmem
        · refine ⟨Nat.le_add_right _ _, fragments.flatten, ?_⟩
          dsimp only
          rw [bytes_appendBounded, ← List.drop_drop, h]
          exact (List.drop_append_of_le_length
            (by rw [List.length_append]; exact hoverflow)).symm
        · exact ⟨(Nat.le_add_right _ _).trans (hlater window hmem).1,
            (hlater window hmem).2⟩
      · have := (hlater window hmem).1
        dsimp only
        omega

end FrameDecoder

/-! ## An intact frame in a window -/

/-- Whatever frame reaches into the encoding of a frame is this frame. -/
def Undisturbed (emitted : List Emission) (front : Bytes) (frame : Frame) :
    Prop :=
  ∀ emission ∈ emitted, emission.isFrame →
    emission.start < front.length + frame.encoding.length →
    front.length < emission.stop →
      emission.Carries frame (front.length + frame.preambles.toNat)

theorem Undisturbed.of_subset {emitted more : List Emission} {front : Bytes}
    {frame : Frame} (h : Undisturbed more front frame)
    (hsubset : emitted ⊆ more) : Undisturbed emitted front frame :=
  fun emission hmem => h emission (hsubset hmem)

/--
A window shows the frame behind the front: it reaches to the end of the frame,
enough preambles are left of it, there is room for one more event, and no
candidate in front of its delimiter waits for bytes behind the window.
-/
structure Window.Uncovers (limits : DecodeLimits) (window : Window)
    (front : Bytes) (frame : Frame) : Prop where
  complete : front.length + frame.encoding.length ≤
    window.start + window.bytes.length
  spared : window.start + limits.minimumPreambles.toNat ≤
    front.length + frame.preambles.toNat
  room : (emissionsBefore limits window.bytes
    (front.length - window.start)).length < maximumDecodeEventsPerPush
  unblocked : Unblocked limits window.bytes
    (lastFrameEnd 0 (emissionsBefore limits window.bytes
      (front.length - window.start)))
    (front.length + frame.preambles.toNat - window.start)

section Intact

variable {limits : DecodeLimits} {front : Bytes} {frame : Frame} {rest : Bytes}
  {window : Window}

/-- Emissions that end behind a position follow those that end before it. -/
theorem filter_stop_append {before after : List Emission} {position : Nat}
    (hbefore : ∀ emission ∈ before, emission.stop ≤ position)
    (hafter : ∀ emission ∈ after, position < emission.stop) :
    (before ++ after).filter
      (fun emission => decide (emission.stop ≤ position)) = before := by
  rw [List.filter_append, List.filter_eq_self.mpr, List.filter_eq_nil_iff.mpr,
    List.append_nil]
  · intro emission hmem
    simpa using hafter emission hmem
  · intro emission hmem
    simpa using hbefore emission hmem

theorem Window.embedded
    (hpreambles : limits.minimumPreambles ≤ frame.preambles)
    (hbytes : window.bytes <+:
      (front ++ (frame.encoding ++ rest)).drop window.start)
    (hcomplete : front.length + frame.encoding.length ≤
      window.start + window.bytes.length)
    (hspared : window.start + limits.minimumPreambles.toNat ≤
      front.length + frame.preambles.toNat) :
    ∃ (preambles : UInt8) (more : Bytes),
      window.bytes = front.drop window.start ++
        ({ frame with preambles }.encoding ++ more) ∧
      front.length - window.start + preambles.toNat =
        front.length + frame.preambles.toNat - window.start ∧
      limits.minimumPreambles ≤ preambles := by
  have hlong := frame.length_encoding
  suffices h : ∃ preambles : UInt8,
      (front ++ (frame.encoding ++ rest)).drop window.start =
        front.drop window.start ++ ({ frame with preambles }.encoding ++ rest) ∧
      front.length - window.start + preambles.toNat =
        front.length + frame.preambles.toNat - window.start ∧
      limits.minimumPreambles ≤ preambles by
    obtain ⟨preambles, hdrop, hplace, hleast⟩ := h
    rw [hdrop, ← List.append_assoc] at hbytes
    have hlength := Frame.length_encoding { frame with preambles }
    have hbody : ({ frame with preambles } : Frame).body = frame.body := rfl
    rw [hbody] at hlength
    dsimp only at hlength
    obtain ⟨more, hmore⟩ := List.prefix_of_prefix_length_le
      (List.prefix_append _ rest) hbytes (by
        rw [List.length_append, List.length_drop]
        omega)
    refine ⟨preambles, more, ?_, hplace, hleast⟩
    rw [← hmore, List.append_assoc]
  by_cases hinside : window.start ≤ front.length
  · exact ⟨frame.preambles, List.drop_append_of_le_length hinside, by omega,
      hpreambles⟩
  · -- the window starts within the preambles
    have hlimit := frame.preambles.toNat_lt
    have hleft : (UInt8.ofNat (front.length + frame.preambles.toNat -
        window.start)).toNat =
        front.length + frame.preambles.toNat - window.start := by
      rw [UInt8.toNat_ofNat']
      omega
    refine ⟨UInt8.ofNat (front.length + frame.preambles.toNat - window.start),
      ?_, by omega, ?_⟩
    · rw [List.drop_append, List.drop_append_of_le_length (by omega)]
      congr 2
      rw [Frame.encoding, List.drop_append_of_le_length
        (by rw [List.length_replicate]; omega), List.drop_replicate,
        Frame.encoding, hleft]
      congr 2
      omega
    · rw [UInt8.le_iff_toNat_le, hleft]
      omega

theorem Emission.Carries.stop_eq {stream : Bytes} {emission : Emission}
    (h : emission ∈ emissions limits stream) {offset : Nat}
    (hcarries : (emission.shift offset).Carries frame
      (front.length + frame.preambles.toNat)) :
    (emission.shift offset).stop = front.length + frame.encoding.length ∧
      offset + limits.minimumPreambles.toNat ≤
        front.length + frame.preambles.toNat := by
  obtain ⟨preambles, hevent, hdelimiter⟩ := hcarries
  obtain ⟨hstop, hleast⟩ := stop_eq_of_frame h hevent
  have hlength := frame.length_encoding
  rw [Frame.length_body] at hlength
  simp only [Emission.shift, Frame.wireLen] at hstop hleast hdelimiter ⊢
  omega

theorem Window.start_or_stop_of_undisturbed
    (hother : Undisturbed (window.emitted limits) front frame)
    (hhidden : window.start + window.bytes.length <
        front.length + frame.encoding.length ∨
      front.length + frame.preambles.toNat <
        window.start + limits.minimumPreambles.toNat)
    {emission : Emission} (hmem : emission ∈ window.emitted limits)
    (hframe : emission.isFrame) :
    emission.stop ≤ front.length ∨
      front.length + frame.encoding.length ≤ emission.start := by
  by_contra hreaches
  rw [not_or, Nat.not_le, Nat.not_le] at hreaches
  have hcarries := hother emission hmem hframe hreaches.2 hreaches.1
  obtain ⟨own, hown, rfl⟩ := List.mem_map.mp hmem
  have hscan := List.mem_of_mem_take hown
  obtain ⟨hstop, hspared⟩ := hcarries.stop_eq hscan
  have hend := (stop_le_of_mem_emissions hscan).2
  simp only [Emission.shift] at hstop
  omega

theorem Window.shift_stop_le {emission : Emission}
    (hmem : emission ∈ emissions limits window.bytes)
    (hstop : emission.stop ≤ front.length - window.start) :
    (emission.shift window.start).stop ≤ front.length := by
  have hpositive := (stop_le_of_mem_emissions hmem).1
  simp only [Emission.shift]
  omega

theorem Window.emitted_of_room {before after : List Emission}
    {own : Emission} (hall : emissions limits window.bytes =
      before ++ own :: after)
    (hroom : before.length < maximumDecodeEventsPerPush) :
    window.emitted limits = before.map (Emission.shift window.start) ++
      own.shift window.start :: (after.take (maximumDecodeEventsPerPush -
        before.length - 1)).map (Emission.shift window.start) := by
  rw [emitted, hall, List.take_append, List.take_of_length_le hroom.le,
    List.take_cons (by omega)]
  simp

theorem Window.not_overlapped
    (hspared : window.start + limits.minimumPreambles.toNat ≤
      front.length + frame.preambles.toNat)
    (hother : Undisturbed (window.emitted limits) front frame)
    {other : Emission} (hmem : other.shift window.start ∈
      window.emitted limits) {found : Frame}
    (hevent : other.event = .frame found)
    (hdelimiter : other.start + found.preambles.toNat <
      front.length - window.start)
    (hstop : front.length - window.start < other.stop) : False := by
  have hlong := frame.length_encoding
  obtain ⟨count, hcarried, hposition⟩ := hother _ hmem ⟨found, hevent⟩
    (by simp only [Emission.shift]; omega)
    (by simp only [Emission.shift]; omega)
  have hfound := hevent.symm.trans hcarried
  injection hfound with hfound
  subst hfound
  simp only [Emission.shift] at hposition hdelimiter
  omega

theorem Window.stop_le_of_full {before after : List Emission}
    (hall : emissions limits window.bytes = before ++ after)
    (hfull : maximumDecodeEventsPerPush ≤ before.length)
    (hbefore : ∀ emission ∈ before,
      emission.stop ≤ front.length - window.start)
    {emission : Emission} (hmem : emission ∈ window.emitted limits) :
    emission.stop ≤ front.length := by
  rw [emitted, hall, List.take_append_of_le_length hfull] at hmem
  obtain ⟨own, hown, rfl⟩ := List.mem_map.mp hmem
  have hin := List.mem_of_mem_take hown
  exact shift_stop_le (by rw [hall]; exact List.mem_append_left _ hin)
    (hbefore own hin)

/-- The window uncovers the frame and emits it behind what ends before it. -/
structure Window.Shows (limits : DecodeLimits) (window : Window)
    (front : Bytes) (frame : Frame) : Prop where
  uncovers : window.Uncovers limits front frame
  emits : ∃ before own after,
    window.emitted limits = before ++ own :: after ∧
      (∀ emission ∈ before, emission.stop ≤ front.length) ∧
      ∃ preambles : UInt8, own.event = .frame { frame with preambles }

/-- The window emits no frame that ends behind the front. -/
structure Window.Hides (limits : DecodeLimits) (window : Window)
    (front : Bytes) (frame : Frame) : Prop where
  covers : ¬ window.Uncovers limits front frame
  stops : ∀ emission ∈ window.emitted limits, emission.isFrame →
    emission.stop ≤ front.length

theorem Window.hides_of_incomplete
    (hother : Undisturbed (window.emitted limits) front frame)
    (hincomplete : window.start + window.bytes.length <
      front.length + frame.encoding.length) :
    window.Hides limits front frame := by
  refine ⟨fun huncovers => ?_, ?_⟩
  · exact absurd huncovers.complete (Nat.not_le.mpr hincomplete)
  · intro emission hmem hframe
    rcases start_or_stop_of_undisturbed hother (.inl hincomplete) hmem hframe
      with hstop | hstart
    · exact hstop
    · obtain ⟨own, hown, rfl⟩ := List.mem_map.mp hmem
      have := stop_le_of_mem_emissions (List.mem_of_mem_take hown)
      simp only [Emission.shift] at hstart
      omega

theorem Window.shows_or_hides_of_reached {before after : List Emission}
    {own : Emission} {preambles : UInt8}
    (hall : emissions limits window.bytes = before ++ own :: after)
    (hbefore : ∀ emission ∈ before,
      emission.stop ≤ front.length - window.start)
    (hlater : ∀ emission ∈ own :: after,
      front.length - window.start < emission.stop)
    (hevent : own.event = .frame { frame with preambles })
    (hcomplete : front.length + frame.encoding.length ≤
      window.start + window.bytes.length)
    (hspared : window.start + limits.minimumPreambles.toNat ≤
      front.length + frame.preambles.toNat)
    (hunblocked : Unblocked limits window.bytes (lastFrameEnd 0 before)
      (front.length + frame.preambles.toNat - window.start)) :
    window.Shows limits front frame ∨ window.Hides limits front frame := by
  have hfilter : emissionsBefore limits window.bytes
      (front.length - window.start) = before := by
    rw [emissionsBefore, hall]
    exact filter_stop_append hbefore hlater
  by_cases hroom : before.length < maximumDecodeEventsPerPush
  · refine .inl ⟨⟨hcomplete, hspared, hfilter ▸ hroom, ?_⟩, ?_⟩
    · rw [hfilter]
      exact hunblocked
    · refine ⟨before.map (Emission.shift window.start),
        own.shift window.start, (after.take (maximumDecodeEventsPerPush -
          before.length - 1)).map (Emission.shift window.start),
        emitted_of_room hall hroom, ?_, _, hevent⟩
      intro emission hmem
      obtain ⟨earlier, hearlier, rfl⟩ := List.mem_map.mp hmem
      have hscan : earlier ∈ emissions limits window.bytes := by
        rw [hall]
        exact List.mem_append_left _ hearlier
      exact shift_stop_le hscan (hbefore earlier hearlier)
  · refine .inr ⟨fun huncovers => hroom (hfilter ▸ huncovers.room), ?_⟩
    intro emission hmem _
    exact stop_le_of_full hall (Nat.not_lt.mp hroom) hbefore hmem

theorem Window.hides_of_overlapped {before after : List Emission}
    {other : Emission} {found : Frame}
    (hall : emissions limits window.bytes = before ++ other :: after)
    (hbefore : ∀ emission ∈ before,
      emission.stop ≤ front.length - window.start)
    (hevent : other.event = .frame found)
    (hdelimiter : other.start + found.preambles.toNat <
      front.length - window.start)
    (hstop : front.length - window.start < other.stop)
    (hspared : window.start + limits.minimumPreambles.toNat ≤
      front.length + frame.preambles.toNat)
    (hother : Undisturbed (window.emitted limits) front frame) :
    window.Hides limits front frame := by
  -- Otherwise the overlapping frame would be emitted.
  have hfull : maximumDecodeEventsPerPush ≤ before.length := by
    by_contra hroom
    refine not_overlapped hspared hother ?_ hevent hdelimiter hstop
    simp [emitted_of_room hall (Nat.not_le.mp hroom)]
  refine ⟨fun huncovers => ?_, fun emission hmem _ =>
    stop_le_of_full hall hfull hbefore hmem⟩
  have hroom := huncovers.room
  rw [emissionsBefore, hall, List.filter_append, List.length_append,
    List.filter_eq_self.mpr fun emission hmem => by
      simpa using hbefore emission hmem] at hroom
  omega

theorem Window.hides_of_blocked
    (hbefore : ∀ emission ∈ emissions limits window.bytes,
      emission.stop ≤ front.length - window.start)
    (hblocked : ¬ Unblocked limits window.bytes
      (lastFrameEnd 0 (emissions limits window.bytes))
      (front.length - window.start))
    (hplace : front.length - window.start ≤
      front.length + frame.preambles.toNat - window.start) :
    window.Hides limits front frame := by
  refine ⟨fun huncovers => hblocked ?_, ?_⟩
  · have hunblocked := huncovers.unblocked
    rw [emissionsBefore, List.filter_eq_self.mpr fun emission hmem =>
      by simpa using hbefore emission hmem] at hunblocked
    exact hunblocked.mono hplace
  · intro emission hmem _
    obtain ⟨earlier, hearlier, rfl⟩ := List.mem_map.mp hmem
    have hscan := List.mem_of_mem_take hearlier
    exact shift_stop_le hscan (hbefore earlier hscan)

/-- A window that keeps enough preambles of the frame shows it or hides it. -/
theorem Window.shows_or_hides (hencodable : frame.Encodable)
    (hpreambles : limits.minimumPreambles ≤ frame.preambles)
    (hbytes : window.bytes <+:
      (front ++ (frame.encoding ++ rest)).drop window.start)
    (hspared : window.start + limits.minimumPreambles.toNat ≤
      front.length + frame.preambles.toNat)
    (hother : Undisturbed (window.emitted limits) front frame) :
    window.Shows limits front frame ∨ window.Hides limits front frame := by
  by_cases hcomplete : front.length + frame.encoding.length ≤
      window.start + window.bytes.length
  swap
  · exact .inr (hides_of_incomplete hother (Nat.not_le.mp hcomplete))
  obtain ⟨preambles, more, hwindow, hplace, hleast⟩ :=
    embedded hpreambles hbytes hcomplete hspared
  have hown : ({ frame with preambles } : Frame).Encodable :=
    ⟨hencodable.address, hencodable.expansion, hencodable.payload,
      hencodable.repair⟩
  have happroach := approach_of_walked more hown hleast
    (Nat.zero_le (front.drop window.start).length) (.refl limits _ 0)
  have hsorted := pairwise_emissionsFrom limits window.bytes 0
  rw [emissionsFrom_zero] at happroach hsorted
  rw [← hwindow] at happroach
  have hlead : (front.drop window.start).length =
      front.length - window.start := List.length_drop
  have hlong := frame.length_encoding
  have hlength := Frame.length_encoding { frame with preambles }
  generalize hall : emissions limits window.bytes = all at happroach hsorted
  cases happroach with
  | @reached before after own hbefore hunblocked hevent hcarries hstop
      hafter =>
      simp only [hlead, ← hwindow, hplace] at hbefore hunblocked hstop
      refine shows_or_hides_of_reached hall hbefore ?_ hevent hcomplete
        hspared hunblocked
      intro emission hmem
      rcases List.mem_cons.mp hmem with rfl | hmem
      · omega
      · have hscan : emission ∈ emissions limits window.bytes := by
          simp [hall, hmem]
        have hstart := hafter emission hmem
        have := (stop_le_of_mem_emissions hscan).1
        omega
  | @overlapped before after other found hevent hdelimiter hstart hstop =>
      rw [hlead] at hdelimiter hstart hstop
      refine .inr (hides_of_overlapped hall ?_ hevent hdelimiter hstop hspared
        hother)
      intro emission hmem
      have := (List.pairwise_append.mp hsorted).2.2 emission hmem other
        List.mem_cons_self
      omega
  | blocked hbefore hblocked =>
      simp only [hlead, ← hwindow] at hbefore hblocked
      subst hall
      exact .inr (hides_of_blocked hbefore hblocked (by omega))

end Intact

end HartLink.Wire
