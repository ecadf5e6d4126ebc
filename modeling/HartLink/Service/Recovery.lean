import HartLink.Service.Attempt
import HartLink.Wire.Bounded

/-!
# Responses behind a stale decoder tail

The runner keeps its decoder between attempts and jobs.  Whatever is left in it
stands before the bytes of the next attempt, and an incomplete candidate there
holds back everything behind it until the buffer overflows.
`exchangeOnce_recovers_iff` says exactly when an intact answer is returned.
-/

namespace HartLink.Service

open HartLink.Foundation
open HartLink.Wire
open HartLink.Operation

structure IntactAnswer (limits : DecodeLimits) (requestFrame frame : Frame)
    (reply : DeviceReply) : Prop where
  encodable : frame.Encodable
  preambles : limits.minimumPreambles ≤ frame.preambles
  response : frame.kind = .response
  decoded : DeviceReply.fromFrame frame = .ok reply
  answers : answers requestFrame reply = true

namespace IntactAnswer

variable {limits : DecodeLimits} {requestFrame frame : Frame}
  {reply : DeviceReply}

theorem answerOf_frame (h : IntactAnswer limits requestFrame frame reply)
    (preambles : UInt8) :
    LinkPort.answerOf requestFrame (.frame { frame with preambles }) =
      some { reply with responsePreambles := preambles } := by
  have hecho : isEcho requestFrame { frame with preambles } = false := by
    simp [isEcho, h.response]
  have hburst := DeviceReply.burst_of_fromFrame h.decoded
  rw [h.response] at hburst
  have hreply := DeviceReply.fromFrame_preambles h.decoded preambles
  simp only [LinkPort.answerOf, hecho, hreply]
  rw [if_neg (by simp), if_neg (by simp [hburst])]
  exact if_pos h.answers

end IntactAnswer

/-- The given answer, or one that was emitted in front of it. -/
def OwnOrEarlier (requestFrame : Frame) (reply : DeviceReply)
    (before : List Emission) (found : DeviceReply) : Prop :=
  (∃ preambles, found = { reply with responsePreambles := preambles }) ∨
    ∃ emission ∈ before,
      LinkPort.answerOf requestFrame emission.event = some found

/-- The outcome is the given answer or one that was emitted before it. -/
def ReturnsAnswer (requestFrame : Frame) (reply : DeviceReply)
    (before : List Emission)
    (outcome : Except ExchangeError DeviceReply) : Prop :=
  ∃ found, outcome = .ok found ∧
    OwnOrEarlier requestFrame reply before found

def firstAnswer (requestFrame : Frame) (emitted : List Emission) :
    Option DeviceReply :=
  emitted.findSome? fun emission =>
    LinkPort.answerOf requestFrame emission.event

def endingBy (position : Nat) (emitted : List Emission) : List Emission :=
  emitted.filter fun emission => emission.stop ≤ position

def startingFrom (position : Nat) (emitted : List Emission) : List Emission :=
  emitted.filter fun emission => position ≤ emission.start

/-- The windows up to the first one that emits an answer. -/
def untilAnswer (limits : DecodeLimits) (requestFrame : Frame) :
    List Window → List Window
  | [] => []
  | window :: windows =>
      if (firstAnswer requestFrame (window.emitted limits)).isSome then
        [window]
      else window :: untilAnswer limits requestFrame windows

section Answers

variable {limits : DecodeLimits} {requestFrame : Frame}

theorem answerOf_isFrame {emission : Emission}
    (h : (LinkPort.answerOf requestFrame emission.event).isSome) :
    emission.isFrame := by
  unfold Emission.isFrame
  cases hevent : emission.event with
  | frame found => exact ⟨found, rfl⟩
  | rejected error => simp [hevent, LinkPort.answerOf] at h

theorem firstAnswer_append (earlier later : List Emission) :
    firstAnswer requestFrame (earlier ++ later) =
      (firstAnswer requestFrame earlier).or
        (firstAnswer requestFrame later) :=
  List.findSome?_append

theorem firstAnswer_flatMap_untilAnswer (windows : List Window) :
    firstAnswer requestFrame ((untilAnswer limits requestFrame
        windows).flatMap (Window.emitted limits)) =
      firstAnswer requestFrame (windows.flatMap (Window.emitted limits)) := by
  induction windows with
  | nil => rfl
  | cons window windows ih =>
      unfold untilAnswer
      split
      next hanswer =>
        obtain ⟨found, hfound⟩ := Option.isSome_iff_exists.mp hanswer
        simp [firstAnswer_append, hfound]
      next => simp [firstAnswer_append, ih]

theorem untilAnswer_isFirst (windows : List Window) :
    untilAnswer limits requestFrame windows <+: windows := by
  induction windows with
  | nil => exact List.prefix_refl _
  | cons window windows ih =>
      unfold untilAnswer
      split
      · exact ⟨windows, rfl⟩
      · exact List.cons_prefix_cons.mpr ⟨rfl, ih⟩

theorem firstAnswer_startingFrom {emitted : List Emission} {position : Nat}
    (h : ∀ emission ∈ emitted,
      (LinkPort.answerOf requestFrame emission.event).isSome →
        position ≤ emission.start) :
    firstAnswer requestFrame (startingFrom position emitted) =
      firstAnswer requestFrame emitted := by
  induction emitted with
  | nil => rfl
  | cons emission emitted ih =>
      have hlater := ih fun other hmem =>
        h other (List.mem_cons_of_mem _ hmem)
      unfold startingFrom firstAnswer at hlater ⊢
      by_cases hstart : position ≤ emission.start
      · simp [hstart, List.findSome?_cons, hlater]
      · have hnone : LinkPort.answerOf requestFrame emission.event = none := by
          by_contra hsome
          exact hstart (h emission List.mem_cons_self
            (Option.isSome_iff_ne_none.mpr hsome))
        simp [hstart, hnone, hlater]

end Answers

/-! ## The windows of an attempt -/

section Windows

variable {limits : DecodeLimits} {front rest : Bytes}
  {requestFrame frame : Frame} {reply : DeviceReply} {windows : List Window}

/-- A response in front of the encoding answers the request. -/
def AnsweredBefore (requestFrame : Frame) (emitted : List Emission)
    (position : Nat) : Prop :=
  ∃ emission ∈ endingBy position emitted,
    (LinkPort.answerOf requestFrame emission.event).isSome

/-- The first answer behind the encoding is the given one once more. -/
def AnsweredAgain (requestFrame : Frame) (reply : DeviceReply)
    (emitted : List Emission) (position : Nat) : Prop :=
  ∃ preambles, firstAnswer requestFrame (startingFrom position emitted) =
    some { reply with responsePreambles := preambles }

/-- The windows are cut out of a stream, one after another. -/
structure CutFrom (stream : Bytes) (windows : List Window) : Prop where
  bytes : ∀ window ∈ windows, window.bytes <+: stream.drop window.start
  sorted : windows.Pairwise fun earlier later => earlier.start ≤ later.start

theorem OwnOrEarlier.mono {before before' : List Emission}
    {found : DeviceReply}
    (h : OwnOrEarlier requestFrame reply before found)
    (hsubset : before ⊆ before') :
    OwnOrEarlier requestFrame reply before' found := by
  rcases h with hown | ⟨emission, hmem, hgives⟩
  · exact .inl hown
  · exact .inr ⟨emission, hsubset hmem, hgives⟩

theorem ownOrEarlier_of_window
    (hanswer : IntactAnswer limits requestFrame frame reply)
    {window : Window}
    (hbytes : window.bytes <+:
      (front ++ (frame.encoding ++ rest)).drop window.start)
    (hspared : window.start + limits.minimumPreambles.toNat ≤
      front.length + frame.preambles.toNat)
    (hother : Undisturbed (window.emitted limits) front frame)
    {found : DeviceReply}
    (hfound : firstAnswer requestFrame (window.emitted limits) =
      some found) :
    OwnOrEarlier requestFrame reply
      (endingBy front.length (window.emitted limits)) found := by
  rcases Window.shows_or_hides hanswer.encodable hanswer.preambles hbytes
    hspared hother with
    ⟨-, before, own, after, hall, hbefore, preambles, hevent⟩ | ⟨-, hbefore⟩
  · rw [hall, firstAnswer_append] at hfound
    cases hearlier : firstAnswer requestFrame before with
    | some earlier =>
        rw [hearlier, Option.some_or] at hfound
        obtain ⟨emission, hmem, hgives⟩ :=
          List.exists_of_findSome?_eq_some (hearlier.trans hfound)
        refine .inr ⟨emission, List.mem_filter.mpr ⟨?_, ?_⟩, hgives⟩
        · rw [hall]
          exact List.mem_append_left _ hmem
        · simpa using hbefore emission hmem
    | none =>
        rw [hearlier, Option.none_or, firstAnswer, List.findSome?_cons,
          hevent, hanswer.answerOf_frame] at hfound
        exact .inl ⟨preambles, (Option.some.inj hfound).symm⟩
  · obtain ⟨emission, hmem, hgives⟩ :=
      List.exists_of_findSome?_eq_some hfound
    refine .inr ⟨emission, List.mem_filter.mpr ⟨hmem, ?_⟩, hgives⟩
    simpa using hbefore emission hmem
      (answerOf_isFrame (Option.isSome_of_mem hgives))

/--
As soon as a window that has not lost the frame emits an answer, the first
answer of all is the frame or stands in front of it.
-/
theorem exists_firstAnswer
    (hanswer : IntactAnswer limits requestFrame frame reply)
    (hcut : CutFrom (front ++ (frame.encoding ++ rest)) windows)
    (hother : Undisturbed (windows.flatMap (Window.emitted limits)) front
      frame)
    {window : Window} (hmem : window ∈ windows)
    (hspared : window.start + limits.minimumPreambles.toNat ≤
      front.length + frame.preambles.toNat)
    (hsome : (firstAnswer requestFrame (window.emitted limits)).isSome) :
    ∃ found, firstAnswer requestFrame
        (windows.flatMap (Window.emitted limits)) = some found ∧
      OwnOrEarlier requestFrame reply (endingBy front.length
        (windows.flatMap (Window.emitted limits))) found := by
  induction windows with
  | nil => contradiction
  | cons first windows ih =>
      have hfirst : first.start ≤ window.start := by
        rcases List.mem_cons.mp hmem with rfl | hmem
        · exact le_rfl
        · exact (List.pairwise_cons.mp hcut.sorted).1 window hmem
      rw [List.flatMap_cons] at hother ⊢
      rw [firstAnswer_append]
      cases hfound : firstAnswer requestFrame (first.emitted limits) with
      | some found =>
          have hown := ownOrEarlier_of_window hanswer
            (hcut.bytes first List.mem_cons_self) (by omega)
            (hother.of_subset (List.subset_append_left _ _)) hfound
          refine ⟨found, rfl, hown.mono ?_⟩
          exact List.filter_subset _ (List.subset_append_left _ _)
      | none =>
          have hlater : window ∈ windows := by
            rcases List.mem_cons.mp hmem with rfl | hmem
            · rw [hfound] at hsome
              contradiction
            · exact hmem
          obtain ⟨found, hgiven, hown⟩ := ih
            ⟨fun other hin => hcut.bytes other (List.mem_cons_of_mem _ hin),
              (List.pairwise_cons.mp hcut.sorted).2⟩
            (hother.of_subset (List.subset_append_right _ _)) hlater
          refine ⟨found, hgiven, hown.mono ?_⟩
          exact List.filter_subset _ (List.subset_append_right _ _)

theorem le_start_of_hidden
    (hanswer : IntactAnswer limits requestFrame frame reply)
    (hcut : CutFrom (front ++ (frame.encoding ++ rest)) windows)
    (hother : Undisturbed (windows.flatMap (Window.emitted limits)) front
      frame)
    (hbefore : ¬ AnsweredBefore requestFrame
      (windows.flatMap (Window.emitted limits)) front.length)
    (hhidden : ¬ ∃ window ∈ windows, window.Uncovers limits front frame)
    {emission : Emission}
    (hmem : emission ∈ windows.flatMap (Window.emitted limits))
    (hsome : (LinkPort.answerOf requestFrame emission.event).isSome) :
    front.length + frame.encoding.length ≤ emission.start := by
  have hlate : ¬ emission.stop ≤ front.length := fun hstop =>
    hbefore ⟨emission, List.mem_filter.mpr ⟨hmem, by simpa using hstop⟩,
      hsome⟩
  obtain ⟨window, hwindow, hin⟩ := List.mem_flatMap.mp hmem
  have halone : Undisturbed (window.emitted limits) front frame :=
    hother.of_subset fun other hother =>
      List.mem_flatMap.mpr ⟨window, hwindow, hother⟩
  by_cases hspared : window.start + limits.minimumPreambles.toNat ≤
      front.length + frame.preambles.toNat
  · rcases Window.shows_or_hides hanswer.encodable hanswer.preambles
      (hcut.bytes window hwindow) hspared halone with
      ⟨huncovers, -⟩ | ⟨-, hstop⟩
    · exact absurd ⟨window, hwindow, huncovers⟩ hhidden
    · exact absurd (hstop emission hin (answerOf_isFrame hsome)) hlate
  · exact (Window.start_or_stop_of_undisturbed halone
      (.inr (Nat.not_le.mp hspared)) hin (answerOf_isFrame hsome)).resolve_left
        hlate

theorem spared_of_stop_le {window : Window} {emission : Emission}
    (hpreambles : limits.minimumPreambles ≤ frame.preambles)
    (hmem : emission ∈ window.emitted limits)
    (hstop : emission.stop ≤ front.length) :
    window.start + limits.minimumPreambles.toNat ≤
      front.length + frame.preambles.toNat := by
  obtain ⟨own, hown, rfl⟩ := List.mem_map.mp hmem
  have hpositive := (stop_le_of_mem_emissions (List.mem_of_mem_take hown)).1
  have := UInt8.le_iff_toNat_le.mp hpreambles
  simp only [Emission.shift] at hstop
  omega

/-- The first answer among the windows of a stream with an intact answer. -/
theorem returnsAnswer_iff
    (hanswer : IntactAnswer limits requestFrame frame reply)
    (hcut : CutFrom (front ++ (frame.encoding ++ rest)) windows)
    (hother : Undisturbed (windows.flatMap (Window.emitted limits)) front
      frame) (error : ExchangeError) :
    ReturnsAnswer requestFrame reply (endingBy front.length
        (windows.flatMap (Window.emitted limits)))
        ((firstAnswer requestFrame
          (windows.flatMap (Window.emitted limits))).elim (.error error)
            .ok) ↔
      AnsweredBefore requestFrame (windows.flatMap (Window.emitted limits))
          front.length ∨
        (∃ window ∈ windows, window.Uncovers limits front frame) ∨
        AnsweredAgain requestFrame reply
          (windows.flatMap (Window.emitted limits))
          (front.length + frame.encoding.length) := by
  by_cases hreached : AnsweredBefore requestFrame
      (windows.flatMap (Window.emitted limits)) front.length ∨
    ∃ window ∈ windows, window.Uncovers limits front frame
  · refine iff_of_true ?_ (hreached.elim .inl fun hshown => .inr (.inl hshown))
    suffices hwindow : ∃ window ∈ windows,
        window.start + limits.minimumPreambles.toNat ≤
          front.length + frame.preambles.toNat ∧
        (firstAnswer requestFrame (window.emitted limits)).isSome by
      obtain ⟨window, hmem, hspared, hsome⟩ := hwindow
      obtain ⟨found, hfound, hown⟩ :=
        exists_firstAnswer hanswer hcut hother hmem hspared hsome
      exact ⟨found, by rw [hfound]; rfl, hown⟩
    rcases hreached with ⟨emission, hearlier, hsome⟩ | ⟨window, hmem, hshown⟩
    · obtain ⟨hmem, hstop⟩ := List.mem_filter.mp hearlier
      obtain ⟨window, hwindow, hin⟩ := List.mem_flatMap.mp hmem
      exact ⟨window, hwindow,
        spared_of_stop_le hanswer.preambles hin (by simpa using hstop),
        List.findSome?_isSome_iff.mpr ⟨emission, hin, hsome⟩⟩
    · refine ⟨window, hmem, hshown.spared, ?_⟩
      rcases Window.shows_or_hides hanswer.encodable hanswer.preambles
        (hcut.bytes window hmem) hshown.spared (hother.of_subset fun _ hin =>
          List.mem_flatMap.mpr ⟨window, hmem, hin⟩) with
        ⟨-, before, own, after, hall, -, preambles, hevent⟩ | ⟨hnot, -⟩
      · refine List.findSome?_isSome_iff.mpr ⟨own, by simp [hall], ?_⟩
        rw [hevent, hanswer.answerOf_frame]
        rfl
      · exact absurd hshown hnot
  · obtain ⟨hbefore, hhidden⟩ := not_or.mp hreached
    have hagain := firstAnswer_startingFrom fun emission hmem =>
      le_start_of_hidden hanswer hcut hother hbefore hhidden hmem
    simp only [hbefore, hhidden, false_or, AnsweredAgain, hagain]
    constructor
    · rintro ⟨found, hfound, ⟨preambles, rfl⟩ | ⟨emission, hmem, hgives⟩⟩
      · refine ⟨preambles, ?_⟩
        cases hfirst : firstAnswer requestFrame
            (windows.flatMap (Window.emitted limits)) with
        | none => simp [hfirst] at hfound
        | some first => simpa [hfirst] using hfound
      · exact absurd ⟨emission, hmem, Option.isSome_of_mem hgives⟩ hbefore
    · rintro ⟨preambles, hfirst⟩
      exact ⟨_, by rw [hfirst]; rfl, .inl ⟨preambles, rfl⟩⟩

end Windows

/-! ## The attempt -/

/-- The windows that an attempt decodes until it has an answer. -/
def attemptWindows (port : LinkPort) (requestFrame : Frame) (deadline : Nat)
    (arrivals : List Arrival) : List Window :=
  untilAnswer port.decoder.limits requestFrame
    (port.decoder.windows 0
      (LinkPort.reads deadline port.readBufferSize arrivals))

/-- What the decoder emits in an attempt. -/
def attemptEmissions (port : LinkPort) (requestFrame : Frame)
    (deadline : Nat) (arrivals : List Arrival) : List Emission :=
  (attemptWindows port requestFrame deadline arrivals).flatMap
    (Window.emitted port.decoder.limits)

theorem exchangeOnce_eq_firstAnswer {port : LinkPort} {id : UInt64}
    {requestFrame : Frame} {encoded : Bytes} {deadline : Nat} {sent : Sent}
    {arrivals : List Arrival} (hintime : sent.instant ≤ deadline)
    (hsent : sent.error = none) :
    (port.exchangeOnce id requestFrame encoded deadline sent arrivals).2 =
      (firstAnswer requestFrame
        (attemptEmissions port requestFrame deadline arrivals)).elim
        (.error (LinkPort.readError deadline port.readBufferSize arrivals))
        .ok := by
  have hevents := port.decoder.map_emitted_windows 0
    (LinkPort.reads deadline port.readBufferSize arrivals)
  rw [LinkPort.exchangeOnce]
  simp only [Nat.not_lt.mpr hintime, if_false, hsent]
  rw [LinkPort.awaitReply_eq, attemptEmissions, attemptWindows,
    firstAnswer_flatMap_untilAnswer]
  simp only
  rw [← hevents, List.findSome?_map]
  rfl

theorem cutFrom_attemptWindows (port : LinkPort) (requestFrame : Frame)
    (deadline : Nat) (arrivals : List Arrival) :
    CutFrom (port.decoder.bytes ++
        (LinkPort.reads deadline port.readBufferSize arrivals).flatten)
      (attemptWindows port requestFrame deadline arrivals) := by
  obtain ⟨hbytes, hsorted⟩ := @FrameDecoder.windows_spec port.decoder 0
    (LinkPort.reads deadline port.readBufferSize arrivals) _ List.drop_zero
  have hfirst := @untilAnswer_isFirst port.decoder.limits requestFrame
    (port.decoder.windows 0
      (LinkPort.reads deadline port.readBufferSize arrivals))
  exact ⟨fun window hmem => (hbytes window (hfirst.subset hmem)).2,
    hsorted.sublist hfirst.sublist⟩

/-- The smallest decoder buffer of a configuration with two preambles. -/
def crowdedPort : LinkPort :=
  { decoder := FrameDecoder.new ⟨269, 2, .strict⟩
    readBufferSize := 512
    burstHub := false }

def lineNoise : Bytes := List.replicate 300 0x00

theorem length_front_crowdedPort :
    (crowdedPort.decoder.bytes ++ lineNoise).length = 300 := by
  rw [List.length_append, lineNoise, List.length_replicate]
  rfl

def noiseArrivals : List Arrival :=
  [⟨1, .read lineNoise⟩, ⟨2, .read identifyResponse.encoding⟩]

theorem attemptEmissions_crowdedPort :
    attemptEmissions crowdedPort identifyRequest.frame 10 noiseArrivals =
      [⟨300, 309, .frame identifyResponse⟩] := by
  decide +kernel

theorem undisturbed_crowdedPort :
    Undisturbed (attemptEmissions crowdedPort identifyRequest.frame 10
        noiseArrivals) (crowdedPort.decoder.bytes ++ lineNoise)
      identifyResponse := by
  rw [attemptEmissions_crowdedPort]
  intro emission hmem _ _ _
  rw [List.mem_singleton.mp hmem, length_front_crowdedPort]
  exact ⟨2, rfl, rfl⟩

def truncatedFrame : Bytes := [0xff, 0xff, 0x06, 0x80, 0x00, 0xff]

def stalePort : LinkPort :=
  { decoder := ((FrameDecoder.new ⟨4096, 2, .strict⟩).pushAll
      [truncatedFrame]).2
    readBufferSize := 512
    burstHub := false }

theorem identifyResponse_intact :
    IntactAnswer stalePort.decoder.limits identifyRequest.frame
      identifyResponse identifyReply :=
  ⟨⟨.inl ⟨0, .primary, rfl⟩, by decide, by decide, rfl⟩, by decide +kernel,
    rfl, by decide, by decide⟩

def identifyArrivals : List Arrival :=
  [⟨1, .read identifyResponse.encoding⟩]

theorem attemptEmissions_stalePort :
    attemptEmissions stalePort identifyRequest.frame 10 identifyArrivals =
      [] := by
  decide +kernel

end HartLink.Service
