import HartLink.Wire.Approach

/-!
# Resynchronisation

Behind any noise an intact frame is found again: with the longest possible
candidate's length behind it, no earlier candidate can still be waiting.
-/

namespace HartLink.Wire

open HartLink.Foundation

theorem unblocked_of_trailer (limits : DecodeLimits) {stream : Bytes}
    {floor stop : Nat} (h : stop + 267 ≤ stream.length) :
    Unblocked limits stream floor stop := by
  intro index hindex _
  have := declaredEnd_le limits stream index
  omega

namespace FrameDecoder

theorem push_events_eq_emissions (limits : DecodeLimits) {stream : Bytes}
    (hcapacity : stream.length ≤ (new limits).limits.bufferCapacity)
    (hevents : ((new limits).push stream).1.length <
      maximumDecodeEventsPerPush) :
    ((new limits).push stream).1 =
      (emissions (new limits).limits stream).map Emission.event := by
  have hfits : (new limits).bytes.length + stream.length ≤
      (new limits).limits.bufferCapacity := by
    simpa [new] using hcapacity
  rw [push_eq_of_fits hfits (length_scanPush_lt hfits hevents),
    map_event_emissions _ _ (new limits).statistics]
  rfl

/-- Some frame other than the given one consumed a part of its encoding. -/
def Overlapped (limits : DecodeLimits) (noise encoded trailer : Bytes)
    (frame : Frame) : Prop :=
  ∃ other ∈ emissions limits (noise ++ encoded ++ trailer),
    other.isFrame ∧
      ¬ other.Carries frame (noise.length + frame.preambles.toNat) ∧
      other.start < noise.length + encoded.length ∧
      noise.length < other.stop

/--
Resynchronisation: behind any noise and in front of enough trailing bytes an
intact frame is emitted, unless another frame reaches into it.  It carries the
preambles that stand directly before its delimiter and that no earlier frame
consumed, and nothing emitted before it consumed any of its bytes.
-/
theorem push_resync (limits : DecodeLimits) (noise encoded trailer : Bytes)
    (frame : Frame) (hencodable : frame.Encodable)
    (hpreambles : (new limits).limits.minimumPreambles ≤ frame.preambles)
    (hencode : frame.encode = .ok encoded)
    (htrailer : 267 ≤ trailer.length)
    (hcapacity : noise.length + encoded.length + trailer.length ≤
      (new limits).limits.bufferCapacity)
    (hevents : ((new limits).push (noise ++ encoded ++ trailer)).1.length <
      maximumDecodeEventsPerPush) :
    ((new limits).push (noise ++ encoded ++ trailer)).1 =
      (emissions (new limits).limits
        (noise ++ encoded ++ trailer)).map Emission.event ∧
    ((∃ before own after,
        emissions (new limits).limits (noise ++ encoded ++ trailer) =
          before ++ own :: after ∧
        (∀ emission ∈ before, emission.stop ≤ noise.length) ∧
        own.stop = noise.length + encoded.length ∧
        own.event = .frame { frame with
          preambles := UInt8.ofNat (min (runAfter
            (noise ++ encoded ++ trailer) (lastFrameEnd 0 before)
            (noise.length + frame.preambles.toNat)) 255) }) ∨
      Overlapped (new limits).limits noise encoded trailer frame) := by
  rw [Frame.encode_eq hencodable] at hencode
  injection hencode with hencode
  subst hencode
  refine ⟨push_events_eq_emissions limits
    (by simpa [Nat.add_assoc] using hcapacity) hevents, ?_⟩
  have happroach := approach_of_walked trailer hencodable hpreambles
    (Nat.zero_le noise.length) (.refl _ _ 0)
  unfold Overlapped
  rw [List.append_assoc]
  rw [emissionsFrom_zero] at happroach
  generalize hall : emissions (new limits).limits
    (noise ++ (frame.encoding ++ trailer)) = all at happroach
  cases happroach with
  | @reached before after own hbefore _ hevent _ hstop _ =>
      exact .inl ⟨before, own, after, rfl, hbefore, hstop, hevent⟩
  | @overlapped before after other found hevent hdelimiter hstart hstop =>
      right
      have hlength := frame.length_encoding
      refine ⟨other, by simp, ⟨found, hevent⟩, ?_, by omega, hstop⟩
      rintro ⟨preambles, hown, hposition⟩
      rw [hevent] at hown
      injection hown with hown
      subst hown
      simp only at hdelimiter
      omega
  | blocked _ hblocked =>
      refine absurd (unblocked_of_trailer _ ?_) hblocked
      rw [List.length_append, List.length_append]
      omega

def ResyncsWithWholeRun (limits : DecodeLimits)
    (noise encoded trailer : Bytes) (frame : Frame) : Prop :=
  (∃ own ∈ emissions limits (noise ++ encoded ++ trailer),
    own.event = .frame { frame with
      preambles := UInt8.ofNat (min 255 (preambleRun
        (noise ++ encoded ++ trailer)
        (noise.length + frame.preambles.toNat))) }) ∨
    Overlapped limits noise encoded trailer frame

def checksumNoise : Bytes := [0xff, 0xff, 0x02, 0x80, 0x7d, 0x00, 0xff]

def plainFrame : Frame :=
  { preambles := 2, kind := .request, physicalLayer := .fsk
    address := .Polling 0 .primary, expansion := [], wireCommand := 0
    payload := [], repair := none }

def plainEncoding : Bytes := [0xff, 0xff, 0x02, 0x80, 0x00, 0x00, 0x82]

theorem plainFrame_encodable : plainFrame.Encodable :=
  ⟨.inl ⟨0, .primary, rfl⟩, by decide, by decide, rfl⟩

theorem push_resync_checksumNoise :
    (∃ own ∈ emissions (new ⟨512, 2, .strict⟩).limits
        (checksumNoise ++ plainEncoding ++ List.replicate 267 0),
      own.stop = 14) ∨
    Overlapped (new ⟨512, 2, .strict⟩).limits checksumNoise plainEncoding
      (List.replicate 267 0) plainFrame := by
  have hresync := (push_resync ⟨512, 2, .strict⟩ checksumNoise plainEncoding
    (List.replicate 267 0) plainFrame plainFrame_encodable (by decide) rfl
    (by rw [List.length_replicate]) (by decide +kernel) (by decide +kernel)).2
  rcases hresync with ⟨before, own, after, hall, -, hstop, -⟩ | hoverlapped
  · left
    exact ⟨own, by rw [hall]; simp, hstop⟩
  · exact .inr hoverlapped

theorem emissions_checksumNoise :
    emissions (new ⟨512, 2, .strict⟩).limits
        (checksumNoise ++ plainEncoding ++ List.replicate 267 0) =
      [⟨0, 7, .frame { plainFrame with wireCommand := 0x7d }⟩,
        ⟨7, 14, .frame plainFrame⟩] := by
  decide +kernel

/--
The preamble run before the delimiter may begin with the checksum of an earlier
frame, and that byte is not counted again.
-/
theorem not_resyncsWithWholeRun :
    plainFrame.encode = .ok plainEncoding ∧
      ((new ⟨512, 2, .strict⟩).push (checksumNoise ++ plainEncoding ++
        List.replicate 267 0)).1.length < maximumDecodeEventsPerPush ∧
      ¬ ResyncsWithWholeRun (new ⟨512, 2, .strict⟩).limits checksumNoise
        plainEncoding (List.replicate 267 0) plainFrame := by
  refine ⟨rfl, by decide +kernel, ?_⟩
  have hrun : preambleRun (checksumNoise ++ plainEncoding ++
      List.replicate 267 0) (checksumNoise.length +
        plainFrame.preambles.toNat) = 3 := by decide +kernel
  unfold ResyncsWithWholeRun Overlapped
  rw [emissions_checksumNoise, hrun]
  rintro (⟨own, hmem, hevent⟩ | ⟨other, hmem, -, hother, -, hstop⟩)
  · simp only [List.mem_cons, List.not_mem_nil, or_false] at hmem
    rcases hmem with rfl | rfl
    · simp [plainFrame] at hevent
    · simp [plainFrame] at hevent
  · simp only [List.mem_cons, List.not_mem_nil, or_false] at hmem
    rcases hmem with rfl | rfl
    · simp [checksumNoise] at hstop
    · exact hother ⟨2, rfl, rfl⟩

end FrameDecoder

end HartLink.Wire
