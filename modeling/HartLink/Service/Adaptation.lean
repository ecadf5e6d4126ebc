import HartLink.Service.Clones
import HartLink.Service.Overspending

/-!
# Adaptive timing and its policies

The learned response time is an average of the recorded samples, so that it
never leaves their range, however the calls of clones interleave.  The two
policies that an adaptive call derives from it stay within the caller's policy.
`smoothedDuration?` and `adaptiveTimeout?` are the same computations where a
reversed clamp or a result that its type cannot hold yields nothing.
-/

namespace HartLink.Service

open HartLink.Foundation
open HartLink.Operation

/-! ## The learned response time -/

/--
The learned time lies between the smallest and the largest sample; there is none
exactly when there are no samples.
-/
def InRange (samples : List Nat) : Option Nat → Prop
  | none => samples = []
  | some learned =>
      (∃ low ∈ samples, low ≤ learned) ∧ ∃ high ∈ samples, learned ≤ high

theorem smoothedDuration_some {previous sample : Nat}
    (hprevious : previous < 2 ^ 64) (hsample : sample < 2 ^ 64) :
    smoothedDuration (some previous) sample = (previous * 3 + sample) / 4 := by
  unfold smoothedDuration
  dsimp only
  omega

theorem InRange.lt {samples : List Nat} {learned : Nat}
    (h : InRange samples (some learned))
    (hsamples : ∀ sample ∈ samples, sample < 2 ^ 64) : learned < 2 ^ 64 := by
  obtain ⟨-, high, hhigh, hle⟩ := h
  exact hle.trans_lt (hsamples high hhigh)

theorem InRange.smoothed {samples : List Nat} {learned : Option Nat}
    {sample : Nat} (h : InRange samples learned)
    (hsamples : ∀ other ∈ samples ++ [sample], other < 2 ^ 64) :
    InRange (samples ++ [sample]) (some (smoothedDuration learned sample)) := by
  have hlast : sample ∈ samples ++ [sample] := by simp
  have hold : ∀ other ∈ samples, other ∈ samples ++ [sample] :=
    fun _ => List.mem_append_left [sample]
  cases learned with
  | none => exact ⟨⟨sample, hlast, le_rfl⟩, sample, hlast, le_rfl⟩
  | some previous =>
      have hprevious := h.lt fun other hother =>
        hsamples other (hold other hother)
      obtain ⟨⟨low, hlow, hlower⟩, high, hhigh, hupper⟩ := h
      rw [smoothedDuration_some hprevious (hsamples sample hlast)]
      -- The average lies between the previous value and the sample.
      constructor
      · rcases Nat.le_total previous sample with hle | hle
        · exact ⟨low, hold low hlow, by omega⟩
        · exact ⟨sample, hlast, by omega⟩
      · rcases Nat.le_total previous sample with hle | hle
        · exact ⟨sample, hlast, by omega⟩
        · exact ⟨high, hold high hhigh, by omega⟩

/-! ## Samples over a run of clones -/

namespace ManagedDeviceSession

def sampled (managed : ManagedDeviceSession) (state : CloneState) :
    CloneEvent → List Nat
  | .requestEnds ticket (.ok _) elapsed _ _ =>
      match state.call? ticket with
      | some call =>
          if registeredReadOnly call.command ∧ managed.options.adaptive.isSome
          then [elapsed] else []
      | none => []
  | _ => []

variable {managed : ManagedDeviceSession}

def learn (learned : Option Nat) (samples : List Nat) : Option Nat :=
  samples.foldl (fun learned sample =>
    some (smoothedDuration learned sample)) learned

theorem learnedResponse_recordFailure (options : DeviceHealthOptions)
    (horizon now : Nat) (state : HealthState) (error : SessionError) :
    (state.recordFailure options horizon now error).learnedResponse =
      state.learnedResponse := by
  unfold HealthState.recordFailure
  dsimp only
  split_ifs <;> rfl

theorem learnedResponse_recordSuccess (options : DeviceHealthOptions)
    (state : HealthState) (elapsed : Nat) (command : CommandCode) :
    (state.recordSuccess options elapsed command).learnedResponse =
      learn state.learnedResponse
        (if registeredReadOnly command ∧ options.adaptive.isSome
          then [elapsed] else []) := by
  unfold HealthState.recordSuccess
  dsimp only
  split_ifs <;> rfl

theorem learnedResponse_checkCooldown (state : HealthState) (bypass : Bool)
    (now : Nat) :
    (state.checkCooldown bypass now).2.learnedResponse =
      state.learnedResponse := by
  rcases state.checkCooldown_cases bypass now with
    ⟨expiry, -, -, -, hcheck⟩ | ⟨expiry, hcheck, -⟩
  · rw [hcheck]
  · rw [hcheck]

theorem learnedResponse_snapshot (state : HealthState) (now : Nat) :
    (state.snapshot now).2.learnedResponse = state.learnedResponse := by
  unfold HealthState.snapshot
  dsimp only
  split_ifs <;> rfl

theorem learnedResponse_endCall {state : CloneState} {ticket : Nat}
    {call : OpenCall} (hcall : state.call? ticket = some call)
    (result : Except SessionError Unit) (elapsed logicalElapsed now : Nat) :
    (managed.endCall state ticket call result elapsed
        now).1.health.learnedResponse =
      learn state.health.learnedResponse (managed.sampled state
        (.requestEnds ticket result elapsed logicalElapsed now)) := by
  cases result with
  | ok value =>
      simp only [sampled, hcall]
      exact learnedResponse_recordSuccess managed.options state.health elapsed
        call.command
  | error error =>
      exact learnedResponse_recordFailure managed.options _ now state.health
        error

theorem learnedResponse_of_eq {moved next : CloneState}
    {learned : Option Nat} {given answer : Option CloneAnswer}
    (h : some (moved, given) = some (next, answer))
    (hmoved : moved.health.learnedResponse = learned) :
    next.health.learnedResponse = learned := by
  injection h with h
  rw [← (Prod.mk.inj h).1]
  exact hmoved

theorem learnedResponse_requestEnds {state next : CloneState}
    {ticket elapsed logicalElapsed now : Nat} {call : OpenCall}
    {result : Except SessionError Unit} {answer : Option CloneAnswer}
    (hcall : state.call? ticket = some call)
    (h : managed.callEvent state ticket call
      (.requestEnds ticket result elapsed logicalElapsed now) =
        some (next, answer)) :
    next.health.learnedResponse =
      learn state.health.learnedResponse (managed.sampled state
        (.requestEnds ticket result elapsed logicalElapsed now)) := by
  have hends := @learnedResponse_endCall managed state ticket call hcall
    result elapsed logicalElapsed now
  have hsame (hcalled : some (managed.endCall state ticket call result elapsed
      now) = some (next, answer)) : next.health.learnedResponse =
      learn state.health.learnedResponse (managed.sampled state
        (.requestEnds ticket result elapsed logicalElapsed now)) :=
    learnedResponse_of_eq hcalled hends
  cases hstage : call.stage with
  | plain => exact hsame (by simpa only [callEvent, hstage] using h)
  | fallback => exact hsame (by simpa only [callEvent, hstage] using h)
  | fast =>
      simp only [callEvent, hstage] at h
      cases result with
      | ok value => exact hsame h
      | error error =>
          simp only at h
          split_ifs at h with hback
          · exact learnedResponse_of_eq h rfl
          · exact hsame h
  | _ => simp [callEvent, hstage] at h

/-- An event teaches the samples that it records, and nothing else. -/
theorem learnedResponse_callEvent {state next : CloneState} {ticket : Nat}
    {call : OpenCall} {event : CloneEvent} {answer : Option CloneAnswer}
    (h : managed.callEvent state ticket call event = some (next, answer))
    (hevent : ∀ named result elapsed logicalElapsed now,
      event ≠ .requestEnds named result elapsed logicalElapsed now) :
    next.health.learnedResponse = state.health.learnedResponse := by
  cases event with
  | checkCooldown named now =>
      have hcheck := learnedResponse_checkCooldown state.health call.bypass now
      cases hstage : call.stage with
      | entered =>
          simp only [callEvent, hstage] at h
          split at h
          next hresult =>
            rw [hresult] at hcheck
            exact learnedResponse_of_eq h hcheck
          next hresult =>
            rw [hresult] at hcheck
            exact learnedResponse_of_eq h hcheck
      | _ => simp [callEvent, hstage] at h
  | adaptiveTimeout named =>
      cases hstage : call.stage with
      | admitted =>
          simp only [callEvent, hstage] at h
          split at h
          · exact learnedResponse_of_eq h rfl
          · exact learnedResponse_of_eq h rfl
      | _ => simp [callEvent, hstage] at h
  | countAttempt named =>
      cases hstage : call.stage with
      | chosen =>
          simp only [callEvent, hstage] at h
          exact learnedResponse_of_eq h rfl
      | _ => simp [callEvent, hstage] at h
  | countFallback named =>
      cases hstage : call.stage with
      | fallingBack =>
          simp only [callEvent, hstage] at h
          exact learnedResponse_of_eq h rfl
      | _ => simp [callEvent, hstage] at h
  | drop named =>
      simp only [callEvent] at h
      exact learnedResponse_of_eq h rfl
  | requestEnds named result elapsed logicalElapsed now =>
      exact absurd rfl (hevent named result elapsed logicalElapsed now)
  | _ => simp [callEvent] at h

theorem learnedResponse_cloneNext {state next : CloneState}
    {event : CloneEvent} (h : managed.cloneNext state event = some next) :
    next.health.learnedResponse =
      learn state.health.learnedResponse (managed.sampled state event) := by
  obtain ⟨⟨moved, answer⟩, hstep, hmoved⟩ := Option.map_eq_some_iff.mp h
  have hmoved : moved = next := hmoved
  subst hmoved
  cases event with
  | execute command policy => exact learnedResponse_of_eq hstep rfl
  | probe command policy =>
      simp only [cloneStep] at hstep
      split_ifs at hstep
      · exact learnedResponse_of_eq hstep rfl
      · exact learnedResponse_of_eq hstep rfl
  | snapshot now =>
      exact learnedResponse_of_eq hstep
        (learnedResponse_snapshot state.health now)
  | requestEnds ticket result elapsed logicalElapsed now =>
      obtain ⟨call, hcall, hevent⟩ := Option.bind_eq_some_iff.mp hstep
      exact learnedResponse_requestEnds hcall hevent
  | checkCooldown ticket now =>
      obtain ⟨call, -, hevent⟩ := Option.bind_eq_some_iff.mp hstep
      exact learnedResponse_callEvent hevent (by simp)
  | adaptiveTimeout ticket =>
      obtain ⟨call, -, hevent⟩ := Option.bind_eq_some_iff.mp hstep
      exact learnedResponse_callEvent hevent (by simp)
  | countAttempt ticket =>
      obtain ⟨call, -, hevent⟩ := Option.bind_eq_some_iff.mp hstep
      exact learnedResponse_callEvent hevent (by simp)
  | countFallback ticket =>
      obtain ⟨call, -, hevent⟩ := Option.bind_eq_some_iff.mp hstep
      exact learnedResponse_callEvent hevent (by simp)
  | drop ticket =>
      obtain ⟨call, -, hevent⟩ := Option.bind_eq_some_iff.mp hstep
      exact learnedResponse_callEvent hevent (by simp)

theorem sampled_cases (managed : ManagedDeviceSession)
    (state : CloneState) (event : CloneEvent) :
    managed.sampled state event = [] ∨
      ∃ sample, managed.sampled state event = [sample] := by
  unfold sampled
  split
  · split
    · split_ifs
      · exact .inr ⟨_, rfl⟩
      · exact .inl rfl
    · exact .inl rfl
  · exact .inl rfl

theorem inRange_of_run {events : List CloneEvent} {final : CloneState}
    (hrun : runSteps managed.cloneNext {} events = some final)
    (hsamples : ∀ sample ∈ observe managed.cloneNext managed.sampled {}
      events, sample < 2 ^ 64) :
    InRange (observe managed.cloneNext managed.sampled {} events)
      final.health.learnedResponse := by
  have hinvariant := @runSteps_observe _ _ managed.cloneNext _ managed.sampled
    (fun samples state => (∀ sample ∈ samples, sample < 2 ^ 64) →
      InRange samples state.health.learnedResponse)
    ?_ [] {} final events hrun fun _ => rfl
  · rw [List.nil_append] at hinvariant
    exact hinvariant hsamples
  · intro samples state next event hnext h hsamples
    rw [learnedResponse_cloneNext hnext]
    rcases managed.sampled_cases state event with hnone | ⟨sample, hone⟩
    · rw [hnone, List.append_nil] at hsamples ⊢
      exact h hsamples
    · rw [hone] at hsamples ⊢
      exact (h fun other hother => hsamples other
        (List.mem_append_left _ hother)).smoothed hsamples

end ManagedDeviceSession

/-! ## Computations that may fail -/

/-- A result that an unsigned type of a width can hold. -/
def inWidth (width result : Nat) : Option Nat :=
  if result < 2 ^ width then some result else none

theorem inWidth_of_lt {width result : Nat} (h : result < 2 ^ width) :
    inWidth width result = some result := if_pos h

/-- A result that a `Duration` can hold. -/
def inDuration (result : Nat) : Option Nat :=
  if result ≤ maximumDuration then some result else none

/-- `Ord::clamp`, which panics on reversed bounds. -/
def clamp? (value lower upper : Nat) : Option Nat :=
  if lower > upper then none
  else if value < lower then some lower
  else if value > upper then some upper
  else some value

theorem clamp?_of_le {lower upper : Nat} (h : lower ≤ upper) (value : Nat) :
    clamp? value lower upper = some (max lower (min upper value)) := by
  unfold clamp?
  rw [if_neg (Nat.not_lt.mpr h)]
  split_ifs
  · rw [Option.some.injEq]
    omega
  · rw [Option.some.injEq]
    omega
  · rw [Option.some.injEq]
    omega

def smoothedDuration? (previous : Option Nat) (sample : Nat) : Option Nat :=
  match previous with
  | none => some sample
  | some previous => do
      let product ← inWidth 128 (previous * 3)
      let sum ← inWidth 128 (product + sample)
      inWidth 64 (sum / 4)

theorem smoothedDuration?_eq {samples : List Nat} {learned : Option Nat}
    {sample : Nat} (h : InRange samples learned)
    (hsamples : ∀ other ∈ samples, other < 2 ^ 64)
    (hsample : sample < 2 ^ 64) :
    smoothedDuration? learned sample =
      some (smoothedDuration learned sample) := by
  cases learned with
  | none => rfl
  | some previous =>
      have hprevious := h.lt hsamples
      rw [smoothedDuration_some hprevious hsample, smoothedDuration?,
        inWidth_of_lt (by omega), Option.bind_eq_bind, Option.bind_some,
        inWidth_of_lt (by omega), Option.bind_some,
        inWidth_of_lt (by omega)]

theorem DeviceHealthOptions.bounds_of_validate {options : DeviceHealthOptions}
    {adaptive : AdaptiveTiming} (h : options.validate = .ok ())
    (hadaptive : options.adaptive = some adaptive) :
    adaptive.minimum ≤ adaptive.maximum ∧
      adaptive.margin ≤ maximumRetryDuration := by
  simp only [validate, hadaptive, AdaptiveTiming.validate] at h
  split_ifs at h with hcooldown hzero horder hlimit
  omega

namespace ManagedDeviceSession

variable {managed : ManagedDeviceSession} {policy : RetryPolicy}

def adaptiveTimeout? (managed : ManagedDeviceSession) (state : HealthState)
    (command : CommandCode) (policy : RetryPolicy) : Option (Option Nat) :=
  if policy.transportRetries = 0 ∨ ¬ registeredReadOnly command then some none
  else
    match managed.options.adaptive, state.learnedResponse with
    | some adaptive, some learned => do
        let sum ← inDuration (learned + adaptive.margin)
        let clamped ← clamp? sum adaptive.minimum adaptive.maximum
        let candidate := min clamped policy.responseTimeout
        some (if candidate < policy.responseTimeout then some candidate
          else none)
    | _, _ => some none

theorem adaptiveTimeout?_eq {state : HealthState}
    (hlearned : ∀ learned, state.learnedResponse = some learned →
      learned < 2 ^ 64) (command : CommandCode) (policy : RetryPolicy) :
    managed.adaptiveTimeout? state command policy =
      some (managed.adaptiveTimeout state command policy) := by
  unfold adaptiveTimeout? adaptiveTimeout
  by_cases hnone : policy.transportRetries = 0 ∨
      ¬ registeredReadOnly command
  · rw [if_pos hnone, if_pos hnone]
  rw [if_neg hnone, if_neg hnone]
  cases hadaptive : managed.options.adaptive with
  | none => rfl
  | some adaptive =>
      cases hstate : state.learnedResponse with
      | none => rfl
      | some learned =>
          obtain ⟨horder, hmargin⟩ :=
            DeviceHealthOptions.bounds_of_validate managed.valid hadaptive
          have hlt := hlearned learned hstate
          have hsum : learned + adaptive.margin ≤ maximumDuration := by
            unfold maximumDuration
            unfold maximumRetryDuration at hmargin
            omega
          dsimp only
          rw [inDuration, if_pos hsum, Option.bind_eq_bind, Option.bind_some,
            clamp?_of_le horder, Option.bind_some, min_eq_left hsum]

/-! ## The derived policies -/

/-- A short first attempt lies within the configured bounds. -/
theorem adaptiveTimeout_bounds {state : HealthState} {command : CommandCode}
    {fastTimeout : Nat}
    (h : managed.adaptiveTimeout state command policy = some fastTimeout) :
    ∃ adaptive, managed.options.adaptive = some adaptive ∧
      adaptive.minimum ≤ fastTimeout ∧ fastTimeout ≤ adaptive.maximum := by
  unfold adaptiveTimeout at h
  split_ifs at h with hnone
  split at h
  next adaptive learned hadaptive hlearned =>
    obtain ⟨horder, -⟩ :=
      DeviceHealthOptions.bounds_of_validate managed.valid hadaptive
    dsimp only at h
    split_ifs at h with hshort
    injection h with h
    subst h
    refine ⟨adaptive, hadaptive, ?_, ?_⟩ <;> omega
  · contradiction

theorem executable_of_validateRuntime {horizon instant : Nat}
    (h : policy.validateRuntime horizon instant = .ok ()) :
    policy.Executable := by
  obtain ⟨hpositive, hlimits, -⟩ :=
    (policy.validateRuntime_ok_iff horizon instant).mp h
  exact policy.executable_iff.mpr ⟨hpositive, hlimits⟩

theorem validateRuntime_fallbackPolicy_of_lt {horizon instant elapsed : Nat}
    (hruntime : policy.validateRuntime horizon instant = .ok ())
    (helapsed : elapsed < policy.totalTimeout) :
    (fallbackPolicy policy (policy.totalTimeout - elapsed)).validateRuntime
      horizon instant = .ok () := by
  rw [RetryPolicy.validateRuntime_ok_iff] at hruntime ⊢
  simp only [fallbackPolicy]
  omega

/-- The retry that the first attempt used up is taken off. -/
theorem transportRetries_fallbackPolicy (h : policy.transportRetries ≠ 0)
    (remaining : Nat) :
    (fallbackPolicy policy remaining).transportRetries.toNat + 1 =
      policy.transportRetries.toNat := by
  have hpositive : policy.transportRetries.toNat ≠ 0 :=
    fun hzero => h (UInt8.toNat_inj.mp hzero)
  have hone : (1 : UInt8) ≤ policy.transportRetries :=
    UInt8.le_iff_toNat_le.mpr (Nat.one_le_iff_ne_zero.mpr hpositive)
  simp only [fallbackPolicy, if_neg h]
  rw [UInt8.toNat_sub_of_le _ _ hone]
  exact Nat.sub_add_cancel (Nat.one_le_iff_ne_zero.mpr hpositive)

/-- What a call may rely on when it takes a policy in place of another. -/
structure Replaces (policy replacement : RetryPolicy)
    (horizon instant : Nat) : Prop where
  response : 0 < replacement.responseTimeout
  total : replacement.totalTimeout ≤ policy.totalTimeout
  accepted : replacement.validateRuntime horizon instant = .ok ()
  executable : replacement.Executable

theorem replaces_fastPolicy {state : HealthState} {horizon instant : Nat}
    {command : CommandCode} {fastTimeout : Nat}
    (hruntime : policy.validateRuntime horizon instant = .ok ())
    (htimeout : managed.adaptiveTimeout state command policy =
      some fastTimeout) :
    Replaces policy (fastPolicy policy fastTimeout) horizon instant := by
  have haccepted := validateRuntime_fastPolicy hruntime htimeout
  have hexecutable := executable_of_validateRuntime haccepted
  have hpositive := ((RetryPolicy.executable_iff _).mp hexecutable).1.1
  exact ⟨hpositive, le_rfl, haccepted, hexecutable⟩

theorem replaces_fallbackPolicy {horizon instant elapsed : Nat}
    (hruntime : policy.validateRuntime horizon instant = .ok ())
    (helapsed : elapsed < policy.totalTimeout) :
    Replaces policy (fallbackPolicy policy (policy.totalTimeout - elapsed))
      horizon instant := by
  have haccepted := validateRuntime_fallbackPolicy_of_lt hruntime helapsed
  have hexecutable := executable_of_validateRuntime haccepted
  have hpositive := ((RetryPolicy.executable_iff _).mp hexecutable).1.1
  exact ⟨hpositive, Nat.sub_le _ _, haccepted, hexecutable⟩

/--
In every run of clones with samples of less than `2 ^ 64` nanoseconds, the
learned time stays among the samples, if there are any, and no step of its
computation or of the timeout derived from it fails.  In every state, the
policies that replace an accepted policy are shorter and accepted.
-/
theorem adaptive_timing_keeps_policies (managed : ManagedDeviceSession)
    (events : List CloneEvent) (final : CloneState)
    (hrun : runSteps managed.cloneNext {} events = some final)
    (hsamples : ∀ sample ∈ observe managed.cloneNext managed.sampled {}
      events, sample < 2 ^ 64) :
    InRange (observe managed.cloneNext managed.sampled {} events)
      final.health.learnedResponse ∧
    (∀ sample, sample < 2 ^ 64 →
      smoothedDuration? final.health.learnedResponse sample =
        some (smoothedDuration final.health.learnedResponse sample)) ∧
    (∀ command policy,
      managed.adaptiveTimeout? final.health command policy =
        some (managed.adaptiveTimeout final.health command policy)) ∧
    ∀ (policy : RetryPolicy) (horizon instant : Nat),
      policy.validateRuntime horizon instant = .ok () →
      (∀ state command fastTimeout,
        managed.adaptiveTimeout state command policy = some fastTimeout →
        (∃ adaptive, managed.options.adaptive = some adaptive ∧
          adaptive.minimum ≤ (fastPolicy policy fastTimeout).responseTimeout ∧
          (fastPolicy policy fastTimeout).responseTimeout ≤
            adaptive.maximum) ∧
        (fastPolicy policy fastTimeout).responseTimeout <
          policy.responseTimeout ∧
        Replaces policy (fastPolicy policy fastTimeout) horizon instant ∧
        ∀ remaining,
          (fallbackPolicy policy remaining).transportRetries.toNat + 1 =
            policy.transportRetries.toNat) ∧
      ∀ elapsed, elapsed < policy.totalTimeout →
        let fallback := fallbackPolicy policy (policy.totalTimeout - elapsed)
        fallback.responseTimeout ≤ fallback.totalTimeout ∧
        fallback.totalTimeout ≤ policy.totalTimeout - elapsed ∧
        Replaces policy fallback horizon instant := by
  have hrange := inRange_of_run hrun hsamples
  refine ⟨hrange, ?_, ?_, ?_⟩
  · intro sample hsample
    exact smoothedDuration?_eq hrange hsamples hsample
  · intro command policy
    refine adaptiveTimeout?_eq ?_ command policy
    intro learned hlearned
    rw [hlearned] at hrange
    exact hrange.lt hsamples
  · intro policy horizon instant hruntime
    refine ⟨?_, ?_⟩
    · intro state command fastTimeout htimeout
      obtain ⟨hretries, hshort, -⟩ := adaptiveTimeout_some htimeout
      refine ⟨adaptiveTimeout_bounds htimeout, hshort,
        replaces_fastPolicy hruntime htimeout, ?_⟩
      exact transportRetries_fallbackPolicy hretries
    · intro elapsed helapsed
      exact ⟨Nat.min_le_right _ _, le_rfl,
        replaces_fallbackPolicy hruntime helapsed⟩

def answeredReading : List CloneEvent :=
  [.execute ⟨1⟩ samplePolicy, .checkCooldown 0 0, .adaptiveTimeout 0,
    .requestEnds 0 (.ok ()) 200000000 200000000 200000000]

theorem adaptive_timing_keeps_policies_reading :
    InRange (observe sampleManaged.cloneNext sampleManaged.sampled {}
      answeredReading) (some 200000000) ∧
    (sampleManaged.adaptiveTimeout sampleState ⟨1⟩ samplePolicy =
        some 250000000 ∧
      samplePolicy.validateRuntime 1000000000000 0 = .ok ()) ∧
    Replaces samplePolicy (fastPolicy samplePolicy 250000000)
      1000000000000 0 := by
  have htimeout : sampleManaged.adaptiveTimeout sampleState ⟨1⟩
      samplePolicy = some 250000000 := by decide
  have hruntime : samplePolicy.validateRuntime 1000000000000 0 = .ok () := by
    decide
  have hkeeps := adaptive_timing_keeps_policies sampleManaged
    answeredReading
    { health := { successes := 1, learnedResponse := some 200000000 }
      calls := [none], history := [.success] }
    (by decide) (by decide)
  exact ⟨hkeeps.1, ⟨htimeout, hruntime⟩, ((hkeeps.2.2.2 samplePolicy 1000000000000 0
    hruntime).1 sampleState ⟨1⟩ 250000000 htimeout).2.2.1⟩

end ManagedDeviceSession

end HartLink.Service
