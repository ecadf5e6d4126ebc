import HartLink.Foundation.Steps
import HartLink.Service.Outage
import HartLink.Service.Overspending

/-!
# Offline devices and cooldown

The calls of a managed session are the steps of its health state.  A call that
nobody answers counts as an outage when its deciding request is in time, and
ends the run of outages otherwise, together with an active cooldown.
-/

namespace HartLink.Service

open HartLink.Foundation
open HartLink.Wire
open HartLink.Operation

/-! ## Recorded failures -/

theorem toNat_saturatingNext32 (value : UInt32) :
    (saturatingNext32 value).toNat = min (value.toNat + 1) (2 ^ 32 - 1) := by
  have hlt := value.toNat_lt
  unfold saturatingNext32
  split_ifs with hmaximum
  · subst hmaximum
    rfl
  · have hne : value.toNat ≠ 4294967295 := fun heq =>
      hmaximum (UInt32.toNat_inj.mp heq)
    have hone : (1 : UInt32).toNat = 1 := rfl
    rw [UInt32.toNat_add]
    omega

namespace HealthState

variable {options : DeviceHealthOptions} {horizon now : Nat}
  {state : HealthState} {error : SessionError}

theorem recordFailure_outage (h : isTransportOutage error = true) :
    (state.recordFailure options horizon now
        error).consecutiveTransportFailures =
        saturatingNext32 state.consecutiveTransportFailures ∧
      (state.recordFailure options horizon now error).cooldownUntil =
        if options.failureThreshold.val.toNat ≤
            (saturatingNext32 state.consecutiveTransportFailures).toNat then
          checkedAdd horizon now options.cooldown
        else state.cooldownUntil := by
  have hthreshold : options.failureThreshold.val.toUInt32 ≤
      saturatingNext32 state.consecutiveTransportFailures ↔
      options.failureThreshold.val.toNat ≤
        (saturatingNext32 state.consecutiveTransportFailures).toNat := by
    rw [UInt32.le_iff_toNat_le, UInt8.toNat_toUInt32]
  simp only [recordFailure, h, if_true, ge_iff_le, hthreshold]
  split_ifs <;> exact ⟨rfl, rfl⟩

theorem recordFailure_other (h : isTransportOutage error = false) :
    (state.recordFailure options horizon now
        error).consecutiveTransportFailures = 0 ∧
      (state.recordFailure options horizon now error).cooldownUntil =
        none := by
  simp [recordFailure, h]

/-- Cooldown lets an ordinary call through when it is not active. -/
theorem expired_of_checkCooldown {checked : HealthState}
    (h : state.checkCooldown false now = (.ok (), checked)) (expiry : Nat)
    (hexpiry : state.cooldownUntil = some expiry) : expiry ≤ now := by
  by_contra hbefore
  simp only [checkCooldown, hexpiry, Bool.false_eq_true, if_false] at h
  rw [if_neg (by omega), if_neg (by omega)] at h
  simp at h

theorem cooldownUntil_recordFailure :
    (state.recordFailure options horizon now error).cooldownUntil = none ∨
      (state.recordFailure options horizon now error).cooldownUntil =
        state.cooldownUntil ∨
      (state.recordFailure options horizon now error).cooldownUntil =
        checkedAdd horizon now options.cooldown := by
  cases houtage : isTransportOutage error with
  | false => exact .inl (recordFailure_other houtage).2
  | true =>
      rw [(recordFailure_outage houtage).2]
      split_ifs
      · exact .inr (.inr rfl)
      · exact .inr (.inl rfl)

theorem cooldownUntil_recordSuccess (elapsed : Nat) (command : CommandCode) :
    (state.recordSuccess options elapsed command).cooldownUntil = none := by
  unfold recordSuccess
  split_ifs <;> rfl

end HealthState

/-! ## Calls -/

/-- One call of `execute` or `probe` and its surroundings. -/
structure ManagedCall where
  Output : Type
  operation : DeviceOperation Output
  queue : QueueId
  policy : RetryPolicy
  probe : Bool
  passage : Passage

namespace ManagedCall

def run (call : ManagedCall) (managed : ManagedDeviceSession)
    (state : HealthState) : ManagedRun call.Output :=
  if call.probe then
    managed.probe state call.operation call.queue call.policy call.passage
  else
    managed.execute state call.operation call.queue call.policy call.passage

/-- Neither cooldown nor the check of a probe refuses the call. -/
def LetThrough (state : HealthState) (call : ManagedCall) : Prop :=
  if call.probe then registeredReadOnly call.operation.command = true
  else ∀ expiry, state.cooldownUntil = some expiry →
    expiry ≤ call.passage.checkedAt

theorem run_cases (call : ManagedCall) (managed : ManagedDeviceSession)
    (state : HealthState) :
    ((call.run managed state).transmissions = [] ∧
      (call.run managed state).state.consecutiveTransportFailures =
        state.consecutiveTransportFailures ∧
      (call.run managed state).state.cooldownUntil = state.cooldownUntil) ∨
    call.LetThrough state ∧ ∃ expiry,
      (expiry = state.cooldownUntil ∨ expiry = none ∧
        ∀ earlier, state.cooldownUntil = some earlier →
          earlier ≤ call.passage.checkedAt) ∧
      managed.Course { state with cooldownUntil := expiry } call.operation
        call.queue call.policy call.passage (call.run managed state) := by
  unfold run LetThrough
  cases hprobe : call.probe with
  | true =>
      simp only [if_true, ManagedDeviceSession.probe]
      split_ifs with hregistered
      · exact .inr ⟨hregistered, state.cooldownUntil, .inl rfl,
          ManagedDeviceSession.executeInner_course rfl⟩
      · exact .inl ⟨rfl, rfl, rfl⟩
  | false =>
      simp only [Bool.false_eq_true, if_false, ManagedDeviceSession.execute]
      rcases state.checkCooldown_cases false call.passage.checkedAt with
        ⟨expiry, -, -, -, hchecked⟩ | ⟨expiry, hchecked, hexpiry⟩
      · rw [ManagedDeviceSession.executeInner_rejected hchecked]
        exact .inl ⟨rfl, rfl, rfl⟩
      · refine .inr ⟨HealthState.expired_of_checkCooldown hchecked, expiry, ?_,
          ManagedDeviceSession.executeInner_course hchecked⟩
        rcases hexpiry with hexpiry | ⟨hexpiry, -, hpast⟩
        · exact .inl hexpiry
        · exact .inr ⟨hexpiry, hpast⟩

theorem run_coolingDown {call : ManagedCall} {managed : ManagedDeviceSession}
    {state : HealthState} {expiry : Nat} (hprobe : call.probe = false)
    (hexpiry : state.cooldownUntil = some expiry)
    (hbefore : call.passage.checkedAt < expiry) :
    (call.run managed state).result =
        .error (.coolingDown (expiry - call.passage.checkedAt)) ∧
      (call.run managed state).transmissions = [] := by
  simp only [run, hprobe, Bool.false_eq_true, if_false,
    ManagedDeviceSession.execute]
  rcases state.checkCooldown_cases false call.passage.checkedAt with
    ⟨other, -, hother, -, hchecked⟩ | ⟨other, hchecked, hother⟩
  · rw [hexpiry] at hother
    injection hother with hother
    subst hother
    rw [ManagedDeviceSession.executeInner_rejected hchecked]
    exact ⟨rfl, rfl⟩
  · have := HealthState.expired_of_checkCooldown hchecked expiry hexpiry
    omega

/-- The deciding request of the call is taken by the link and is in time. -/
def InTime (managed : ManagedDeviceSession) (state : HealthState)
    (call : ManagedCall) : Prop :=
  ∃ request, managed.session.Sends call.operation call.queue request ∧
    match managed.adaptiveTimeout state call.operation.command
        call.policy with
    | none => managed.session.InTime call.passage.first request call.policy
    | some fastTimeout =>
        managed.session.InTime call.passage.first request
          (ManagedDeviceSession.fastPolicy call.policy fastTimeout) ∧
        (ManagedDeviceSession.remaining call.policy call.passage = 0 ∨
          managed.session.InTime call.passage.fallback request
            (ManagedDeviceSession.fallbackPolicy call.policy
              (ManagedDeviceSession.remaining call.policy call.passage)))

end ManagedCall

/-! ## What an unanswered call records -/

namespace ManagedDeviceSession

variable {Output : Type} {managed : ManagedDeviceSession}
  {state : HealthState} {operation : DeviceOperation Output}
  {queue : QueueId} {policy : RetryPolicy} {passage : Passage}
  {run : ManagedRun Output}

/-- The recorded outage and the cooldown that it may open. -/
structure RecordsOutage (managed : ManagedDeviceSession)
    (state : HealthState) (recordedAt : Nat) (next : HealthState) :
    Prop where
  failures : next.consecutiveTransportFailures =
    saturatingNext32 state.consecutiveTransportFailures
  cooldown : next.cooldownUntil =
    if managed.options.failureThreshold.val.toNat ≤
        (saturatingNext32 state.consecutiveTransportFailures).toNat then
      checkedAdd managed.session.link.horizon recordedAt
        managed.options.cooldown
    else state.cooldownUntil

theorem conclude_error {handling : Handling} {command : CommandCode}
    {call : CallRun SessionError Output} {error : SessionError}
    (h : call.result = .error error)
    (hends : (run.result, run.state) =
      managed.conclude passage handling command state call) :
    run.state = state.recordFailure managed.options
      managed.session.link.horizon passage.recordedAt error := by
  rw [conclude, h] at hends
  exact congrArg Prod.snd hends

theorem recordsOutage_of_conclude {handling : Handling}
    {command : CommandCode} {call : CallRun SessionError Output}
    (h : ∃ error, call.result = .error error ∧
      isTransportOutage error = true)
    (hends : (run.result, run.state) =
      managed.conclude passage handling command state call) :
    managed.RecordsOutage state passage.recordedAt run.state := by
  obtain ⟨error, hresult, houtage⟩ := h
  rw [conclude_error hresult hends]
  exact ⟨(HealthState.recordFailure_outage houtage).1,
    (HealthState.recordFailure_outage houtage).2⟩

theorem reset_of_conclude {handling : Handling} {command : CommandCode}
    {call : CallRun SessionError Output}
    (h : ∃ error, call.result = .error error ∧
      isTransportOutage error = false)
    (hends : (run.result, run.state) =
      managed.conclude passage handling command state call) :
    run.state.consecutiveTransportFailures = 0 ∧
      run.state.cooldownUntil = none := by
  obtain ⟨error, hresult, houtage⟩ := h
  rw [conclude_error hresult hends]
  exact HealthState.recordFailure_other houtage

end ManagedDeviceSession

namespace ManagedCall

variable {call : ManagedCall} {managed : ManagedDeviceSession}
  {state : HealthState}

/-- Nobody answered the call, nor another one in its place. -/
structure Unreplied (managed : ManagedDeviceSession) (state : HealthState)
    (call : ManagedCall) : Prop where
  unanswered : Unanswered (call.run managed state).transmissions
  first : ∀ reply, call.passage.first.delivery ≠ .coalesced reply
  fallback : ∀ reply, call.passage.fallback.delivery ≠ .coalesced reply

/-- The call was sent on a working link to a device that never answers. -/
structure Silent (managed : ManagedDeviceSession) (state : HealthState)
    (call : ManagedCall) : Prop where
  transmitted : (call.run managed state).transmissions ≠ []
  silent : AllSilent (call.run managed state).transmissions
  first : call.passage.first.delivery.Working
  fallback : call.passage.fallback.delivery.Working

theorem recordsOutage_of_course {expiry : Option Nat}
    (hcourse : managed.Course { state with cooldownUntil := expiry }
      call.operation call.queue call.policy call.passage
      (call.run managed state))
    (hunreplied : call.Unreplied managed state)
    (hin : call.InTime managed state) :
    managed.RecordsOutage { state with cooldownUntil := expiry }
      call.passage.recordedAt (call.run managed state).state := by
  obtain ⟨hunanswered, hfirst, hfallback⟩ := hunreplied
  obtain ⟨request, hsends, hin⟩ := hin
  rw [ManagedRun.transmissions] at hunanswered
  have hlearned := @ManagedDeviceSession.adaptiveTimeout_congr managed state
    { state with cooldownUntil := expiry } rfl call.operation.command
    call.policy
  cases hcourse with
  | plain htimeout hsent hnone hends =>
      rw [← hlearned, htimeout] at hin
      rw [hsent, hnone, List.append_nil] at hunanswered
      exact ManagedDeviceSession.recordsOutage_of_conclude
        (DeviceSession.isTransportOutage_execute hsends hin hunanswered
          hfirst) hends
  | fast fastTimeout htimeout hsettled hsent hnone hends =>
      rw [← hlearned, htimeout] at hin
      rw [hsent, hnone, List.append_nil] at hunanswered
      have hrecords := ManagedDeviceSession.recordsOutage_of_conclude
        (DeviceSession.isTransportOutage_execute hsends hin.1 hunanswered
          hfirst) hends
      exact ⟨hrecords.failures, hrecords.cooldown⟩
  | fallsBack fastTimeout htimeout htimedOut hleft hsent hlater hends =>
      rw [← hlearned, htimeout] at hin
      have hin := hin.2.resolve_left (Nat.ne_of_gt hleft)
      rw [hlater] at hunanswered
      have hrecords := ManagedDeviceSession.recordsOutage_of_conclude
        (DeviceSession.isTransportOutage_execute hsends hin
          (fun transmission hmem => hunanswered transmission
            (List.mem_append_right _ hmem)) hfallback) hends
      exact ⟨hrecords.failures, hrecords.cooldown⟩

theorem reset_of_course {expiry : Option Nat}
    (hcourse : managed.Course { state with cooldownUntil := expiry }
      call.operation call.queue call.policy call.passage
      (call.run managed state))
    (hsilent : call.Silent managed state)
    (hout : ¬ call.InTime managed state) :
    (call.run managed state).state.consecutiveTransportFailures = 0 ∧
      (call.run managed state).state.cooldownUntil = none := by
  obtain ⟨htransmitted, hsilent, hfirst, hfallback⟩ := hsilent
  rw [ManagedRun.transmissions] at htransmitted hsilent
  have hlearned := @ManagedDeviceSession.adaptiveTimeout_congr managed state
    { state with cooldownUntil := expiry } rfl call.operation.command
    call.policy
  cases hcourse with
  | plain htimeout hsent hnone hends =>
      rw [hsent, hnone, List.append_nil] at htransmitted hsilent
      obtain ⟨request, hsends⟩ :=
        DeviceSession.sends_of_transmitted htransmitted
      refine ManagedDeviceSession.reset_of_conclude
        ((DeviceSession.result_execute_silent hsends hfirst hsilent).2
          fun hin => hout ⟨request, hsends, ?_⟩) hends
      rw [← hlearned, htimeout]
      exact hin
  | fast fastTimeout htimeout hsettled hsent hnone hends =>
      rw [hsent, hnone, List.append_nil] at htransmitted hsilent
      obtain ⟨request, hsends⟩ :=
        DeviceSession.sends_of_transmitted htransmitted
      obtain ⟨hinside, houtside⟩ :=
        DeviceSession.result_execute_silent hsends hfirst hsilent
      refine ManagedDeviceSession.reset_of_conclude
        (houtside fun hin => hout ⟨request, hsends, ?_⟩) hends
      rw [← hlearned, htimeout]
      exact ⟨hin, .inl (hsettled.resolve_left fun hother =>
        hother (hinside hin))⟩
  | fallsBack fastTimeout htimeout htimedOut hleft hsent hlater hends =>
      rw [hsent, hlater] at hsilent
      obtain ⟨request, hsends⟩ := DeviceSession.sends_of_timedOut htimedOut
      have hbefore := DeviceSession.result_execute_silent hsends hfirst
        fun transmission hmem => hsilent transmission
          (List.mem_append_left _ hmem)
      have hafter := DeviceSession.result_execute_silent hsends hfallback
        fun transmission hmem => hsilent transmission
          (List.mem_append_right _ hmem)
      have hin : managed.session.InTime call.passage.first request
          (ManagedDeviceSession.fastPolicy call.policy fastTimeout) := by
        by_contra hlate
        obtain ⟨error, hresult, houtage⟩ := hbefore.2 hlate
        rw [← ManagedDeviceSession.fastRun, htimedOut] at hresult
        injection hresult with hresult
        subst hresult
        contradiction
      refine ManagedDeviceSession.reset_of_conclude
        (hafter.2 fun hlate => hout ⟨request, hsends, ?_⟩) hends
      rw [← hlearned, htimeout]
      exact ⟨hin, .inr hlate⟩

theorem step_silent (hsilent : call.Silent managed state) :
    (call.InTime managed state → ∃ expiry,
      (expiry = state.cooldownUntil ∨ expiry = none) ∧
      managed.RecordsOutage { state with cooldownUntil := expiry }
        call.passage.recordedAt (call.run managed state).state) ∧
    (¬ call.InTime managed state →
      (call.run managed state).state.consecutiveTransportFailures = 0 ∧
        (call.run managed state).state.cooldownUntil = none) := by
  rcases call.run_cases managed state with
    ⟨hnone, -⟩ | ⟨-, expiry, hexpiry, hcourse⟩
  · exact absurd hnone hsilent.transmitted
  refine ⟨fun hin => ⟨expiry, hexpiry.imp_right And.left, ?_⟩,
    reset_of_course hcourse hsilent⟩
  refine recordsOutage_of_course hcourse
    ⟨hsilent.silent.unanswered, ?_, ?_⟩ hin
  · intro reply hreply
    have := hsilent.first
    rw [hreply] at this
    contradiction
  · intro reply hreply
    have := hsilent.fallback
    rw [hreply] at this
    contradiction

end ManagedCall

/-! ## Runs of silent calls -/

namespace ManagedDeviceSession

/-- One call after another; what overlaps with a call is not in the run. -/
def callStep (managed : ManagedDeviceSession) (state : HealthState)
    (call : ManagedCall) : Option HealthState :=
  some (call.run managed state).state

/-- Ordinary calls before the instant are rejected without a transmission. -/
def RejectsUntil (managed : ManagedDeviceSession) (state : HealthState)
    (expiry : Nat) : Prop :=
  state.cooldownUntil = some expiry ∧
    ∀ call : ManagedCall, call.probe = false →
      call.passage.checkedAt < expiry →
        (call.run managed state).result =
            .error (.coolingDown (expiry - call.passage.checkedAt)) ∧
          (call.run managed state).transmissions = []

theorem rejectsUntil_iff (managed : ManagedDeviceSession)
    (state : HealthState) (expiry : Nat) :
    managed.RejectsUntil state expiry ↔
      state.cooldownUntil = some expiry := by
  refine ⟨And.left, fun hexpiry => ⟨hexpiry, fun call hprobe hbefore => ?_⟩⟩
  exact ManagedCall.run_coolingDown hprobe hexpiry hbefore

section Runs

variable {managed : ManagedDeviceSession} {state final : HealthState}
  {calls : List ManagedCall}

theorem along_callStep_cons {Allowed : HealthState → ManagedCall → Prop}
    {call : ManagedCall} :
    Along managed.callStep Allowed state (call :: calls) ↔
      Allowed state call ∧
        Along managed.callStep Allowed (call.run managed state).state
          calls := by
  simp [Along, callStep]

theorem runSteps_callStep_cons {call : ManagedCall}
    (h : runSteps managed.callStep state (call :: calls) = some final) :
    runSteps managed.callStep (call.run managed state).state calls =
      some final := by
  rw [runSteps] at h
  exact h

/-- Enough outages in a row end with the cooldown of the last one. -/
theorem cooldownUntil_of_inTime {last : ManagedCall}
    (hrun : runSteps managed.callStep state calls = some final)
    (hsilent : Along managed.callStep (ManagedCall.Silent managed) state calls)
    (hin : Along managed.callStep (ManagedCall.InTime managed) state calls)
    (hlast : calls.getLast? = some last)
    (hcount : managed.options.failureThreshold.val.toNat ≤
      state.consecutiveTransportFailures.toNat + calls.length) :
    final.cooldownUntil = checkedAdd managed.session.link.horizon
      last.passage.recordedAt managed.options.cooldown := by
  have hthreshold := managed.options.failureThreshold.val.toNat_lt
  induction calls generalizing state with
  | nil => simp at hlast
  | cons call calls ih =>
      have hrest := runSteps_callStep_cons hrun
      obtain ⟨expiry, -, hrecords⟩ :=
        (ManagedCall.step_silent hsilent.1).1 hin.1
      have hnext := toNat_saturatingNext32 state.consecutiveTransportFailures
      have hfailures := hrecords.failures
      have hcooldown := hrecords.cooldown
      simp only at hfailures hcooldown
      rw [List.length_cons] at hcount
      cases calls with
      | nil =>
          rw [List.getLast?_singleton] at hlast
          injection hlast with hlast
          subst hlast
          injection hrest with hrest
          rw [List.length_nil] at hcount
          rw [← hrest, hcooldown, if_pos (by omega)]
      | cons next calls =>
          rw [List.getLast?_cons_cons] at hlast
          refine ih hrest (hsilent.2 _ rfl) (hin.2 _ rfl) hlast ?_
          rw [hfailures, hnext, List.length_cons]
          rw [List.length_cons] at hcount
          omega

theorem cooldownUntil_of_few
    (hrun : runSteps managed.callStep state calls = some final)
    (hsilent : Along managed.callStep (ManagedCall.Silent managed) state calls)
    (hclosed : state.cooldownUntil = none)
    (hcount : state.consecutiveTransportFailures.toNat + calls.length <
      managed.options.failureThreshold.val.toNat) :
    final.cooldownUntil = none := by
  induction calls generalizing state with
  | nil =>
      injection hrun with hrun
      exact hrun ▸ hclosed
  | cons call calls ih =>
      have hrest := runSteps_callStep_cons hrun
      rw [List.length_cons] at hcount
      obtain ⟨hinside, houtside⟩ := ManagedCall.step_silent hsilent.1
      by_cases hin : call.InTime managed state
      · obtain ⟨expiry, hexpiry, hrecords⟩ := hinside hin
        have hnext := toNat_saturatingNext32
          state.consecutiveTransportFailures
        have hfailures := hrecords.failures
        have hcooldown := hrecords.cooldown
        simp only at hfailures hcooldown
        rw [hclosed, or_self] at hexpiry
        rw [if_neg (by omega), hexpiry] at hcooldown
        refine ih hrest (hsilent.2 _ rfl) hcooldown ?_
        rw [hfailures]
        omega
      · obtain ⟨hfailures, hcooldown⟩ := houtside hin
        refine ih hrest (hsilent.2 _ rfl) hcooldown ?_
        rw [hfailures]
        change 0 + _ < _
        omega

theorem cooldownUntil_of_late
    (hrun : runSteps managed.callStep state calls = some final)
    (hsilent : Along managed.callStep (ManagedCall.Silent managed) state calls)
    (hlate : ¬ Along managed.callStep (ManagedCall.InTime managed) state calls)
    (hcount : calls.length ≤ managed.options.failureThreshold.val.toNat) :
    final.cooldownUntil = none := by
  induction calls generalizing state with
  | nil => exact absurd trivial hlate
  | cons call calls ih =>
      have hrest := runSteps_callStep_cons hrun
      rw [List.length_cons] at hcount
      by_cases hin : call.InTime managed state
      · exact ih hrest (hsilent.2 _ rfl) (fun halong =>
          hlate (along_callStep_cons.mpr ⟨hin, halong⟩)) (by omega)
      · obtain ⟨hfailures, hcooldown⟩ :=
          (ManagedCall.step_silent hsilent.1).2 hin
        refine cooldownUntil_of_few hrest (hsilent.2 _ rfl) hcooldown ?_
        rw [hfailures]
        change 0 + _ < _
        omega

end Runs

/-! ## Cooldowns of any run -/

section Bounds

variable {Output : Type} {managed : ManagedDeviceSession}
  {state : HealthState}

theorem cooldownUntil_conclude {passage : Passage} {handling : Handling}
    {command : CommandCode} {call : CallRun SessionError Output}
    {run : ManagedRun Output}
    (hends : (run.result, run.state) =
      managed.conclude passage handling command state call) :
    run.state.cooldownUntil = none ∨
      run.state.cooldownUntil = state.cooldownUntil ∨
      run.state.cooldownUntil = checkedAdd managed.session.link.horizon
        passage.recordedAt managed.options.cooldown := by
  cases hresult : call.result with
  | ok value =>
      rw [conclude, hresult] at hends
      have hstate := congrArg Prod.snd hends
      simp only [finish] at hstate
      rw [hstate, HealthState.cooldownUntil_recordSuccess]
      exact .inl rfl
  | error error =>
      rw [conclude_error hresult hends]
      exact HealthState.cooldownUntil_recordFailure

/-- A call ends the cooldown, leaves it alone or starts it anew. -/
theorem cooldownUntil_run (call : ManagedCall) :
    (call.run managed state).state.cooldownUntil = none ∨
      (call.run managed state).state.cooldownUntil = state.cooldownUntil ∨
      (call.run managed state).state.cooldownUntil =
        checkedAdd managed.session.link.horizon call.passage.recordedAt
          managed.options.cooldown := by
  rcases call.run_cases managed state with
    ⟨-, -, hsame⟩ | ⟨-, expiry, hexpiry, hcourse⟩
  · exact .inr (.inl hsame)
  have hcooldown : (call.run managed state).state.cooldownUntil = none ∨
      (call.run managed state).state.cooldownUntil = expiry ∨
      (call.run managed state).state.cooldownUntil =
        checkedAdd managed.session.link.horizon call.passage.recordedAt
          managed.options.cooldown := by
    cases hcourse with
    | plain _ _ _ hends => exact cooldownUntil_conclude hends
    | fast _ _ _ _ _ hends => exact cooldownUntil_conclude hends
    | fallsBack _ _ _ _ _ _ hends => exact cooldownUntil_conclude hends
  rcases hexpiry with rfl | ⟨rfl, -⟩
  · exact hcooldown
  · rw [← or_assoc, or_self] at hcooldown
    exact hcooldown.imp_right .inr

/-- No cooldown lasts longer than one that the latest call would start. -/
def CooldownBounded (managed : ManagedDeviceSession) (latest : Nat)
    (state : HealthState) : Prop :=
  ∀ expiry, state.cooldownUntil = some expiry →
    expiry ≤ latest + managed.options.cooldown

theorem cooldownBounded_step {latest : Nat} {next : HealthState}
    {call : ManagedCall} (hstep : managed.callStep state call = some next)
    (hrecorded : call.passage.recordedAt ≤ latest)
    (h : managed.CooldownBounded latest state) :
    managed.CooldownBounded latest next := by
  injection hstep with hstep
  subst hstep
  intro expiry hexpiry
  rcases @cooldownUntil_run managed state call with hrun | hrun | hrun
  · rw [hrun] at hexpiry
    contradiction
  · exact h expiry (hrun ▸ hexpiry)
  · rw [hrun, checkedAdd] at hexpiry
    split_ifs at hexpiry
    injection hexpiry with hexpiry
    omega

theorem cooldownBounded_of_run {latest : Nat} {history : List ManagedCall}
    (hrun : runSteps managed.callStep {} history = some state)
    (hhistory : ∀ earlier ∈ history, earlier.passage.recordedAt ≤ latest) :
    managed.CooldownBounded latest state :=
  runSteps_invariant_along cooldownBounded_step hrun (along_of_mem hhistory)
    (by intro expiry hexpiry; contradiction)

/-- The failures stay counted and an active cooldown does not end. -/
structure KeepsOutage (state : HealthState) (recordedAt : Nat)
    (next : HealthState) : Prop where
  failures : state.consecutiveTransportFailures ≤
    next.consecutiveTransportFailures
  cooldown : ∀ expiry, state.cooldownUntil = some expiry →
    recordedAt < expiry → ∃ later, expiry ≤ later ∧
      next.cooldownUntil = some later

theorem keepsOutage_of_unreplied {call : ManagedCall}
    (hbounded : managed.CooldownBounded call.passage.recordedAt state)
    (hordered : call.passage.checkedAt ≤ call.passage.recordedAt)
    (hunreplied : call.Unreplied managed state)
    (hin : call.LetThrough state → call.InTime managed state)
    (hfits : call.passage.recordedAt + managed.options.cooldown ≤
      managed.session.link.horizon) :
    KeepsOutage state call.passage.recordedAt
      (call.run managed state).state := by
  rcases call.run_cases managed state with
    ⟨-, hfailures, hsame⟩ | ⟨hthrough, expiry, hexpiry, hcourse⟩
  · refine ⟨Nat.le_of_eq (congrArg UInt32.toNat hfailures.symm), ?_⟩
    intro active hactive _
    exact ⟨active, Nat.le_refl _, hsame.trans hactive⟩
  obtain ⟨hfailures, hcooldown⟩ :=
    ManagedCall.recordsOutage_of_course hcourse hunreplied (hin hthrough)
  simp only at hfailures hcooldown
  have hnext := toNat_saturatingNext32 state.consecutiveTransportFailures
  have hlt := state.consecutiveTransportFailures.toNat_lt
  refine ⟨?_, fun active hactive hlater => ?_⟩
  · rw [hfailures, UInt32.le_iff_toNat_le]
    omega
  · rcases hexpiry with rfl | ⟨-, hpast⟩
    · rw [hcooldown, checkedAdd, if_pos hfits]
      have := hbounded active hactive
      split_ifs
      · exact ⟨_, this, rfl⟩
      · exact ⟨active, Nat.le_refl _, hactive⟩
    · have := hpast active hactive
      omega

end Bounds

/-! ## Offline devices -/

/--
Silent calls, as many as the threshold, leave cooldown active exactly when they
are all in time and the clock can represent the end of the cooldown.  At any
point of any run, a call that got no reply neither resets the failure count nor
ends an active cooldown if it is in time, should it be let through at all.
-/
theorem offline_device_opens_cooldown_iff (managed : ManagedDeviceSession)
    (hcooldown : 0 < managed.options.cooldown) :
    (∀ (state final : HealthState) (calls : List ManagedCall)
        (last : ManagedCall),
      calls.length = managed.options.failureThreshold.val.toNat →
      calls.getLast? = some last →
      runSteps managed.callStep state calls = some final →
      Along managed.callStep (ManagedCall.Silent managed) state calls →
      ((∃ expiry, last.passage.recordedAt < expiry ∧
          managed.RejectsUntil final expiry) ↔
        Along managed.callStep (ManagedCall.InTime managed) state calls ∧
          last.passage.recordedAt + managed.options.cooldown ≤
            managed.session.link.horizon)) ∧
    (∀ (history : List ManagedCall) (state : HealthState)
        (call : ManagedCall),
      runSteps managed.callStep {} history = some state →
      (∀ earlier ∈ history,
        earlier.passage.recordedAt ≤ call.passage.recordedAt) →
      call.passage.checkedAt ≤ call.passage.recordedAt →
      call.Unreplied managed state →
      (call.LetThrough state → call.InTime managed state) →
      call.passage.recordedAt + managed.options.cooldown ≤
        managed.session.link.horizon →
      KeepsOutage state call.passage.recordedAt
        (call.run managed state).state) := by
  constructor
  · intro state final calls last hlength hlast hrun hsilent
    simp only [rejectsUntil_iff]
    by_cases hin : Along managed.callStep (ManagedCall.InTime managed) state
        calls
    · rw [cooldownUntil_of_inTime hrun hsilent hin hlast (by omega),
        checkedAdd]
      split_ifs with hfits
      · exact iff_of_true ⟨_, Nat.lt_add_of_pos_right hcooldown, rfl⟩
          ⟨hin, hfits⟩
      · exact iff_of_false (by rintro ⟨expiry, -, hexpiry⟩; contradiction)
          fun h => hfits h.2
    · rw [cooldownUntil_of_late hrun hsilent hin (Nat.le_of_eq hlength)]
      exact iff_of_false (by rintro ⟨expiry, -, hexpiry⟩; contradiction)
        fun h => hin h.1
  · intro history state call hrun hhistory hordered hunreplied hin hfits
    exact keepsOutage_of_unreplied (cooldownBounded_of_run hrun hhistory)
      hordered hunreplied hin hfits

/-! ## A device that is switched off -/

def offlineAttempt (instant index : Nat) : Attempt :=
  { startedAt := instant + index * 100000000
    sent := ⟨instant + index * 100000000, none⟩
    arrivals := []
    pausedAt := instant + (index + 1) * 100000000
    checkedAt := instant + (index + 1) * 100000000 }

def offlineCall (totalTimeout : Nat) (probe : Bool) (instant : Nat) :
    ManagedCall :=
  { Output := DeviceReply
    operation := readPrimaryValue
    queue := ⟨0⟩
    policy := { RetryPolicy.default with
      responseTimeout := 100000000, totalTimeout }
    probe
    passage :=
      { checkedAt := instant, logicalStarted := instant
        first := handlingAt instant (instant + 200000000)
          (offlineAttempt instant)
        fallback := handlingAt instant (instant + 200000000)
          (offlineAttempt instant)
        recordedAt := instant + 200000000 } }

def offlineCalls (totalTimeout : Nat) : List ManagedCall :=
  [0, 1000000000, 2000000000].map (offlineCall totalTimeout false)

theorem silent_offlineCall {totalTimeout instant : Nat} {probe : Bool}
    {state : HealthState}
    (hsent : 0 < ((offlineCall totalTimeout probe instant).run sampleManaged
      state).transmissions.length)
    (hsilent : ∀ transmission ∈ ((offlineCall totalTimeout probe instant).run
      sampleManaged state).transmissions,
        transmission.outcome = .error .responseTimeout) :
    (offlineCall totalTimeout probe instant).Silent sampleManaged state :=
  ⟨List.ne_nil_of_length_pos hsent, hsilent, trivial, trivial⟩

theorem along_silent_offlineCalls {totalTimeout : Nat}
    (h : totalTimeout = 100000000 ∨ totalTimeout = 1000000000) :
    Along sampleManaged.callStep (ManagedCall.Silent sampleManaged) {}
      (offlineCalls totalTimeout) := by
  simp only [offlineCalls, List.map, along_callStep_cons]
  rcases h with rfl | rfl
  · refine ⟨silent_offlineCall ?_ ?_, silent_offlineCall ?_ ?_,
      silent_offlineCall ?_ ?_, trivial⟩ <;> decide +kernel
  · refine ⟨silent_offlineCall ?_ ?_, silent_offlineCall ?_ ?_,
      silent_offlineCall ?_ ?_, trivial⟩ <;> decide +kernel

/-- Both attempts of a call fit into a second. -/
theorem inTime_offlineCall {instant : Nat} {probe : Bool}
    {state : HealthState} (hinstant : instant ≤ 3000000000)
    (hlearned : state.learnedResponse = none) :
    (offlineCall 1000000000 probe instant).InTime sampleManaged state := by
  have htimeout : sampleManaged.adaptiveTimeout state
      readPrimaryValue.command
      (offlineCall 1000000000 probe instant).policy = none := by
    unfold adaptiveTimeout
    rw [hlearned]
    split_ifs <;> rfl
  refine ⟨sampleRequest .readOnly, sends_primaryValue, ?_⟩
  simp only [offlineCall] at htimeout ⊢
  rw [htimeout]
  have hhorizon : sampleManaged.session.link.horizon = 1000000000000 := rfl
  refine ⟨?_, ?_, ?_, ?_⟩
  · rw [RetryPolicy.validateRuntime_ok_iff, hhorizon]
    simp only [handlingAt, RetryPolicy.default, maximumRetryDuration]
    omega
  · simp only [handlingAt, hhorizon]
    omega
  · simp only [handlingAt]
    omega
  · intro index hindex
    have hlimit : index < 1 := hindex
    simp only [offlineAttempt, handlingAt]
    omega

def cooledState : HealthState :=
  { failures := 3
    consecutiveTransportFailures := 3
    cooldownActivations := 1
    cooldownUntil := some 12200000000 }

theorem runSteps_offlineCalls :
    runSteps sampleManaged.callStep {} (offlineCalls 1000000000) =
      some cooledState := by
  decide +kernel

theorem unreplied_offlineCall {totalTimeout : Nat}
    (h : (offlineCall totalTimeout true 3000000000).Silent sampleManaged
      cooledState) :
    (offlineCall totalTimeout true 3000000000).Unreplied sampleManaged
      cooledState :=
  ⟨h.silent.unanswered, nofun, nofun⟩

/-- Three outages open cooldown, and a probe in it that fails keeps it open. -/
theorem offline_device_opens_cooldown_iff_threeCalls :
    (∃ expiry, 2200000000 < expiry ∧
      sampleManaged.RejectsUntil cooledState expiry) ∧
    KeepsOutage cooledState 3200000000
      ((offlineCall 1000000000 true 3000000000).run sampleManaged
        cooledState).state := by
  obtain ⟨hopens, hkeeps⟩ :=
    offline_device_opens_cooldown_iff sampleManaged (by decide)
  constructor
  · refine (hopens {} cooledState (offlineCalls 1000000000)
      (offlineCall 1000000000 false 2000000000) rfl rfl
      runSteps_offlineCalls (along_silent_offlineCalls (.inr rfl))).mpr
      ⟨?_, by decide⟩
    simp only [offlineCalls, List.map, along_callStep_cons]
    refine ⟨inTime_offlineCall ?_ ?_, inTime_offlineCall ?_ ?_,
      inTime_offlineCall ?_ ?_, trivial⟩ <;> decide +kernel
  · refine hkeeps (offlineCalls 1000000000) cooledState
      (offlineCall 1000000000 true 3000000000) runSteps_offlineCalls ?_
      (by decide) (unreplied_offlineCall (silent_offlineCall ?_ ?_))
      (fun _ => inTime_offlineCall (by decide) rfl) (by decide)
    · intro earlier hearlier
      simp only [offlineCalls, List.map, List.mem_cons, List.not_mem_nil,
        or_false] at hearlier
      rcases hearlier with rfl | rfl | rfl <;> decide
    · decide +kernel
    · decide +kernel

/--
A device that is switched off escapes cooldown when its calls have no time for
their retry, and such a probe ends the cooldown that calls with time opened.
-/
theorem offline_device_escapes_cooldown :
    (Along sampleManaged.callStep (ManagedCall.Silent sampleManaged) {}
        (offlineCalls 100000000) ∧
      (∀ call ∈ offlineCalls 100000000, call.policy.validate = .ok ()) ∧
      ∃ final, runSteps sampleManaged.callStep {} (offlineCalls 100000000) =
          some final ∧
        ¬ ∃ expiry, sampleManaged.RejectsUntil final expiry) ∧
    (runSteps sampleManaged.callStep {} (offlineCalls 1000000000) =
        some cooledState ∧
      (offlineCall 100000000 true 3000000000).Unreplied sampleManaged
        cooledState ∧
      ¬ KeepsOutage cooledState 3200000000
        ((offlineCall 100000000 true 3000000000).run sampleManaged
          cooledState).state) := by
  refine ⟨⟨along_silent_offlineCalls (.inl rfl), ?_, { failures := 3 }, ?_,
    ?_⟩, runSteps_offlineCalls,
    unreplied_offlineCall (silent_offlineCall ?_ ?_), ?_⟩
  · intro call hcall
    simp only [offlineCalls, List.map, List.mem_cons, List.not_mem_nil,
      or_false] at hcall
    rcases hcall with rfl | rfl | rfl <;> decide
  · decide +kernel
  · rintro ⟨expiry, hrejects⟩
    have := hrejects.1
    contradiction
  · decide +kernel
  · decide +kernel
  · intro hkeeps
    have hfailures := hkeeps.failures
    revert hfailures
    decide +kernel

end ManagedDeviceSession

end HartLink.Service
