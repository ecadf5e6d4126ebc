import HartLink.Service.Budget

/-!
# Managed calls that overspend

For every request that may not spare its budget there is a device that makes a
managed call exceed it: one that stays silent, when the request is an action,
and one that asks for a pause, then stays silent once and asks for pauses again,
when the total time leaves room for them.
-/

namespace HartLink.Service

open HartLink.Foundation
open HartLink.Wire
open HartLink.Operation

/-! ## Requests that are exchanged at once -/

def freshPort : LinkPort :=
  { decoder := .new ⟨4096, 2, .strict⟩, readBufferSize := 512
    burstHub := false }

theorem ready_freshPort : freshPort.Ready := by
  refine ⟨rfl, ?_, ?_, ?_⟩ <;> decide

def handlingAt (instant ended : Nat) (surroundings : Nat → Attempt) :
    Handling :=
  { startedAt := instant, checkedAt := instant, acceptedAt := instant
    counters := {}, reply := 0
    delivery := .exchanged instant surroundings freshPort
    endedAt := ended }

def loopAt (horizon instant : Nat) (job : Job)
    (surroundings : Nat → Attempt) : ExchangeRun :=
  exchangeLoop horizon job job.request.frame
    (job.transmitPrefix ++ job.request.frame.encoding) surroundings
    maximumAttempts 0 instant {} freshPort

namespace ManagedDeviceSession

variable {Output : Type} {managed : ManagedDeviceSession}
  {operation : DeviceOperation Output} {queue : QueueId}
  {policy : RetryPolicy} {request : Request}

theorem execute_handlingAt
    (hsends : managed.session.Sends operation queue request)
    {used : RetryPolicy} {instant : Nat}
    (hruntime : used.validateRuntime managed.session.link.horizon instant =
      .ok ()) (ended : Nat) (surroundings : Nat → Attempt) :
    ∃ job : Job, job.request = request ∧ job.policy = used ∧
      job.deadline = instant + used.totalTimeout ∧
      job.deadline ≤ managed.session.link.horizon ∧
      managed.session.execute (handlingAt instant ended surroundings)
          operation queue used =
        ⟨DeviceSession.decode operation ((loopAt managed.session.link.horizon
            instant job surroundings).result.mapError .runner),
          (loopAt managed.session.link.horizon instant job
            surroundings).transmissions⟩ := by
  obtain ⟨⟨-, htotal⟩, -, -, hdeadline, -⟩ :=
    (used.validateRuntime_ok_iff _ _).mp hruntime
  obtain ⟨job, hjob⟩ := @SharedLink.exists_makeJob managed.session.link
    (handlingAt instant ended surroundings) request queue used hsends.valid
    hsends.admitted hruntime hdeadline
  have hmakes := SharedLink.makeJob_ok hjob
  have hend : job.deadline = instant + used.totalTimeout := hmakes.deadline_eq
  refine ⟨job, hmakes.request_eq, hmakes.policy_eq, hend, by omega, ?_⟩
  have hvalid : job.request.validate = .ok () := by
    rw [hmakes.request_eq]
    exact hsends.valid
  have hexchange := @exchange_of_valid managed.session.link.horizon instant
    job (by omega) hvalid surroundings freshPort
  have hdelivery : (handlingAt instant ended surroundings).delivery =
      .exchanged instant surroundings freshPort := rfl
  simp only [DeviceSession.execute, hsends.request_eq, SharedLink.request,
    hjob, SharedLink.deliver, hdelivery, hexchange, loopAt]

/-! ## The policies of the two requests -/

theorem validateRuntime_fastPolicy {state : HealthState} {horizon instant : Nat}
    {command : CommandCode} {fastTimeout : Nat}
    (hruntime : policy.validateRuntime horizon instant = .ok ())
    (htimeout : managed.adaptiveTimeout state command policy =
      some fastTimeout) :
    (fastPolicy policy fastTimeout).validateRuntime horizon instant =
      .ok () := by
  obtain ⟨-, hshort, hpositive⟩ := adaptiveTimeout_some htimeout
  rw [RetryPolicy.validateRuntime_ok_iff] at hruntime ⊢
  simp only [fastPolicy]
  have := hpositive hruntime.1.1
  omega

theorem validateRuntime_fallbackPolicy {horizon instant elapsed : Nat}
    (hruntime : policy.validateRuntime horizon instant = .ok ())
    (hroom : elapsed + policy.retryDelay < policy.totalTimeout ∨ elapsed = 0) :
    (fallbackPolicy policy (policy.totalTimeout - elapsed)).validateRuntime
      horizon (instant + elapsed) = .ok () := by
  rw [RetryPolicy.validateRuntime_ok_iff] at hruntime ⊢
  simp only [fallbackPolicy]
  omega

theorem transportLimit_eq_zero {job : Job}
    (h : resolvedSafety job.request = .action ∨
      job.policy.transportRetries = 0) : transportLimit job = 0 := by
  unfold transportLimit
  split_ifs with haction
  · rfl
  · exact h.resolve_left haction

/-! ## A silent device -/

theorem loopAt_silent {horizon instant : Nat} {job : Job}
    (hlimit : transportLimit job = 0) (hinstant : instant ≤ job.deadline) :
    (loopAt horizon instant job fun _ => silentAttempt instant).result =
        .error .responseTimeout ∧
      (loopAt horizon instant job fun _ =>
          silentAttempt instant).transmissions =
        [⟨instant, .error .responseTimeout⟩] := by
  refine @exchangeLoop_silent horizon job job.request.frame
    (job.transmitPrefix ++ job.request.frame.encoding)
    (fun _ => silentAttempt instant) instant 0 {} rfl hinstant ?_ 765 instant
    freshPort
  rw [hlimit]
  exact UInt8.zero_le

/-! ## A device that asks for pauses -/

def pauseThenSilence (instant delay : Nat) (fragment : Bytes) (index : Nat) :
    Attempt :=
  if index = 0 then answeredAttempt instant delay fragment
  else silentAttempt (instant + delay)

def alwaysPause (instant delay : Nat) (fragment : Bytes) (index : Nat) :
    Attempt :=
  answeredAttempt (instant + index * delay) delay fragment

section Pauses

variable {horizon instant : Nat} {job : Job} {responseCode : UInt8}
  {cause : RetryCause}

theorem loopAt_pauseThenSilence (haddress : job.request.address.Accepted)
    (hvalid : job.request.validate = .ok ())
    (hcause : ∀ reply : DeviceReply, reply.responseCode = responseCode →
      retryCause (.ok reply) = some cause)
    (hlimit : transportLimit job = 0) (hleft : 0 < retryLimit job cause)
    (hwake : instant + job.policy.retryDelay < job.deadline)
    (hhorizon : job.deadline ≤ horizon) :
    (loopAt horizon instant job (pauseThenSilence instant
        job.policy.retryDelay (codeFrame job.request.frame
          responseCode).encoding)).result = .error .responseTimeout ∧
      causes (loopAt horizon instant job (pauseThenSilence instant
        job.policy.retryDelay (codeFrame job.request.frame
          responseCode).encoding)).transmissions =
        [some cause, some .transport] := by
  have hexpansion := ((Request.validate_ok_iff _).mp hvalid).2
  obtain ⟨reply, next, nextPort, hreply, -, -, -, hloop⟩ :=
    @exchangeLoop_answered horizon job job.request.frame
      (job.transmitPrefix ++ job.request.frame.encoding)
      (pauseThenSilence instant job.policy.retryDelay
        (codeFrame job.request.frame responseCode).encoding) instant 0 {}
      responseCode cause freshPort rfl haddress hexpansion hcause
      (by cases cause <;> exact hleft) hwake hhorizon 765 instant
      ready_freshPort
  obtain ⟨hresult, hsent⟩ := @exchangeLoop_silent horizon job
    job.request.frame (job.transmitPrefix ++ job.request.frame.encoding)
    (pauseThenSilence instant job.policy.retryDelay
      (codeFrame job.request.frame responseCode).encoding)
    (instant + job.policy.retryDelay) 1 next rfl (Nat.le_of_lt hwake)
    (by rw [hlimit]; exact UInt8.zero_le) 764
    (instant + job.policy.retryDelay) nextPort
  change loopAt horizon instant job _ = _ at hloop
  rw [hloop]
  refine ⟨hresult, ?_⟩
  simp only [ExchangeRun.prepend, Nat.zero_add, hsent, causes, List.map_cons,
    List.map_nil, hreply]
  rfl

theorem loopAt_alwaysPause (haddress : job.request.address.Accepted)
    (hvalid : job.request.validate = .ok ())
    (hcause : ∀ reply : DeviceReply, reply.responseCode = responseCode →
      retryCause (.ok reply) = some cause)
    (hdeadline : instant + retryLimit job cause * job.policy.retryDelay <
      job.deadline) (hhorizon : job.deadline ≤ horizon) :
    causes (loopAt horizon instant job (alwaysPause instant
        job.policy.retryDelay (codeFrame job.request.frame
          responseCode).encoding)).transmissions =
      List.replicate (retryLimit job cause + 1) (some cause) := by
  have hexpansion := ((Request.validate_ok_iff _).mp hvalid).2
  have hunused : Retries.used {} cause = 0 := by cases cause <;> rfl
  refine causes_exchangeLoop_answered _ (fun _ => rfl) haddress hexpansion
    hcause hhorizon instant ?_ ?_ (budget_lt_maximumAttempts job {})
    ready_freshPort
  · rw [hunused, Nat.zero_add]
  · rw [Nat.zero_add]
    exact hdeadline

end Pauses

/-! ## Calls against these devices -/

def passageAt (instant elapsed ended : Nat) (first fallback : Nat → Attempt) :
    Passage :=
  { checkedAt := instant, logicalStarted := instant
    first := handlingAt instant (instant + elapsed) first
    fallback := handlingAt (instant + elapsed) ended fallback
    recordedAt := ended }

theorem remaining_passageAt (policy : RetryPolicy)
    (instant elapsed ended : Nat) (first fallback : Nat → Attempt) :
    remaining policy (passageAt instant elapsed ended first fallback) =
      policy.totalTimeout - elapsed := by
  simp [remaining, passageAt, handlingAt]

def silentPassage (instant : Nat) : Passage :=
  passageAt instant 0 instant (fun _ => silentAttempt instant)
    (fun _ => silentAttempt instant)

def pausingPassage (policy : RetryPolicy) (instant : Nat)
    (fragment : Bytes) : Passage :=
  passageAt instant policy.retryDelay (instant + policy.totalTimeout)
    (pauseThenSilence instant policy.retryDelay fragment)
    (alwaysPause (instant + policy.retryDelay) policy.retryDelay fragment)

section Calls

variable {state : HealthState} {instant fastTimeout : Nat}

theorem decode_timedOut (operation : DeviceOperation Output)
    {run : ExchangeRun} (h : run.result = .error .responseTimeout) :
    DeviceSession.decode operation (run.result.mapError .runner) =
      .error (.exchange (.runner .responseTimeout)) := by
  rw [h]
  rfl

/-- An action that times out is sent once more. -/
theorem runs_silent (hsends : managed.session.Sends operation queue request)
    (haction : resolvedSafety request = .action)
    (hruntime : policy.validateRuntime managed.session.link.horizon instant =
      .ok ())
    (htimeout : managed.adaptiveTimeout state operation.command policy =
      some fastTimeout) :
    (managed.fastRun operation queue policy fastTimeout
        (silentPassage instant)).result =
        .error (.exchange (.runner .responseTimeout)) ∧
      (managed.fastRun operation queue policy fastTimeout
        (silentPassage instant)).transmissions =
        [⟨instant, .error .responseTimeout⟩] ∧
      (managed.fallbackRun operation queue policy
        (silentPassage instant)).transmissions =
        [⟨instant, .error .responseTimeout⟩] := by
  obtain ⟨job, hrequest, -, hdeadline, -, hfast⟩ :=
    execute_handlingAt hsends (validateRuntime_fastPolicy hruntime htimeout)
      instant (fun _ => silentAttempt instant)
  obtain ⟨hresult, hsent⟩ := @loopAt_silent managed.session.link.horizon
    instant job (transportLimit_eq_zero (.inl (hrequest ▸ haction)))
    (by omega)
  have hfallback := @validateRuntime_fallbackPolicy policy
    managed.session.link.horizon instant 0 hruntime (.inr rfl)
  rw [← remaining_passageAt policy instant 0 instant
    (fun _ => silentAttempt instant) (fun _ => silentAttempt instant)]
    at hfallback
  obtain ⟨other, hother, -, hdeadline', -, hrun⟩ :=
    execute_handlingAt hsends hfallback instant
      (fun _ => silentAttempt instant)
  obtain ⟨-, hsent'⟩ := @loopAt_silent managed.session.link.horizon
    (instant + 0) other (transportLimit_eq_zero (.inl (hother ▸ haction)))
    (by omega)
  have hfirst : managed.fastRun operation queue policy fastTimeout
      (silentPassage instant) = _ := hfast
  have hsecond : managed.fallbackRun operation queue policy
      (silentPassage instant) = _ := hrun
  rw [hfirst, hsecond]
  exact ⟨decode_timedOut operation hresult, hsent, hsent'⟩

theorem double_delay_lt {limit : Nat} (h : policy.HasRoom limit) :
    policy.retryDelay + policy.retryDelay < policy.totalTimeout := by
  obtain ⟨hlimit, hfits⟩ := h
  have hle : 2 * policy.retryDelay ≤ (limit + 1) * policy.retryDelay :=
    Nat.mul_le_mul_right _ (by omega)
  omega

theorem retryAllowance_pauses {safety : OperationSafety}
    {cause : RetryCause} (h : cause.pauses = true) (policy : RetryPolicy)
    (left : Nat) :
    retryAllowance safety (fallbackPolicy policy left) cause =
      retryAllowance safety policy cause := by
  cases cause with
  | transport => contradiction
  | busy => rfl
  | delayedResponse => rfl

section Pausing

variable {responseCode : UInt8} {cause : RetryCause}

theorem fastRun_pause
    (hsends : managed.session.Sends operation queue request)
    (haddress : request.address.Accepted)
    (hcause : ∀ reply : DeviceReply, reply.responseCode = responseCode →
      retryCause (.ok reply) = some cause)
    (hpauses : cause.pauses = true)
    (hroom : policy.HasRoom
      (retryAllowance (resolvedSafety request) policy cause))
    (hruntime : policy.validateRuntime managed.session.link.horizon instant =
      .ok ())
    (htimeout : managed.adaptiveTimeout state operation.command policy =
      some fastTimeout) :
    let passage := pausingPassage policy instant
      (codeFrame request.frame responseCode).encoding
    (managed.fastRun operation queue policy fastTimeout passage).result =
        .error (.exchange (.runner .responseTimeout)) ∧
      causes (managed.fastRun operation queue policy fastTimeout
        passage).transmissions = [some cause, some .transport] := by
  intro passage
  have hdouble := double_delay_lt hroom
  obtain ⟨job, hrequest, hpolicy, hdeadline, hhorizon, hfast⟩ :=
    execute_handlingAt hsends (validateRuntime_fastPolicy hruntime htimeout)
      (instant + policy.retryDelay)
      (pauseThenSilence instant policy.retryDelay
        (codeFrame request.frame responseCode).encoding)
  have hallowed : retryLimit job cause =
      retryAllowance (resolvedSafety request) policy cause := by
    rw [retryLimit_eq, hrequest, hpolicy, retryAllowance_fastPolicy,
      if_pos hpauses]
  have hdelay : job.policy.retryDelay = policy.retryDelay := by
    rw [hpolicy]
    rfl
  have hend : job.deadline = instant + policy.totalTimeout := hdeadline
  have hloop := @loopAt_pauseThenSilence managed.session.link.horizon
    instant job responseCode cause (hrequest ▸ haddress)
    (hrequest ▸ hsends.valid) hcause
    (transportLimit_eq_zero (.inr (by rw [hpolicy]; rfl)))
    (by rw [hallowed]; exact Nat.pos_of_ne_zero hroom.1) (by omega) hhorizon
  rw [hdelay, hrequest] at hloop
  have hrun : managed.fastRun operation queue policy fastTimeout passage = _ :=
    hfast
  rw [hrun]
  exact ⟨decode_timedOut operation hloop.1, hloop.2⟩

theorem fallbackRun_pause
    (hsends : managed.session.Sends operation queue request)
    (haddress : request.address.Accepted)
    (hcause : ∀ reply : DeviceReply, reply.responseCode = responseCode →
      retryCause (.ok reply) = some cause)
    (hpauses : cause.pauses = true)
    (hroom : policy.HasRoom
      (retryAllowance (resolvedSafety request) policy cause))
    (hruntime : policy.validateRuntime managed.session.link.horizon instant =
      .ok ()) :
    causes (managed.fallbackRun operation queue policy
        (pausingPassage policy instant
          (codeFrame request.frame responseCode).encoding)).transmissions =
      List.replicate
        (retryAllowance (resolvedSafety request) policy cause + 1)
        (some cause) := by
  have hfallback := @validateRuntime_fallbackPolicy policy
    managed.session.link.horizon instant policy.retryDelay hruntime
    (.inl (double_delay_lt hroom))
  have hremaining : remaining policy (pausingPassage policy instant
      (codeFrame request.frame responseCode).encoding) =
        policy.totalTimeout - policy.retryDelay := remaining_passageAt ..
  rw [← hremaining] at hfallback
  obtain ⟨job, hrequest, hpolicy, hdeadline, hhorizon, hrun⟩ :=
    execute_handlingAt hsends hfallback (instant + policy.totalTimeout)
      (alwaysPause (instant + policy.retryDelay) policy.retryDelay
        (codeFrame request.frame responseCode).encoding)
  have hallowed : retryLimit job cause =
      retryAllowance (resolvedSafety request) policy cause := by
    rw [retryLimit_eq, hrequest, hpolicy,
      retryAllowance_pauses hpauses]
  have hdelay : job.policy.retryDelay = policy.retryDelay := by
    rw [hpolicy]
    rfl
  have hend : job.deadline = instant + policy.retryDelay +
      (policy.totalTimeout - policy.retryDelay) := by
    rw [hdeadline, ← hremaining]
    rfl
  have hfits := hroom.2
  rw [Nat.succ_mul] at hfits
  have hloop := @loopAt_alwaysPause managed.session.link.horizon
    (instant + policy.retryDelay) job responseCode cause
    (hrequest ▸ haddress) (hrequest ▸ hsends.valid) hcause
    (by rw [hallowed, hdelay, hend]; omega) hhorizon
  rw [hdelay, hrequest, hallowed] at hloop
  have hsecond : managed.fallbackRun operation queue policy
      (pausingPassage policy instant
        (codeFrame request.frame responseCode).encoding) = _ := hrun
  rw [hsecond]
  exact hloop

end Pausing

end Calls

/-! ## The clock in these calls -/

theorem paced_handlingAt {instant ended delay : Nat}
    {surroundings : Nat → Attempt} {transmissions : List Transmission}
    (hstarted : instant ≤ (surroundings 0).startedAt)
    (hpaced : Paced delay surroundings transmissions)
    (hended : ∀ index, index < transmissions.length →
      (surroundings index).startedAt ≤ ended) :
    (handlingAt instant ended surroundings).Paced delay transmissions :=
  ⟨Nat.le_refl _, Nat.le_refl _, Nat.le_refl _, hstarted, hpaced, hended⟩

theorem paced_silent (instant delay checkedAt : Nat) :
    Paced delay (fun _ => silentAttempt instant)
      [⟨checkedAt, .error .responseTimeout⟩] := by
  refine ⟨fun _ => Nat.le_refl _, fun _ => Nat.le_refl _,
    fun _ => Nat.le_refl _, ?_⟩
  intro index transmission hget hpausing
  obtain rfl := List.mem_singleton.mp (List.mem_of_getElem? hget)
  contradiction

theorem paced_pauseThenSilence {instant delay : Nat} {fragment : Bytes}
    {cause : RetryCause} {transmissions : List Transmission}
    (h : causes transmissions = [some cause, some .transport]) :
    Paced delay (pauseThenSilence instant delay fragment) transmissions := by
  refine ⟨?_, ?_, ?_, ?_⟩
  · rintro (_ | index)
    · exact Nat.le_refl _
    · exact Nat.le_refl _
  · rintro (_ | index)
    · exact Nat.le_add_right _ _
    · exact Nat.le_refl _
  · rintro (_ | index)
    · exact Nat.le_refl _
    · exact Nat.le_refl _
  · rintro (_ | index) transmission hget hpausing
    · exact Nat.le_refl _
    · -- The second transmission times out, and there is no third one.
      have hcause : (causes transmissions)[index + 1]? =
          some (retryCause transmission.outcome) := by
        rw [causes, List.getElem?_map, hget]
        rfl
      rw [h, List.getElem?_cons_succ] at hcause
      obtain _ | index := index
      · simp only [List.getElem?_cons_zero, Option.some.injEq] at hcause
        rw [pausing, ← hcause] at hpausing
        contradiction
      · simp at hcause

theorem paced_alwaysPause (instant delay : Nat) (fragment : Bytes)
    (transmissions : List Transmission) :
    Paced delay (alwaysPause instant delay fragment) transmissions := by
  refine ⟨fun _ => Nat.le_refl _, fun _ => Nat.le_add_right _ _,
    fun index => ?_, fun _ _ _ _ => Nat.le_refl _⟩
  change instant + index * delay + delay ≤ instant + (index + 1) * delay
  rw [Nat.succ_mul]
  omega

/-! ## The exact condition -/

section Exact

variable {state checked : HealthState} {bypass : Bool} {passage : Passage}
  {fastTimeout : Nat}

theorem executeInner_fallsBack
    (hchecked : state.checkCooldown bypass passage.checkedAt =
      (.ok (), checked))
    (htimeout : managed.adaptiveTimeout checked operation.command policy =
      some fastTimeout)
    (htimedOut : (managed.fastRun operation queue policy fastTimeout
      passage).result = .error (.exchange (.runner .responseTimeout)))
    (hleft : 0 < remaining policy passage) :
    (managed.executeInner state operation queue policy bypass passage).first =
        (managed.fastRun operation queue policy fastTimeout
          passage).transmissions ∧
      (managed.executeInner state operation queue policy bypass
        passage).fallback =
        (managed.fallbackRun operation queue policy passage).transmissions := by
  cases executeInner_course hchecked with
  | plain hother =>
      rw [htimeout] at hother
      contradiction
  | fast other hother hsettled =>
      rw [htimeout] at hother
      injection hother with hother
      subst hother
      rcases hsettled with hsettled | hzero
      · contradiction
      · omega
  | fallsBack other hother _ _ hfirst hfallback =>
      rw [htimeout] at hother
      injection hother with hother
      subst hother
      exact ⟨hfirst, hfallback⟩

theorem overspends_silent {instant : Nat}
    (hruntime : policy.validateRuntime managed.session.link.horizon instant =
      .ok ())
    (hchecked : state.checkCooldown bypass instant = (.ok (), checked))
    (htimeout : managed.adaptiveTimeout checked operation.command policy =
      some fastTimeout)
    (hsends : managed.session.Sends operation queue request)
    (haction : resolvedSafety request = .action) :
    (silentPassage instant).Orderly policy (managed.executeInner state
        operation queue policy bypass (silentPassage instant)) ∧
      repeats .transport (managed.executeInner state operation queue policy
        bypass (silentPassage instant)).transmissions = 1 := by
  have htotal := ((policy.validateRuntime_ok_iff _ _).mp hruntime).1.2
  obtain ⟨htimedOut, hfast, hfallback⟩ :=
    runs_silent hsends haction hruntime htimeout
  have hremaining : remaining policy (silentPassage instant) =
      policy.totalTimeout - 0 := remaining_passageAt ..
  obtain ⟨hfirst, hsecond⟩ := executeInner_fallsBack hchecked htimeout
    htimedOut (by omega)
  rw [hfast] at hfirst
  rw [hfallback] at hsecond
  refine ⟨⟨Nat.le_refl _, Nat.le_refl _, ?_, Nat.le_refl _, ?_⟩, ?_⟩
  · rw [hfirst]
    exact paced_handlingAt (Nat.le_refl _) (paced_silent ..)
      fun _ _ => Nat.le_refl _
  · rw [hsecond]
    exact paced_handlingAt (Nat.le_refl _) (paced_silent ..)
      fun _ _ => Nat.le_refl _
  · rw [ManagedRun.transmissions, hfirst, hsecond]
    rfl

theorem overspends_pause {instant : Nat} {responseCode : UInt8}
    {cause : RetryCause}
    (hruntime : policy.validateRuntime managed.session.link.horizon instant =
      .ok ())
    (hchecked : state.checkCooldown bypass instant = (.ok (), checked))
    (htimeout : managed.adaptiveTimeout checked operation.command policy =
      some fastTimeout)
    (hsends : managed.session.Sends operation queue request)
    (haddress : request.address.Accepted)
    (hcause : ∀ reply : DeviceReply, reply.responseCode = responseCode →
      retryCause (.ok reply) = some cause)
    (hpauses : cause.pauses = true)
    (hroom : policy.HasRoom
      (retryAllowance (resolvedSafety request) policy cause)) :
    let passage := pausingPassage policy instant
      (codeFrame request.frame responseCode).encoding
    passage.Orderly policy (managed.executeInner state operation queue policy
        bypass passage) ∧
      repeats cause (managed.executeInner state operation queue policy bypass
        passage).transmissions =
        retryAllowance (resolvedSafety request) policy cause + 1 := by
  intro passage
  obtain ⟨htimedOut, hfast⟩ :=
    fastRun_pause hsends haddress hcause hpauses hroom hruntime htimeout
  have hfallback :=
    fallbackRun_pause hsends haddress hcause hpauses hroom hruntime
  obtain ⟨hlimit, hfits⟩ := hroom
  have hremaining : remaining policy passage =
      policy.totalTimeout - policy.retryDelay := remaining_passageAt ..
  rw [Nat.succ_mul] at hfits
  have hleft : 0 < remaining policy passage := by omega
  obtain ⟨hfirst, hsecond⟩ := executeInner_fallsBack hchecked htimeout
    htimedOut hleft
  rw [← hfirst] at hfast
  rw [← hsecond] at hfallback
  have hlength : (managed.executeInner state operation queue policy bypass
      passage).fallback.length =
        retryAllowance (resolvedSafety request) policy cause + 1 := by
    simpa [causes] using congrArg List.length hfallback
  refine ⟨⟨Nat.le_refl _, Nat.le_refl _, ?_, Nat.le_refl _, ?_⟩, ?_⟩
  · refine paced_handlingAt (Nat.le_refl _) (paced_pauseThenSilence hfast) ?_
    rintro (_ | index) -
    · exact Nat.le_add_right _ _
    · exact Nat.le_refl _
  · refine paced_handlingAt (Nat.le_add_right _ _) (paced_alwaysPause ..) ?_
    intro index hindex
    change instant + policy.retryDelay + index * policy.retryDelay ≤
      instant + policy.totalTimeout
    have hle : index * policy.retryDelay ≤
        retryAllowance (resolvedSafety request) policy cause *
          policy.retryDelay :=
      Nat.mul_le_mul_right _ (by omega)
    omega
  · have hsome : (managed.executeInner state operation queue policy bypass
        passage).fallback ≠ [] := by
      intro hnone
      rw [hnone] at hlength
      contradiction
    have hother : ¬ RetryCause.transport = cause := by
      rintro rfl
      contradiction
    rw [ManagedRun.transmissions, repeats_append hsome, hfast, repeats,
      hfallback]
    simp [hother, Nat.add_comm]

theorem not_withinBudget {transmissions : List Transmission}
    {cause : RetryCause}
    (hrequest : managed.session.request operation = .ok request)
    (h : retryAllowance (resolvedSafety request) policy cause <
      repeats cause transmissions) :
    ¬ managed.WithinBudget operation policy transmissions :=
  fun hwithin => Nat.not_le.mpr h (hwithin request hrequest cause)

theorem retryCause_busy {reply : DeviceReply} (h : reply.responseCode = 32) :
    retryCause (.ok reply) = some .busy := by
  simp [retryCause, h]

theorem retryCause_delayed {reply : DeviceReply}
    (h : reply.responseCode = 33) :
    retryCause (.ok reply) = some .delayedResponse := by
  simp [retryCause, h]

theorem exists_overspending {instant : Nat}
    (hruntime : policy.validateRuntime managed.session.link.horizon instant =
      .ok ())
    (hchecked : state.checkCooldown bypass instant = (.ok (), checked))
    (htimeout : managed.adaptiveTimeout checked operation.command policy =
      some fastTimeout)
    (hsends : managed.session.Sends operation queue request)
    (hspares : ¬ SparesBudget policy request) :
    ∃ passage, passage.Orderly policy
        (managed.executeInner state operation queue policy bypass passage) ∧
      ¬ managed.WithinBudget operation policy (managed.executeInner state
        operation queue policy bypass passage).transmissions := by
  by_cases haction : resolvedSafety request = .action
  · obtain ⟨horderly, hrepeats⟩ :=
      overspends_silent hruntime hchecked htimeout hsends haction
    refine ⟨_, horderly, not_withinBudget hsends.request_eq (show _ <
      repeats .transport _ from ?_)⟩
    rw [hrepeats, haction]
    exact Nat.zero_lt_one
  simp only [SparesBudget, ne_eq, haction, not_false_eq_true, true_and,
    Classical.not_imp, not_and_or, not_not] at hspares
  obtain ⟨haddress, hbusy | hdelayed⟩ := hspares
  · obtain ⟨horderly, hrepeats⟩ := overspends_pause hruntime hchecked
      htimeout hsends haddress (fun _ => retryCause_busy) rfl hbusy
    refine ⟨_, horderly, not_withinBudget hsends.request_eq (show _ <
      repeats .busy _ from ?_)⟩
    rw [hrepeats]
    exact Nat.lt_succ_self _
  · obtain ⟨horderly, hrepeats⟩ := overspends_pause hruntime hchecked
      htimeout hsends haddress (fun _ => retryCause_delayed) rfl hdelayed
    refine ⟨_, horderly, not_withinBudget hsends.request_eq (show _ <
      repeats .delayedResponse _ from ?_)⟩
    rw [hrepeats]
    exact Nat.lt_succ_self _

end Exact

/--
A managed call stays within its retry budget whatever the device does exactly
when no short first attempt is made, or the request may be repeated and the
total time leaves no room for one pause more than a positive limit of pauses.
-/
theorem executeInner_within_budget_iff (managed : ManagedDeviceSession)
    (state : HealthState) (operation : DeviceOperation Output)
    (queue : QueueId) (policy : RetryPolicy) (bypass : Bool) (instant : Nat)
    (hruntime : policy.validateRuntime managed.session.link.horizon instant =
      .ok ())
    (hready : bypass = true ∨ ∀ expiry, state.cooldownUntil = some expiry →
      expiry ≤ instant) :
    (∀ passage, passage.Orderly policy
        (managed.executeInner state operation queue policy bypass passage) →
      managed.WithinBudget operation policy (managed.executeInner state
        operation queue policy bypass passage).transmissions) ↔
    ¬ managed.Adapts state operation.command policy ∨
      ∀ request, managed.session.Sends operation queue request →
        SparesBudget policy request := by
  have hlearned : ∀ expiry, managed.adaptiveTimeout
      { state with cooldownUntil := expiry } operation.command policy =
      managed.adaptiveTimeout state operation.command policy :=
    fun _ => adaptiveTimeout_congr rfl _ _
  rw [← adaptiveTimeout_eq_none_iff]
  constructor
  · intro hall
    cases htimeout : managed.adaptiveTimeout state operation.command
        policy with
    | none => exact .inl rfl
    | some fastTimeout =>
        right
        intro request hsends
        by_contra hspares
        rcases state.checkCooldown_cases bypass instant with
          ⟨expiry, rfl, hexpiry, hbefore, -⟩ | ⟨expiry, hchecked, -⟩
        · have := hready.resolve_left (by simp) expiry hexpiry
          omega
        · obtain ⟨passage, horderly, hexceeds⟩ := exists_overspending
            hruntime hchecked ((hlearned expiry).trans htimeout) hsends
            hspares
          exact hexceeds (hall passage horderly)
  · intro hspares passage horderly
    rcases state.checkCooldown_cases bypass passage.checkedAt with
      ⟨expiry, -, -, -, hchecked⟩ | ⟨expiry, hchecked, -⟩
    · intro request _ cause
      rw [executeInner_rejected hchecked]
      exact Nat.zero_le _
    · refine withinBudget_of_course (executeInner_course hchecked) horderly ?_
      rw [hlearned expiry]
      exact hspares

/-! ## A reading of the primary value -/

def sampleSession : DeviceSession :=
  { link :=
      { client := ⟨.allowAll, .preserveRequested⟩, queues := [⟨0⟩]
        horizon := 1000000000000 }
    profile := ⟨.Unique 0x1234 7 .primary, 5⟩ }

def sampleManaged : ManagedDeviceSession :=
  ⟨sampleSession, .default, DeviceHealthOptions.validate_default⟩

def readPrimaryValue : DeviceOperation DeviceReply :=
  rawOperation ⟨1⟩ [] .readOnly

def readAsAction : DeviceOperation DeviceReply := rawOperation ⟨1⟩ [] .action

def samplePolicy : RetryPolicy := { RetryPolicy.default with busyRetries := 1 }

def sampleState : HealthState := { learnedResponse := some 200000000 }

def sampleRequest (safety : OperationSafety) : Request :=
  { Request.new (.Unique 0x1234 7 .primary) ⟨1⟩ [] with
    retrySafety := some safety }

theorem executeInner_within_budget_iff_primaryValue :
    (∀ passage, passage.Orderly samplePolicy (sampleManaged.executeInner
        sampleState readPrimaryValue ⟨0⟩ samplePolicy false passage) →
      sampleManaged.WithinBudget readPrimaryValue samplePolicy
        (sampleManaged.executeInner sampleState readPrimaryValue ⟨0⟩
          samplePolicy false passage).transmissions) ↔
    ¬ sampleManaged.Adapts sampleState readPrimaryValue.command
        samplePolicy ∨
      ∀ request, sampleManaged.session.Sends readPrimaryValue ⟨0⟩ request →
        SparesBudget samplePolicy request :=
  executeInner_within_budget_iff sampleManaged sampleState readPrimaryValue
    ⟨0⟩ samplePolicy false 0 (by decide) (.inr nofun)

theorem sends_primaryValue :
    sampleManaged.session.Sends readPrimaryValue ⟨0⟩
      (sampleRequest .readOnly) :=
  ⟨rfl, by decide, ⟨0⟩, rfl, rfl⟩

theorem sends_readAsAction :
    sampleManaged.session.Sends readAsAction ⟨0⟩ (sampleRequest .action) :=
  ⟨rfl, by decide, ⟨0⟩, rfl, rfl⟩

def busyPassage : Passage :=
  pausingPassage samplePolicy 0
    (codeFrame (sampleRequest .readOnly).frame 32).encoding

/--
A busy device is asked twice more although one repeat is allowed, and an action
is sent again after a timeout.
-/
theorem managed_calls_overspend :
    (busyPassage.Orderly samplePolicy (sampleManaged.execute sampleState
        readPrimaryValue ⟨0⟩ samplePolicy busyPassage) ∧
      repeats .busy (sampleManaged.execute sampleState readPrimaryValue ⟨0⟩
        samplePolicy busyPassage).transmissions = 2 ∧
      samplePolicy.busyRetries = 1 ∧
      ¬ sampleManaged.WithinBudget readPrimaryValue samplePolicy
        (sampleManaged.execute sampleState readPrimaryValue ⟨0⟩ samplePolicy
          busyPassage).transmissions) ∧
    ((silentPassage 0).Orderly samplePolicy (sampleManaged.execute
        sampleState readAsAction ⟨0⟩ samplePolicy (silentPassage 0)) ∧
      repeats .transport (sampleManaged.execute sampleState readAsAction ⟨0⟩
        samplePolicy (silentPassage 0)).transmissions = 1 ∧
      resolvedSafety (sampleRequest .action) = .action ∧
      ¬ sampleManaged.WithinBudget readAsAction samplePolicy
        (sampleManaged.execute sampleState readAsAction ⟨0⟩ samplePolicy
          (silentPassage 0)).transmissions) := by
  have hruntime : samplePolicy.validateRuntime
      sampleManaged.session.link.horizon 0 = .ok () := by decide
  have hchecked : sampleState.checkCooldown false 0 = (.ok (), sampleState) :=
    rfl
  have htimeout : sampleManaged.adaptiveTimeout sampleState ⟨1⟩ samplePolicy =
      some 250000000 := by decide
  have haddress : (sampleRequest .readOnly).address.Accepted :=
    .inr ⟨0x1234, 7, .primary, by decide⟩
  have hroom : samplePolicy.HasRoom (retryAllowance
      (resolvedSafety (sampleRequest .readOnly)) samplePolicy .busy) := by
    refine ⟨?_, ?_⟩ <;> decide
  obtain ⟨horderly, hbusy⟩ := overspends_pause hruntime hchecked htimeout
    sends_primaryValue haddress (fun _ => retryCause_busy) rfl hroom
  obtain ⟨horderly', hrepeat⟩ := overspends_silent hruntime hchecked htimeout
    sends_readAsAction rfl
  refine ⟨⟨horderly, hbusy, rfl, ?_⟩, ⟨horderly', hrepeat, rfl, ?_⟩⟩
  · refine not_withinBudget sends_primaryValue.request_eq (show _ <
      repeats .busy _ from ?_)
    exact hbusy ▸ Nat.lt_succ_self 1
  · refine not_withinBudget sends_readAsAction.request_eq (show _ <
      repeats .transport _ from ?_)
    exact hrepeat ▸ Nat.zero_lt_one

end ManagedDeviceSession

end HartLink.Service
