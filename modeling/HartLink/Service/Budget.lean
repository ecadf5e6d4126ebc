import HartLink.Service.Answering
import HartLink.Service.Health

/-!
# The retry budget of a managed call

A managed call may spend its policy on two requests.  The fast request has no
transport retry and the fallback one fewer than the policy, so that timeouts
stay within the budget of a request that may be repeated.  Busy and delayed
replies have their whole limits in both requests: the sum exceeds the limit as
soon as the total time leaves room for one pause more.
-/

namespace HartLink.Service

open HartLink.Foundation
open HartLink.Wire
open HartLink.Operation

/-! ## Repeats -/

def repeats (cause : RetryCause) (transmissions : List Transmission) : Nat :=
  (causes transmissions).dropLast.count (some cause)

theorem repeats_append {first second : List Transmission}
    (h : second ≠ []) (cause : RetryCause) :
    repeats cause (first ++ second) =
      (causes first).count (some cause) + repeats cause second := by
  have hcauses : causes (first ++ second) = causes first ++ causes second :=
    List.map_append
  have hsecond : causes second ≠ [] := by simpa [causes] using h
  rw [repeats, hcauses, List.dropLast_append_of_ne_nil hsecond,
    List.count_append, repeats]

theorem count_causes_concat (front : List Transmission) (checkedAt : Nat)
    (outcome : Except ExchangeError DeviceReply) (cause : RetryCause) :
    (causes (front ++ [⟨checkedAt, outcome⟩])).count (some cause) =
      repeats cause (front ++ [⟨checkedAt, outcome⟩]) +
        if retryCause outcome = some cause then 1 else 0 := by
  simp [repeats, causes, List.count_append, List.count_cons]

/-! ## Pauses and the clock -/

def pausing (transmission : Transmission) : Bool :=
  (retryCause transmission.outcome).any RetryCause.pauses

def pauses (transmissions : List Transmission) : Nat :=
  transmissions.dropLast.countP pausing

theorem pauses_cons_cons (first second : Transmission)
    (later : List Transmission) :
    pauses (first :: second :: later) =
      (if pausing first then 1 else 0) + pauses (second :: later) := by
  rw [pauses, List.dropLast_cons_of_ne_nil (by simp), List.countP_cons,
    Nat.add_comm]
  rfl

theorem repeats_le_pauses {cause : RetryCause} (h : cause.pauses = true)
    (transmissions : List Transmission) :
    repeats cause transmissions ≤ pauses transmissions := by
  rw [repeats, causes, ← List.map_dropLast, List.count_eq_countP,
    List.countP_map, pauses]
  refine List.countP_mono_left fun transmission _ hcause => ?_
  have hcause : retryCause transmission.outcome = some cause := by
    simpa using hcause
  rw [pausing, hcause]
  exact h

/--
The readings of the clock in an exchange are in order, and a pause takes at
least the delay.
-/
structure Paced (delay : Nat) (surroundings : Nat → Attempt)
    (transmissions : List Transmission) : Prop where
  paused : ∀ index,
    (surroundings index).startedAt ≤ (surroundings index).pausedAt
  checked : ∀ index,
    (surroundings index).startedAt ≤ (surroundings index).checkedAt
  next : ∀ index,
    (surroundings index).checkedAt ≤ (surroundings (index + 1)).startedAt
  slept : ∀ index transmission, transmissions[index]? = some transmission →
    pausing transmission = true →
      (surroundings index).pausedAt + delay ≤ (surroundings index).checkedAt

theorem Paced.tail {delay : Nat} {surroundings : Nat → Attempt}
    {first : Transmission} {later : List Transmission}
    (h : Paced delay surroundings (first :: later)) :
    Paced delay (fun index => surroundings (index + 1)) later :=
  ⟨fun index => h.paused (index + 1), fun index => h.checked (index + 1),
    fun index => h.next (index + 1), fun index => h.slept (index + 1)⟩

theorem Attempts.pauses_le {job : Job} {frame : Frame}
    {surroundings : Nat → Attempt} {index checkedAt delay ended : Nat}
    {retries : Retries} {transmissions : List Transmission}
    (h : Attempts job frame surroundings index checkedAt retries
      transmissions)
    (hpaced : Paced delay (fun position => surroundings (index + position))
      transmissions)
    (hended : ∀ position, position < transmissions.length →
      (surroundings (index + position)).startedAt ≤ ended) :
    (transmissions ≠ [] → (surroundings index).startedAt +
        pauses transmissions * delay ≤ ended) ∧
      (0 < pauses transmissions → (surroundings index).startedAt +
        pauses transmissions * delay < job.deadline) := by
  induction h with
  | none => simp [pauses]
  | last =>
      refine ⟨fun _ => ?_, by simp [pauses]⟩
      simpa [pauses] using hended 0 (by simp)
  | @again index _ _ next outcome _ _ later _ _ hdeadline _ ih =>
      cases later with
      | nil =>
          refine ⟨fun _ => ?_, by simp [pauses]⟩
          simpa [pauses] using hended 0 (by simp)
      | cons second later =>
          have hshift : ∀ position,
              index + 1 + position = index + (position + 1) := by
            intro position
            omega
          have hlater := ih (by simpa only [hshift] using hpaced.tail)
            (fun position hposition => by
              rw [hshift]
              exact hended (position + 1) (by simpa using hposition))
          have hchecked : (surroundings index).startedAt ≤
              (surroundings index).checkedAt := hpaced.checked 0
          have hpaused : (surroundings index).startedAt ≤
              (surroundings index).pausedAt := hpaced.paused 0
          have hnext : (surroundings index).checkedAt ≤
              (surroundings (index + 1)).startedAt := hpaced.next 0
          have hslept : pausing ⟨_, outcome⟩ = true →
              (surroundings index).pausedAt + delay ≤
                (surroundings index).checkedAt :=
            hpaced.slept 0 _ rfl
          obtain ⟨hends, hbefore⟩ := hlater
          have hends := hends (by simp)
          rw [pauses_cons_cons]
          split_ifs with hpausing
          · have hslept := hslept hpausing
            rw [Nat.add_mul, Nat.one_mul]
            refine ⟨fun _ => by omega, fun _ => ?_⟩
            rcases Nat.eq_zero_or_pos (pauses (second :: later)) with
              hzero | hpositive
            · rw [hzero, Nat.zero_mul]
              omega
            · have := hbefore hpositive
              omega
          · rw [Nat.zero_add]
            refine ⟨fun _ => by omega, fun hpositive => ?_⟩
            have := hbefore hpositive
            omega

/-! ## Exchanges that time out -/

theorem outcome_of_turn_timeout {horizon : Nat} {job : Job}
    {attempt : Attempt} {retries : Retries}
    {outcome : Except ExchangeError DeviceReply} {port next : LinkPort}
    (h : turn horizon job attempt retries outcome port =
      (next, .over (.error .responseTimeout))) :
    outcome = .error .responseTimeout := by
  unfold turn at h
  split at h
  next result hjudge =>
    simp only [Prod.mk.injEq, Turn.over.injEq] at h
    obtain ⟨-, rfl⟩ := h
    unfold judgeAttempt at hjudge
    split at hjudge
    · split_ifs at hjudge <;> simp at hjudge
    · split_ifs at hjudge
      simpa using hjudge
  next cause found paused hjudge =>
    simp only at h
    split at h
    next error hwait =>
      simp only [Prod.mk.injEq, Turn.over.injEq, Except.error.injEq] at h
      obtain ⟨-, rfl⟩ := h
      unfold waitBeforeRetry at hwait
      split_ifs at hwait
      split at hwait
      · simp at hwait
      · split_ifs at hwait
        simp at hwait
    · split_ifs at h <;> simp at h

theorem exchangeLoop_timedOut {horizon : Nat} {job : Job} {frame : Frame}
    {encoded : Bytes} {surroundings : Nat → Attempt}
    {bound index checkedAt : Nat} {retries : Retries} {port : LinkPort}
    (h : (exchangeLoop horizon job frame encoded surroundings bound index
      checkedAt retries port).result = .error .responseTimeout) :
    ∃ front last, (exchangeLoop horizon job frame encoded surroundings bound
        index checkedAt retries port).transmissions =
      front ++ [⟨last, .error .responseTimeout⟩] := by
  induction bound generalizing index checkedAt retries port with
  | zero => simp [exchangeLoop] at h
  | succ bound ih =>
      simp only [exchangeLoop] at h ⊢
      generalize port.exchangeOnce job.id frame encoded
        (exchangeDeadline horizon (surroundings index).startedAt job)
        (surroundings index).sent (surroundings index).arrivals = once at h ⊢
      obtain ⟨nextPort, outcome⟩ := once
      split at h
      next result hturn =>
        simp only at h
        subst h
        obtain rfl := outcome_of_turn_timeout hturn
        exact ⟨[], checkedAt, rfl⟩
      next next hturn =>
        obtain ⟨front, last, hlater⟩ := ih h
        refine ⟨⟨checkedAt, outcome⟩ :: front, last, ?_⟩
        simp only [ExchangeRun.prepend, hlater, List.cons_append]

theorem exchange_timedOut {horizon now : Nat} {job : Job}
    {surroundings : Nat → Attempt} {port : LinkPort}
    (h : (exchange horizon now job surroundings port).result =
      .error .responseTimeout) :
    ∃ front last, (exchange horizon now job surroundings
        port).transmissions = front ++ [⟨last, .error .responseTimeout⟩] := by
  unfold exchange at h ⊢
  split_ifs at h ⊢ with hlate
  · simp at h
  cases hframe : job.request.toFrame with
  | error error => simp [hframe] at h
  | ok frame =>
      cases hencode : frame.encode with
      | error error => simp [hframe, hencode] at h
      | ok encoded =>
          simp only [hframe, hencode] at h ⊢
          exact exchangeLoop_timedOut h

/-! ## One request -/

/-- The readings of the clock around one request are in order. -/
def Handling.Paced (handling : Handling) (delay : Nat)
    (transmissions : List Transmission) : Prop :=
  handling.startedAt ≤ handling.checkedAt ∧
    handling.checkedAt ≤ handling.acceptedAt ∧
    match handling.delivery with
    | .exchanged now surroundings _ =>
        handling.acceptedAt ≤ now ∧ now ≤ (surroundings 0).startedAt ∧
          HartLink.Service.Paced delay surroundings transmissions ∧
          ∀ index, index < transmissions.length →
            (surroundings index).startedAt ≤ handling.endedAt
    | _ => handling.acceptedAt ≤ handling.endedAt

namespace DeviceSession

variable {Output : Type} {session : DeviceSession} {handling : Handling}
  {operation : DeviceOperation Output} {queue : QueueId}
  {policy : RetryPolicy} {request : Request}

theorem attempts_execute
    (h : (session.execute handling operation queue policy).transmissions ≠
      []) :
    ∃ request job now surroundings port,
      session.request operation = .ok request ∧
      session.link.Makes handling request queue policy job ∧
      handling.delivery = .exchanged now surroundings port ∧
      Attempts job request.frame surroundings 0 now {}
        (session.execute handling operation queue policy).transmissions ∧
      ∀ transmission ∈ (session.execute handling operation queue
          policy).transmissions,
        ∀ reply, transmission.outcome = .ok reply →
          request.address.Accepted := by
  rcases session.execute_cases handling operation queue policy with
    ⟨result, hexecute, -⟩ | ⟨request, job, run, hexchanges⟩
  · rw [hexecute] at h
    contradiction
  obtain ⟨hrequest, hmakes, ⟨now, surroundings, port, hdelivery, hrun⟩,
    hexecute⟩ := hexchanges
  rw [hexecute] at h ⊢
  refine ⟨request, job, now, surroundings, port, hrequest, hmakes, hdelivery,
    ?_⟩
  rcases exchange_cases session.link.horizon now job surroundings port with
    ⟨error, hover⟩ | ⟨-, -, hloop⟩
  · rw [hrun, hover] at h
    contradiction
  rw [hmakes.request_eq] at hloop
  simp only [hrun, hloop]
  exact ⟨attempts_exchangeLoop .., accepted_of_exchangeLoop⟩

theorem repeats_execute (hrequest : session.request operation = .ok request)
    (cause : RetryCause) :
    repeats cause
        (session.execute handling operation queue policy).transmissions ≤
      retryAllowance (resolvedSafety request) policy cause := by
  by_cases hnone :
      (session.execute handling operation queue policy).transmissions = []
  · simp [hnone, repeats, causes]
  obtain ⟨other, job, now, surroundings, port, hother, hmakes, -, hattempts,
    -⟩ := attempts_execute hnone
  obtain rfl : other = request := by
    rw [hrequest] at hother
    injection hother with hother
    exact hother.symm
  have hcount := hattempts.count_dropLast_le cause
  rw [retryLimit_eq, hmakes.request_eq, hmakes.policy_eq] at hcount
  rw [repeats, causes, ← List.map_dropLast, List.count_eq_countP,
    List.countP_map]
  refine (Nat.le_of_eq (List.countP_congr ?_)).trans
    (hcount.trans (Nat.sub_le _ _))
  intro transmission _
  simp

/-- Nobody answers a request whose address no frame can carry. -/
theorem count_causes_of_unaccepted {cause : RetryCause}
    (hrequest : session.request operation = .ok request)
    (haddress : ¬ request.address.Accepted) (hpauses : cause.pauses = true) :
    (causes (session.execute handling operation queue
      policy).transmissions).count (some cause) = 0 := by
  by_cases hnone :
      (session.execute handling operation queue policy).transmissions = []
  · simp [hnone, causes]
  obtain ⟨other, job, now, surroundings, port, hother, -, -, -, haccepted⟩ :=
    attempts_execute hnone
  obtain rfl : other = request := by
    rw [hrequest] at hother
    injection hother with hother
    exact hother.symm
  refine List.count_eq_zero.mpr ?_
  rw [causes, List.mem_map]
  rintro ⟨transmission, hmem, hcause⟩
  cases houtcome : transmission.outcome with
  | ok reply => exact haddress (haccepted transmission hmem reply houtcome)
  | error error =>
      rw [houtcome, retryCause] at hcause
      split_ifs at hcause
      injection hcause with hcause
      subst hcause
      contradiction

theorem pauses_execute {delay : Nat} (hpaced : handling.Paced delay
      (session.execute handling operation queue policy).transmissions) :
    ((session.execute handling operation queue policy).transmissions ≠ [] →
      handling.acceptedAt + pauses (session.execute handling operation queue
        policy).transmissions * delay ≤ handling.endedAt) ∧
    (0 < pauses (session.execute handling operation queue
        policy).transmissions →
      pauses (session.execute handling operation queue
        policy).transmissions * delay < policy.totalTimeout) := by
  by_cases hnone :
      (session.execute handling operation queue policy).transmissions = []
  · simp [hnone, pauses]
  obtain ⟨request, job, now, surroundings, port, -, hmakes, hdelivery,
    hattempts, -⟩ := attempts_execute hnone
  obtain ⟨-, -, hpaced⟩ := hpaced
  rw [hdelivery] at hpaced
  obtain ⟨haccepted, hfirst, hpaced, hended⟩ := hpaced
  have hdeadline := hmakes.deadline_eq
  have hshift : (fun position => surroundings (0 + position)) =
      surroundings := by
    funext position
    rw [Nat.zero_add]
  obtain ⟨hends, hbefore⟩ := hattempts.pauses_le (by rw [hshift]; exact hpaced)
    (fun position hposition => by
      rw [Nat.zero_add]
      exact hended position hposition)
  refine ⟨fun _ => ?_, fun hpositive => ?_⟩
  · have := hends hnone
    omega
  · have := hbefore hpositive
    omega

theorem execute_timedOut
    (h : (session.execute handling operation queue policy).result =
      .error (.exchange (.runner .responseTimeout))) :
    ∃ front checkedAt,
      (session.execute handling operation queue policy).transmissions =
        front ++ [⟨checkedAt, .error .responseTimeout⟩] := by
  rcases session.execute_cases handling operation queue policy with
    ⟨result, hexecute, hresult⟩ | ⟨request, job, run, hexchanges⟩
  · rw [hexecute] at h
    contradiction
  obtain ⟨-, -, ⟨now, surroundings, port, -, hrun⟩, hexecute⟩ := hexchanges
  rw [hexecute] at h ⊢
  have htimeout : run.result = .error .responseTimeout := by
    cases hresult : run.result with
    | error error => simpa [hresult, Except.mapError, decode] using h
    | ok reply =>
        cases hdecode : operation.decodeReply reply <;>
          simp [hresult, Except.mapError, decode, hdecode] at h
  rw [hrun] at htimeout ⊢
  exact exchange_timedOut htimeout

end DeviceSession

/-! ## The two requests of a managed call -/

namespace ManagedDeviceSession

variable {Output : Type} {managed : ManagedDeviceSession}
  {operation : DeviceOperation Output} {policy : RetryPolicy}

/-- What a short first timeout depends on, and what it promises. -/
theorem adaptiveTimeout_some {state : HealthState} {command : CommandCode}
    {fastTimeout : Nat}
    (h : managed.adaptiveTimeout state command policy = some fastTimeout) :
    policy.transportRetries ≠ 0 ∧ fastTimeout < policy.responseTimeout ∧
      (0 < policy.responseTimeout → 0 < fastTimeout) := by
  unfold adaptiveTimeout at h
  split_ifs at h with hnone
  rw [not_or] at hnone
  split at h
  next adaptive learned hadaptive hlearned =>
    obtain ⟨hminimum, -⟩ :=
      DeviceHealthOptions.positive_of_validate managed.valid hadaptive
    simp only at h
    split_ifs at h with hshort
    injection h with h
    subst h
    refine ⟨hnone.1, hshort, fun hpositive => ?_⟩
    omega
  · contradiction

theorem retryAllowance_fastPolicy (safety : OperationSafety)
    (policy : RetryPolicy) (fastTimeout : Nat) (cause : RetryCause) :
    retryAllowance safety (fastPolicy policy fastTimeout) cause =
      if cause.pauses then retryAllowance safety policy cause else 0 := by
  cases cause with
  | transport => simp [retryAllowance, fastPolicy, RetryCause.pauses]
  | busy => rfl
  | delayedResponse => rfl

theorem retryAllowance_fallbackPolicy {safety : OperationSafety}
    (hsafety : safety ≠ .action) (hretries : policy.transportRetries ≠ 0)
    (remaining : Nat) (cause : RetryCause) :
    retryAllowance safety (fallbackPolicy policy remaining) cause +
        (if cause.pauses then 0 else 1) =
      retryAllowance safety policy cause := by
  cases cause with
  | transport =>
      have hpositive : 0 < policy.transportRetries.toNat := by
        refine Nat.pos_of_ne_zero fun hzero => hretries ?_
        exact UInt8.toNat_inj.mp hzero
      have hone : (1 : UInt8) ≤ policy.transportRetries := by
        rw [UInt8.le_iff_toNat_le]
        exact hpositive
      simp only [retryAllowance, fallbackPolicy, RetryCause.pauses, hsafety,
        hretries, if_false, UInt8.toNat_sub_of_le _ _ hone,
        Bool.false_eq_true]
      have : (1 : UInt8).toNat = 1 := rfl
      omega
  | busy => rfl
  | delayedResponse => rfl

/--
The repeats of all requests of a managed call, as far as a single request with
the same policy may make them.
-/
def WithinBudget (managed : ManagedDeviceSession)
    (operation : DeviceOperation Output) (policy : RetryPolicy)
    (transmissions : List Transmission) : Prop :=
  ∀ request, managed.session.request operation = .ok request →
    ∀ cause, repeats cause transmissions ≤
      retryAllowance (resolvedSafety request) policy cause

end ManagedDeviceSession

/-- The readings of the clock in a managed call are in order. -/
structure Passage.Orderly {Output : Type} (passage : Passage)
    (policy : RetryPolicy) (run : ManagedRun Output) : Prop where
  begins : passage.checkedAt ≤ passage.logicalStarted
  started : passage.logicalStarted ≤ passage.first.startedAt
  first : passage.first.Paced policy.retryDelay run.first
  fallen : passage.first.endedAt ≤ passage.fallback.startedAt
  fallback : passage.fallback.Paced policy.retryDelay run.fallback

/--
The total time has room for one pause more than a limit allows.  A limit of
zero allows no pause in either request.
-/
def RetryPolicy.HasRoom (policy : RetryPolicy) (limit : Nat) : Prop :=
  limit ≠ 0 ∧ (limit + 1) * policy.retryDelay < policy.totalTimeout

namespace ManagedDeviceSession

variable {Output : Type} {managed : ManagedDeviceSession}
  {operation : DeviceOperation Output} {queue : QueueId}
  {policy : RetryPolicy} {passage : Passage} {request : Request}

section FallsBack

variable {fastTimeout : Nat}

theorem pauses_fallsBack (hleft : 0 < remaining policy passage)
    (hstarted : passage.logicalStarted ≤ passage.first.acceptedAt)
    (hfirst : passage.first.Paced policy.retryDelay
      (managed.fastRun operation queue policy fastTimeout
        passage).transmissions)
    (hnone : (managed.fastRun operation queue policy fastTimeout
      passage).transmissions ≠ [])
    (hfallback : passage.fallback.Paced policy.retryDelay
      (managed.fallbackRun operation queue policy passage).transmissions) :
    (pauses (managed.fastRun operation queue policy fastTimeout
        passage).transmissions +
      pauses (managed.fallbackRun operation queue policy
        passage).transmissions) * policy.retryDelay < policy.totalTimeout := by
  have hbefore := (DeviceSession.pauses_execute hfirst).1 hnone
  have hafter := (DeviceSession.pauses_execute hfallback).2
  have htotal : (fallbackPolicy policy (remaining policy
      passage)).totalTimeout = remaining policy passage := rfl
  rw [htotal, ← fallbackRun] at hafter
  rw [← fastRun] at hbefore
  rw [Nat.add_mul]
  generalize pauses (managed.fallbackRun operation queue policy
    passage).transmissions = later at hafter ⊢
  unfold remaining at hleft hafter
  rcases Nat.eq_zero_or_pos later with rfl | hpositive
  · rw [Nat.zero_mul]
    omega
  · have := hafter hpositive
    omega

theorem count_causes_fastRun
    (hrequest : managed.session.request operation = .ok request)
    (htimedOut : (managed.fastRun operation queue policy fastTimeout
      passage).result = .error (.exchange (.runner .responseTimeout)))
    (cause : RetryCause) :
    (causes (managed.fastRun operation queue policy fastTimeout
        passage).transmissions).count (some cause) ≤
      if cause.pauses then
        min (retryAllowance (resolvedSafety request) policy cause)
          (pauses (managed.fastRun operation queue policy fastTimeout
            passage).transmissions)
      else 1 := by
  have hrepeats := @DeviceSession.repeats_execute _ managed.session
    passage.first operation queue (fastPolicy policy fastTimeout) request
    hrequest cause
  obtain ⟨front, last, hlast⟩ := DeviceSession.execute_timedOut htimedOut
  have hcount := count_causes_concat front last (.error .responseTimeout) cause
  have hcause : retryCause (.error .responseTimeout) = some .transport := rfl
  rw [retryAllowance_fastPolicy, hlast] at hrepeats
  rw [hcause] at hcount
  rw [fastRun, hlast]
  split_ifs at hrepeats ⊢ with hpausing
  · have hother : ¬ some RetryCause.transport = some cause := by
      rintro ⟨⟩
      contradiction
    have := repeats_le_pauses hpausing
      (front ++ [⟨last, .error .responseTimeout⟩])
    rw [if_neg hother] at hcount
    omega
  · split_ifs at hcount <;> omega

theorem repeats_fallbackRun
    (hrequest : managed.session.request operation = .ok request)
    (hretries : policy.transportRetries ≠ 0)
    (hsafety : resolvedSafety request ≠ .action) (cause : RetryCause) :
    repeats cause (managed.fallbackRun operation queue policy
        passage).transmissions + (if cause.pauses then 0 else 1) ≤
      retryAllowance (resolvedSafety request) policy cause := by
  have hrepeats := @DeviceSession.repeats_execute _ managed.session
    passage.fallback operation queue
    (fallbackPolicy policy (remaining policy passage)) request hrequest cause
  have hallowed := retryAllowance_fallbackPolicy hsafety hretries
    (remaining policy passage) cause
  rw [← fallbackRun] at hrepeats
  omega

theorem repeats_fallsBack
    (hrequest : managed.session.request operation = .ok request)
    (hretries : policy.transportRetries ≠ 0)
    (hsafety : resolvedSafety request ≠ .action)
    (hroom : request.address.Accepted → ∀ cause : RetryCause,
      cause.pauses = true → ¬ policy.HasRoom
        (retryAllowance (resolvedSafety request) policy cause))
    (htimedOut : (managed.fastRun operation queue policy fastTimeout
      passage).result = .error (.exchange (.runner .responseTimeout)))
    (hpauses : (pauses (managed.fastRun operation queue policy fastTimeout
        passage).transmissions +
      pauses (managed.fallbackRun operation queue policy
        passage).transmissions) * policy.retryDelay < policy.totalTimeout)
    (hnone : (managed.fallbackRun operation queue policy
      passage).transmissions ≠ [])
    (cause : RetryCause) :
    repeats cause ((managed.fastRun operation queue policy fastTimeout
        passage).transmissions ++
      (managed.fallbackRun operation queue policy passage).transmissions) ≤
      retryAllowance (resolvedSafety request) policy cause := by
  have hfirst := @count_causes_fastRun _ managed operation queue policy
    passage request fastTimeout hrequest htimedOut cause
  have hfallback := @repeats_fallbackRun _ managed operation queue policy
    passage request hrequest hretries hsafety cause
  rw [repeats_append hnone]
  by_cases hpausing : cause.pauses = true
  · rw [if_pos hpausing] at hfirst hfallback
    by_cases haddress : request.address.Accepted
    · -- Either the limit is zero, or the pauses do not fit the total time.
      have hroom := hroom haddress cause hpausing
      rw [RetryPolicy.HasRoom, not_and_or, not_not, Nat.not_lt] at hroom
      rcases hroom with hzero | hroom
      · omega
      · have hless := Nat.lt_of_mul_lt_mul_right (hpauses.trans_le hroom)
        have := repeats_le_pauses hpausing (managed.fallbackRun operation
          queue policy passage).transmissions
        omega
    · have hzero := @DeviceSession.count_causes_of_unaccepted _
        managed.session passage.first operation queue
        (fastPolicy policy fastTimeout) request cause hrequest haddress
        hpausing
      rw [← fastRun] at hzero
      omega
  · rw [if_neg hpausing] at hfirst hfallback
    omega

end FallsBack

theorem repeats_fastRun (fastTimeout : Nat)
    (hrequest : managed.session.request operation = .ok request)
    (cause : RetryCause) :
    repeats cause (managed.fastRun operation queue policy fastTimeout
        passage).transmissions ≤
      retryAllowance (resolvedSafety request) policy cause := by
  have hrepeats := @DeviceSession.repeats_execute _ managed.session
    passage.first operation queue (fastPolicy policy fastTimeout) request
    hrequest cause
  rw [retryAllowance_fastPolicy, ← fastRun] at hrepeats
  split_ifs at hrepeats <;> omega

/-- The request may be repeated, and no limit leaves room for a pause more. -/
def SparesBudget (policy : RetryPolicy) (request : Request) : Prop :=
  resolvedSafety request ≠ .action ∧
    (request.address.Accepted →
      ¬ policy.HasRoom policy.busyRetries.toNat ∧
        ¬ policy.HasRoom policy.delayedResponsePolls.toNat)

theorem not_hasRoom_of_spares (h : SparesBudget policy request)
    (haddress : request.address.Accepted) {cause : RetryCause}
    (hpauses : cause.pauses = true) :
    ¬ policy.HasRoom
      (retryAllowance (resolvedSafety request) policy cause) := by
  cases cause with
  | transport => contradiction
  | busy => exact (h.2 haddress).1
  | delayedResponse => exact (h.2 haddress).2

theorem withinBudget_of_course {state : HealthState}
    {run : ManagedRun Output}
    (hcourse : managed.Course state operation queue policy passage run)
    (horderly : passage.Orderly policy run)
    (hspares : managed.adaptiveTimeout state operation.command policy = none ∨
      ∀ request, managed.session.Sends operation queue request →
        SparesBudget policy request) :
    managed.WithinBudget operation policy run.transmissions := by
  intro request hrequest cause
  rw [ManagedRun.transmissions]
  cases hcourse with
  | plain htimeout hfirst hfallback hends =>
      rw [hfirst, hfallback, List.append_nil]
      exact DeviceSession.repeats_execute hrequest cause
  | fast fastTimeout htimeout hsettled hfirst hfallback hends =>
      rw [hfirst, hfallback, List.append_nil]
      exact repeats_fastRun fastTimeout hrequest cause
  | fallsBack fastTimeout htimeout htimedOut hleft hfirst hfallback hends =>
      rw [hfirst, hfallback]
      by_cases hnone : (managed.fallbackRun operation queue policy
          passage).transmissions = []
      · rw [hnone, List.append_nil]
        exact repeats_fastRun fastTimeout hrequest cause
      obtain ⟨hretries, -, -⟩ := adaptiveTimeout_some htimeout
      obtain ⟨front, last, hlast⟩ := DeviceSession.execute_timedOut htimedOut
      have hsent : (managed.fastRun operation queue policy fastTimeout
          passage).transmissions ≠ [] := by
        rw [fastRun, hlast]
        simp
      obtain ⟨other, job, -, -, -, hother, hmakes, -⟩ :=
        DeviceSession.attempts_execute hsent
      obtain rfl : other = request := by
        rw [hrequest] at hother
        injection hother with hother
        exact hother.symm
      have hspares : SparesBudget policy other := by
        rcases hspares with hspares | hspares
        · rw [htimeout] at hspares
          contradiction
        · exact hspares other ⟨hrequest, hmakes.valid, hmakes.admitted⟩
      have hpaced := horderly.first
      have hpaced' := horderly.fallback
      rw [hfirst] at hpaced
      rw [hfallback] at hpaced'
      have hstarted : passage.logicalStarted ≤ passage.first.acceptedAt :=
        (horderly.started.trans hpaced.1).trans hpaced.2.1
      exact repeats_fallsBack hrequest hretries hspares.1
        (fun haddress cause => not_hasRoom_of_spares hspares haddress)
        htimedOut (pauses_fallsBack hleft hstarted hpaced hsent hpaced')
        hnone cause

end ManagedDeviceSession

end HartLink.Service
