import HartLink.Service.Health

/-!
# Requests that nobody answers

Whether an unanswered request counts as a transport outage is decided by the
clock.  An exchange whose retries are all started before its deadline ends with
the error of its last attempt; one that finds the deadline passed while it has a
retry left ends with `Deadline`, which the health state does not count.
-/

namespace HartLink.Service

open HartLink.Foundation
open HartLink.Wire
open HartLink.Operation

/-! ## Attempts -/

theorem isTransportOutage_readError (deadline readBufferSize : Nat)
    (arrivals : List Arrival) :
    isTransportOutage (.exchange (.runner
      (LinkPort.readError deadline readBufferSize arrivals))) = true := by
  induction arrivals with
  | nil => rfl
  | cons arrival arrivals ih =>
      obtain ⟨instant, fragment | error⟩ := arrival
      · simp only [LinkPort.readError]
        split_ifs
        · rfl
        · rfl
        · rfl
        · exact ih
      · simp only [LinkPort.readError]
        split_ifs <;> rfl

/-- An attempt that is not answered shows an outage. -/
theorem isTransportOutage_exchangeOnce {port : LinkPort} {id : UInt64}
    {requestFrame : Frame} {encoded : Bytes} {deadline : Nat} {sent : Sent}
    {arrivals : List Arrival} {error : ExchangeError}
    (h : (port.exchangeOnce id requestFrame encoded deadline sent
      arrivals).2 = .error error) :
    isTransportOutage (.exchange (.runner error)) = true := by
  simp only [LinkPort.exchangeOnce] at h
  split at h
  · injection h with h
    subst h
    rfl
  split at h
  · injection h with h
    subst h
    rfl
  rw [LinkPort.awaitReply_eq] at h
  generalize List.findSome? (LinkPort.answerOf requestFrame) _ = answer at h
  cases answer with
  | some reply => contradiction
  | none =>
      injection h with h
      subst h
      exact isTransportOutage_readError ..

/-! ## Exchanges -/

def Unanswered (transmissions : List Transmission) : Prop :=
  ∀ transmission ∈ transmissions, ∀ reply, transmission.outcome ≠ .ok reply

def AllSilent (transmissions : List Transmission) : Prop :=
  ∀ transmission ∈ transmissions,
    transmission.outcome = .error .responseTimeout

theorem AllSilent.unanswered {transmissions : List Transmission}
    (h : AllSilent transmissions) : Unanswered transmissions := by
  intro transmission hmem reply hreply
  rw [h transmission hmem] at hreply
  contradiction

/-- How the loop goes on after an attempt that was not answered. -/
theorem turn_of_unanswered {horizon : Nat} {job : Job} {attempt : Attempt}
    {retries : Retries} {error : ExchangeError} {port : LinkPort} :
    (∃ next nextPort, error = .responseTimeout ∧
      retries.used .transport < retryLimit job .transport ∧
      budget job next + 1 = budget job retries ∧
      next.used .transport = retries.used .transport + 1 ∧
      turn horizon job attempt retries (.error error) port =
        (nextPort, if attempt.checkedAt ≥ job.deadline then
          .over (.error .deadline) else .again next)) ∨
    (error = .responseTimeout →
      retryLimit job .transport ≤ retries.used .transport) ∧
      turn horizon job attempt retries (.error error) port =
        (port, .over (.error error)) := by
  by_cases hretry : isRetryableTransportError error = true ∧
      retries.transport < transportLimit job
  · have hjudge : judgeAttempt job retries (.error error) =
        .retry .transport { retries with
          transport := saturatingSucc retries.transport
          attemptNumber := saturatingSucc retries.attemptNumber } false := by
      simp only [judgeAttempt, if_pos hretry]
    obtain ⟨-, hleft, hused⟩ := judgeAttempt_retry hjudge
    refine .inl ⟨_, port.emit (.retrying job.id
      (saturatingSucc retries.attemptNumber) .transport), ?_, hleft,
      budget_retry hjudge, hused .transport, ?_⟩
    · simpa [isRetryableTransportError] using hretry.1
    · simp only [turn, hjudge, Bool.false_eq_true, if_false]
      split_ifs <;> rfl
  · have hjudge : judgeAttempt job retries (.error error) =
        .finish (.error error) := by
      simp only [judgeAttempt, if_neg hretry]
    refine .inr ⟨?_, by simp only [turn, hjudge]⟩
    rintro rfl
    have hlimit : ¬ retries.transport < transportLimit job := by
      simpa [isRetryableTransportError] using hretry
    simpa [retryLimit, Retries.used, UInt8.lt_iff_toNat_lt] using hlimit

section Loop

variable {horizon : Nat} {job : Job} {frame : Frame} {encoded : Bytes}
  {surroundings : Nat → Attempt}

/-- Every retry that is left from an attempt on starts before the deadline. -/
def RetriesInTime (job : Job) (surroundings : Nat → Attempt) (index : Nat)
    (retries : Retries) : Prop :=
  ∀ position, retries.used .transport + position <
      retryLimit job .transport →
    (surroundings (index + position)).checkedAt < job.deadline

theorem RetriesInTime.tail {index : Nat} {retries next : Retries}
    (h : RetriesInTime job surroundings index retries)
    (hused : next.used .transport = retries.used .transport + 1) :
    RetriesInTime job surroundings (index + 1) next := by
  intro position hposition
  have := h (position + 1) (by omega)
  rwa [Nat.add_right_comm, Nat.add_assoc]

theorem isTransportOutage_exchangeLoop {bound index checkedAt : Nat}
    {retries : Retries} {port : LinkPort}
    (hunanswered : Unanswered (exchangeLoop horizon job frame encoded
      surroundings bound index checkedAt retries port).transmissions)
    (hbound : budget job retries < bound)
    (h : RetriesInTime job surroundings index retries) :
    ∃ error, (exchangeLoop horizon job frame encoded surroundings bound index
        checkedAt retries port).result = .error error ∧
      isTransportOutage (.exchange (.runner error)) = true := by
  induction bound generalizing index checkedAt retries port with
  | zero => omega
  | succ bound ih =>
      simp only [exchangeLoop] at hunanswered ⊢
      generalize honce : port.exchangeOnce job.id frame encoded
        (exchangeDeadline horizon (surroundings index).startedAt job)
        (surroundings index).sent (surroundings index).arrivals = once
        at hunanswered ⊢
      obtain ⟨nextPort, outcome⟩ := once
      cases outcome with
      | ok reply =>
          exfalso
          split at hunanswered
          · exact hunanswered _ (List.mem_singleton_self _) reply rfl
          · exact hunanswered _ List.mem_cons_self reply rfl
      | error error =>
          have houtage := isTransportOutage_exchangeOnce
            (congrArg Prod.snd honce)
          rcases @turn_of_unanswered horizon job (surroundings index) retries
            error nextPort with
            ⟨next, later, -, hleft, hbudget, hused, hturn⟩ | ⟨-, hturn⟩
          · have hcheck : (surroundings index).checkedAt < job.deadline :=
              h 0 hleft
            rw [if_neg (Nat.not_le.mpr hcheck)] at hturn
            simp only [hturn] at hunanswered ⊢
            exact ih (fun transmission hmem => hunanswered transmission
              (List.mem_cons_of_mem _ hmem)) (by omega) (h.tail hused)
          · simp only [hturn]
            exact ⟨error, rfl, houtage⟩

theorem result_exchangeLoop_silent {bound index checkedAt : Nat}
    {retries : Retries} {port : LinkPort}
    (hsilent : AllSilent (exchangeLoop horizon job frame encoded
      surroundings bound index checkedAt retries port).transmissions)
    (hbound : budget job retries < bound) :
    (RetriesInTime job surroundings index retries →
      (exchangeLoop horizon job frame encoded surroundings bound index
        checkedAt retries port).result = .error .responseTimeout) ∧
    (¬ RetriesInTime job surroundings index retries →
      (exchangeLoop horizon job frame encoded surroundings bound index
        checkedAt retries port).result = .error .deadline) := by
  induction bound generalizing index checkedAt retries port with
  | zero => omega
  | succ bound ih =>
      simp only [exchangeLoop] at hsilent ⊢
      generalize port.exchangeOnce job.id frame encoded
        (exchangeDeadline horizon (surroundings index).startedAt job)
        (surroundings index).sent (surroundings index).arrivals = once
        at hsilent ⊢
      obtain ⟨nextPort, outcome⟩ := once
      obtain rfl : outcome = .error .responseTimeout := by
        split at hsilent
        · exact hsilent _ (List.mem_singleton_self _)
        · exact hsilent _ List.mem_cons_self
      rcases @turn_of_unanswered horizon job (surroundings index) retries
        .responseTimeout nextPort with
        ⟨next, later, -, hleft, hbudget, hused, hturn⟩ | ⟨hlimit, hturn⟩
      · by_cases hcheck : (surroundings index).checkedAt ≥ job.deadline
        · rw [if_pos hcheck] at hturn
          simp only [hturn]
          refine ⟨fun h => ?_, fun _ => trivial⟩
          exact absurd (h 0 hleft) (Nat.not_lt.mpr hcheck)
        · rw [if_neg hcheck] at hturn
          simp only [hturn] at hsilent ⊢
          have hlater := ih (fun transmission hmem => hsilent transmission
            (List.mem_cons_of_mem _ hmem)) (show budget job next < bound by
              omega)
          obtain ⟨hin, hout⟩ := hlater
          refine ⟨fun h => hin (h.tail hused), fun h => hout fun hnext => ?_⟩
          refine h fun position hposition => ?_
          obtain _ | position := position
          · exact Nat.not_le.mp hcheck
          · have := hnext position (by omega)
            rwa [Nat.add_right_comm, Nat.add_assoc] at this
      · have hlimit := hlimit rfl
        simp only [hturn]
        refine ⟨fun _ => trivial, fun h => ?_⟩
        refine absurd (fun position hposition => ?_) h
        omega

end Loop

/-! ## Requests -/

namespace Delivery

/-- The link runs, and no other request was answered in place of this one. -/
def Working : Delivery → Prop
  | .refused error => error = .deadline
  | .expired => True
  | .stopped => False
  | .coalesced _ => False
  | .exchanged .. => True

/--
The job does not meet its deadline before its transmission or while it has one
of the given number of retries left.
-/
def InTime (deadline limit : Nat) : Delivery → Prop
  | .refused error => error = .full ∨ error = .closed
  | .expired => False
  | .stopped => True
  | .coalesced _ => True
  | .exchanged now surroundings _ => now < deadline ∧
      ∀ index, index < limit → (surroundings index).checkedAt < deadline

end Delivery

theorem retriesInTime_iff (job : Job) (surroundings : Nat → Attempt) :
    RetriesInTime job surroundings 0 {} ↔
      ∀ index, index < retryLimit job .transport →
        (surroundings index).checkedAt < job.deadline := by
  have hunused : Retries.used {} .transport = 0 := rfl
  simp only [RetriesInTime, hunused, Nat.zero_add]

namespace DeviceSession

variable {Output : Type} {session : DeviceSession} {handling : Handling}
  {operation : DeviceOperation Output} {queue : QueueId}
  {policy : RetryPolicy} {request : Request}

/-- The clock can represent the deadline, and the job is delivered in time. -/
structure InTime (session : DeviceSession) (handling : Handling)
    (request : Request) (policy : RetryPolicy) : Prop where
  runtime : policy.validateRuntime session.link.horizon handling.checkedAt =
    .ok ()
  representable : handling.acceptedAt + policy.totalTimeout ≤
    session.link.horizon
  delivery : handling.delivery.InTime
    (handling.acceptedAt + policy.totalTimeout)
    (retryAllowance (resolvedSafety request) policy .transport)

theorem makeJob_error {link : SharedLink} {requested : QueueId}
    {error : StartError} (hvalid : request.validate = .ok ())
    (hadmits : link.Admits request requested)
    (h : link.makeJob handling request requested policy = .error error) :
    ∃ reason, error = .retryPolicy reason := by
  obtain ⟨resolved, hqueue, hadmits⟩ := hadmits
  simp only [SharedLink.makeJob, hqueue, LinkClient.makeJob, hvalid, hadmits,
    Bool.not_true, Bool.false_eq_true, if_false, List.length_nil,
    maximumTransmitPrefix, gt_iff_lt, Nat.not_lt_zero] at h
  split at h
  · injection h with h
    exact ⟨_, h.symm⟩
  · split at h
    · injection h with h
      exact ⟨_, h.symm⟩
    · contradiction

theorem sends_of_transmitted
    (h : (session.execute handling operation queue policy).transmissions ≠
      []) :
    ∃ request, session.Sends operation queue request := by
  rcases session.execute_cases handling operation queue policy with
    ⟨result, hexecute, -⟩ | ⟨request, job, run, hexchanges⟩
  · rw [hexecute] at h
    contradiction
  · have hmakes := hexchanges.makes
    exact ⟨request, hexchanges.request_eq, hmakes.valid, hmakes.admitted⟩

theorem sends_of_timedOut
    (h : (session.execute handling operation queue policy).result =
      .error (.exchange (.runner .responseTimeout))) :
    ∃ request, session.Sends operation queue request := by
  rcases session.execute_cases handling operation queue policy with
    ⟨result, hexecute, hresult⟩ | ⟨request, job, run, hexchanges⟩
  · rw [hexecute] at h
    contradiction
  · have hmakes := hexchanges.makes
    exact ⟨request, hexchanges.request_eq, hmakes.valid, hmakes.admitted⟩

theorem execute_of_sends (h : session.Sends operation queue request) :
    (∃ error, session.execute handling operation queue policy =
        ⟨.error (.exchange (.retryPolicy error)), []⟩ ∧
      ¬ session.InTime handling request policy) ∨
    ∃ job, session.link.Makes handling request queue policy job ∧
      session.execute handling operation queue policy =
        ⟨decode operation (session.link.deliver handling job).result,
          (session.link.deliver handling job).transmissions⟩ := by
  cases hjob : session.link.makeJob handling request queue policy with
  | ok job =>
      refine .inr ⟨job, SharedLink.makeJob_ok hjob, ?_⟩
      simp only [execute, h.request_eq, SharedLink.request, hjob]
  | error error =>
      left
      obtain ⟨reason, rfl⟩ := makeJob_error h.valid h.admitted hjob
      refine ⟨reason, ?_, ?_⟩
      · simp only [execute, h.request_eq, SharedLink.request, hjob, decode,
          startToExchangeError]
      · rintro ⟨hruntime, hdeadline, -⟩
        obtain ⟨job, hmade⟩ := @SharedLink.exists_makeJob session.link
          handling request queue policy h.valid h.admitted hruntime hdeadline
        rw [hjob] at hmade
        contradiction

theorem inTime_iff_of_exchanged {job : Job} {now : Nat}
    {surroundings : Nat → Attempt} {port : LinkPort}
    (hmakes : session.link.Makes handling request queue policy job)
    (hdelivery : handling.delivery = .exchanged now surroundings port) :
    session.InTime handling request policy ↔
      now < job.deadline ∧ RetriesInTime job surroundings 0 {} := by
  rw [retriesInTime_iff, retryLimit_eq, hmakes.request_eq, hmakes.policy_eq,
    hmakes.deadline_eq]
  constructor
  · intro hin
    have hdelivered := hin.delivery
    rw [hdelivery] at hdelivered
    exact hdelivered
  · intro hdelivered
    refine ⟨hmakes.runtime, hmakes.representable, ?_⟩
    rw [hdelivery]
    exact hdelivered

theorem isTransportOutage_execute
    (h : session.Sends operation queue request)
    (hin : session.InTime handling request policy)
    (hunanswered : Unanswered
      (session.execute handling operation queue policy).transmissions)
    (halone : ∀ reply, handling.delivery ≠ .coalesced reply) :
    ∃ error, (session.execute handling operation queue policy).result =
        .error error ∧ isTransportOutage error = true := by
  rcases execute_of_sends h with ⟨error, -, hout⟩ | ⟨job, hmakes, hexecute⟩
  · contradiction
  have hdelivered := hin.delivery
  rw [hexecute] at hunanswered ⊢
  unfold SharedLink.deliver at hunanswered ⊢
  cases hdelivery : handling.delivery with
  | refused error =>
      rw [hdelivery] at hdelivered
      rcases hdelivered with rfl | rfl
      · exact ⟨_, rfl, rfl⟩
      · exact ⟨_, rfl, rfl⟩
  | expired =>
      rw [hdelivery] at hdelivered
      contradiction
  | stopped => exact ⟨_, rfl, rfl⟩
  | coalesced reply => exact absurd hdelivery (halone reply)
  | exchanged now surroundings port =>
      simp only [hdelivery] at hunanswered ⊢
      obtain ⟨hnow, hretries⟩ :=
        (inTime_iff_of_exchanged hmakes hdelivery).mp hin
      have hvalid : job.request.validate = .ok () := by
        rw [hmakes.request_eq]
        exact h.valid
      rw [exchange_of_valid hnow hvalid] at hunanswered ⊢
      obtain ⟨error, hresult, houtage⟩ := isTransportOutage_exchangeLoop
        hunanswered (budget_lt_maximumAttempts job {}) hretries
      rw [hresult]
      exact ⟨_, rfl, houtage⟩

/-- A request on a working link that nobody answers: the clock decides. -/
theorem result_execute_silent
    (h : session.Sends operation queue request)
    (hworking : handling.delivery.Working)
    (hsilent : AllSilent
      (session.execute handling operation queue policy).transmissions) :
    (session.InTime handling request policy →
      (session.execute handling operation queue policy).result =
        .error (.exchange (.runner .responseTimeout))) ∧
    (¬ session.InTime handling request policy →
      ∃ error, (session.execute handling operation queue policy).result =
          .error error ∧ isTransportOutage error = false) := by
  rcases execute_of_sends h with
    ⟨error, hexecute, hout⟩ | ⟨job, hmakes, hexecute⟩
  · refine ⟨fun hin => absurd hin hout, fun _ => ?_⟩
    rw [hexecute]
    exact ⟨_, rfl, rfl⟩
  rw [hexecute] at hsilent ⊢
  unfold SharedLink.deliver at hsilent ⊢
  cases hdelivery : handling.delivery with
  | refused error =>
      rw [hdelivery] at hworking
      obtain rfl : error = .deadline := hworking
      refine ⟨fun hin => ?_, fun _ => ⟨_, rfl, rfl⟩⟩
      have hdelivered := hin.delivery
      rw [hdelivery] at hdelivered
      rcases hdelivered with hfull | hclosed
      · contradiction
      · contradiction
  | expired =>
      refine ⟨fun hin => ?_, fun _ => ⟨_, rfl, rfl⟩⟩
      have hdelivered := hin.delivery
      rw [hdelivery] at hdelivered
      contradiction
  | stopped =>
      rw [hdelivery] at hworking
      contradiction
  | coalesced reply =>
      rw [hdelivery] at hworking
      contradiction
  | exchanged now surroundings port =>
      simp only [hdelivery, inTime_iff_of_exchanged hmakes hdelivery]
        at hsilent ⊢
      by_cases hnow : now < job.deadline
      · have hvalid : job.request.validate = .ok () := by
          rw [hmakes.request_eq]
          exact h.valid
        rw [exchange_of_valid hnow hvalid] at hsilent ⊢
        obtain ⟨hinside, houtside⟩ := result_exchangeLoop_silent hsilent
          (budget_lt_maximumAttempts job {})
        refine ⟨fun hin => ?_, fun hout => ?_⟩
        · rw [hinside hin.2]
          rfl
        · rw [houtside fun hretries => hout ⟨hnow, hretries⟩]
          exact ⟨_, rfl, rfl⟩
      · refine ⟨fun hin => absurd hin.1 hnow, fun _ => ?_⟩
        rw [exchange, if_pos (Nat.not_lt.mp hnow)]
        exact ⟨_, rfl, rfl⟩

end DeviceSession

end HartLink.Service
