import HartLink.Service.Attempt

/-!
# Retry safety

The branches of the retry loop are inverted once, in `judgeAttempt_retry`: a
retry has a cause that its attempt shows and that still has budget.  From there
the transmissions of a whole exchange follow by induction over its attempts.
-/

namespace HartLink.Service

open HartLink.Foundation
open HartLink.Wire
open HartLink.Operation

/-! ## Causes and budgets -/

/-- The cause that an attempt's outcome gives for another attempt. -/
def retryCause : Except ExchangeError DeviceReply → Option RetryCause
  | .ok reply =>
      if reply.responseCode = 32 then some .busy
      else if reply.responseCode = 33 ∨ reply.responseCode = 34 then
        some .delayedResponse
      else none
  | .error error => if error = .responseTimeout then some .transport else none

def retryLimit (job : Job) : RetryCause → Nat
  | .transport => (transportLimit job).toNat
  | .busy => job.policy.busyRetries.toNat
  | .delayedResponse => job.policy.delayedResponsePolls.toNat

namespace Retries

def used (retries : Retries) : RetryCause → Nat
  | .transport => retries.transport.toNat
  | .busy => retries.busy.toNat
  | .delayedResponse => retries.delayed.toNat

end Retries

theorem toNat_saturatingSucc {value limit : UInt8} (h : value < limit) :
    (saturatingSucc value).toNat = value.toNat + 1 := by
  have hlt := UInt8.lt_iff_toNat_lt.mp h
  have hlimit := limit.toNat_lt
  have hne : value ≠ 255 := by
    rintro rfl
    have : (255 : UInt8).toNat = 255 := rfl
    omega
  rw [saturatingSucc, if_neg hne, UInt8.toNat_add]
  have : (1 : UInt8).toNat = 1 := rfl
  omega

theorem judgeAttempt_retry {job : Job} {retries next : Retries}
    {outcome : Except ExchangeError DeviceReply} {cause : RetryCause}
    {paused : Bool}
    (h : judgeAttempt job retries outcome = .retry cause next paused) :
    retryCause outcome = some cause ∧
      retries.used cause < retryLimit job cause ∧
      ∀ other, next.used other =
        retries.used other + if other = cause then 1 else 0 := by
  cases outcome with
  | ok reply =>
      simp only [judgeAttempt] at h
      split_ifs at h with hbusy hlimit hdelayed hlimit
      · injection h with hcause hnext
        subst hcause hnext
        rw [ge_iff_le, UInt8.not_le] at hlimit
        refine ⟨by simp [retryCause, hbusy],
          UInt8.lt_iff_toNat_lt.mp hlimit, fun other => ?_⟩
        cases other <;> simp [Retries.used, toNat_saturatingSucc hlimit]
      · injection h with hcause hnext
        subst hcause hnext
        rw [ge_iff_le, UInt8.not_le] at hlimit
        refine ⟨by simp [retryCause, hbusy, hdelayed],
          UInt8.lt_iff_toNat_lt.mp hlimit, fun other => ?_⟩
        cases other <;> simp [Retries.used, toNat_saturatingSucc hlimit]
  | error error =>
      simp only [judgeAttempt] at h
      split_ifs at h with hretry
      injection h with hcause hnext
      subst hcause hnext
      obtain ⟨htimeout, hlimit⟩ := hretry
      refine ⟨by simpa [retryCause, isRetryableTransportError] using htimeout,
        UInt8.lt_iff_toNat_lt.mp hlimit, fun other => ?_⟩
      cases other <;> simp [Retries.used, toNat_saturatingSucc hlimit]

def budget (job : Job) (retries : Retries) : Nat :=
  (retryLimit job .transport - retries.used .transport) +
    (retryLimit job .busy - retries.used .busy) +
    (retryLimit job .delayedResponse - retries.used .delayedResponse)

theorem budget_retry {job : Job} {retries next : Retries}
    {outcome : Except ExchangeError DeviceReply} {cause : RetryCause}
    {paused : Bool}
    (h : judgeAttempt job retries outcome = .retry cause next paused) :
    budget job next + 1 = budget job retries := by
  obtain ⟨-, hleft, hused⟩ := judgeAttempt_retry h
  have htransport := hused .transport
  have hbusy := hused .busy
  have hdelayed := hused .delayedResponse
  unfold budget
  cases cause <;> simp at htransport hbusy hdelayed <;> omega

theorem budget_lt_maximumAttempts (job : Job) (retries : Retries) :
    budget job retries < maximumAttempts := by
  have htransport := (transportLimit job).toNat_lt
  have hbusy := job.policy.busyRetries.toNat_lt
  have hdelayed := job.policy.delayedResponsePolls.toNat_lt
  unfold budget maximumAttempts
  simp only [retryLimit]
  omega

/-! ## The transmissions of an exchange -/

theorem turn_again {horizon : Nat} {job : Job} {attempt : Attempt}
    {retries next : Retries} {outcome : Except ExchangeError DeviceReply}
    {port nextPort : LinkPort}
    (h : turn horizon job attempt retries outcome port =
      (nextPort, .again next)) :
    (∃ cause paused,
      judgeAttempt job retries outcome = .retry cause next paused) ∧
      attempt.checkedAt < job.deadline := by
  unfold turn at h
  split at h
  · simp at h
  next cause found paused hjudge =>
    simp only at h
    split at h
    · simp at h
    split_ifs at h with hdeadline
    · simp at h
    · simp only [Prod.mk.injEq, Turn.again.injEq] at h
      obtain ⟨-, rfl⟩ := h
      exact ⟨⟨cause, paused, hjudge⟩, Nat.lt_of_not_le hdeadline⟩

theorem sent_turn (horizon : Nat) (job : Job) (attempt : Attempt)
    (retries : Retries) (outcome : Except ExchangeError DeviceReply)
    (port : LinkPort) :
    (turn horizon job attempt retries outcome port).1.sent = port.sent := by
  unfold turn
  split
  · rfl
  simp only
  split
  · rfl
  split_ifs <;> rfl

section Loop

variable (horizon : Nat) (job : Job) (frame : Frame) (encoded : Bytes)
  (surroundings : Nat → Attempt)

theorem exchangeLoop_of_budget {bound : Nat} (bound' index checkedAt : Nat)
    {retries : Retries} (port : LinkPort)
    (h : budget job retries < bound) (h' : budget job retries < bound') :
    exchangeLoop horizon job frame encoded surroundings bound index checkedAt
        retries port =
      exchangeLoop horizon job frame encoded surroundings bound' index
        checkedAt retries port := by
  induction bound generalizing bound' index checkedAt retries port with
  | zero => omega
  | succ bound ih =>
      obtain _ | bound' := bound'
      · omega
      simp only [exchangeLoop]
      split
      next => rfl
      next nextPort next hturn =>
        obtain ⟨⟨cause, paused, hjudge⟩, -⟩ := turn_again hturn
        have hbudget := budget_retry hjudge
        rw [ih bound' _ _ _ (by omega) (by omega)]

theorem exchangeLoop_maximumAttempts {bound : Nat}
    (h : maximumAttempts ≤ bound) (index checkedAt : Nat)
    (retries : Retries) (port : LinkPort) :
    exchangeLoop horizon job frame encoded surroundings maximumAttempts index
        checkedAt retries port =
      exchangeLoop horizon job frame encoded surroundings bound index
        checkedAt retries port := by
  have hbudget := budget_lt_maximumAttempts job retries
  exact exchangeLoop_of_budget horizon job frame encoded surroundings bound
    index checkedAt port hbudget (by omega)

theorem sent_exchangeLoop (bound index checkedAt : Nat) (retries : Retries)
    (port : LinkPort) :
    (exchangeLoop horizon job frame encoded surroundings bound index
      checkedAt retries port).port.sent =
      port.sent ++ List.replicate (exchangeLoop horizon job frame encoded
        surroundings bound index checkedAt retries
          port).transmissions.length encoded := by
  induction bound generalizing index checkedAt retries port with
  | zero => simp [exchangeLoop]
  | succ bound ih =>
      have honce := port.sent_exchangeOnce job.id frame encoded
        (exchangeDeadline horizon (surroundings index).startedAt job)
        (surroundings index).sent (surroundings index).arrivals
      simp only [exchangeLoop]
      generalize port.exchangeOnce job.id frame encoded
        (exchangeDeadline horizon (surroundings index).startedAt job)
        (surroundings index).sent (surroundings index).arrivals = once
        at honce ⊢
      have hturn := sent_turn horizon job (surroundings index) retries once.2
        once.1
      split
      next nextPort result heq =>
        rw [heq] at hturn
        rw [List.length_singleton, List.replicate_one, ← honce]
        exact hturn
      next nextPort next heq =>
        rw [heq] at hturn
        simp only [ExchangeRun.prepend, List.length_cons,
          List.replicate_succ]
        rw [ih, hturn, honce, List.append_assoc, List.singleton_append]

end Loop

/--
The transmissions that the retry loop makes from an attempt on: each but the
last shows a cause with budget left and is followed by a reading of the clock
before the deadline.
-/
inductive Attempts (job : Job) (frame : Frame)
    (surroundings : Nat → Attempt) :
    Nat → Nat → Retries → List Transmission → Prop
  | none {index checkedAt : Nat} {retries : Retries} :
      Attempts job frame surroundings index checkedAt retries []
  | last {index checkedAt : Nat} {retries : Retries}
      {outcome : Except ExchangeError DeviceReply}
      (hanswers : ∀ reply, outcome = .ok reply →
        answers frame reply = true) :
      Attempts job frame surroundings index checkedAt retries
        [⟨checkedAt, outcome⟩]
  | again {index checkedAt : Nat} {retries next : Retries}
      {outcome : Except ExchangeError DeviceReply} {cause : RetryCause}
      {paused : Bool} {later : List Transmission}
      (hanswers : ∀ reply, outcome = .ok reply →
        answers frame reply = true)
      (hjudge : judgeAttempt job retries outcome = .retry cause next paused)
      (hdeadline : (surroundings index).checkedAt < job.deadline)
      (hlater : Attempts job frame surroundings (index + 1)
        (surroundings index).checkedAt next later) :
      Attempts job frame surroundings index checkedAt retries
        (⟨checkedAt, outcome⟩ :: later)

theorem attempts_exchangeLoop (horizon : Nat) (job : Job) (frame : Frame)
    (encoded : Bytes) (surroundings : Nat → Attempt)
    (bound index checkedAt : Nat) (retries : Retries) (port : LinkPort) :
    Attempts job frame surroundings index checkedAt retries
      (exchangeLoop horizon job frame encoded surroundings bound index
        checkedAt retries port).transmissions := by
  induction bound generalizing index checkedAt retries port with
  | zero => exact .none
  | succ bound ih =>
      simp only [exchangeLoop]
      have hanswers : ∀ reply, (port.exchangeOnce job.id frame encoded
          (exchangeDeadline horizon (surroundings index).startedAt job)
          (surroundings index).sent (surroundings index).arrivals).2 =
            .ok reply → answers frame reply = true :=
        fun reply => LinkPort.exchangeOnce_answers
      split
      next => exact .last hanswers
      next nextPort next hturn =>
        obtain ⟨⟨cause, paused, hjudge⟩, hdeadline⟩ := turn_again hturn
        exact .again hanswers hjudge hdeadline (ih ..)

namespace Attempts

variable {job : Job} {frame : Frame} {surroundings : Nat → Attempt}
  {index checkedAt : Nat} {retries : Retries}
  {transmissions : List Transmission}

theorem cause_of_mem_dropLast
    (h : Attempts job frame surroundings index checkedAt retries
      transmissions) :
    ∀ transmission ∈ transmissions.dropLast,
      ∃ cause, retryCause transmission.outcome = some cause ∧
        0 < retryLimit job cause := by
  induction h with
  | none => simp
  | last => simp
  | @again _ _ _ _ outcome cause _ later _ hjudge _ _ ih =>
      intro transmission hmem
      obtain ⟨hcause, hleft, -⟩ := judgeAttempt_retry hjudge
      cases later with
      | nil => simp at hmem
      | cons next later =>
          rw [List.dropLast_cons_of_ne_nil (by simp), List.mem_cons] at hmem
          rcases hmem with rfl | hmem
          · exact ⟨cause, hcause, by omega⟩
          · exact ih transmission hmem

theorem count_dropLast_le
    (h : Attempts job frame surroundings index checkedAt retries
      transmissions) (cause : RetryCause) :
    transmissions.dropLast.countP
        (fun transmission => retryCause transmission.outcome = some cause) ≤
      retryLimit job cause - retries.used cause := by
  induction h with
  | none => simp
  | last => simp
  | @again _ _ _ _ outcome found _ later _ hjudge _ _ ih =>
      obtain ⟨hcause, hleft, hused⟩ := judgeAttempt_retry hjudge
      have hnext := hused cause
      cases later with
      | nil => simp
      | cons next later =>
          rw [List.dropLast_cons_of_ne_nil (by simp), List.countP_cons]
          by_cases hsame : cause = found
          · subst hsame
            simp only [hcause, decide_true, if_true] at hnext ⊢
            omega
          · have hother : ¬ found = cause := fun heq => hsame heq.symm
            simp only [hcause, hsame, Option.some.injEq, hother,
              decide_false, Bool.false_eq_true, if_false] at hnext ⊢
            omega

theorem answers_of_mem
    (h : Attempts job frame surroundings index checkedAt retries
      transmissions) :
    ∀ transmission ∈ transmissions, ∀ reply,
      transmission.outcome = .ok reply → answers frame reply = true := by
  induction h with
  | none => simp
  | last hanswers => simpa using hanswers
  | again hanswers _ _ _ ih =>
      intro transmission hmem
      rcases List.mem_cons.mp hmem with rfl | hmem
      · exact hanswers
      · exact ih transmission hmem

theorem checkedAt_of_getElem?
    (h : Attempts job frame surroundings index checkedAt retries
      transmissions) :
    (∀ transmission, transmissions[0]? = some transmission →
      transmission.checkedAt = checkedAt) ∧
    ∀ position transmission,
      transmissions[position + 1]? = some transmission →
        transmission.checkedAt = (surroundings (index + position)).checkedAt ∧
          transmission.checkedAt < job.deadline := by
  induction h with
  | none => simp
  | last => simp
  | @again index _ _ _ _ _ _ later _ _ hdeadline _ ih =>
      obtain ⟨hfirst, hrest⟩ := ih
      refine ⟨by simp, fun position transmission hget => ?_⟩
      rw [List.getElem?_cons_succ] at hget
      cases position with
      | zero =>
          have hchecked := hfirst transmission hget
          exact ⟨hchecked, by rw [hchecked]; exact hdeadline⟩
      | succ position =>
          obtain ⟨hchecked, hbefore⟩ := hrest position transmission hget
          refine ⟨?_, hbefore⟩
          rw [hchecked, Nat.add_right_comm, Nat.add_assoc]

end Attempts

theorem exchange_cases (horizon now : Nat) (job : Job)
    (surroundings : Nat → Attempt) (port : LinkPort) :
    (∃ error, exchange horizon now job surroundings port =
      ⟨.error error, port, []⟩) ∨
    now < job.deadline ∧ job.request.validate = .ok () ∧
      exchange horizon now job surroundings port =
        exchangeLoop horizon job job.request.frame
          (job.transmitPrefix ++ job.request.frame.encoding) surroundings
          maximumAttempts 0 now {} port := by
  unfold exchange
  split_ifs with hlate
  · exact .inl ⟨_, rfl⟩
  cases hvalid : job.request.validate with
  | error error =>
      have hframe : job.request.toFrame = .error error := by
        simp only [Request.toFrame, hvalid]
        rfl
      exact .inl ⟨.operation error, by simp only [hframe]⟩
  | ok value =>
      obtain ⟨hframe, hencode⟩ := Request.toFrame_of_validate hvalid
      right
      simp only [hframe, hencode]
      exact ⟨Nat.lt_of_not_le hlate, trivial, trivial⟩

theorem judgeAttempt_delivers {job : Job} {retries : Retries}
    {outcome : Except ExchangeError DeviceReply} {reply : DeviceReply}
    (h : judgeAttempt job retries outcome = .finish (.ok reply)) :
    outcome = .ok reply ∧ retryCause outcome = none := by
  unfold judgeAttempt at h
  cases outcome with
  | error error =>
      dsimp only at h
      split_ifs at h
      injection h with h
      contradiction
  | ok found =>
      dsimp only at h
      split_ifs at h with hbusy hlimit hdelayed hpolls
      all_goals injection h with h
      · contradiction
      · contradiction
      · exact ⟨h, by rw [retryCause, if_neg hbusy, if_neg hdelayed]⟩

theorem turn_over {horizon : Nat} {job : Job} {attempt : Attempt}
    {retries : Retries} {outcome : Except ExchangeError DeviceReply}
    {port after : LinkPort} {reply : DeviceReply}
    (h : turn horizon job attempt retries outcome port =
      (after, .over (.ok reply))) :
    judgeAttempt job retries outcome = .finish (.ok reply) := by
  unfold turn at h
  split at h
  next result hjudge =>
    simp only [Prod.mk.injEq, Turn.over.injEq] at h
    rw [hjudge, h.2]
  next cause found paused hjudge =>
    simp only at h
    split at h
    · simp at h
    split_ifs at h
    · simp at h
    · simp at h

theorem exchangeLoop_delivers {horizon : Nat} {job : Job} {frame : Frame}
    {encoded : Bytes} {surroundings : Nat → Attempt}
    {bound index checkedAt : Nat} {retries : Retries} {port : LinkPort}
    {reply : DeviceReply}
    (h : (exchangeLoop horizon job frame encoded surroundings bound index
      checkedAt retries port).result = .ok reply) :
    retryCause (.ok reply) = none ∧ answers frame reply = true := by
  induction bound generalizing index checkedAt retries port with
  | zero => contradiction
  | succ bound ih =>
      rw [exchangeLoop] at h
      have hanswers : ∀ found, (port.exchangeOnce job.id frame encoded
          (exchangeDeadline horizon (surroundings index).startedAt job)
          (surroundings index).sent (surroundings index).arrivals).2 =
            .ok found → answers frame found = true :=
        fun _ => LinkPort.exchangeOnce_answers
      dsimp only at h
      split at h
      next after result hturn =>
        dsimp only at h
        subst h
        obtain ⟨houtcome, hcause⟩ := judgeAttempt_delivers (turn_over hturn)
        rw [houtcome] at hcause
        exact ⟨hcause, hanswers reply houtcome⟩
      next after next hturn => exact ih h

theorem exchange_delivers {horizon now : Nat} {job : Job}
    {surroundings : Nat → Attempt} {port : LinkPort} {reply : DeviceReply}
    (h : (exchange horizon now job surroundings port).result = .ok reply) :
    retryCause (.ok reply) = none ∧
      answers job.request.frame reply = true := by
  rcases exchange_cases horizon now job surroundings port with
    ⟨error, hover⟩ | ⟨-, -, hloop⟩
  · rw [hover] at h
    contradiction
  · rw [hloop] at h
    exact exchangeLoop_delivers h

theorem length_le_counts {limit : RetryCause → Nat}
    {transmissions : List Transmission}
    (h : ∀ transmission ∈ transmissions,
      ∃ cause, retryCause transmission.outcome = some cause ∧
        0 < limit cause) :
    transmissions.length ≤
      transmissions.countP
          (fun entry => retryCause entry.outcome = some .transport) +
        transmissions.countP
          (fun entry => retryCause entry.outcome = some .busy) +
        transmissions.countP
          (fun entry => retryCause entry.outcome = some .delayedResponse) := by
  induction transmissions with
  | nil => simp
  | cons entry transmissions ih =>
      obtain ⟨cause, hcause, -⟩ := h entry (by simp)
      have hlater := ih fun other hother => h other (by simp [hother])
      cases cause <;> simp [hcause] <;> omega

/--
Retry safety of an exchange, whatever the channel, the device and the clock do:
an action is repeated only after an accepted reply that asks for it, every cause
stays within its limit, and the clock stood before the deadline after the
previous attempt.
-/
theorem exchange_retry_safe (horizon now : Nat) (job : Job)
    (surroundings : Nat → Attempt) (port : LinkPort) :
    (resolvedSafety job.request = .action →
      ∀ transmission ∈ (exchange horizon now job surroundings
          port).transmissions.dropLast,
        ∃ reply, transmission.outcome = .ok reply ∧
          answers job.request.frame reply = true ∧
          (reply.responseCode = 32 ∨ reply.responseCode = 33 ∨
            reply.responseCode = 34)) ∧
    ((exchange horizon now job surroundings port).transmissions.length ≤
      1 + (if resolvedSafety job.request = .action then 0
          else job.policy.transportRetries.toNat) +
        job.policy.busyRetries.toNat +
        job.policy.delayedResponsePolls.toNat ∧
      ∀ cause, (exchange horizon now job surroundings
        port).transmissions.dropLast.countP (fun transmission =>
          retryCause transmission.outcome = some cause) ≤
        retryLimit job cause) ∧
    (∀ (position : Nat) (transmission : Transmission),
      (exchange horizon now job surroundings port).transmissions[position]? =
        some transmission →
      transmission.checkedAt < job.deadline ∧
        transmission.checkedAt =
          if position = 0 then now
          else (surroundings (position - 1)).checkedAt) ∧
    (exchange horizon now job surroundings port).port.sent =
      port.sent ++ List.replicate (exchange horizon now job surroundings
        port).transmissions.length
        (job.transmitPrefix ++ job.request.frame.encoding) := by
  rcases exchange_cases horizon now job surroundings port with
    ⟨error, hover⟩ | ⟨hnow, -, hloop⟩
  · rw [hover]
    simp
  have hattempts := attempts_exchangeLoop horizon job job.request.frame
    (job.transmitPrefix ++ job.request.frame.encoding) surroundings
    maximumAttempts 0 now {} port
  have hsent := sent_exchangeLoop horizon job job.request.frame
    (job.transmitPrefix ++ job.request.frame.encoding) surroundings
    maximumAttempts 0 now {} port
  rw [← hloop] at hattempts hsent
  generalize exchange horizon now job surroundings port = run
    at hattempts hsent ⊢
  have hcauses := hattempts.cause_of_mem_dropLast
  have hcounts := hattempts.count_dropLast_le
  obtain ⟨hfirst, hlater⟩ := hattempts.checkedAt_of_getElem?
  have hlimit : retryLimit job .transport =
      if resolvedSafety job.request = .action then 0
      else job.policy.transportRetries.toNat := by
    unfold retryLimit transportLimit
    split_ifs <;> rfl
  refine ⟨fun haction transmission hmem => ?_, ⟨?_, fun cause => ?_⟩,
    fun position transmission hget => ?_, hsent⟩
  · obtain ⟨cause, hcause, hpositive⟩ := hcauses transmission hmem
    have hanswers := hattempts.answers_of_mem transmission
      (List.mem_of_mem_dropLast hmem)
    cases houtcome : transmission.outcome with
    | error error =>
        -- Only a timeout would be repeated here, and it has no budget.
        rw [houtcome] at hcause
        simp only [retryCause] at hcause
        split_ifs at hcause
        injection hcause with hcause
        subst hcause
        rw [hlimit, if_pos haction] at hpositive
        omega
    | ok reply =>
        refine ⟨reply, rfl, hanswers reply houtcome, ?_⟩
        rw [houtcome] at hcause
        simp only [retryCause] at hcause
        split_ifs at hcause with hbusy hdelayed
        · exact .inl hbusy
        · exact .inr hdelayed
  · have hlength := length_le_counts hcauses
    have htransport := hcounts .transport
    have hbusy := hcounts .busy
    have hdelayed := hcounts .delayedResponse
    rw [List.length_dropLast] at hlength
    rw [hlimit] at htransport
    simp only [retryLimit] at hbusy hdelayed
    omega
  · exact (hcounts cause).trans (Nat.sub_le _ _)
  · cases position with
    | zero =>
        have hchecked := hfirst transmission hget
        exact ⟨by rw [hchecked]; exact hnow, by simpa using hchecked⟩
    | succ position =>
        obtain ⟨hchecked, hbefore⟩ := hlater position transmission hget
        exact ⟨hbefore, by simpa using hchecked⟩

end HartLink.Service
