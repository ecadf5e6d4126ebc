import HartLink.Service.Retry
import HartLink.Service.Runner

/-!
# The drain behind a response timeout

The runner decides on the drain by the error of a whole exchange, while a
timeout ends an attempt.  A log in which a timeout waits for its drain is kept
only where the runner will drain or stop before it transmits for another job;
`run_drains` needs for this that an exchange with a timeout ends with one.
-/

namespace HartLink.Service

open HartLink.Foundation
open HartLink.Wire
open HartLink.Operation

/-! ## Logs -/

/--
Between a timeout of one job and the first transmission of another the runner
has drained its input.
-/
def LateDrained (log : List LogEntry) : Prop :=
  ∀ (i j : Nat) (first second : ReplyId), i < j →
    log[i]? = some (LogEntry.timedOut first) →
    log[j]? = some (LogEntry.transmitted second) → first ≠ second →
    (∀ k < j, log[k]? ≠ some (LogEntry.transmitted second)) →
    ∃ k, i < k ∧ k < j ∧ log[k]? = some LogEntry.drained

/-- A timeout that no drain has followed yet. -/
def Undrained (log : List LogEntry) : Prop :=
  ∃ (i : Nat) (reply : ReplyId), log[i]? = some (LogEntry.timedOut reply) ∧
    ∀ k, i < k → log[k]? ≠ some LogEntry.drained

def TellOf (reply : ReplyId) (entries : List LogEntry) : Prop :=
  ∀ entry ∈ entries, entry = .transmitted reply ∨ entry = .timedOut reply ∨
    entry = .concluded reply

theorem LateDrained.before {log : List LogEntry} (h : LateDrained log)
    {entries : List LogEntry} {i j : Nat} {first second : ReplyId}
    (hj : j < log.length) (hij : i < j)
    (hfirst : (log ++ entries)[i]? = some (LogEntry.timedOut first))
    (hsecond : (log ++ entries)[j]? = some (LogEntry.transmitted second))
    (hne : first ≠ second)
    (hnew : ∀ k < j,
      (log ++ entries)[k]? ≠ some (LogEntry.transmitted second)) :
    ∃ k, i < k ∧ k < j ∧ (log ++ entries)[k]? = some LogEntry.drained := by
  have hold : ∀ k ≤ j, (log ++ entries)[k]? = log[k]? := by
    intro k hk
    exact List.getElem?_append_left (by omega)
  rw [hold i (by omega)] at hfirst
  rw [hold j (by omega)] at hsecond
  have hfresh : ∀ k < j, log[k]? ≠ some (LogEntry.transmitted second) := by
    intro k hk
    rw [← hold k (by omega)]
    exact hnew k hk
  obtain ⟨k, hik, hkj, hk⟩ := h i j first second hij hfirst hsecond hne hfresh
  exact ⟨k, hik, hkj, (hold k (by omega)).trans hk⟩

theorem lateDrained_append {log entries : List LogEntry} {reply : ReplyId}
    (h : LateDrained log) (hdrained : ¬ Undrained log)
    (hentries : TellOf reply entries) : LateDrained (log ++ entries) := by
  intro i j first second hij hfirst hsecond hne hnew
  by_cases hj : j < log.length
  · exact h.before hj hij hfirst hsecond hne hnew
  -- the transmission is a new one, so the timeout is an old one
  rw [List.getElem?_append_right (by omega)] at hsecond
  have hreply : second = reply := by
    rcases hentries _ (List.mem_of_getElem? hsecond) with heq | heq | heq <;>
      simp_all
  by_cases hi : i < log.length
  · rw [List.getElem?_append_left hi] at hfirst
    have hfollowed : ∃ k, i < k ∧ log[k]? = some .drained := by
      by_contra hnone
      refine hdrained ⟨i, first, hfirst, ?_⟩
      intro k hik hk
      exact hnone ⟨k, hik, hk⟩
    obtain ⟨k, hik, hk⟩ := hfollowed
    have hlength := (List.getElem?_eq_some_iff.mp hk).1
    refine ⟨k, hik, by omega, ?_⟩
    rw [List.getElem?_append_left hlength]
    exact hk
  · rw [List.getElem?_append_right (by omega)] at hfirst
    rcases hentries _ (List.mem_of_getElem? hfirst) with heq | heq | heq <;>
      simp_all

theorem mem_of_undrained_append {log entries : List LogEntry}
    (hdrained : ¬ Undrained log) (h : Undrained (log ++ entries)) :
    ∃ reply, LogEntry.timedOut reply ∈ entries := by
  obtain ⟨i, reply, htimedOut, hnone⟩ := h
  by_cases hi : i < log.length
  · rw [List.getElem?_append_left hi] at htimedOut
    refine absurd ⟨i, reply, htimedOut, ?_⟩ hdrained
    intro k hik hk
    have hlength := (List.getElem?_eq_some_iff.mp hk).1
    refine hnone k hik ?_
    rw [List.getElem?_append_left hlength]
    exact hk
  · rw [List.getElem?_append_right (by omega)] at htimedOut
    exact ⟨reply, List.mem_of_getElem? htimedOut⟩

theorem lateDrained_drained {log : List LogEntry} (h : LateDrained log) :
    LateDrained (log ++ [.drained]) ∧ ¬ Undrained (log ++ [.drained]) := by
  constructor
  · intro i j first second hij hfirst hsecond hne hnew
    have hj : j < log.length := by
      by_contra hj
      rw [List.getElem?_append_right (by omega)] at hsecond
      have hmem := List.mem_of_getElem? hsecond
      simp at hmem
    exact h.before hj hij hfirst hsecond hne hnew
  · rintro ⟨i, reply, htimedOut, hnone⟩
    have hi : i < log.length := by
      by_contra hi
      rw [List.getElem?_append_right (by omega)] at htimedOut
      have hmem := List.mem_of_getElem? htimedOut
      simp at hmem
    refine hnone log.length hi ?_
    rw [List.getElem?_append_right (Nat.le_refl _), Nat.sub_self]
    rfl

/-! ## Exchanges that end with their timeouts -/

/-- The request goes out in time and nothing that arrives in time answers it. -/
def LinkPort.Unanswered (port : LinkPort) (requestFrame : Frame)
    (deadline : Nat) (sent : Sent) (arrivals : List Arrival) : Prop :=
  sent.instant ≤ deadline ∧ sent.error = none ∧
    (port.decoder.pushAll (LinkPort.reads deadline port.readBufferSize
      arrivals)).1.findSome? (LinkPort.answerOf requestFrame) = none ∧
    LinkPort.readError deadline port.readBufferSize arrivals =
      .responseTimeout

instance (port : LinkPort) (requestFrame : Frame) (deadline : Nat)
    (sent : Sent) (arrivals : List Arrival) :
    Decidable (port.Unanswered requestFrame deadline sent arrivals) :=
  inferInstanceAs (Decidable (_ ∧ _ ∧ _ ∧ _))

theorem LinkPort.exchangeOnce_timeout_iff (port : LinkPort) (id : UInt64)
    (requestFrame : Frame) (encoded : Bytes) (deadline : Nat) (sent : Sent)
    (arrivals : List Arrival) :
    (port.exchangeOnce id requestFrame encoded deadline sent arrivals).2 =
        .error .responseTimeout ↔
      port.Unanswered requestFrame deadline sent arrivals := by
  unfold exchangeOnce Unanswered
  dsimp only
  split_ifs with hlate
  · simp [Nat.not_le_of_lt hlate]
  split
  next error herror => simp [herror]
  next herror =>
    rw [LinkPort.awaitReply_eq]
    simp only [Nat.le_of_not_lt hlate, herror, true_and]
    generalize List.findSome? (LinkPort.answerOf requestFrame) _ = answer
    cases answer with
    | none => simp
    | some reply => simp

section Loop

variable (horizon : Nat) (job : Job) (frame : Frame) (encoded : Bytes)
  (surroundings : Nat → Attempt)

/--
Once an attempt has stayed unanswered every later one does, and the job's
deadline does not pass between an unanswered attempt and its retry.
-/
def LoopSettles : Nat → Nat → Bool → Retries → LinkPort → Prop
  | 0, _, _, _, _ => True
  | bound + 1, index, timedOut, retries, port =>
      let attempt := surroundings index
      let deadline := exchangeDeadline horizon attempt.startedAt job
      let unanswered := port.Unanswered frame deadline attempt.sent
        attempt.arrivals
      (timedOut → unanswered) ∧
        (unanswered → retries.transport < transportLimit job →
          attempt.checkedAt < job.deadline) ∧
        let ended := port.exchangeOnce job.id frame encoded deadline
          attempt.sent attempt.arrivals
        match turn horizon job attempt retries ended.2 ended.1 with
        | (_, .over _) => True
        | (port, .again retries) =>
            LoopSettles bound (index + 1) (timedOut || unanswered) retries port

instance decidableLoopSettles : (bound index : Nat) → (timedOut : Bool) →
    (retries : Retries) → (port : LinkPort) →
    Decidable (LoopSettles horizon job frame encoded surroundings bound index
      timedOut retries port)
  | 0, _, _, _, _ => isTrue trivial
  | bound + 1, index, timedOut, retries, port =>
      let attempt := surroundings index
      let ended := port.exchangeOnce job.id frame encoded
        (exchangeDeadline horizon attempt.startedAt job) attempt.sent
        attempt.arrivals
      have hlater : Decidable (match turn horizon job attempt retries ended.2
          ended.1 with
        | (_, .over _) => True
        | (next, .again retries) =>
            LoopSettles horizon job frame encoded surroundings bound
              (index + 1) (timedOut || port.Unanswered frame
                (exchangeDeadline horizon attempt.startedAt job) attempt.sent
                attempt.arrivals) retries next) :=
        match turn horizon job attempt retries ended.2 ended.1 with
        | (_, .over _) => isTrue trivial
        | (next, .again retries) =>
            decidableLoopSettles bound (index + 1) _ retries next
      @instDecidableAnd _ _ inferInstance
        (@instDecidableAnd _ _ inferInstance hlater)

theorem turn_over_of_timeout {attempt : Attempt} {retries : Retries}
    {port next : LinkPort} {result : Except ExchangeError DeviceReply}
    (h : turn horizon job attempt retries (.error .responseTimeout) port =
      (next, .over result))
    (hdeadline : retries.transport < transportLimit job →
      attempt.checkedAt < job.deadline) :
    result = .error .responseTimeout := by
  by_cases hlimit : retries.transport < transportLimit job
  · have hcheck := Nat.not_le_of_lt (hdeadline hlimit)
    simp [turn, judgeAttempt, isRetryableTransportError, hlimit,
      hcheck] at h
  · simp [turn, judgeAttempt, hlimit] at h
    exact h.2.symm

theorem result_of_loopSettles {bound index checkedAt : Nat} {timedOut : Bool}
    {retries : Retries} {port : LinkPort}
    (hbudget : budget job retries < bound)
    (hsettles : LoopSettles horizon job frame encoded surroundings bound index
      timedOut retries port)
    (h : timedOut = true ∨ ∃ transmission ∈ (exchangeLoop horizon job frame encoded
      surroundings bound index checkedAt retries port).transmissions,
        transmission.outcome = .error .responseTimeout) :
    (exchangeLoop horizon job frame encoded surroundings bound index checkedAt
      retries port).result = .error .responseTimeout := by
  induction bound generalizing index checkedAt timedOut retries port with
  | zero => omega
  | succ bound ih =>
      obtain ⟨hlater, hdeadline, hnext⟩ := hsettles
      simp only [exchangeLoop] at h ⊢
      simp only [← port.exchangeOnce_timeout_iff job.id frame encoded]
        at hlater hdeadline hnext
      generalize port.exchangeOnce job.id frame encoded
        (exchangeDeadline horizon (surroundings index).startedAt job)
        (surroundings index).sent (surroundings index).arrivals = ended
        at h hlater hdeadline hnext ⊢
      split
      next next result hover =>
        rw [hover] at h
        have htimeout : ended.2 = .error .responseTimeout := by
          rcases h with htimedOut | ⟨transmission, hmem, houtcome⟩
          · exact hlater htimedOut
          · rw [List.mem_singleton] at hmem
            subst hmem
            exact houtcome
        rw [htimeout] at hover
        exact turn_over_of_timeout horizon job hover (hdeadline htimeout)
      next next nextRetries hagain =>
        rw [hagain] at h hnext
        obtain ⟨⟨cause, paused, hjudge⟩, -⟩ := turn_again hagain
        have hleft := budget_retry hjudge
        refine ih (by omega) hnext ?_
        rcases h with htimedOut | ⟨transmission, hmem, houtcome⟩
        · exact .inl (by simp [htimedOut])
        · rcases List.mem_cons.mp hmem with rfl | hrest
          · have htimeout : ended.2 = .error .responseTimeout := houtcome
            exact .inl (by simp [htimeout])
          · exact .inr ⟨transmission, hrest, houtcome⟩

end Loop

def ExchangeSettles (horizon now : Nat) (job : Job)
    (surroundings : Nat → Attempt) (port : LinkPort) : Prop :=
  if now ≥ job.deadline then True
  else
    match job.request.toFrame with
    | .error _ => True
    | .ok frame =>
        match frame.encode with
        | .error _ => True
        | .ok frameBytes =>
            LoopSettles horizon job frame (job.transmitPrefix ++ frameBytes)
              surroundings maximumAttempts 0 false {} port

instance (horizon now : Nat) (job : Job) (surroundings : Nat → Attempt)
    (port : LinkPort) :
    Decidable (ExchangeSettles horizon now job surroundings port) := by
  unfold ExchangeSettles
  split
  · infer_instance
  · split
    · infer_instance
    · split <;> infer_instance

theorem result_of_exchangeSettles {horizon now : Nat} {job : Job}
    {surroundings : Nat → Attempt} {port : LinkPort}
    (hsettles : ExchangeSettles horizon now job surroundings port)
    {transmission : Transmission}
    (hmem : transmission ∈
      (exchange horizon now job surroundings port).transmissions)
    (houtcome : transmission.outcome = .error .responseTimeout) :
    (exchange horizon now job surroundings port).result =
      .error .responseTimeout := by
  unfold exchange ExchangeSettles at *
  split_ifs at *
  · contradiction
  generalize job.request.toFrame = framed at *
  cases framed with
  | error error => contradiction
  | ok frame =>
      dsimp only at *
      generalize frame.encode = encoded at *
      cases encoded with
      | error error => contradiction
      | ok frameBytes =>
          exact result_of_loopSettles horizon job frame _ surroundings
            (budget_lt_maximumAttempts job {}) hsettles
            (.inr ⟨transmission, hmem, houtcome⟩)

/-! ## Runs -/

/--
The runner drains or stops before it looks for another job; whether a check
stops it depends on the channel.
-/
def Phase.holding (usable : Bool) : Phase → Bool
  | .requeueing _ _ _ _ error => error = .responseTimeout
  | .checking => !usable
  | .draining | .stopping | .failing _ | .stopped => true
  | _ => false

namespace LinkState

def Settles (setup : LinkSetup) (state : LinkState) : LinkAction → Prop
  | .runner (.exchange now surroundings) =>
      match state.phase with
      | .exchanging _ job _ _ =>
          ExchangeSettles setup.horizon now job surroundings state.port
      | _ => True
  | .runner (.drain now _) => now + setup.lateResponseGuard ≤ setup.horizon
  | _ => True

/-- A timeout waits for its drain only where the runner is on its way to it. -/
structure Guarded (state : LinkState) : Prop where
  drained : LateDrained state.log
  holding : Undrained state.log →
    state.phase.holding state.port.channelUsable = true

section Steps

variable {setup : LinkSetup} {state next : LinkState}

theorem Guarded.not_undrained (h : state.Guarded)
    (hphase : state.phase.holding state.port.channelUsable = false) :
    ¬ Undrained state.log := by
  intro hundrained
  rw [h.holding hundrained] at hphase
  contradiction

theorem holding_requeue {queue : QueueId} {job : Job} {reply : ReplyId}
    {followers : List Job} {error : ExchangeError}
    (herror : error = .responseTimeout) :
    (state.requeue queue job reply followers error).phase.holding
      (state.requeue queue job reply followers error).port.channelUsable =
        true := by
  unfold requeue
  split
  · simp [Phase.holding, herror]
  · split_ifs with hdrain
    · rfl
    · have husable : state.port.channelUsable = false := by
        simpa [herror] using hdrain
      have hport := congrArg LinkPort.channelUsable
        (port_conclude state queue job.id (some reply) (.error error)).1
      simp [Phase.holding, enter, hport, husable]

theorem holding_fail {remaining : List QueueId}
    (hphase : state.phase = .failing remaining) :
    (state.fail remaining).phase.holding
      (state.fail remaining).port.channelUsable = true := by
  unfold fail
  split
  · rfl
  · split
    · rfl
    · simp [Phase.holding, phase_conclude, hphase]

theorem holding_quiet {action : RunnerAction}
    (h : state.runnerStep setup action = some next)
    (htalks : action.talks = false)
    (hholding : state.phase.holding state.port.channelUsable = true) :
    next.phase.holding next.port.channelUsable = true := by
  cases hphase : state.phase with
  | requeueing queue job reply followers error =>
      rw [hphase] at hholding
      cases action <;> simp only [runnerStep, hphase, reduceCtorEq] at h
      injection h with h
      subst h
      exact holding_requeue (by simpa [Phase.holding] using hholding)
  | checking =>
      rw [hphase] at hholding
      have husable : state.port.channelUsable = false := by
        simpa [Phase.holding] using hholding
      cases action <;> simp only [runnerStep, hphase, reduceCtorEq] at h
      injection h with h
      subst h
      simp [husable, Phase.holding]
  | stopping =>
      cases action <;> simp only [runnerStep, hphase, reduceCtorEq] at h
      injection h with h
      subst h
      rfl
  | failing remaining =>
      cases action <;> simp only [runnerStep, hphase, reduceCtorEq] at h
      injection h with h
      subst h
      exact holding_fail hphase
  | draining =>
      cases action <;> simp only [runnerStep, hphase, reduceCtorEq] at h
      contradiction
  | stopped =>
      cases action <;> simp only [runnerStep, hphase, reduceCtorEq] at h
  | _ =>
      rw [hphase] at hholding
      contradiction

theorem tellOf_logTransmission (reply : ReplyId)
    (transmissions : List Transmission) :
    TellOf reply (transmissions.flatMap (logTransmission reply)) := by
  intro entry hentry
  obtain ⟨transmission, -, hmem⟩ := List.mem_flatMap.mp hentry
  unfold logTransmission at hmem
  split at hmem <;> simp at hmem <;> tauto

theorem outcome_of_timedOut {reply other : ReplyId}
    {transmissions : List Transmission}
    (h : LogEntry.timedOut other ∈
      transmissions.flatMap (logTransmission reply)) :
    ∃ transmission ∈ transmissions,
      transmission.outcome = .error .responseTimeout := by
  obtain ⟨transmission, hmem, hentry⟩ := List.mem_flatMap.mp h
  refine ⟨transmission, hmem, ?_⟩
  unfold logTransmission at hentry
  split at hentry
  next houtcome => exact houtcome
  · simp at hentry

theorem guarded_exchange {queue : QueueId} {job : Job} {reply : ReplyId}
    {followers : List Job} {now : Nat} {surroundings : Nat → Attempt}
    (hphase : state.phase = .exchanging queue job reply followers)
    (hsettles : ExchangeSettles setup.horizon now job surroundings state.port)
    (h : state.Guarded) :
    (state.exchange setup queue job reply followers now
      surroundings).Guarded := by
  have hdrained : ¬ Undrained state.log :=
    h.not_undrained (by rw [hphase]; rfl)
  constructor
  · exact lateDrained_append h.drained hdrained
      (tellOf_logTransmission reply _)
  · intro hundrained
    obtain ⟨other, htimedOut⟩ := mem_of_undrained_append hdrained hundrained
    obtain ⟨transmission, hmem, houtcome⟩ := outcome_of_timedOut htimedOut
    have hresult := result_of_exchangeSettles hsettles hmem houtcome
    simp [exchange, hresult, Phase.holding]

theorem guarded_drain {now : Nat} {arrivals : List Arrival}
    (hguard : setup.lateResponseGuard ≠ 0)
    (hclock : now + setup.lateResponseGuard ≤ setup.horizon)
    (h : state.Guarded) : (state.drain setup now arrivals).Guarded := by
  have hlog : (state.drain setup now arrivals).log =
      state.log ++ [.drained] := by
    simp [drain, hguard, checkedAdd, hclock]
  obtain ⟨hdrained, hnone⟩ := lateDrained_drained h.drained
  rw [← hlog] at hdrained hnone
  exact ⟨hdrained, fun hundrained => absurd hundrained hnone⟩

theorem guarded_runnerStep {action : RunnerAction}
    (hguard : setup.lateResponseGuard ≠ 0)
    (hnext : state.runnerStep setup action = some next)
    (hsettles : state.Settles setup (.runner action)) (h : state.Guarded) :
    next.Guarded := by
  cases channelStep hnext with
  | quiet talks port log =>
      constructor
      · rw [log]
        exact h.drained
      · rw [log]
        intro hundrained
        exact holding_quiet hnext talks (h.holding hundrained)
  | receive phase eq =>
      subst eq
      have hnone : ¬ Undrained state.log :=
        h.not_undrained (by rw [phase]; rfl)
      exact ⟨h.drained, fun hundrained => absurd hundrained hnone⟩
  | exchange phase eq =>
      subst eq
      simp only [Settles, phase] at hsettles
      exact guarded_exchange phase hsettles h
  | drain phase eq =>
      subst eq
      exact guarded_drain hguard hsettles h

theorem guarded_step {action : LinkAction}
    (hguard : setup.lateResponseGuard ≠ 0)
    (hnext : state.step setup action = some next)
    (hsettles : state.Settles setup action) (h : state.Guarded) :
    next.Guarded := by
  cases action with
  | client action =>
      have hchange := clientStep_change hnext
      have husable := congrArg LinkPort.channelUsable hchange.port
      constructor
      · rw [hchange.log]
        exact h.drained
      · rw [hchange.log, hchange.phase, husable]
        exact h.holding
  | runner action => exact guarded_runnerStep hguard hnext hsettles h

end Steps

instance (setup : LinkSetup) (state : LinkState) (action : LinkAction) :
    Decidable (state.Settles setup action) := by
  unfold Settles
  split
  · split <;> infer_instance
  · infer_instance
  · infer_instance

/--
In every run whose exchanges end with the timeouts they saw and whose drains end
within the clock's range, the runner drains between a timeout of one job and the
first transmission of another.
-/
theorem run_drains (setup : LinkSetup) (layout : List QueueConfig)
    (hlayout : (layout.map QueueConfig.id).Nodup) (limits : DecodeLimits)
    (readBufferSize : Nat) (burstHub : Bool) (actions : List LinkAction)
    (state : LinkState) (hguard : setup.lateResponseGuard ≠ 0)
    (hrun : (initial layout hlayout limits readBufferSize burstHub).run setup
      actions = some state)
    (hsettles : Along (step setup) (Settles setup)
      (initial layout hlayout limits readBufferSize burstHub) actions) :
    LateDrained state.log := by
  have hinitial :
      (initial layout hlayout limits readBufferSize burstHub).Guarded := by
    constructor
    · intro i j first second hij hfirst
      simp [initial] at hfirst
    · rintro ⟨i, reply, htimedOut, -⟩
      simp [initial] at htimedOut
  have hguarded : state.Guarded :=
    runSteps_invariant_along (guarded_step hguard) hrun hsettles hinitial
  exact hguarded.drained

def timedOutActions : List LinkAction :=
  startIdentify :: serve (fun _ => silent) ++
    [.runner .requeue, .runner (.drain 2 []), .runner .check, startIdentify] ++
    serve fun _ => receiving identifyResponse.encoding

theorem isSome_timedOutActions :
    (plainLink.run plainSetup timedOutActions).isSome := by
  decide +kernel

theorem run_drains_timedOut :
    LateDrained ((plainLink.run plainSetup timedOutActions).get
      isSome_timedOutActions).log :=
  run_drains plainSetup _ _ _ _ _ timedOutActions _ (by decide)
    (Option.some_get isSome_timedOutActions).symm (by decide +kernel)

def retriedAttempts : Nat → Attempt
  | 0 => silent
  | _ => receiving identifyResponse.encoding

def retriedActions : List LinkAction :=
  startIdentify :: serve retriedAttempts ++
    [.runner .settle, .runner (.complete 2), .runner .check, startIdentify] ++
    serve fun _ => receiving identifyResponse.encoding

theorem log_retriedActions :
    (plainLink.run plainSetup retriedActions).map
        (fun state => (state.log, state.port.channelUsable)) =
      some ([.transmitted 0, .timedOut 0, .transmitted 0, .concluded 0,
        .transmitted 1, .concluded 1], true) := by
  decide +kernel

/-- The other job transmits with the timeout behind it still undrained. -/
theorem retriedActions_undrained :
    plainSetup.lateResponseGuard ≠ 0 ∧
      ∃ state, plainLink.run plainSetup retriedActions = some state ∧
        state.port.channelUsable = true ∧ ¬ LateDrained state.log := by
  refine ⟨by decide, ?_⟩
  obtain ⟨state, hrun, hlog⟩ := Option.map_eq_some_iff.mp log_retriedActions
  injection hlog with hlog husable
  refine ⟨state, hrun, husable, ?_⟩
  intro hdrained
  rw [hlog] at hdrained
  obtain ⟨k, hafter, hbefore, hk⟩ := hdrained 1 4 0 1 (by decide) rfl rfl
    (by decide) (by decide)
  have hcases : k = 2 ∨ k = 3 := by omega
  rcases hcases with rfl | rfl <;> contradiction

end LinkState

end HartLink.Service
