import HartLink.Service.Retry

/-!
# The calls of the channel

A stream is broken by a send that fails or does not end in time, and by a
receive that fails otherwise than by a timeout or gives no bytes or too many.
The functions here list the calls that the loops make, with what the
surroundings give them; `Ends` says that nothing is called after a broken call
and that the port remembers it.
-/

namespace HartLink.Service

open HartLink.Foundation
open HartLink.Wire
open HartLink.Operation

/-- A call, and whether it leaves the stream intact. -/
inductive ChannelCall where
  | send (bytes : Bytes) (intact : Bool)
  | receive (intact : Bool)
  deriving DecidableEq, Repr

def ChannelCall.intact : ChannelCall → Bool
  | .send _ intact | .receive intact => intact

def ChannelCall.bytes : ChannelCall → Option Bytes
  | .send bytes _ => some bytes
  | .receive _ => none

def Received.intact (readBufferSize : Nat) : Received → Bool
  | .error cause => isReceiveTimeout cause
  | .read fragment =>
      0 < fragment.length ∧ fragment.length ≤ readBufferSize

def Sent.intact (deadline : Nat) (sent : Sent) : Bool :=
  sent.instant ≤ deadline ∧ sent.error = none

namespace LinkPort

/-- The receives of `exchange_once`; the last one may run into the deadline. -/
def awaitCalls (id : UInt64) (requestFrame : Frame) (deadline : Nat) :
    LinkPort → List Arrival → List ChannelCall
  | _, [] => [.receive true]
  | port, ⟨instant, received⟩ :: arrivals =>
      if deadline < instant then [.receive true]
      else
        .receive (received.intact port.readBufferSize) ::
          match received with
          | .error _ => []
          | .read fragment =>
              if Received.intact port.readBufferSize (.read fragment) then
                let (events, port) := port.push fragment
                match acceptEvents id requestFrame port events with
                | (_, some _) => []
                | (port, none) =>
                    awaitCalls id requestFrame deadline port arrivals
              else []

def exchangeOnceCalls (port : LinkPort) (id : UInt64) (requestFrame : Frame)
    (encoded : Bytes) (deadline : Nat) (sent : Sent)
    (arrivals : List Arrival) : List ChannelCall :=
  .send encoded (sent.intact deadline) ::
    if sent.intact deadline then
      awaitCalls id requestFrame deadline
        { port with sent := port.sent ++ [encoded] } arrivals
    else []

def drainLoopCalls (deadline : Nat) :
    LinkPort → List Arrival → List ChannelCall
  | _, [] => [.receive true]
  | port, ⟨instant, received⟩ :: arrivals =>
      if deadline < instant then [.receive true]
      else
        .receive (received.intact port.readBufferSize) ::
          match port.processIdleInput received with
          | (port, true) => drainLoopCalls deadline port arrivals
          | (_, false) => []

def drainCalls (port : LinkPort) (horizon now guard : Nat)
    (arrivals : List Arrival) : List ChannelCall :=
  if guard = 0 then []
  else
    match checkedAdd horizon now guard with
    | none => []
    | some deadline => drainLoopCalls deadline port arrivals

end LinkPort

def exchangeLoopCalls (horizon : Nat) (job : Job) (frame : Frame)
    (encoded : Bytes) (surroundings : Nat → Attempt) :
    Nat → Nat → Retries → LinkPort → List ChannelCall
  | 0, _, _, _ => []
  | bound + 1, index, retries, port =>
      let attempt := surroundings index
      let deadline := exchangeDeadline horizon attempt.startedAt job
      let (after, outcome) := port.exchangeOnce job.id frame encoded deadline
        attempt.sent attempt.arrivals
      port.exchangeOnceCalls job.id frame encoded deadline attempt.sent
          attempt.arrivals ++
        match turn horizon job attempt retries outcome after with
        | (_, .over _) => []
        | (port, .again retries) =>
            exchangeLoopCalls horizon job frame encoded surroundings bound
              (index + 1) retries port

def exchangeCalls (horizon now : Nat) (job : Job)
    (surroundings : Nat → Attempt) (port : LinkPort) : List ChannelCall :=
  if now ≥ job.deadline then []
  else
    match job.request.toFrame with
    | .error _ => []
    | .ok frame =>
        match frame.encode with
        | .error _ => []
        | .ok frameBytes =>
            exchangeLoopCalls horizon job frame
              (job.transmitPrefix ++ frameBytes) surroundings maximumAttempts 0
              {} port

/-! ## Nothing is called after a broken call -/

inductive Ends (calls : List ChannelCall) (port after : LinkPort) : Prop
  | intact (all : ∀ call ∈ calls, call.intact = true)
      (usable : after.channelUsable = port.channelUsable)
  | broken (before : List ChannelCall) (call : ChannelCall)
      (eq : calls = before ++ [call])
      (all : ∀ call ∈ before, call.intact = true)
      (broken : call.intact = false)
      (unusable : after.channelUsable = false)

section Ends

variable {calls earlier : List ChannelCall} {port middle after : LinkPort}

theorem Ends.append (hearlier : ∀ call ∈ earlier, call.intact = true)
    (hmiddle : middle.channelUsable = port.channelUsable)
    (h : Ends calls middle after) : Ends (earlier ++ calls) port after := by
  cases h with
  | intact all usable =>
      refine .intact ?_ (usable.trans hmiddle)
      intro call hcall
      rcases List.mem_append.mp hcall with hfirst | hsecond
      · exact hearlier call hfirst
      · exact all call hsecond
  | broken before call eq all broken unusable =>
      refine .broken (earlier ++ before) call ?_ ?_ broken unusable
      · rw [eq, List.append_assoc]
      · intro other hother
        rcases List.mem_append.mp hother with hfirst | hsecond
        · exact hearlier other hfirst
        · exact all other hsecond

theorem Ends.cons {call : ChannelCall} (hcall : call.intact = true)
    (hmiddle : middle.channelUsable = port.channelUsable)
    (h : Ends calls middle after) : Ends (call :: calls) port after :=
  @Ends.append calls [call] port middle after
    (fun _ hmem => List.mem_singleton.mp hmem ▸ hcall) hmiddle h

theorem ends_single {call : ChannelCall} (hbroken : call.intact = false)
    (hunusable : after.channelUsable = false) : Ends [call] port after :=
  .broken [] call rfl (fun _ hmem => absurd hmem List.not_mem_nil) hbroken
    hunusable

theorem ends_nil (port : LinkPort) : Ends [] port port :=
  .intact (fun _ hmem => absurd hmem List.not_mem_nil) rfl

theorem ends_timeout (port : LinkPort) :
    Ends [.receive true] port port :=
  .intact (fun _ hmem => List.mem_singleton.mp hmem ▸ rfl) rfl

end Ends

namespace LinkPort

theorem ends_awaitReply (id : UInt64) (requestFrame : Frame)
    (deadline : Nat) (port : LinkPort) (arrivals : List Arrival) :
    Ends (awaitCalls id requestFrame deadline port arrivals) port
        (awaitReply id requestFrame deadline port arrivals).1 ∧
      ((∃ call ∈ awaitCalls id requestFrame deadline port arrivals,
          call.intact = false) →
        ∃ error, (awaitReply id requestFrame deadline port arrivals).2 =
          .error error ∧ error ≠ .responseTimeout) := by
  induction arrivals generalizing port with
  | nil =>
      refine ⟨ends_timeout port, ?_⟩
      simp [awaitCalls, ChannelCall.intact]
  | cons arrival arrivals ih =>
      obtain ⟨instant, received⟩ := arrival
      by_cases hlate : deadline < instant
      · have hcalls : awaitCalls id requestFrame deadline port
            (⟨instant, received⟩ :: arrivals) = [.receive true] := by
          cases received <;> simp only [awaitCalls, if_pos hlate]
        have hport : (awaitReply id requestFrame deadline port
            (⟨instant, received⟩ :: arrivals)).1 = port := by
          cases received <;> simp only [awaitReply, if_pos hlate]
        rw [hcalls, hport]
        exact ⟨ends_timeout port, by simp [ChannelCall.intact]⟩
      · cases received with
        | error cause =>
            simp only [awaitCalls, awaitReply, if_neg hlate, Received.intact]
            cases htimeout : isReceiveTimeout cause with
            | true =>
                exact ⟨ends_timeout port, by simp [ChannelCall.intact]⟩
            | false =>
                refine ⟨ends_single rfl rfl, fun _ => ?_⟩
                exact ⟨_, rfl, by simp⟩
        | read fragment =>
            simp only [awaitCalls, awaitReply, if_neg hlate]
            by_cases hempty : fragment.length = 0
            · simp only [Received.intact, hempty, if_pos]
              exact ⟨ends_single rfl rfl, fun _ => ⟨_, rfl, by simp⟩⟩
            · by_cases hlarge : fragment.length > port.readBufferSize
              · have hbroken : ¬ (0 < fragment.length ∧
                    fragment.length ≤ port.readBufferSize) := by
                  omega
                simp only [Received.intact, hbroken, if_neg hempty,
                  if_pos hlarge, decide_false, Bool.false_eq_true, if_false]
                exact ⟨ends_single rfl rfl, fun _ => ⟨_, rfl, by simp⟩⟩
              · have hfits : 0 < fragment.length ∧
                    fragment.length ≤ port.readBufferSize := by
                  omega
                have hevents := sameChannel_acceptEvents id requestFrame
                  (port.push fragment).2 (port.push fragment).1
                simp only [Received.intact, hfits, if_neg hempty,
                  if_neg hlarge, and_self, decide_true, if_true]
                cases haccept : acceptEvents id requestFrame
                    (port.push fragment).2 (port.push fragment).1 with
                | mk after found =>
                    rw [haccept] at hevents
                    cases found with
                    | some reply =>
                        refine ⟨.intact ?_ hevents.channelUsable, ?_⟩
                        · simp [ChannelCall.intact]
                        · simp [ChannelCall.intact]
                    | none =>
                        obtain ⟨hends, houtcome⟩ := ih after
                        refine ⟨hends.cons rfl hevents.channelUsable, ?_⟩
                        rintro ⟨call, hcall, hbroken⟩
                        rcases List.mem_cons.mp hcall with rfl | hrest
                        · contradiction
                        · exact houtcome ⟨call, hrest, hbroken⟩

theorem ends_exchangeOnce (port : LinkPort) (id : UInt64)
    (requestFrame : Frame) (encoded : Bytes) (deadline : Nat) (sent : Sent)
    (arrivals : List Arrival) :
    Ends (port.exchangeOnceCalls id requestFrame encoded deadline sent
        arrivals) port
        (port.exchangeOnce id requestFrame encoded deadline sent arrivals).1 ∧
      ((∃ call ∈ port.exchangeOnceCalls id requestFrame encoded deadline sent
          arrivals, call.intact = false) →
        ∃ error, (port.exchangeOnce id requestFrame encoded deadline sent
          arrivals).2 = .error error ∧ error ≠ .responseTimeout) := by
  unfold exchangeOnceCalls exchangeOnce
  dsimp only
  by_cases hlate : deadline < sent.instant
  · have hbroken : sent.intact deadline = false := by
      simp only [Sent.intact, decide_eq_false_iff_not]
      omega
    simp only [hbroken, Bool.false_eq_true, if_false, if_pos hlate]
    exact ⟨ends_single rfl rfl, fun _ => ⟨_, rfl, by simp⟩⟩
  · cases herror : sent.error with
    | some error =>
        have hbroken : sent.intact deadline = false := by
          simp [Sent.intact, herror]
        simp only [hbroken, Bool.false_eq_true, if_false, if_neg hlate]
        exact ⟨ends_single rfl rfl, fun _ => ⟨_, rfl, by simp⟩⟩
    | none =>
        have hintact : sent.intact deadline = true := by
          simp only [Sent.intact, herror, and_true, decide_eq_true_eq]
          omega
        simp only [hintact, if_true, if_neg hlate]
        obtain ⟨hends, houtcome⟩ := ends_awaitReply id requestFrame deadline
          { port with sent := port.sent ++ [encoded] } arrivals
        have husable : ({ port with sent := port.sent ++ [encoded] } :
            LinkPort).channelUsable = port.channelUsable := rfl
        refine ⟨hends.cons rfl husable, ?_⟩
        rintro ⟨call, hcall, hbroken⟩
        rcases List.mem_cons.mp hcall with rfl | hrest
        · contradiction
        · exact houtcome ⟨call, hrest, hbroken⟩

/-! ## Idle input -/

theorem processIdleInput_snd (port : LinkPort) (received : Received) :
    (port.processIdleInput received).2 =
      received.intact port.readBufferSize := by
  cases received with
  | error cause =>
      unfold processIdleInput Received.intact
      dsimp only
      split_ifs with htimeout
      · exact htimeout.symm
      · simpa using htimeout
      · simpa using htimeout
  | read fragment =>
      unfold processIdleInput Received.intact
      dsimp only
      split_ifs
      · simp only [Bool.false_eq, decide_eq_false_iff_not]
        omega
      · simp only [Bool.false_eq, decide_eq_false_iff_not]
        omega
      · simp only [Bool.true_eq, decide_eq_true_eq]
        omega

theorem kept_processIdleInput (port : LinkPort) (received : Received) :
    (port.processIdleInput received).1.channelUsable = port.channelUsable ∧
      (port.processIdleInput received).1.sent = port.sent := by
  unfold processIdleInput
  split
  · split_ifs <;> exact ⟨rfl, rfl⟩
  · split_ifs
    · exact ⟨rfl, rfl⟩
    · exact ⟨rfl, rfl⟩
    next fragment _ _ =>
      have hsame := sameChannel_foldl_idleEvent (port.push fragment).2
        (port.push fragment).1
      exact ⟨hsame.channelUsable, hsame.sent⟩

theorem ends_drainLoop (deadline : Nat) (port : LinkPort)
    (arrivals : List Arrival) :
    Ends (drainLoopCalls deadline port arrivals) port
      (drainLoop deadline port arrivals) := by
  induction arrivals generalizing port with
  | nil => exact ends_timeout port
  | cons arrival arrivals ih =>
      obtain ⟨instant, received⟩ := arrival
      unfold drainLoopCalls drainLoop
      split_ifs
      · exact ends_timeout port
      · have hintact := processIdleInput_snd port received
        have husable := (kept_processIdleInput port received).1
        rw [← hintact]
        cases hidle : port.processIdleInput received with
        | mk after usable =>
            rw [hidle] at husable
            cases usable with
            | true => exact (ih after).cons rfl husable
            | false => exact ends_single rfl rfl

theorem ends_drain (port : LinkPort) (horizon now guard : Nat)
    (arrivals : List Arrival) :
    Ends (port.drainCalls horizon now guard arrivals) port
      (port.drainLateResponses horizon now guard arrivals) := by
  unfold drainCalls drainLateResponses
  split_ifs
  · exact ends_nil port
  · cases hdeadline : checkedAdd horizon now guard with
    | none => exact ends_nil port
    | some deadline => exact ends_drainLoop deadline port arrivals

end LinkPort

/-! ## The retry loop -/

section Loop

variable {horizon : Nat} {job : Job} {attempt : Attempt} {retries : Retries}
  {port : LinkPort}

theorem channelUsable_turn (horizon : Nat) (job : Job) (attempt : Attempt)
    (retries : Retries) (outcome : Except ExchangeError DeviceReply)
    (port : LinkPort) :
    (turn horizon job attempt retries outcome port).1.channelUsable =
      port.channelUsable := by
  unfold turn
  split
  · rfl
  simp only
  split
  · rfl
  split_ifs <;> rfl

/-- Only a timeout is tried again. -/
theorem turn_of_error {error : ExchangeError}
    (h : error ≠ .responseTimeout) :
    turn horizon job attempt retries (.error error) port =
      (port, .over (.error error)) := by
  have hjudge : judgeAttempt job retries (.error error) =
      .finish (.error error) := by
    simp [judgeAttempt, isRetryableTransportError, h]
  rw [turn, hjudge]

theorem ends_exchangeLoop (horizon : Nat) (job : Job) (frame : Frame)
    (encoded : Bytes) (surroundings : Nat → Attempt)
    (bound index checkedAt : Nat) (retries : Retries) (port : LinkPort) :
    Ends (exchangeLoopCalls horizon job frame encoded surroundings bound index
        retries port) port
        (exchangeLoop horizon job frame encoded surroundings bound index
          checkedAt retries port).port ∧
      ((∃ call ∈ exchangeLoopCalls horizon job frame encoded surroundings
          bound index retries port, call.intact = false) →
        ∃ error, (exchangeLoop horizon job frame encoded surroundings bound
          index checkedAt retries port).result = .error error) := by
  induction bound generalizing index checkedAt retries port with
  | zero =>
      exact ⟨ends_nil port, fun _ => ⟨_, rfl⟩⟩
  | succ bound ih =>
      have honce := port.ends_exchangeOnce job.id frame encoded
        (exchangeDeadline horizon (surroundings index).startedAt job)
        (surroundings index).sent (surroundings index).arrivals
      simp only [exchangeLoopCalls, exchangeLoop]
      cases hattempt : port.exchangeOnce job.id frame encoded
          (exchangeDeadline horizon (surroundings index).startedAt job)
          (surroundings index).sent (surroundings index).arrivals with
      | mk after outcome =>
          rw [hattempt] at honce
          obtain ⟨hends, houtcome⟩ := honce
          cases hends with
          | broken before call eq all broken unusable =>
              obtain ⟨error, herror, hother⟩ := houtcome
                ⟨call, by rw [eq]; simp, broken⟩
              dsimp only at herror
              rw [herror]
              dsimp only
              rw [turn_of_error hother]
              refine ⟨?_, fun _ => ⟨error, rfl⟩⟩
              exact .broken before call (by rw [eq, List.append_nil]) all
                broken unusable
          | intact all usable =>
              have hturn := channelUsable_turn horizon job
                (surroundings index) retries outcome after
              dsimp only
              cases hnext : turn horizon job (surroundings index) retries
                  outcome after with
              | mk later next =>
                  rw [hnext] at hturn
                  have hlater := hturn.trans usable
                  rcases next with result | retries
                  · rw [List.append_nil]
                    refine ⟨.intact all hlater, ?_⟩
                    rintro ⟨call, hcall, hbroken⟩
                    rw [all call hcall] at hbroken
                    contradiction
                  · obtain ⟨hends, herror⟩ := ih (index + 1)
                      (surroundings index).checkedAt retries later
                    refine ⟨hends.append all hlater, ?_⟩
                    rintro ⟨call, hcall, hbroken⟩
                    rcases List.mem_append.mp hcall with hfirst | hrest
                    · rw [all call hfirst] at hbroken
                      contradiction
                    · exact herror ⟨call, hrest, hbroken⟩

theorem ends_exchange (horizon now : Nat) (job : Job)
    (surroundings : Nat → Attempt) (port : LinkPort) :
    Ends (exchangeCalls horizon now job surroundings port) port
        (exchange horizon now job surroundings port).port ∧
      ((∃ call ∈ exchangeCalls horizon now job surroundings port,
          call.intact = false) →
        ∃ error, (exchange horizon now job surroundings port).result =
          .error error) := by
  unfold exchangeCalls exchange
  split_ifs
  · exact ⟨ends_nil port, fun _ => ⟨_, rfl⟩⟩
  · cases hframe : job.request.toFrame with
    | error error => exact ⟨ends_nil port, fun _ => ⟨_, rfl⟩⟩
    | ok frame =>
        cases hencoded : frame.encode with
        | error error =>
            simp only [hencoded]
            exact ⟨ends_nil port, fun _ => ⟨_, rfl⟩⟩
        | ok frameBytes =>
            simp only [hencoded]
            exact ends_exchangeLoop _ _ _ _ _ _ _ _ _ _

/-! ## The sends are what the port records -/

theorem bytes_awaitCalls (id : UInt64) (requestFrame : Frame)
    (deadline : Nat) (port : LinkPort) (arrivals : List Arrival) :
    (port.awaitCalls id requestFrame deadline arrivals).filterMap
      ChannelCall.bytes = [] := by
  induction arrivals generalizing port with
  | nil => rfl
  | cons arrival arrivals ih =>
      obtain ⟨instant, received⟩ := arrival
      cases received with
      | error cause =>
          simp only [LinkPort.awaitCalls]
          split_ifs <;> rfl
      | read fragment =>
          simp only [LinkPort.awaitCalls]
          split_ifs
          · rfl
          · split
            · rfl
            · exact ih _
          · rfl

theorem bytes_exchangeOnceCalls (port : LinkPort) (id : UInt64)
    (requestFrame : Frame) (encoded : Bytes) (deadline : Nat) (sent : Sent)
    (arrivals : List Arrival) :
    (port.exchangeOnceCalls id requestFrame encoded deadline sent
      arrivals).filterMap ChannelCall.bytes = [encoded] := by
  unfold LinkPort.exchangeOnceCalls
  split_ifs
  · exact congrArg (encoded :: ·) (bytes_awaitCalls _ _ _ _ _)
  · rfl

theorem sent_drainLoopCalls (deadline : Nat) (port : LinkPort)
    (arrivals : List Arrival) :
    (port.drainLoop deadline arrivals).sent = port.sent ∧
      (port.drainLoopCalls deadline arrivals).filterMap ChannelCall.bytes =
        [] := by
  induction arrivals generalizing port with
  | nil => exact ⟨rfl, rfl⟩
  | cons arrival arrivals ih =>
      obtain ⟨instant, received⟩ := arrival
      unfold LinkPort.drainLoop LinkPort.drainLoopCalls
      split_ifs
      · exact ⟨rfl, rfl⟩
      · have hsent := (port.kept_processIdleInput received).2
        cases hidle : port.processIdleInput received with
        | mk after usable =>
            rw [hidle] at hsent
            cases usable with
            | true => exact ⟨(ih after).1.trans hsent, (ih after).2⟩
            | false => exact ⟨hsent, rfl⟩

theorem sent_drainCalls (port : LinkPort) (horizon now guard : Nat)
    (arrivals : List Arrival) :
    (port.drainLateResponses horizon now guard arrivals).sent =
      port.sent ++ (port.drainCalls horizon now guard arrivals).filterMap
        ChannelCall.bytes := by
  unfold LinkPort.drainLateResponses LinkPort.drainCalls
  split_ifs
  · exact (List.append_nil _).symm
  · cases hdeadline : checkedAdd horizon now guard with
    | none => exact (List.append_nil _).symm
    | some deadline =>
        obtain ⟨hsent, hbytes⟩ := sent_drainLoopCalls deadline port arrivals
        simp only [hsent, hbytes, List.append_nil]

theorem sent_exchangeLoopCalls (horizon : Nat) (job : Job) (frame : Frame)
    (encoded : Bytes) (surroundings : Nat → Attempt)
    (bound index checkedAt : Nat) (retries : Retries) (port : LinkPort) :
    (exchangeLoop horizon job frame encoded surroundings bound index
        checkedAt retries port).port.sent =
      port.sent ++ (exchangeLoopCalls horizon job frame encoded surroundings
        bound index retries port).filterMap ChannelCall.bytes := by
  induction bound generalizing index checkedAt retries port with
  | zero => exact (List.append_nil _).symm
  | succ bound ih =>
      have honce := port.sent_exchangeOnce job.id frame encoded
        (exchangeDeadline horizon (surroundings index).startedAt job)
        (surroundings index).sent (surroundings index).arrivals
      simp only [exchangeLoopCalls, exchangeLoop, List.filterMap_append,
        bytes_exchangeOnceCalls]
      cases hattempt : port.exchangeOnce job.id frame encoded
          (exchangeDeadline horizon (surroundings index).startedAt job)
          (surroundings index).sent (surroundings index).arrivals with
      | mk after outcome =>
          rw [hattempt] at honce
          have hturn := sent_turn horizon job (surroundings index) retries
            outcome after
          dsimp only
          cases hnext : turn horizon job (surroundings index) retries
              outcome after with
          | mk later next =>
              rw [hnext] at hturn
              have hlater : later.sent = port.sent ++ [encoded] :=
                hturn.trans honce
              rcases next with result | retries
              · simpa using hlater
              · simp only [ExchangeRun.prepend]
                rw [ih, hlater, List.append_assoc]

theorem sent_exchangeCalls (horizon now : Nat) (job : Job)
    (surroundings : Nat → Attempt) (port : LinkPort) :
    (exchange horizon now job surroundings port).port.sent =
      port.sent ++ (exchangeCalls horizon now job surroundings
        port).filterMap ChannelCall.bytes := by
  unfold exchangeCalls exchange
  split_ifs
  · exact (List.append_nil _).symm
  · cases hframe : job.request.toFrame with
    | error error => exact (List.append_nil _).symm
    | ok frame =>
        cases hencoded : frame.encode with
        | error error =>
            simp only [hencoded]
            exact (List.append_nil _).symm
        | ok frameBytes =>
            simp only [hencoded]
            exact sent_exchangeLoopCalls _ _ _ _ _ _ _ _ _ _

end Loop

end HartLink.Service
