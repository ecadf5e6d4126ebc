import HartLink.Service.Poisoning
import HartLink.Service.Shutdown

/-!
# What the channel returns

The calls of the runner together with their results.  A channel that is a
program of its own determines the results; a transcript is what such a channel
is to be checked against.
-/

namespace HartLink.Service

open HartLink.Foundation
open HartLink.Wire
open HartLink.Operation

/-- A call with its result; the last kind is a receive that is given up. -/
inductive ChannelEntry where
  | sent (bytes : Bytes) (deadline : Nat) (result : Sent)
  | received (limit : Nat) (result : Received)
  | expired
  deriving DecidableEq, Repr

def ChannelEntry.call : ChannelEntry → ChannelCall
  | .sent bytes deadline result => .send bytes (result.intact deadline)
  | .received limit result => .receive (result.intact limit)
  | .expired => .receive true

namespace LinkPort

def awaitEntries (id : UInt64) (requestFrame : Frame) (deadline : Nat) :
    LinkPort → List Arrival → List ChannelEntry
  | _, [] => [.expired]
  | port, ⟨instant, received⟩ :: arrivals =>
      if deadline < instant then [.expired]
      else
        .received port.readBufferSize received ::
          match received with
          | .error _ => []
          | .read fragment =>
              if Received.intact port.readBufferSize (.read fragment) then
                let (events, port) := port.push fragment
                match acceptEvents id requestFrame port events with
                | (_, some _) => []
                | (port, none) =>
                    awaitEntries id requestFrame deadline port arrivals
              else []

def exchangeOnceEntries (port : LinkPort) (id : UInt64) (requestFrame : Frame)
    (encoded : Bytes) (deadline : Nat) (sent : Sent)
    (arrivals : List Arrival) : List ChannelEntry :=
  .sent encoded deadline sent ::
    if sent.intact deadline then
      awaitEntries id requestFrame deadline
        { port with sent := port.sent ++ [encoded] } arrivals
    else []

def drainLoopEntries (deadline : Nat) :
    LinkPort → List Arrival → List ChannelEntry
  | _, [] => [.expired]
  | port, ⟨instant, received⟩ :: arrivals =>
      if deadline < instant then [.expired]
      else
        .received port.readBufferSize received ::
          match port.processIdleInput received with
          | (port, true) => drainLoopEntries deadline port arrivals
          | (_, false) => []

def drainEntries (port : LinkPort) (horizon now guard : Nat)
    (arrivals : List Arrival) : List ChannelEntry :=
  if guard = 0 then []
  else
    match checkedAdd horizon now guard with
    | none => []
    | some deadline => drainLoopEntries deadline port arrivals

end LinkPort

def exchangeLoopEntries (horizon : Nat) (job : Job) (frame : Frame)
    (encoded : Bytes) (surroundings : Nat → Attempt) :
    Nat → Nat → Retries → LinkPort → List ChannelEntry
  | 0, _, _, _ => []
  | bound + 1, index, retries, port =>
      let attempt := surroundings index
      let deadline := exchangeDeadline horizon attempt.startedAt job
      let (after, outcome) := port.exchangeOnce job.id frame encoded deadline
        attempt.sent attempt.arrivals
      port.exchangeOnceEntries job.id frame encoded deadline attempt.sent
          attempt.arrivals ++
        match turn horizon job attempt retries outcome after with
        | (_, .over _) => []
        | (port, .again retries) =>
            exchangeLoopEntries horizon job frame encoded surroundings bound
              (index + 1) retries port

def exchangeEntries (horizon now : Nat) (job : Job)
    (surroundings : Nat → Attempt) (port : LinkPort) : List ChannelEntry :=
  if now ≥ job.deadline then []
  else
    match job.request.toFrame with
    | .error _ => []
    | .ok frame =>
        match frame.encode with
        | .error _ => []
        | .ok frameBytes =>
            exchangeLoopEntries horizon job frame
              (job.transmitPrefix ++ frameBytes) surroundings maximumAttempts 0
              {} port

def LinkState.transcript (setup : LinkSetup) (state : LinkState) :
    LinkAction → List ChannelEntry
  | .runner (.receive received) =>
      [.received state.port.readBufferSize received]
  | .runner (.exchange now surroundings) =>
      match state.phase with
      | .exchanging _ job _ _ =>
          exchangeEntries setup.horizon now job surroundings state.port
      | _ => []
  | .runner (.drain now arrivals) =>
      state.port.drainEntries setup.horizon now setup.lateResponseGuard
        arrivals
  | _ => []

/-! ## The calls of a transcript -/

theorem LinkPort.call_awaitEntries (id : UInt64) (requestFrame : Frame)
    (deadline : Nat) (port : LinkPort) (arrivals : List Arrival) :
    (port.awaitEntries id requestFrame deadline arrivals).map
        ChannelEntry.call =
      port.awaitCalls id requestFrame deadline arrivals := by
  induction arrivals generalizing port with
  | nil => rfl
  | cons arrival arrivals ih =>
      obtain ⟨instant, received⟩ := arrival
      unfold awaitEntries awaitCalls
      split_ifs
      · rfl
      rw [List.map_cons]
      refine congrArg₂ List.cons rfl ?_
      cases received with
      | error cause => rfl
      | read fragment =>
          dsimp only
          split_ifs
          · cases haccept : acceptEvents id requestFrame (port.push fragment).2
                (port.push fragment).1 with
            | mk after found =>
                cases found with
                | some reply => rfl
                | none => exact ih after
          · rfl

theorem LinkPort.call_exchangeOnceEntries (port : LinkPort) (id : UInt64)
    (requestFrame : Frame) (encoded : Bytes) (deadline : Nat) (sent : Sent)
    (arrivals : List Arrival) :
    (port.exchangeOnceEntries id requestFrame encoded deadline sent
        arrivals).map ChannelEntry.call =
      port.exchangeOnceCalls id requestFrame encoded deadline sent
        arrivals := by
  unfold exchangeOnceEntries exchangeOnceCalls
  split_ifs
  · exact congrArg₂ List.cons rfl (call_awaitEntries ..)
  · rfl

theorem LinkPort.call_drainLoopEntries (deadline : Nat) (port : LinkPort)
    (arrivals : List Arrival) :
    (port.drainLoopEntries deadline arrivals).map ChannelEntry.call =
      port.drainLoopCalls deadline arrivals := by
  induction arrivals generalizing port with
  | nil => rfl
  | cons arrival arrivals ih =>
      obtain ⟨instant, received⟩ := arrival
      unfold drainLoopEntries drainLoopCalls
      split_ifs
      · rfl
      rw [List.map_cons]
      refine congrArg₂ List.cons rfl ?_
      cases hidle : port.processIdleInput received with
      | mk after usable =>
          cases usable with
          | true => exact ih after
          | false => rfl

theorem LinkPort.call_drainEntries (port : LinkPort)
    (horizon now guard : Nat) (arrivals : List Arrival) :
    (port.drainEntries horizon now guard arrivals).map ChannelEntry.call =
      port.drainCalls horizon now guard arrivals := by
  unfold drainEntries drainCalls
  split_ifs
  · rfl
  · cases checkedAdd horizon now guard with
    | none => rfl
    | some deadline => exact call_drainLoopEntries ..

theorem call_exchangeLoopEntries (horizon : Nat) (job : Job) (frame : Frame)
    (encoded : Bytes) (surroundings : Nat → Attempt) (bound index : Nat)
    (retries : Retries) (port : LinkPort) :
    (exchangeLoopEntries horizon job frame encoded surroundings bound index
        retries port).map ChannelEntry.call =
      exchangeLoopCalls horizon job frame encoded surroundings bound index
        retries port := by
  induction bound generalizing index retries port with
  | zero => rfl
  | succ bound ih =>
      unfold exchangeLoopEntries exchangeLoopCalls
      dsimp only
      rw [List.map_append, LinkPort.call_exchangeOnceEntries]
      congr 1
      generalize turn horizon job (surroundings index) retries _ _ = turned
      obtain ⟨after, result | retries⟩ := turned
      · rfl
      · exact ih ..

theorem call_exchangeEntries (horizon now : Nat) (job : Job)
    (surroundings : Nat → Attempt) (port : LinkPort) :
    (exchangeEntries horizon now job surroundings port).map
        ChannelEntry.call =
      exchangeCalls horizon now job surroundings port := by
  unfold exchangeEntries exchangeCalls
  split_ifs
  · rfl
  · cases hframe : job.request.toFrame with
    | error error => rfl
    | ok frame =>
        cases hencoded : frame.encode with
        | error error =>
            simp only [hencoded]
            rfl
        | ok frameBytes =>
            simp only [hencoded]
            exact call_exchangeLoopEntries ..

theorem LinkState.call_transcript (setup : LinkSetup) (state : LinkState)
    (action : LinkAction) :
    (state.transcript setup action).map ChannelEntry.call =
      state.calls setup action := by
  cases action with
  | client action => rfl
  | runner action =>
      cases action with
      | receive received => rfl
      | exchange now surroundings =>
          unfold transcript calls
          cases state.phase with
          | exchanging queue job reply followers =>
              exact call_exchangeEntries ..
          | _ => rfl
      | drain now arrivals => exact LinkPort.call_drainEntries ..
      | _ => rfl

/-! ## A channel that stays intact -/

theorem LinkState.clientsAlive_gather (setup : LinkSetup) (state : LinkState)
    (queue : QueueId) (job : Job) (reply : ReplyId) (followers : List Job) :
    (state.gather setup queue job reply followers).clientsAlive =
      state.clientsAlive := by
  unfold gather
  split_ifs
  · rfl
  split
  · rfl
  split_ifs <;> rfl

theorem LinkState.clientsAlive_runnerStep {setup : LinkSetup}
    {state next : LinkState} {action : RunnerAction}
    (h : state.runnerStep setup action = some next) :
    next.clientsAlive = state.clientsAlive := by
  unfold runnerStep at h
  split at h
  all_goals first | contradiction | injection h with h; subst h
  next hphase =>
    unfold poll
    split <;> rfl
  · rfl
  · rfl
  · rfl
  next hphase =>
    unfold begin
    dsimp only
    split
    · exact clientsAlive_conclude ..
    · split_ifs
      · exact clientsAlive_conclude ..
      · rfl
  · exact clientsAlive_gather ..
  · rfl
  · exact clientsAlive_conclude ..
  next hphase =>
    unfold complete
    split
    · rfl
    · exact clientsAlive_conclude ..
  next hphase =>
    unfold requeue
    split
    · rfl
    · exact clientsAlive_conclude ..
  · rfl
  · rfl
  · rfl
  next hphase =>
    unfold fail
    split
    · rfl
    · split
      · rfl
      · exact clientsAlive_conclude ..

theorem LinkState.clientsAlive_of_step {setup : LinkSetup}
    {state next : LinkState} {action : LinkAction}
    (h : state.step setup action = some next)
    (halive : next.clientsAlive = true) : state.clientsAlive = true := by
  cases action with
  | runner action => exact (clientsAlive_runnerStep h).symm.trans halive
  | client action =>
      cases action with
      | dropReply reply =>
          injection h with h
          subst h
          exact halive
      | start request transmitPrefix queue policy checkedAt acceptedAt =>
          simp only [step, clientStep] at h
          split_ifs at h with hstate
          exact hstate
      | setPriority queue priority =>
          simp only [step, clientStep] at h
          split_ifs at h with hstate
          exact hstate
      | dropClients =>
          simp only [step, clientStep] at h
          split_ifs at h with hstate
          exact hstate

namespace LinkState

variable {setup : LinkSetup} {state next : LinkState} {action : LinkAction}

theorem Ends.of_intact {calls : List ChannelCall} {port after : LinkPort}
    (h : Ends calls port after) (hintact : ∀ call ∈ calls, call.intact = true) :
    after.channelUsable = port.channelUsable := by
  cases h with
  | intact all usable => exact usable
  | broken before call eq all broken unusable =>
      rw [hintact call (by rw [eq]; simp)] at broken
      contradiction

theorem channelUsable_step (h : state.step setup action = some next)
    (hintact : ∀ call ∈ state.calls setup action, call.intact = true) :
    next.port.channelUsable = state.port.channelUsable := by
  cases action with
  | client action =>
      have hport := (clientStep_change h).port
      rw [hport]
  | runner action =>
      cases channelStep h with
      | quiet talks port log => rw [port]
      | receive phase eq =>
          subst eq
          exact (state.port.kept_processIdleInput _).1
      | exchange phase eq =>
          rename_i queue job reply followers now surroundings
          have hcalls : state.calls setup
              (.runner (.exchange now surroundings)) =
              exchangeCalls setup.horizon now job surroundings
                state.port := by
            simp only [calls, phase]
          rw [hcalls] at hintact
          subst eq
          exact Ends.of_intact (ends_exchange setup.horizon now job
            surroundings state.port).1 hintact
      | drain phase eq =>
          subst eq
          exact Ends.of_intact (state.port.ends_drain ..) hintact

end LinkState

end HartLink.Service
