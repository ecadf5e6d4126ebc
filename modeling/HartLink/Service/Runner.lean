import HartLink.Foundation.Steps
import HartLink.Service.Admission
import HartLink.Service.Exchange
import HartLink.Service.QueueSet

/-!
# The link as a system of clients and one runner

The state holds what the clients and the runner share and where the runner
stands in `run`.  One action is one atomic step of a client or of the runner,
with what the clock, the channel and the device do in it.  Client steps may come
between any two steps of the runner.

`accepted`, `outcomes`, `replies` and `log` record which requests were accepted,
how they were counted, which oneshot senders were used and what happened on the
channel; no step reads them.
-/

namespace HartLink.Service

open HartLink.Foundation
open HartLink.Wire
open HartLink.Operation

/-! ## The state -/

/-- A request, by the queue it was accepted into and its oneshot channel. -/
abbrev Ticket := QueueId × ReplyId

inductive Outcome where
  | completed
  | failed
  | cancelled
  deriving DecidableEq, Repr

/-- What happened on the channel for the job that owns the reply. -/
inductive LogEntry where
  | transmitted (reply : ReplyId)
  | timedOut (reply : ReplyId)
  | concluded (reply : ReplyId)
  | drained
  deriving DecidableEq, Repr

/-- Where the runner stands, with the entries it holds. -/
inductive Phase where
  | polling
  | polled
  | waiting
  | begun (queue : QueueId) (job : Job)
  | gathering (queue : QueueId) (job : Job) (reply : ReplyId)
      (followers : List Job)
  | exchanging (queue : QueueId) (job : Job) (reply : ReplyId)
      (followers : List Job)
  | succeeded (queue : QueueId) (job : Job) (reply : ReplyId)
      (followers : List Job) (value : DeviceReply)
  | completing (queue : QueueId) (followers : List Job) (value : DeviceReply)
  | requeueing (queue : QueueId) (job : Job) (reply : ReplyId)
      (followers : List Job) (error : ExchangeError)
  | draining
  | checking
  | stopping
  | failing (remaining : List QueueId)
  | stopped
  deriving DecidableEq, Repr

/-- What does not change while a link runs. -/
structure LinkSetup where
  client : LinkClient
  horizon : Nat
  maximumCoalesced : Nat
  lateResponseGuard : Nat

structure LinkState where
  queues : QueueSet Job
  port : LinkPort
  counters : Counters := {}
  cursor : QueueCursor := {}
  phase : Phase := .polling
  clientsAlive : Bool := true
  closedReplies : List ReplyId := []
  nextReply : ReplyId := 0
  accepted : List Ticket := []
  outcomes : List (Ticket × Outcome) := []
  replies : List (ReplyId × Except ExchangeError DeviceReply) := []
  log : List LogEntry := []

namespace LinkState

def initial (layout : List QueueConfig)
    (hlayout : (layout.map QueueConfig.id).Nodup) (limits : DecodeLimits)
    (readBufferSize : Nat) (burstHub : Bool) : LinkState where
  queues := .new layout hlayout
  port := { decoder := .new limits, readBufferSize, burstHub }

def emit (state : LinkState) (event : LinkEvent) : LinkState :=
  { state with port := state.port.emit event }

def enter (state : LinkState) (phase : Phase) : LinkState :=
  { state with phase }

def withQueues (state : LinkState) (queues : QueueSet Job) : LinkState :=
  { state with queues }

@[simp] theorem phase_enter (state : LinkState) (phase : Phase) :
    (state.enter phase).phase = phase := rfl

@[simp] theorem queues_enter (state : LinkState) (phase : Phase) :
    (state.enter phase).queues = state.queues := rfl

@[simp] theorem phase_withQueues (state : LinkState) (queues : QueueSet Job) :
    (state.withQueues queues).phase = state.phase := rfl

@[simp] theorem queues_withQueues (state : LinkState)
    (queues : QueueSet Job) :
    (state.withQueues queues).queues = queues := rfl

/-! ## Ending a request -/

def markCancelled (state : LinkState) (id : UInt64)
    (ticket : Option Ticket) : LinkState :=
  { state.emit (.cancelled id) with
    counters := { state.counters with
      cancelled := state.counters.cancelled + 1 }
    outcomes := state.outcomes ++ ticket.toList.map (·, .cancelled) }

def markCompleted (state : LinkState) (id : UInt64) (ticket : Ticket) :
    LinkState :=
  { state.emit (.completed id) with
    counters := { state.counters with
      completed := state.counters.completed + 1 }
    outcomes := state.outcomes ++ [(ticket, .completed)] }

def markFailed (state : LinkState) (id : UInt64) (ticket : Ticket)
    (error : ExchangeError) : LinkState :=
  { state.emit (.failed id (errorReason error)) with
    counters := { state.counters with failed := state.counters.failed + 1 }
    outcomes := state.outcomes ++ [(ticket, .failed)] }

def send (state : LinkState) (reply : ReplyId)
    (result : Except ExchangeError DeviceReply) : LinkState :=
  { state with replies := state.replies ++ [(reply, result)] }

/-- Counts a request and answers its waiter, unless the waiter is gone. -/
def conclude (state : LinkState) (queue : QueueId) (id : UInt64)
    (reply : Option ReplyId) (result : Except ExchangeError DeviceReply) :
    LinkState :=
  match reply with
  | none => state.markCancelled id none
  | some reply =>
      if reply ∈ state.closedReplies then
        state.markCancelled id (some (queue, reply))
      else
        match result with
        | .ok value =>
            (state.markCompleted id (queue, reply)).send reply (.ok value)
        | .error error =>
            (state.markFailed id (queue, reply) error).send reply
              (.error error)

/-- Ending a request changes the records and tells the observers. -/
theorem conclude_eq (state : LinkState) (queue : QueueId) (id : UInt64)
    (reply : Option ReplyId) (result : Except ExchangeError DeviceReply) :
    state.conclude queue id reply result =
      { state with
        counters := (state.conclude queue id reply result).counters
        port := { state.port with
          events := (state.conclude queue id reply result).port.events }
        outcomes := (state.conclude queue id reply result).outcomes
        replies := (state.conclude queue id reply result).replies } := by
  unfold conclude
  split
  · rfl
  · split_ifs
    · rfl
    · cases result <;> rfl

@[simp] theorem queues_conclude (state : LinkState) (queue : QueueId)
    (id : UInt64) (reply : Option ReplyId)
    (result : Except ExchangeError DeviceReply) :
    (state.conclude queue id reply result).queues = state.queues := by
  rw [conclude_eq]

@[simp] theorem phase_conclude (state : LinkState) (queue : QueueId)
    (id : UInt64) (reply : Option ReplyId)
    (result : Except ExchangeError DeviceReply) :
    (state.conclude queue id reply result).phase = state.phase := by
  rw [conclude_eq]

theorem port_conclude (state : LinkState) (queue : QueueId) (id : UInt64)
    (reply : Option ReplyId) (result : Except ExchangeError DeviceReply) :
    (state.conclude queue id reply result).port =
        { state.port with
          events := (state.conclude queue id reply result).port.events } ∧
      (state.conclude queue id reply result).log = state.log := by
  rw [conclude_eq]
  exact ⟨rfl, rfl⟩

end LinkState

/-! ## Steps of the clients -/

/-- What a client does in one step, and what the clock shows it. -/
inductive ClientAction where
  | start (request : Request) (transmitPrefix : Bytes) (queue : QueueId)
      (policy : RetryPolicy) (checkedAt acceptedAt : Nat)
  | dropReply (reply : ReplyId)
  | setPriority (queue : QueueId) (priority : QueuePriority)
  | dropClients

namespace LinkState

/--
Starting a request with a permit at hand: routing, admission and the push.  Every
failure leaves the queues as they were.
-/
def start (setup : LinkSetup) (state : LinkState) (request : Request)
    (transmitPrefix : Bytes) (requested : QueueId) (policy : RetryPolicy)
    (checkedAt acceptedAt : Nat) : LinkState :=
  match setup.client.resolveQueue state.queues.ids request requested with
  | .error _ => state
  | .ok queue =>
      let made := setup.client.makeJob
        ⟨setup.horizon, checkedAt, acceptedAt, state.nextReply⟩
        state.counters request transmitPrefix queue policy
      let state := { state with
        counters := made.2.1
        port := { state.port with
          events := state.port.events ++ made.2.2 } }
      match made.1 with
      | .error _ => state
      | .ok job =>
          match state.queues.tryPush queue job with
          | .error _ => state
          | .ok queues =>
              { state.emit (.queued job.id job.request.command queue) with
                queues
                nextReply := state.nextReply + 1
                accepted := state.accepted ++ [(queue, state.nextReply)] }

def clientStep (setup : LinkSetup) (state : LinkState) :
    ClientAction → Option LinkState
  | .start request transmitPrefix queue policy checkedAt acceptedAt =>
      if state.clientsAlive then
        some (state.start setup request transmitPrefix queue policy checkedAt
          acceptedAt)
      else none
  | .dropReply reply =>
      some { state with closedReplies := reply :: state.closedReplies }
  | .setPriority queue priority =>
      if state.clientsAlive then
        some { state with queues := state.queues.setPriority queue priority }
      else none
  | .dropClients =>
      if state.clientsAlive then
        some { state with
          clientsAlive := false, queues := state.queues.closeInput }
      else none

/-! ## What a client changes -/

inductive Pushes (state next : LinkState) : Prop
  | nothing (entries : next.queues.entries.Perm state.queues.entries)
      (ids : next.queues.ids = state.queues.ids)
      (runnerClosed : next.queues.runnerClosed = state.queues.runnerClosed)
      (accepted : next.accepted = state.accepted)
      (nextReply : next.nextReply = state.nextReply)
  | entry (queue : QueueId) (job : Job)
      (reply : job.reply = some state.nextReply)
      (known : queue ∈ state.queues.ids)
      (entries : next.queues.entries.Perm
        ((queue, job) :: state.queues.entries))
      (ids : next.queues.ids = state.queues.ids)
      (running : state.queues.runnerClosed = false)
      (accepted : next.accepted = state.accepted ++ [(queue, state.nextReply)])
      (nextReply : next.nextReply = state.nextReply + 1)

/-- A client leaves the runner, the channel and the outcomes alone. -/
structure ClientChange (state next : LinkState) : Prop where
  pushes : state.Pushes next
  phase : next.phase = state.phase
  port : next.port = { state.port with events := next.port.events }
  log : next.log = state.log
  outcomes : next.outcomes = state.outcomes
  replies : next.replies = state.replies
  completed : next.counters.completed = state.counters.completed
  failed : next.counters.failed = state.counters.failed
  cancelled : next.counters.cancelled = state.counters.cancelled

theorem start_change (setup : LinkSetup) (state : LinkState)
    (request : Request) (transmitPrefix : Bytes) (requested : QueueId)
    (policy : RetryPolicy) (checkedAt acceptedAt : Nat) :
    state.ClientChange (state.start setup request transmitPrefix requested
      policy checkedAt acceptedAt) := by
  unfold start
  split
  · exact ⟨.nothing (.refl _) rfl rfl rfl rfl, rfl, rfl, rfl, rfl, rfl, rfl,
      rfl, rfl⟩
  next queue hqueue =>
    dsimp only
    obtain ⟨hcompleted, hfailed, hcancelled⟩ :=
      setup.client.makeJob_counters
        ⟨setup.horizon, checkedAt, acceptedAt, state.nextReply⟩
        state.counters request transmitPrefix queue policy
    split
    · exact ⟨.nothing (.refl _) rfl rfl rfl rfl, rfl, rfl, rfl, rfl, rfl,
        hcompleted, hfailed, hcancelled⟩
    next job hjob =>
      obtain ⟨-, -, -, -, -, hreply⟩ := LinkClient.makeJob_ok hjob
      split
      · exact ⟨.nothing (.refl _) rfl rfl rfl rfl, rfl, rfl, rfl, rfl, rfl,
          hcompleted, hfailed, hcancelled⟩
      next queues hqueues =>
        obtain ⟨hentries, hknown, hshape, hrunning⟩ :=
          QueueSet.entries_tryPush hqueues
        exact ⟨.entry queue job hreply hknown hentries hshape.ids hrunning
          rfl rfl, rfl, rfl, rfl, rfl, rfl, hcompleted, hfailed, hcancelled⟩

theorem clientStep_change {setup : LinkSetup} {state next : LinkState}
    {action : ClientAction} (h : state.clientStep setup action = some next) :
    state.ClientChange next := by
  cases action with
  | start request transmitPrefix queue policy checkedAt acceptedAt =>
      simp only [clientStep] at h
      split_ifs at h
      injection h with h
      subst h
      exact start_change ..
  | dropReply reply =>
      injection h with h
      subst h
      exact ⟨.nothing (.refl _) rfl rfl rfl rfl, rfl, rfl, rfl, rfl, rfl, rfl,
        rfl, rfl⟩
  | setPriority queue priority =>
      simp only [clientStep] at h
      split_ifs at h
      injection h with h
      subst h
      obtain ⟨hentries, hshape⟩ :=
        state.queues.entries_setPriority queue priority
      exact ⟨.nothing hentries hshape.ids hshape.runnerClosed rfl rfl, rfl,
        rfl, rfl, rfl, rfl, rfl, rfl, rfl⟩
  | dropClients =>
      simp only [clientStep] at h
      split_ifs at h
      injection h with h
      subst h
      exact ⟨.nothing (.refl _) rfl rfl rfl rfl, rfl, rfl, rfl, rfl, rfl, rfl,
        rfl, rfl⟩

end LinkState

/-! ## Steps of the runner -/

def requestsCanCoalesce (leader candidate : Job) : Bool :=
  candidate.request = leader.request ∧ candidate.transmitPrefix = [] ∧
    candidate.policy = leader.policy

/-- What the channel, the device and the clock do in a step of the runner. -/
inductive RunnerAction where
  | poll
  | readInputClosed
  | wake
  | receive (received : Received)
  | begin (now : Nat)
  | gather
  | exchange (now : Nat) (surroundings : Nat → Attempt)
  | settle
  | complete (now : Nat)
  | requeue
  | drain (now : Nat) (arrivals : List Arrival)
  | check
  | closeRunner
  | fail

/-- The steps in which the runner uses its channel. -/
def RunnerAction.talks : RunnerAction → Bool
  | .receive _ | .exchange _ _ | .drain _ _ => true
  | _ => false

namespace LinkState

def poll (state : LinkState) : LinkState :=
  match state.queues.popScheduled state.cursor with
  | (some popped, cursor) =>
      { state with
        cursor, queues := popped.queues
        phase := .begun popped.queue popped.entry }
  | (none, cursor) => { state with cursor, phase := .polled }

def receive (state : LinkState) (received : Received) : LinkState :=
  let (port, usable) := state.port.processIdleInput received
  { state with port, phase := if usable then .polling else .stopping }

def begin (state : LinkState) (queue : QueueId) (job : Job) (now : Nat) :
    LinkState :=
  let state := state.withQueues (state.queues.finishEntry queue)
  match job.reply with
  | none =>
      (state.conclude queue job.id none (.error .deadline)).enter .polling
  | some reply =>
      if reply ∈ state.closedReplies ∨ job.deadline ≤ now then
        (state.conclude queue job.id (some reply) (.error .deadline)).enter
          .polling
      else
        state.enter (.gathering queue { job with reply := none } reply [])

def started (state : LinkState) (queue : QueueId) (job : Job)
    (reply : ReplyId) (followers : List Job) : LinkState :=
  { state.emit (.started job.id job.request.command) with
    counters := { state.counters with started := state.counters.started + 1 }
    phase := .exchanging queue job reply followers }

def gather (setup : LinkSetup) (state : LinkState) (queue : QueueId)
    (job : Job) (reply : ReplyId) (followers : List Job) : LinkState :=
  if resolvedSafety job.request ≠ .readOnly ∨ job.transmitPrefix ≠ [] ∨
      setup.maximumCoalesced ≤ followers.length then
    state.started queue job reply followers
  else
    match state.queues.popFrom queue with
    | none => state.started queue job reply followers
    | some popped =>
        if requestsCanCoalesce job popped.entry then
          if popped.entry.reply.all (· ∈ state.closedReplies) then
            (state.withQueues (popped.queues.finishEntry queue)).markCancelled
              popped.entry.id (popped.entry.reply.map (queue, ·))
          else
            { state.emit (.coalesced popped.entry.id job.id) with
              queues := popped.queues
              counters := { state.counters with
                coalesced := state.counters.coalesced + 1 }
              phase := .gathering queue job reply
                (followers ++ [popped.entry]) }
        else
          (state.withQueues (popped.queues.pushFront queue popped.entry)
            ).started queue job reply followers

def logTransmission (reply : ReplyId) (transmission : Transmission) :
    List LogEntry :=
  match transmission.outcome with
  | .error .responseTimeout => [.transmitted reply, .timedOut reply]
  | _ => [.transmitted reply, .concluded reply]

def exchange (setup : LinkSetup) (state : LinkState) (queue : QueueId)
    (job : Job) (reply : ReplyId) (followers : List Job) (now : Nat)
    (surroundings : Nat → Attempt) : LinkState :=
  let run := Service.exchange setup.horizon now job surroundings state.port
  { state with
    port := run.port
    log := state.log ++ run.transmissions.flatMap (logTransmission reply)
    phase :=
      match run.result with
      | .ok value => .succeeded queue job reply followers value
      | .error error => .requeueing queue job reply followers error }

def complete (state : LinkState) (queue : QueueId) (followers : List Job)
    (value : DeviceReply) (now : Nat) : LinkState :=
  match followers with
  | [] => state.enter .checking
  | follower :: followers =>
      let state := state.withQueues (state.queues.finishEntry queue)
      (state.conclude queue follower.id follower.reply
          (if follower.deadline ≤ now then .error .deadline else .ok value)
        ).enter (.completing queue followers value)

def requeue (state : LinkState) (queue : QueueId) (job : Job)
    (reply : ReplyId) (followers : List Job) (error : ExchangeError) :
    LinkState :=
  match followers.getLast? with
  | some follower =>
      (state.withQueues (state.queues.pushFront queue follower)).enter
        (.requeueing queue job reply followers.dropLast error)
  | none =>
      (state.conclude queue job.id (some reply) (.error error)).enter
        (if error = .responseTimeout ∧ state.port.channelUsable then .draining
        else .checking)

def drain (setup : LinkSetup) (state : LinkState) (now : Nat)
    (arrivals : List Arrival) : LinkState :=
  { state with
    port := state.port.drainLateResponses setup.horizon now
      setup.lateResponseGuard arrivals
    log :=
      if setup.lateResponseGuard = 0 ∨
          (checkedAdd setup.horizon now setup.lateResponseGuard).isNone then
        state.log
      else state.log ++ [.drained]
    phase := .checking }

def fail (state : LinkState) (remaining : List QueueId) : LinkState :=
  match remaining with
  | [] => state.enter .stopped
  | queue :: remaining =>
      match state.queues.popFrom queue with
      | none => state.enter (.failing remaining)
      | some popped =>
          (state.withQueues (popped.queues.finishEntry queue)).conclude queue
            popped.entry.id popped.entry.reply (.error .runnerStopped)

def runnerStep (setup : LinkSetup) (state : LinkState) (action : RunnerAction) :
    Option LinkState :=
  match state.phase, action with
  | .polling, .poll => some state.poll
  | .polled, .readInputClosed =>
      some (state.enter
        (if state.queues.inputClosed then .stopping else .waiting))
  | .waiting, .wake => some (state.enter .polling)
  | .waiting, .receive received => some (state.receive received)
  | .begun queue job, .begin now => some (state.begin queue job now)
  | .gathering queue job reply followers, .gather =>
      some (state.gather setup queue job reply followers)
  | .exchanging queue job reply followers, .exchange now surroundings =>
      some (state.exchange setup queue job reply followers now surroundings)
  | .succeeded queue job reply followers value, .settle =>
      some ((state.conclude queue job.id (some reply) (.ok value)).enter
        (.completing queue followers value))
  | .completing queue followers value, .complete now =>
      some (state.complete queue followers value now)
  | .requeueing queue job reply followers error, .requeue =>
      some (state.requeue queue job reply followers error)
  | .draining, .drain now arrivals => some (state.drain setup now arrivals)
  | .checking, .check =>
      some (state.enter
        (if state.port.channelUsable then .polling else .stopping))
  | .stopping, .closeRunner =>
      some ((state.withQueues state.queues.closeRunner).enter
        (.failing state.queues.ids))
  | .failing remaining, .fail => some (state.fail remaining)
  | _, _ => none

/-! ## What the runner does to its channel -/

/-- Besides three kinds of steps the runner only tells its observers. -/
inductive ChannelStep (setup : LinkSetup) (state next : LinkState) :
    RunnerAction → Prop
  | quiet {action : RunnerAction} (talks : action.talks = false)
      (port : next.port = { state.port with events := next.port.events })
      (log : next.log = state.log) : ChannelStep setup state next action
  | receive {received : Received} (phase : state.phase = .waiting)
      (eq : next = state.receive received) :
      ChannelStep setup state next (.receive received)
  | exchange {queue : QueueId} {job : Job} {reply : ReplyId}
      {followers : List Job} {now : Nat} {surroundings : Nat → Attempt}
      (phase : state.phase = .exchanging queue job reply followers)
      (eq : next = state.exchange setup queue job reply followers now
        surroundings) :
      ChannelStep setup state next (.exchange now surroundings)
  | drain {now : Nat} {arrivals : List Arrival}
      (phase : state.phase = .draining)
      (eq : next = state.drain setup now arrivals) :
      ChannelStep setup state next (.drain now arrivals)

theorem channelStep_gather (setup : LinkSetup) (state : LinkState)
    (queue : QueueId) (job : Job) (reply : ReplyId) (followers : List Job) :
    ChannelStep setup state (state.gather setup queue job reply followers)
      .gather := by
  unfold gather
  split_ifs
  · exact .quiet rfl rfl rfl
  split
  · exact .quiet rfl rfl rfl
  split_ifs <;> exact .quiet rfl rfl rfl

theorem channelStep {setup : LinkSetup} {state next : LinkState}
    {action : RunnerAction} (h : state.runnerStep setup action = some next) :
    ChannelStep setup state next action := by
  unfold runnerStep at h
  split at h
  all_goals first | contradiction | injection h with h; subst h
  next hphase =>
    unfold poll
    split <;> exact .quiet rfl rfl rfl
  · exact .quiet rfl rfl rfl
  · exact .quiet rfl rfl rfl
  next hphase => exact .receive hphase rfl
  next hphase =>
    unfold begin
    dsimp only
    split
    · exact .quiet rfl (port_conclude ..).1 (port_conclude ..).2
    · split_ifs
      · exact .quiet rfl (port_conclude ..).1 (port_conclude ..).2
      · exact .quiet rfl rfl rfl
  next hphase => exact channelStep_gather ..
  next hphase => exact .exchange hphase rfl
  · exact .quiet rfl (port_conclude ..).1 (port_conclude ..).2
  next hphase =>
    unfold complete
    split
    · exact .quiet rfl rfl rfl
    · exact .quiet rfl (port_conclude ..).1 (port_conclude ..).2
  next hphase =>
    unfold requeue
    split
    · exact .quiet rfl rfl rfl
    · exact .quiet rfl (port_conclude ..).1 (port_conclude ..).2
  next hphase => exact .drain hphase rfl
  · exact .quiet rfl rfl rfl
  · exact .quiet rfl rfl rfl
  next hphase =>
    unfold fail
    split
    · exact .quiet rfl rfl rfl
    · split
      · exact .quiet rfl rfl rfl
      · exact .quiet rfl (port_conclude ..).1 (port_conclude ..).2

end LinkState

/-! ## Runs -/

inductive LinkAction where
  | client (action : ClientAction)
  | runner (action : RunnerAction)

namespace LinkState

def step (setup : LinkSetup) (state : LinkState) :
    LinkAction → Option LinkState
  | .client action => state.clientStep setup action
  | .runner action => state.runnerStep setup action

def run (setup : LinkSetup) (state : LinkState) (actions : List LinkAction) :
    Option LinkState :=
  runSteps (step setup) state actions

end LinkState

/-! ## A link with one queue -/

def plainSetup : LinkSetup where
  client := ⟨.allowAll, .preserveRequested⟩
  horizon := 2 ^ 64
  maximumCoalesced := 16
  lateResponseGuard := 250000000

def plainLink : LinkState :=
  .initial [⟨⟨0⟩, 16, .default⟩] (by decide)
    ⟨4096, 2, .strict⟩ 512 true

def startIdentify : LinkAction :=
  .client (.start identifyRequest [] ⟨0⟩ .default 0 0)

def receiving (fragment : Bytes) : Attempt :=
  ⟨0, ⟨0, none⟩, [⟨1, .read fragment⟩], 1, 1⟩

def silent : Attempt := ⟨0, ⟨0, none⟩, [], 1, 1⟩

def serve (surroundings : Nat → Attempt) : List LinkAction :=
  [.runner .poll, .runner (.begin 0), .runner .gather,
    .runner (.exchange 0 surroundings)]

end HartLink.Service
