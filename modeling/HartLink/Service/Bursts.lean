import HartLink.Service.Attempt
import HartLink.Service.Runner

/-!
# Burst messages on their way to the hub

Three loops look at what the decoder emits.  Two of them look at every event of
a read; the loop of an attempt returns at the answer, and the events behind it in
the same read reach no loop.  `run_publishes_iff` says that these are the only
burst messages that the hub misses.
-/

namespace HartLink.Service

open HartLink.Foundation
open HartLink.Wire
open HartLink.Operation
open LinkPort (answerOf)

def burstOf : DecodeEvent → Option DeviceReply
  | .rejected _ => none
  | .frame frame =>
      if frame.kind = .burst then (DeviceReply.fromFrame frame).toOption
      else none

def bursts (events : List DecodeEvent) : List DeviceReply :=
  events.filterMap burstOf

/-- The events that the loop of an attempt does not look at. -/
def behindAnswer (requestFrame : Frame) :
    List DecodeEvent → List DecodeEvent
  | [] => []
  | event :: events =>
      if (answerOf requestFrame event).isSome then events
      else behindAnswer requestFrame events

theorem bursts_append (first second : List DecodeEvent) :
    bursts (first ++ second) = bursts first ++ bursts second :=
  List.filterMap_append ..

theorem burstOf_of_fromFrame {frame : Frame} {reply : DeviceReply}
    (h : DeviceReply.fromFrame frame = .ok reply) :
    burstOf (.frame frame) = if reply.burst then some reply else none := by
  simp [burstOf, h, DeviceReply.burst_of_fromFrame h, Except.toOption]

theorem burstOf_of_error {frame : Frame} {error : OperationError}
    (h : DeviceReply.fromFrame frame = .error error) :
    burstOf (.frame frame) = none := by
  simp [burstOf, h, Except.toOption]

theorem burstOf_of_isEcho {requestFrame frame : Frame}
    (h : isEcho requestFrame frame = true) : burstOf (.frame frame) = none := by
  simp only [isEcho, decide_eq_true_eq] at h
  simp [burstOf, h.1]

theorem burstOf_of_answerOf {requestFrame : Frame} {event : DecodeEvent}
    (h : (answerOf requestFrame event).isSome) : burstOf event = none := by
  unfold answerOf at h
  split at h
  · contradiction
  split at h
  · contradiction
  split at h
  · contradiction
  next reply hreply =>
    rw [burstOf_of_fromFrame hreply]
    split_ifs at h with hburst hanswers
    · contradiction
    · rw [if_neg hburst]
    · contradiction

namespace LinkPort

/--
The hub has received some of the decoded burst messages in order, and all of them
but the skipped ones.
-/
def Tracks (port : LinkPort) : Prop :=
  port.burstHub = true ∧ port.published.Sublist (bursts port.decoded) ∧
    port.published.length + (bursts port.skipped).length =
      (bursts port.decoded).length

theorem Tracks.published_iff {port : LinkPort} (h : port.Tracks) :
    port.published = bursts port.decoded ↔ bursts port.skipped = [] := by
  obtain ⟨-, hsublist, hlength⟩ := h
  constructor
  · intro hall
    rw [hall] at hlength
    exact List.length_eq_zero_iff.mp (by omega)
  · intro hskipped
    rw [hskipped] at hlength
    exact hsublist.eq_of_length hlength

theorem Tracks.read {port next : LinkPort} (h : port.Tracks)
    {events behind : List DecodeEvent} {seen : List DeviceReply}
    (hhub : next.burstHub = port.burstHub)
    (hdecoded : next.decoded = port.decoded ++ events)
    (hpublished : next.published = port.published ++ seen)
    (hskipped : next.skipped = port.skipped ++ behind)
    (hevents : bursts events = seen ++ bursts behind) : next.Tracks := by
  obtain ⟨hburstHub, hsublist, hlength⟩ := h
  refine ⟨hhub.trans hburstHub, ?_, ?_⟩
  · rw [hdecoded, hpublished, bursts_append, hevents]
    exact hsublist.append (List.sublist_append_left _ _)
  · rw [hdecoded, hpublished, hskipped, bursts_append, bursts_append, hevents]
    simp only [List.length_append]
    omega

/-! ## The loop of an attempt -/

theorem publish_of_hub {port : LinkPort} (h : port.burstHub = true)
    (reply : DeviceReply) :
    port.publish reply = { port with published := port.published ++ [reply] } := by
  rw [publish, if_pos h]

theorem acceptEvent_bursts (id : UInt64) (requestFrame : Frame)
    {port : LinkPort} (hhub : port.burstHub = true) (event : DecodeEvent) :
    (acceptEvent id requestFrame port event).1.published =
        port.published ++ (burstOf event).toList ∧
      (acceptEvent id requestFrame port event).1.skipped = port.skipped := by
  cases event with
  | rejected error => exact ⟨(List.append_nil _).symm, rfl⟩
  | frame frame =>
      unfold acceptEvent
      dsimp only
      split_ifs with hecho
      · rw [burstOf_of_isEcho hecho]
        exact ⟨(List.append_nil _).symm, rfl⟩
      split
      next error hreply =>
        rw [burstOf_of_error hreply]
        exact ⟨(List.append_nil _).symm, rfl⟩
      next reply hreply =>
        rw [burstOf_of_fromFrame hreply]
        split_ifs with hburst hanswer
        · rw [publish_of_hub hhub]
          exact ⟨rfl, rfl⟩
        · exact ⟨(List.append_nil _).symm, rfl⟩
        · exact ⟨(List.append_nil _).symm, rfl⟩

theorem acceptEvents_bursts (id : UInt64) (requestFrame : Frame)
    {port : LinkPort} (hhub : port.burstHub = true)
    (events : List DecodeEvent) :
    ∃ seen, bursts events =
        seen ++ bursts (behindAnswer requestFrame events) ∧
      (acceptEvents id requestFrame port events).1.published =
        port.published ++ seen ∧
      (acceptEvents id requestFrame port events).1.skipped =
        port.skipped ++ behindAnswer requestFrame events := by
  induction events generalizing port with
  | nil => exact ⟨[], rfl, (List.append_nil _).symm, (List.append_nil _).symm⟩
  | cons event events ih =>
      obtain ⟨hpublished, hskipped⟩ :=
        acceptEvent_bursts id requestFrame hhub event
      have hanswer := acceptEvent_snd id requestFrame port event
      have hchannel := sameChannel_acceptEvent id requestFrame port event
      unfold acceptEvents
      split
      next next reply hevent =>
        rw [hevent] at hpublished hskipped hanswer
        have hsome : (answerOf requestFrame event).isSome := by
          rw [← hanswer]
          rfl
        rw [burstOf_of_answerOf hsome] at hpublished
        refine ⟨[], ?_, ?_, ?_⟩
        · simp [behindAnswer, hsome, bursts, burstOf_of_answerOf hsome]
        · exact hpublished
        · simp only [behindAnswer, hsome, if_true]
          rw [hskipped]
      next next hevent =>
        rw [hevent] at hpublished hskipped hanswer hchannel
        obtain ⟨seen, hseen, hnext, hrest⟩ :=
          ih (hchannel.burstHub.trans hhub)
        have hnone : (answerOf requestFrame event).isSome = false := by
          rw [← hanswer]
          rfl
        refine ⟨(burstOf event).toList ++ seen, ?_, ?_, ?_⟩
        · rw [behindAnswer, hnone, List.append_assoc, if_neg (by simp),
            ← hseen]
          cases hburst : burstOf event <;> simp [bursts, hburst]
        · rw [hnext, hpublished, List.append_assoc]
        · rw [hrest, hskipped, behindAnswer, hnone, if_neg (by simp)]

/--
No accepted burst message stands behind the answer in the read that completes
it.  The reads of an attempt end there.
-/
def Unmixed (requestFrame : Frame) : FrameDecoder → List Bytes → Prop
  | _, [] => True
  | decoder, fragment :: fragments =>
      bursts (behindAnswer requestFrame (decoder.push fragment).1) = [] ∧
        ((decoder.push fragment).1.findSome? (answerOf requestFrame) = none →
          Unmixed requestFrame (decoder.push fragment).2 fragments)

def traffic (port : LinkPort) :
    Bool × List DecodeEvent × List DecodeEvent × List DeviceReply :=
  (port.burstHub, port.decoded, port.skipped, port.published)

/-- What a part of the runner does to the burst messages. -/
structure Forwards (port next : LinkPort) (kept : Prop) : Prop where
  hub : next.burstHub = port.burstHub
  tracks : port.Tracks → next.Tracks
  skips : port.burstHub = true →
    (bursts next.skipped = [] ↔ bursts port.skipped = [] ∧ kept)

theorem Forwards.of_same {port next : LinkPort}
    (h : next.traffic = port.traffic) : port.Forwards next True := by
  simp only [traffic, Prod.mk.injEq] at h
  obtain ⟨hhub, hdecoded, hskipped, hpublished⟩ := h
  refine ⟨hhub, ?_, ?_⟩
  · intro htracks
    rw [Tracks, hhub, hdecoded, hpublished, hskipped]
    exact htracks
  · intro _
    rw [hskipped, and_true]

theorem Forwards.trans {first second third : LinkPort} {kept kept' : Prop}
    (h : first.Forwards second kept) (h' : second.Forwards third kept') :
    first.Forwards third (kept ∧ kept') := by
  refine ⟨h'.hub.trans h.hub, fun htracks => h'.tracks (h.tracks htracks), ?_⟩
  intro hhub
  rw [h'.skips (h.hub.trans hhub), h.skips hhub, and_assoc]

theorem Forwards.congr {port next : LinkPort} {kept kept' : Prop}
    (h : port.Forwards next kept) (hkept : kept ↔ kept') :
    port.Forwards next kept' :=
  ⟨h.hub, h.tracks, fun hhub => (h.skips hhub).trans (and_congr_right' hkept)⟩

theorem forwards_read (id : UInt64) (requestFrame : Frame) (port : LinkPort)
    (fragment : Bytes) :
    port.Forwards (acceptEvents id requestFrame (port.push fragment).2
      (port.push fragment).1).1 (bursts (behindAnswer requestFrame
        (port.decoder.push fragment).1) = []) := by
  have hchannel := sameChannel_acceptEvents id requestFrame
    (port.push fragment).2 (port.push fragment).1
  refine ⟨hchannel.burstHub, ?_, ?_⟩
  · intro htracks
    have hhub : (port.push fragment).2.burstHub = true := htracks.1
    obtain ⟨seen, hseen, hpublished, hskipped⟩ := acceptEvents_bursts id
      requestFrame hhub (port.push fragment).1
    exact htracks.read hchannel.burstHub hchannel.decoded hpublished hskipped
      hseen
  · intro hhub
    have hpush : (port.push fragment).2.burstHub = true := hhub
    obtain ⟨seen, -, -, hskipped⟩ := acceptEvents_bursts id requestFrame
      hpush (port.push fragment).1
    rw [hskipped, bursts_append, List.append_eq_nil_iff]
    rfl

theorem forwards_awaitReply (id : UInt64) (requestFrame : Frame)
    (deadline : Nat) (port : LinkPort) (arrivals : List Arrival) :
    port.Forwards (awaitReply id requestFrame deadline port arrivals).1
      (Unmixed requestFrame port.decoder
        (reads deadline port.readBufferSize arrivals)) := by
  induction arrivals generalizing port with
  | nil => exact .of_same rfl
  | cons arrival arrivals ih =>
      obtain ⟨instant, fragment | error⟩ := arrival
      · have hread := forwards_read id requestFrame port fragment
        have hchannel := sameChannel_acceptEvents id requestFrame
          (port.push fragment).2 (port.push fragment).1
        have hanswer := acceptEvents_snd id requestFrame
          (port.push fragment).2 (port.push fragment).1
        by_cases hend : deadline < instant ∨ fragment.length = 0 ∨
            fragment.length > port.readBufferSize
        · -- the loop ends without a read
          simp only [awaitReply, reads, if_pos hend, Unmixed]
          split_ifs
          · exact .of_same rfl
          · exact .of_same rfl
          · exact .of_same rfl
          · simp_all
        simp only [reads, if_neg hend, Unmixed]
        simp only [not_or] at hend
        simp only [awaitReply, if_neg hend.1, if_neg hend.2.1,
          if_neg hend.2.2]
        split
        next next reply haccept =>
          rw [haccept] at hread hanswer
          have hsome : (port.decoder.push fragment).1.findSome?
              (answerOf requestFrame) = some reply := hanswer.symm
          refine hread.congr ?_
          rw [hsome]
          simp
        next next haccept =>
          rw [haccept] at hread hanswer hchannel
          have hrest := ih next
          rw [hchannel.decoder, hchannel.readBufferSize] at hrest
          have hnone : (port.decoder.push fragment).1.findSome?
              (answerOf requestFrame) = none := hanswer.symm
          refine (hread.trans hrest).congr ?_
          rw [hnone]
          exact and_congr_right' ⟨fun h _ => h, fun h => h rfl⟩
      · simp only [awaitReply, reads, Unmixed]
        split_ifs <;> exact .of_same rfl

def AttemptUnmixed (port : LinkPort) (requestFrame : Frame) (deadline : Nat)
    (sent : Sent) (arrivals : List Arrival) : Prop :=
  sent.instant ≤ deadline → sent.error = none →
    Unmixed requestFrame port.decoder
      (reads deadline port.readBufferSize arrivals)

theorem forwards_exchangeOnce (port : LinkPort) (id : UInt64)
    (requestFrame : Frame) (encoded : Bytes) (deadline : Nat) (sent : Sent)
    (arrivals : List Arrival) :
    port.Forwards (port.exchangeOnce id requestFrame encoded deadline sent
        arrivals).1
      (port.AttemptUnmixed requestFrame deadline sent arrivals) := by
  have hsending : port.Forwards { port with sent := port.sent ++ [encoded] }
      True := .of_same rfl
  unfold exchangeOnce AttemptUnmixed
  dsimp only
  split_ifs with hlate
  · refine Forwards.congr (.of_same rfl) ?_
    simp [Nat.not_le_of_lt hlate]
  split
  next error herror =>
    refine Forwards.congr (.of_same rfl) ?_
    simp [herror]
  next herror =>
    refine (hsending.trans (forwards_awaitReply ..)).congr ?_
    simp [Nat.le_of_not_lt hlate, herror]

/-! ## The drain and idle input -/

theorem idleEvent_bursts {port : LinkPort} (hhub : port.burstHub = true)
    (event : DecodeEvent) :
    (port.idleEvent event).published =
        port.published ++ (burstOf event).toList ∧
      (port.idleEvent event).skipped = port.skipped := by
  cases event with
  | rejected error => exact ⟨(List.append_nil _).symm, rfl⟩
  | frame frame =>
      unfold idleEvent
      dsimp only
      split
      next error hreply =>
        rw [burstOf_of_error hreply]
        exact ⟨(List.append_nil _).symm, rfl⟩
      next reply hreply =>
        rw [burstOf_of_fromFrame hreply]
        split_ifs with hburst
        · rw [publish_of_hub hhub]
          exact ⟨rfl, rfl⟩
        · exact ⟨(List.append_nil _).symm, rfl⟩

theorem foldl_idleEvent_bursts {port : LinkPort} (hhub : port.burstHub = true)
    (events : List DecodeEvent) :
    (events.foldl idleEvent port).published =
        port.published ++ bursts events ∧
      (events.foldl idleEvent port).skipped = port.skipped := by
  induction events generalizing port with
  | nil => exact ⟨(List.append_nil _).symm, rfl⟩
  | cons event events ih =>
      obtain ⟨hpublished, hskipped⟩ := idleEvent_bursts hhub event
      obtain ⟨hpublished', hskipped'⟩ :=
        ih ((sameChannel_idleEvent port event).burstHub.trans hhub)
      refine ⟨?_, hskipped'.trans hskipped⟩
      rw [List.foldl_cons, hpublished', hpublished, List.append_assoc]
      cases hburst : burstOf event <;> simp [bursts, hburst]

theorem forwards_processIdleInput (port : LinkPort) (received : Received) :
    port.Forwards (port.processIdleInput received).1 True := by
  unfold processIdleInput
  split
  · split_ifs <;> exact .of_same rfl
  next fragment =>
    split_ifs
    · exact .of_same rfl
    · exact .of_same rfl
    have hchannel := sameChannel_foldl_idleEvent (port.push fragment).2
      (port.push fragment).1
    refine ⟨hchannel.burstHub, ?_, ?_⟩
    · intro htracks
      have hhub : (port.push fragment).2.burstHub = true := htracks.1
      obtain ⟨hpublished, hskipped⟩ := foldl_idleEvent_bursts hhub
        (port.push fragment).1
      refine htracks.read hchannel.burstHub hchannel.decoded hpublished
        (hskipped.trans (List.append_nil _).symm) ?_
      exact (List.append_nil _).symm
    · intro hhub
      have hpush : (port.push fragment).2.burstHub = true := hhub
      obtain ⟨-, hskipped⟩ := foldl_idleEvent_bursts hpush
        (port.push fragment).1
      rw [and_true, hskipped]
      rfl

theorem forwards_drainLoop (deadline : Nat) (port : LinkPort)
    (arrivals : List Arrival) :
    port.Forwards (drainLoop deadline port arrivals) True := by
  induction arrivals generalizing port with
  | nil => exact .of_same rfl
  | cons arrival arrivals ih =>
      obtain ⟨instant, received⟩ := arrival
      have hinput := forwards_processIdleInput port received
      unfold drainLoop
      split_ifs
      · exact .of_same rfl
      split
      next next hnext =>
        rw [hnext] at hinput
        exact (hinput.trans (ih next)).congr (and_self_iff)
      next next hnext =>
        rw [hnext] at hinput
        have hunusable : next.Forwards next.unusable True :=
          .of_same rfl
        exact (hinput.trans hunusable).congr (and_self_iff)

theorem forwards_drainLateResponses (port : LinkPort)
    (horizon now guard : Nat) (arrivals : List Arrival) :
    port.Forwards (port.drainLateResponses horizon now guard arrivals)
      True := by
  unfold drainLateResponses
  split_ifs
  · exact .of_same rfl
  split
  · exact .of_same rfl
  · exact forwards_drainLoop ..

end LinkPort

/-! ## The exchange -/

theorem forwards_turn (horizon : Nat) (job : Job) (attempt : Attempt)
    (retries : Retries) (outcome : Except ExchangeError DeviceReply)
    (port : LinkPort) :
    port.Forwards (turn horizon job attempt retries outcome port).1 True := by
  unfold turn
  split
  · exact .of_same rfl
  dsimp only
  split
  · exact .of_same rfl
  split_ifs <;> exact .of_same rfl

section Loop

variable (horizon : Nat) (job : Job) (frame : Frame) (encoded : Bytes)
  (surroundings : Nat → Attempt)

def LoopUnmixed : Nat → Nat → Retries → LinkPort → Prop
  | 0, _, _, _ => True
  | bound + 1, index, retries, port =>
      let attempt := surroundings index
      let deadline := exchangeDeadline horizon attempt.startedAt job
      port.AttemptUnmixed frame deadline attempt.sent attempt.arrivals ∧
        let (port, outcome) := port.exchangeOnce job.id frame encoded deadline
          attempt.sent attempt.arrivals
        match turn horizon job attempt retries outcome port with
        | (_, .over _) => True
        | (port, .again retries) =>
            LoopUnmixed bound (index + 1) retries port

theorem forwards_exchangeLoop (bound index checkedAt : Nat)
    (retries : Retries) (port : LinkPort) :
    port.Forwards (exchangeLoop horizon job frame encoded surroundings bound
        index checkedAt retries port).port
      (LoopUnmixed horizon job frame encoded surroundings bound index retries
        port) := by
  induction bound generalizing index checkedAt retries port with
  | zero => exact .of_same rfl
  | succ bound ih =>
      simp only [exchangeLoop, LoopUnmixed]
      have hattempt := port.forwards_exchangeOnce job.id frame encoded
        (exchangeDeadline horizon (surroundings index).startedAt job)
        (surroundings index).sent (surroundings index).arrivals
      generalize port.exchangeOnce job.id frame encoded
        (exchangeDeadline horizon (surroundings index).startedAt job)
        (surroundings index).sent (surroundings index).arrivals = ended
        at hattempt ⊢
      have hturn := forwards_turn horizon job (surroundings index) retries
        ended.2 ended.1
      generalize turn horizon job (surroundings index) retries ended.2
        ended.1 = turned at hturn ⊢
      obtain ⟨next, result | nextRetries⟩ := turned
      · exact hattempt.trans hturn
      · refine ((hattempt.trans hturn).trans
          (ih (index + 1) (surroundings index).checkedAt nextRetries
            next)).congr ?_
        rw [and_true]

end Loop

def ExchangeUnmixed (horizon now : Nat) (job : Job)
    (surroundings : Nat → Attempt) (port : LinkPort) : Prop :=
  if now ≥ job.deadline then True
  else
    match job.request.toFrame with
    | .error _ => True
    | .ok frame =>
        match frame.encode with
        | .error _ => True
        | .ok frameBytes =>
            LoopUnmixed horizon job frame (job.transmitPrefix ++ frameBytes)
              surroundings maximumAttempts 0 {} port

theorem forwards_exchange (horizon now : Nat) (job : Job)
    (surroundings : Nat → Attempt) (port : LinkPort) :
    port.Forwards (exchange horizon now job surroundings port).port
      (ExchangeUnmixed horizon now job surroundings port) := by
  unfold exchange ExchangeUnmixed
  split_ifs
  · exact .of_same rfl
  cases job.request.toFrame with
  | error error => exact .of_same rfl
  | ok frame =>
      dsimp only
      cases frame.encode with
      | error error => exact .of_same rfl
      | ok frameBytes => exact forwards_exchangeLoop ..

/-! ## Runs -/

namespace LinkState

/--
The condition on a step: in no attempt of the exchange does an accepted burst
message stand behind the answer in the same read.
-/
def BurstsApart (setup : LinkSetup) (state : LinkState) :
    LinkAction → Prop
  | .runner (.exchange now surroundings) =>
      match state.phase with
      | .exchanging _ job _ _ =>
          ExchangeUnmixed setup.horizon now job surroundings state.port
      | _ => True
  | _ => True

theorem forwards_step {setup : LinkSetup} {state next : LinkState}
    {action : LinkAction} (h : state.step setup action = some next) :
    state.port.Forwards next.port (state.BurstsApart setup action) := by
  have hquiet : next.port = { state.port with events := next.port.events } →
      state.port.Forwards next.port True := by
    intro hport
    rw [hport]
    exact .of_same rfl
  cases action with
  | client action => exact hquiet (clientStep_change h).port
  | runner action =>
      cases channelStep h with
      | quiet talks port log =>
          cases action with
          | exchange now surroundings => contradiction
          | _ => exact hquiet port
      | receive phase eq =>
          subst eq
          exact state.port.forwards_processIdleInput _
      | exchange phase eq =>
          subst eq
          simp only [BurstsApart, phase]
          exact forwards_exchange ..
      | drain phase eq =>
          subst eq
          exact state.port.forwards_drainLateResponses _ _ _ _

/--
In every run with a hub, the hub has received exactly the accepted burst messages
that the decoder emitted, in order, if and only if every exchange kept bursts
apart from the answers in front of them.
-/
theorem run_publishes_iff (setup : LinkSetup) (layout : List QueueConfig)
    (hlayout : (layout.map QueueConfig.id).Nodup) (limits : DecodeLimits)
    (readBufferSize : Nat) (actions : List LinkAction) (state : LinkState)
    (hrun : (initial layout hlayout limits readBufferSize true).run setup
      actions = some state) :
    state.port.published = bursts state.port.decoded ↔
      Along (step setup) (BurstsApart setup)
        (initial layout hlayout limits readBufferSize true) actions := by
  have htracks : state.port.Tracks :=
    runSteps_invariant (fun h => (forwards_step h).tracks) hrun
      ⟨rfl, List.Sublist.refl _, rfl⟩
  have hskips := runSteps_iff_along
    (fun h hhub => (forwards_step h).hub.trans hhub)
    (fun h hhub => (forwards_step h).skips hhub) hrun rfl
  rw [htracks.published_iff, hskips]
  exact and_iff_right rfl

def burstFrame : Frame := { identifyResponse with kind := .burst }

def burstReply : DeviceReply := { identifyReply with burst := true }

def mixedActions : List LinkAction :=
  startIdentify :: serve fun _ =>
    receiving (identifyResponse.encoding ++ burstFrame.encoding)

theorem isSome_mixedActions :
    (plainLink.run plainSetup mixedActions).isSome := by
  decide +kernel

theorem run_publishes_iff_mixed :
    ((plainLink.run plainSetup mixedActions).get
        isSome_mixedActions).port.published =
      bursts ((plainLink.run plainSetup mixedActions).get
        isSome_mixedActions).port.decoded ↔
      Along (step plainSetup) (BurstsApart plainSetup) plainLink
        mixedActions :=
  run_publishes_iff plainSetup _ _ _ _ mixedActions _
    (Option.some_get isSome_mixedActions).symm

/-- The decoder emits the burst message, and the hub never receives it. -/
theorem mixedActions_lose_burst :
    ((plainLink.run plainSetup mixedActions).map fun state =>
        (bursts state.port.decoded, state.port.published)) =
      some ([burstReply], []) := by
  decide +kernel

end LinkState

end HartLink.Service
