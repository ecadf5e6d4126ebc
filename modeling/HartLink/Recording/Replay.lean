import HartLink.Recording.Trace
import HartLink.Service.Link

/-!
# Recorded and replayed channels

A recording channel passes every call on and notes what was transferred; a replay
channel plays a scenario.  A recording that has lost nothing is a scenario, and
the same calls have the same results in it.
-/

namespace HartLink.Recording

open HartLink.Foundation
open HartLink.Service

/-! ## Channels and calls -/

/--
What a channel does with its calls.  A call whose future is dropped while it
waits has no result.  A read gives the bytes that it counts, of a buffer of the
given size.
-/
structure ByteChannel (Channel : Type) where
  send : Channel → Bytes → Option (Except ChannelError Unit) × Channel
  receive : Channel → Nat → Option (Except ChannelError Bytes) × Channel
  flush : Channel → Option (Except ChannelError Unit) × Channel

inductive ChannelCall where
  | send (bytes : Bytes)
  | receive (size : Nat)
  | flush
  deriving DecidableEq, Repr

inductive Called where
  | send (bytes : Bytes) (result : Option (Except ChannelError Unit))
  | receive (size : Nat) (result : Option (Except ChannelError Bytes))
  | flush (result : Option (Except ChannelError Unit))

namespace ByteChannel

variable {Channel : Type} (channel : ByteChannel Channel)

def call (state : Channel) : ChannelCall → Called × Channel
  | .send bytes =>
      let (result, state) := channel.send state bytes
      (.send bytes result, state)
  | .receive size =>
      let (result, state) := channel.receive state size
      (.receive size result, state)
  | .flush =>
      let (result, state) := channel.flush state
      (.flush result, state)

def calls : Channel → List ChannelCall → List Called × Channel
  | state, [] => ([], state)
  | state, call :: rest =>
      let (called, state) := channel.call state call
      let (later, final) := calls state rest
      (called :: later, final)

end ByteChannel

namespace Called

def toCall : Called → ChannelCall
  | .send bytes _ => .send bytes
  | .receive size _ => .receive size
  | .flush _ => .flush

def succeeded : Called → Bool
  | .send _ (some (.ok ())) | .receive _ (some (.ok _))
  | .flush (some (.ok ())) => true
  | _ => false

def transfer : Called → Option (TraceDirection × Bytes)
  | .send bytes (some (.ok ())) => some (.outbound, bytes)
  | .receive _ (some (.ok fragment)) => some (.inbound, fragment)
  | _ => none

end Called

/-! ## Recording -/

/-- `readings` counts the readings of the clock. -/
structure RecordingChannel (Channel : Type) where
  inner : Channel
  trace : Trace
  readings : Nat := 0

namespace RecordingChannel

variable {Channel : Type}

def withLimits (inner : Channel) (limits : TraceLimits) :
    RecordingChannel Channel :=
  { inner, trace := .withLimits limits }

def tryWithLimits (inner : Channel) (limits : TraceLimits) :
    Except TraceLimitsError (RecordingChannel Channel) := do
  limits.validate
  return withLimits inner limits

variable (time : Nat → Int)

def record (state : RecordingChannel Channel) (direction : TraceDirection)
    (bytes : Bytes) : RecordingChannel Channel :=
  { state with
    trace := state.trace.push ⟨direction, time state.readings, bytes⟩
    readings := state.readings + 1 }

def send (channel : ByteChannel Channel) (state : RecordingChannel Channel)
    (bytes : Bytes) :
    Option (Except ChannelError Unit) × RecordingChannel Channel :=
  match channel.send state.inner bytes with
  | (some (.ok ()), inner) =>
      (some (.ok ()), { state with inner }.record time .outbound bytes)
  | (result, inner) => (result, { state with inner })

def receive (channel : ByteChannel Channel) (state : RecordingChannel Channel)
    (size : Nat) :
    Option (Except ChannelError Bytes) × RecordingChannel Channel :=
  match channel.receive state.inner size with
  | (some (.ok fragment), inner) =>
      if fragment.length > size then
        (some (.error (.configuration
          "recorded channel returned more bytes than the receive buffer can hold")),
          { state with inner })
      else
        (some (.ok fragment), { state with inner }.record time .inbound fragment)
  | (result, inner) => (result, { state with inner })

def flush (channel : ByteChannel Channel) (state : RecordingChannel Channel) :
    Option (Except ChannelError Unit) × RecordingChannel Channel :=
  let (result, inner) := channel.flush state.inner
  (result, { state with inner })

def channel (channel : ByteChannel Channel) :
    ByteChannel (RecordingChannel Channel) where
  send := send time channel
  receive := receive time channel
  flush := flush channel

end RecordingChannel

/-! ## Replaying -/

def maximumReplaySteps : Nat := 1048576

def maximumReplayBytes : Nat := 256 * 1024 * 1024

inductive ReplayStep where
  | expect (bytes : Bytes)
  | provide (bytes : Bytes)
  | fail
  deriving DecidableEq, Repr

def ReplayStep.payloadBytes : ReplayStep → Nat
  | .expect bytes | .provide bytes => bytes.length
  | .fail => 0

structure ReplayLimits where
  maximumSteps : Nat := 65536
  maximumBytes : Nat := 16 * 1024 * 1024
  deriving DecidableEq, Repr

inductive ReplayBuildError where
  | zeroLimit
  | stepLimit (steps : Nat)
  | byteLimit (bytes : Nat)
  | scenarioSteps (limit : Nat)
  | scenarioBytes (limit : Nat)
  deriving DecidableEq, Repr

def ReplayLimits.validate (limits : ReplayLimits) :
    Except ReplayBuildError Unit :=
  if limits.maximumSteps = 0 ∨ limits.maximumBytes = 0 then .error .zeroLimit
  else if limits.maximumSteps > maximumReplaySteps then
    .error (.stepLimit limits.maximumSteps)
  else if limits.maximumBytes > maximumReplayBytes then
    .error (.byteLimit limits.maximumBytes)
  else .ok ()

structure ReplayChannel where
  steps : List ReplayStep
  pending : Bytes := []
  deriving DecidableEq, Repr

namespace ReplayChannel

/-- The loop of the construction; the addition is one of machine words. -/
def bounded (limits : ReplayLimits) :
    List ReplayStep → Nat → List ReplayStep →
      Except ReplayBuildError (List ReplayStep)
  | [], _, kept => .ok kept
  | step :: steps, retainedBytes, kept =>
      if kept.length ≥ limits.maximumSteps then
        .error (.scenarioSteps limits.maximumSteps)
      else if retainedBytes + step.payloadBytes ≥ 2 ^ 64 then
        .error (.scenarioBytes limits.maximumBytes)
      else if retainedBytes + step.payloadBytes > limits.maximumBytes then
        .error (.scenarioBytes limits.maximumBytes)
      else
        bounded limits steps (retainedBytes + step.payloadBytes)
          (kept ++ [step])

def withLimits (steps : List ReplayStep) (limits : ReplayLimits) :
    Except ReplayBuildError ReplayChannel := do
  limits.validate
  let kept ← bounded limits steps 0 []
  return { steps := kept }

def isComplete (state : ReplayChannel) : Bool :=
  state.steps.isEmpty && state.pending.isEmpty

def send (state : ReplayChannel) (bytes : Bytes) :
    Except ChannelError Unit × ReplayChannel :=
  match state.steps with
  | .expect expected :: steps =>
      if expected = bytes then (.ok (), { state with steps })
      else
        (.error (.configuration "outgoing bytes do not match the scenario"),
          { state with steps })
  | .provide _ :: steps | .fail :: steps =>
      (.error (.configuration "scenario expected a read, not a write"),
        { state with steps })
  | [] => (.error .closed, state)

def takePending (state : ReplayChannel) (size : Nat) :
    Except ChannelError Bytes × ReplayChannel :=
  (.ok (state.pending.take size),
    { state with pending := state.pending.drop size })

def receive (state : ReplayChannel) (size : Nat) :
    Except ChannelError Bytes × ReplayChannel :=
  if size = 0 then
    (.error (.configuration "replay receive buffer cannot be empty"), state)
  else if state.pending.isEmpty then
    match state.steps with
    | .provide bytes :: steps => takePending ⟨steps, bytes⟩ size
    | .fail :: steps =>
        (.error (.configuration "scheduled read failure"), { state with steps })
    | .expect _ :: steps =>
        (.error (.configuration "scenario expected a write, not a read"),
          { state with steps })
    | [] => (.error .closed, state)
  else state.takePending size

/-- No call waits. -/
def channel : ByteChannel ReplayChannel where
  send state bytes := (state.send bytes).map some id
  receive state size := (state.receive size).map some id
  flush state := (some (.ok ()), state)

end ReplayChannel

/-! ## What a recording holds -/

/-- A read of more than the buffer holds is an error of a recorded channel. -/
def Called.refused : Called → Called
  | .receive size (some (.ok fragment)) =>
      .receive size (some
        (if fragment.length > size then
          .error (.configuration
            "recorded channel returned more bytes than the receive buffer can hold")
        else .ok fragment))
  | called => called

def stamped (time : Nat → Int) :
    Nat → List (TraceDirection × Bytes) → List TraceRecord
  | _, [] => []
  | reading, (direction, bytes) :: transfers =>
      ⟨direction, time reading, bytes⟩ :: stamped time (reading + 1) transfers

theorem stamped_append (time : Nat → Int) (reading : Nat)
    (transfers later : List (TraceDirection × Bytes)) :
    stamped time reading (transfers ++ later) =
      stamped time reading transfers ++
        stamped time (reading + transfers.length) later := by
  induction transfers generalizing reading with
  | nil => rfl
  | cons transfer transfers ih =>
      rw [List.cons_append, stamped, stamped, ih, List.length_cons,
        Nat.add_right_comm, ← Nat.add_assoc, List.cons_append]

@[simp] theorem length_stamped (time : Nat → Int) (reading : Nat)
    (transfers : List (TraceDirection × Bytes)) :
    (stamped time reading transfers).length = transfers.length := by
  induction transfers generalizing reading with
  | nil => rfl
  | cons transfer transfers ih =>
      rw [stamped, List.length_cons, List.length_cons, ih]

def transfers (returned : List Called) : List (TraceDirection × Bytes) :=
  returned.filterMap Called.transfer

namespace RecordingChannel

variable {Channel : Type} (time : Nat → Int)

def recorded (state : RecordingChannel Channel) (inner : Channel)
    (transfers : List (TraceDirection × Bytes)) : RecordingChannel Channel where
  inner
  trace := state.trace.pushAll (stamped time state.readings transfers)
  readings := state.readings + transfers.length

theorem recorded_append (state : RecordingChannel Channel)
    (inner final : Channel) (transfers later : List (TraceDirection × Bytes)) :
    (state.recorded time inner transfers).recorded time final later =
      state.recorded time final (transfers ++ later) := by
  simp [recorded, stamped_append, Trace.pushAll, Nat.add_assoc]

theorem call_channel (channel : ByteChannel Channel)
    (state : RecordingChannel Channel) (call : ChannelCall) :
    (RecordingChannel.channel time channel).call state call =
      ((channel.call state.inner call).1.refused,
        state.recorded time (channel.call state.inner call).2
          (channel.call state.inner call).1.refused.transfer.toList) := by
  cases call with
  | send bytes =>
      rcases hsend : channel.send state.inner bytes with
        ⟨_ | _ | ⟨⟩, inner⟩ <;>
      simp [ByteChannel.call, RecordingChannel.channel, send, hsend,
        Called.refused, Called.transfer, recorded, record, stamped,
        Trace.pushAll]
  | receive size =>
      rcases hreceive : channel.receive state.inner size with
        ⟨_ | _ | fragment, inner⟩
      · simp [ByteChannel.call, RecordingChannel.channel, receive, hreceive,
          Called.refused, Called.transfer, recorded, stamped, Trace.pushAll]
      · simp [ByteChannel.call, RecordingChannel.channel, receive, hreceive,
          Called.refused, Called.transfer, recorded, stamped, Trace.pushAll]
      · by_cases hlong : fragment.length > size <;>
        simp [ByteChannel.call, RecordingChannel.channel, receive, hreceive,
          Called.refused, Called.transfer, recorded, record, stamped,
          Trace.pushAll, hlong]
  | flush =>
      rcases hflush : channel.flush state.inner with ⟨_ | _ | ⟨⟩, inner⟩ <;>
      simp [ByteChannel.call, RecordingChannel.channel, flush, hflush,
        Called.refused, Called.transfer, recorded, stamped, Trace.pushAll]

theorem calls_channel (channel : ByteChannel Channel)
    (state : RecordingChannel Channel) (calls : List ChannelCall) :
    (RecordingChannel.channel time channel).calls state calls =
      ((channel.calls state.inner calls).1.map Called.refused,
        state.recorded time (channel.calls state.inner calls).2
          (transfers ((channel.calls state.inner calls).1.map
            Called.refused))) := by
  induction calls generalizing state with
  | nil => rfl
  | cons call calls ih =>
      simp only [ByteChannel.calls, call_channel, ih, List.map_cons]
      rw [recorded_append]
      refine Prod.ext rfl ?_
      congr 1
      rw [transfers, transfers, List.filterMap_cons]
      cases (channel.call state.inner call).1.refused.transfer <;> rfl

end RecordingChannel

/--
A recorded channel behaves as the channel does, but for a read that overruns the
buffer.  Whatever the calls, their results and their losses, the trace holds the
longest recent part of what was transferred that its limits allow, in order, with
the times of the transfers.
-/
theorem recorded_channel_transparent {Channel : Type} (time : Nat → Int)
    (channel : ByteChannel Channel) (inner : Channel) (limits : TraceLimits)
    (calls : List ChannelCall) :
    let plain := channel.calls inner calls
    let recorded := (RecordingChannel.channel time channel).calls
      (RecordingChannel.withLimits inner limits) calls
    recorded.1 = plain.1.map Called.refused ∧
      recorded.2.inner = plain.2 ∧
      IsLongestSuffix limits.clamped.Fits
        ((stamped time 0 (transfers recorded.1)).filter limits.clamped.admits)
        recorded.2.trace.records := by
  intro plain recorded
  have hcalls : recorded = _ := RecordingChannel.calls_channel time channel
    (RecordingChannel.withLimits inner limits) calls
  rw [hcalls]
  exact ⟨rfl, rfl, (Trace.recorded limits (stamped time 0 _)).kept⟩

/-! ## What a scenario plays -/

def expectedSends (steps : List ReplayStep) : List Bytes :=
  steps.filterMap fun
    | .expect bytes => some bytes
    | .provide _ | .fail => none

def providedBytes (steps : List ReplayStep) : Bytes :=
  (steps.filterMap fun
    | .provide bytes => some bytes
    | .expect _ | .fail => none).flatten

def acceptedSends (returned : List Called) : List Bytes :=
  (transfers returned).filterMap fun
    | (.outbound, bytes) => some bytes
    | (.inbound, _) => none

def deliveredBytes (returned : List Called) : Bytes :=
  ((transfers returned).filterMap fun
    | (.inbound, bytes) => some bytes
    | (.outbound, _) => none).flatten

def failures (returned : List Called) : Nat :=
  returned.countP fun called => !called.succeeded

section Projections

variable (steps later : List ReplayStep) (returned rest : List Called)

@[simp] theorem expectedSends_append :
    expectedSends (steps ++ later) =
      expectedSends steps ++ expectedSends later :=
  List.filterMap_append

@[simp] theorem providedBytes_append :
    providedBytes (steps ++ later) =
      providedBytes steps ++ providedBytes later := by
  simp [providedBytes]

@[simp] theorem acceptedSends_append :
    acceptedSends (returned ++ rest) =
      acceptedSends returned ++ acceptedSends rest := by
  simp [acceptedSends, transfers]

@[simp] theorem deliveredBytes_append :
    deliveredBytes (returned ++ rest) =
      deliveredBytes returned ++ deliveredBytes rest := by
  simp [deliveredBytes, transfers]

@[simp] theorem failures_append :
    failures (returned ++ rest) = failures returned + failures rest :=
  List.countP_append

end Projections

namespace ReplayChannel

/--
The steps that calls have used up.  What was delivered, is pending and was accepted
is in their order; where no call has failed, it is all of it.
-/
structure Played (scenario consumed : List ReplayStep) (returned : List Called)
    (state : ReplayChannel) : Prop where
  steps : scenario = consumed ++ state.steps
  bytes : (deliveredBytes returned ++ state.pending).Sublist
    (providedBytes consumed)
  sends : (acceptedSends returned).Sublist (expectedSends consumed)
  faultless : failures returned = 0 →
    deliveredBytes returned ++ state.pending = providedBytes consumed ∧
      acceptedSends returned = expectedSends consumed ∧ .fail ∉ consumed

theorem played_new (scenario : List ReplayStep) :
    Played scenario [] [] { steps := scenario } :=
  ⟨rfl, List.Sublist.refl [], List.Sublist.refl [],
    fun _ => ⟨rfl, rfl, List.not_mem_nil⟩⟩

section Steps

variable {scenario consumed steps : List ReplayStep} {returned : List Called}
  {pending : Bytes}

/-- A read that finds nothing pending takes what is provided next. -/
theorem Played.pull {bytes : Bytes}
    (h : Played scenario consumed returned ⟨.provide bytes :: steps, []⟩) :
    Played scenario (consumed ++ [.provide bytes]) returned
      ⟨steps, bytes⟩ := by
  have hprovided : providedBytes [.provide bytes] = bytes := by
    simp [providedBytes]
  have hexpected : expectedSends [.provide bytes] = [] := rfl
  have hbytes := h.bytes
  rw [List.append_nil] at hbytes
  refine ⟨?_, ?_, ?_, ?_⟩
  · rw [h.steps, List.append_assoc]
    rfl
  · rw [providedBytes_append, hprovided]
    exact hbytes.append_right bytes
  · rw [expectedSends_append, hexpected, List.append_nil]
    exact h.sends
  · intro hnone
    obtain ⟨hdelivered, hsends, hfail⟩ := h.faultless hnone
    rw [List.append_nil] at hdelivered
    rw [providedBytes_append, hprovided, expectedSends_append, hexpected,
      List.append_nil, hdelivered, hsends]
    exact ⟨rfl, rfl, by simpa using hfail⟩

theorem Played.take (h : Played scenario consumed returned ⟨steps, pending⟩)
    (size : Nat) :
    Played scenario consumed
      (returned ++ [.receive size (some (.ok (pending.take size)))])
      ⟨steps, pending.drop size⟩ := by
  have hdelivered : deliveredBytes
      [.receive size (some (.ok (pending.take size)))] = pending.take size := by
    simp [deliveredBytes, transfers, Called.transfer]
  have hsends : acceptedSends
      [.receive size (some (.ok (pending.take size)))] = [] := rfl
  refine ⟨h.steps, ?_, ?_, ?_⟩
  · rw [deliveredBytes_append, hdelivered, List.append_assoc,
      List.take_append_drop]
    exact h.bytes
  · rw [acceptedSends_append, hsends, List.append_nil]
    exact h.sends
  · rw [failures_append, deliveredBytes_append, hdelivered, List.append_assoc,
      List.take_append_drop, acceptedSends_append, hsends, List.append_nil]
    exact h.faultless

theorem Played.accept {bytes : Bytes}
    (h : Played scenario consumed returned
      ⟨.expect bytes :: steps, pending⟩) :
    Played scenario (consumed ++ [.expect bytes])
      (returned ++ [.send bytes (some (.ok ()))]) ⟨steps, pending⟩ := by
  have hprovided : providedBytes [.expect bytes] = [] := rfl
  have hexpected : expectedSends [.expect bytes] = [bytes] := rfl
  have hdelivered : deliveredBytes [.send bytes (some (.ok ()))] = [] := rfl
  have hsends : acceptedSends [.send bytes (some (.ok ()))] = [bytes] := rfl
  refine ⟨?_, ?_, ?_, ?_⟩
  · rw [h.steps, List.append_assoc]
    rfl
  · rw [deliveredBytes_append, hdelivered, List.append_nil,
      providedBytes_append, hprovided, List.append_nil]
    exact h.bytes
  · rw [acceptedSends_append, hsends, expectedSends_append, hexpected]
    exact h.sends.append_right [bytes]
  · intro hnone
    have hearlier : failures returned = 0 := by
      rw [failures_append] at hnone
      exact (Nat.add_eq_zero_iff.mp hnone).1
    obtain ⟨hbytes, haccepted, hfail⟩ := h.faultless hearlier
    rw [deliveredBytes_append, hdelivered, List.append_nil,
      providedBytes_append, hprovided, List.append_nil, acceptedSends_append,
      hsends, expectedSends_append, hexpected, haccepted]
    exact ⟨hbytes, rfl, by simpa using hfail⟩

theorem Played.fail (used : List ReplayStep) {called : Called}
    (h : Played scenario consumed returned ⟨used ++ steps, pending⟩)
    (hfailed : called.succeeded = false) (htransfer : called.transfer = none) :
    Played scenario (consumed ++ used) (returned ++ [called])
      ⟨steps, pending⟩ := by
  have hdelivered : deliveredBytes [called] = [] := by
    simp [deliveredBytes, transfers, htransfer]
  have hsends : acceptedSends [called] = [] := by
    simp [acceptedSends, transfers, htransfer]
  refine ⟨?_, ?_, ?_, ?_⟩
  · rw [h.steps, List.append_assoc]
  · rw [deliveredBytes_append, hdelivered, List.append_nil,
      providedBytes_append]
    exact h.bytes.trans (List.sublist_append_left _ _)
  · rw [acceptedSends_append, hsends, List.append_nil, expectedSends_append]
    exact h.sends.trans (List.sublist_append_left _ _)
  · intro hnone
    rw [failures_append] at hnone
    simp [failures, hfailed] at hnone

/-- A call that succeeds without a transfer. -/
theorem Played.flush (h : Played scenario consumed returned ⟨steps, pending⟩) :
    Played scenario consumed (returned ++ [.flush (some (.ok ()))])
      ⟨steps, pending⟩ := by
  have hdelivered : deliveredBytes [.flush (some (.ok ()))] = [] := rfl
  have hsends : acceptedSends [.flush (some (.ok ()))] = [] := rfl
  refine ⟨h.steps, ?_, ?_, ?_⟩
  · rw [deliveredBytes_append, hdelivered, List.append_nil]
    exact h.bytes
  · rw [acceptedSends_append, hsends, List.append_nil]
    exact h.sends
  · rw [failures_append, deliveredBytes_append, hdelivered,
      acceptedSends_append, hsends, List.append_nil, List.append_nil]
    exact h.faultless

end Steps

theorem Played.send {scenario consumed : List ReplayStep}
    {returned : List Called} {state : ReplayChannel}
    (h : Played scenario consumed returned state) (bytes : Bytes) :
    ∃ consumed, Played scenario consumed
      (returned ++ [.send bytes (some (state.send bytes).1)])
      (state.send bytes).2 := by
  obtain ⟨steps, pending⟩ := state
  cases steps with
  | nil =>
      exact ⟨_, Played.fail [] h rfl rfl⟩
  | cons step steps =>
      cases step with
      | expect expected =>
          by_cases hmatch : expected = bytes
          · subst hmatch
            simp only [ReplayChannel.send, if_true]
            exact ⟨_, h.accept⟩
          · simp only [ReplayChannel.send, if_neg hmatch]
            exact ⟨_, Played.fail [.expect expected] h rfl rfl⟩
      | provide provided =>
          exact ⟨_, Played.fail [.provide provided] h rfl rfl⟩
      | fail => exact ⟨_, Played.fail [.fail] h rfl rfl⟩

theorem Played.receive {scenario consumed : List ReplayStep}
    {returned : List Called} {state : ReplayChannel}
    (h : Played scenario consumed returned state) (size : Nat) :
    ∃ consumed, Played scenario consumed
      (returned ++ [.receive size (some (state.receive size).1)])
      (state.receive size).2 := by
  obtain ⟨steps, pending⟩ := state
  unfold ReplayChannel.receive
  split_ifs with hsize hpending
  · exact ⟨_, Played.fail [] h rfl rfl⟩
  · rw [List.isEmpty_iff] at hpending
    dsimp only at hpending
    subst hpending
    cases steps with
    | nil => exact ⟨_, Played.fail [] h rfl rfl⟩
    | cons step steps =>
        cases step with
        | expect expected =>
            exact ⟨_, Played.fail [.expect expected] h rfl rfl⟩
        | provide provided => exact ⟨_, h.pull.take size⟩
        | fail => exact ⟨_, Played.fail [.fail] h rfl rfl⟩
  · exact ⟨_, h.take size⟩

theorem Played.call {scenario consumed : List ReplayStep}
    {returned : List Called} {state : ReplayChannel}
    (h : Played scenario consumed returned state) (call : ChannelCall) :
    ∃ consumed, Played scenario consumed
      (returned ++ [(channel.call state call).1]) (channel.call state call).2 := by
  cases call with
  | send bytes => exact h.send bytes
  | receive size => exact h.receive size
  | flush => exact ⟨_, h.flush⟩

theorem Played.calls {scenario consumed : List ReplayStep}
    {returned : List Called} {state : ReplayChannel}
    (h : Played scenario consumed returned state) (calls : List ChannelCall) :
    ∃ consumed, Played scenario consumed
      (returned ++ (channel.calls state calls).1)
      (channel.calls state calls).2 := by
  induction calls generalizing consumed returned state with
  | nil =>
      refine ⟨consumed, ?_⟩
      rw [ByteChannel.calls, List.append_nil]
      exact h
  | cons call calls ih =>
      obtain ⟨used, hused⟩ := h.call call
      obtain ⟨final, hfinal⟩ := ih hused
      refine ⟨final, ?_⟩
      rw [List.append_assoc, List.singleton_append] at hfinal
      exact hfinal

/-! ## Scenarios within limits -/

def scenarioBytes (steps : List ReplayStep) : Nat :=
  (steps.map ReplayStep.payloadBytes).sum

theorem bounded_eq {limits : ReplayLimits} {steps kept : List ReplayStep}
    {retainedBytes : Nat}
    (hbytes : retainedBytes + scenarioBytes steps ≤ limits.maximumBytes)
    (hsteps : kept.length + steps.length ≤ limits.maximumSteps)
    (hlimit : limits.maximumBytes ≤ maximumReplayBytes) :
    bounded limits steps retainedBytes kept = .ok (kept ++ steps) := by
  induction steps generalizing retainedBytes kept with
  | nil => rw [bounded, List.append_nil]
  | cons step steps ih =>
      rw [scenarioBytes, List.map_cons, List.sum_cons] at hbytes
      rw [List.length_cons] at hsteps
      have hrest : scenarioBytes steps =
          (steps.map ReplayStep.payloadBytes).sum := rfl
      unfold maximumReplayBytes at hlimit
      rw [bounded, if_neg (by omega), if_neg (by omega), if_neg (by omega), ih,
        List.append_assoc, List.singleton_append]
      · omega
      · rw [List.length_append, List.length_singleton]
        omega

theorem steps_of_bounded {limits : ReplayLimits}
    {steps kept final : List ReplayStep} {retainedBytes : Nat}
    (h : bounded limits steps retainedBytes kept = .ok final) :
    final = kept ++ steps := by
  induction steps generalizing retainedBytes kept with
  | nil =>
      injection h with h
      rw [← h, List.append_nil]
  | cons step steps ih =>
      rw [bounded] at h
      split_ifs at h
      rw [ih h, List.append_assoc, List.singleton_append]

theorem eq_of_withLimits {steps : List ReplayStep} {limits : ReplayLimits}
    {state : ReplayChannel} (h : withLimits steps limits = .ok state) :
    state = { steps } := by
  rw [withLimits] at h
  cases hvalid : limits.validate with
  | error error =>
      rw [hvalid] at h
      contradiction
  | ok value =>
      rw [hvalid] at h
      cases hbounded : bounded limits steps 0 [] with
      | error error =>
          simp [hbounded, bind, Except.bind] at h
      | ok kept =>
          have hkept := steps_of_bounded hbounded
          rw [List.nil_append] at hkept
          simp only [hbounded, bind, Except.bind, pure, Except.pure,
            Except.ok.injEq] at h
          rw [← h, hkept]

/--
Whatever the calls, a replay goes through its scenario in order: the sends that it
accepts are sends that it expects, and the bytes that it delivers are bytes that
it provides.  As long as no call has failed it leaves nothing out and passes no
scheduled failure; when it is complete then, the calls have played the scenario.
-/
theorem replay_follows_scenario {scenario : List ReplayStep}
    {limits : ReplayLimits} {start : ReplayChannel}
    (h : withLimits scenario limits = .ok start) (calls : List ChannelCall) :
    let played := channel.calls start calls
    (∃ consumed, scenario = consumed ++ played.2.steps ∧
        (acceptedSends played.1).Sublist (expectedSends consumed) ∧
        (deliveredBytes played.1 ++ played.2.pending).Sublist
          (providedBytes consumed) ∧
        (failures played.1 = 0 →
          acceptedSends played.1 = expectedSends consumed ∧
            deliveredBytes played.1 ++ played.2.pending =
              providedBytes consumed ∧
            .fail ∉ consumed)) ∧
      (failures played.1 = 0 → played.2.isComplete = true →
        acceptedSends played.1 = expectedSends scenario ∧
          deliveredBytes played.1 = providedBytes scenario ∧
          .fail ∉ scenario) := by
  have hstart := eq_of_withLimits h
  subst hstart
  intro played
  obtain ⟨consumed, hplayed⟩ := (played_new scenario).calls calls
  rw [List.nil_append] at hplayed
  have hplayed : Played scenario consumed played.1 played.2 := hplayed
  refine ⟨⟨consumed, hplayed.steps, hplayed.sends, hplayed.bytes, ?_⟩, ?_⟩
  · intro hnone
    obtain ⟨hbytes, hsends, hfail⟩ := hplayed.faultless hnone
    exact ⟨hsends, hbytes, hfail⟩
  · intro hnone hcomplete
    rw [isComplete, Bool.and_eq_true, List.isEmpty_iff, List.isEmpty_iff]
      at hcomplete
    obtain ⟨hbytes, hsends, hfail⟩ := hplayed.faultless hnone
    have hall := hplayed.steps
    rw [hcomplete.1, List.append_nil] at hall
    rw [hcomplete.2, List.append_nil] at hbytes
    exact hall ▸ ⟨hsends, hbytes, hfail⟩

/-- A write is played, and then a read of what is provided in two parts. -/
theorem replay_follows_scenario_poll :
    ∃ start, withLimits [.expect [1], .provide [2, 3]] {} = .ok start ∧
      acceptedSends (channel.calls start
        [.send [1], .receive 1, .receive 8]).1 = [[1]] ∧
      deliveredBytes (channel.calls start
        [.send [1], .receive 1, .receive 8]).1 = [2, 3] := by
  refine ⟨_, rfl, ?_⟩
  have h := (@replay_follows_scenario [.expect [1], .provide [2, 3]] {} _ rfl
    [.send [1], .receive 1, .receive 8]).2 rfl rfl
  exact ⟨h.1, h.2.1⟩

/-! ## Replaying a recording -/

def stepOf : TraceDirection → Bytes → ReplayStep
  | .outbound, bytes => .expect bytes
  | .inbound, bytes => .provide bytes

def scenarioOf (records : List TraceRecord) : List ReplayStep :=
  records.map fun record => stepOf record.direction record.bytes

theorem scenarioOf_stamped (time : Nat → Int) (reading : Nat)
    (transfers : List (TraceDirection × Bytes)) :
    scenarioOf (stamped time reading transfers) =
      transfers.map fun (direction, bytes) => stepOf direction bytes := by
  induction transfers generalizing reading with
  | nil => rfl
  | cons transfer transfers ih =>
      rw [List.map_cons, ← ih (reading + 1)]
      rfl

theorem scenarioBytes_scenarioOf (records : List TraceRecord) :
    scenarioBytes (scenarioOf records) = payloadBytes records := by
  rw [scenarioBytes, scenarioOf, List.map_map, payloadBytes]
  congr 2
  funext record
  obtain ⟨direction, timestamp, bytes⟩ := record
  cases direction <;> rfl

/-- A call that fits its own transfer: a read asks for enough, and for something. -/
def Fitting : Called → Prop
  | .receive size (some (.ok fragment)) => size ≠ 0 ∧ fragment.length ≤ size
  | _ => True

theorem calls_of_transfers {returned : List Called}
    (hdone : ∀ called ∈ returned, called.succeeded = true)
    (hfits : ∀ called ∈ returned, Fitting called) :
    channel.calls
        { steps := (transfers returned).map fun (direction, bytes) =>
            stepOf direction bytes }
        (returned.map Called.toCall) = (returned, { steps := [] }) := by
  induction returned with
  | nil => rfl
  | cons called returned ih =>
      have hrest := ih
        (fun other hother => hdone other (List.mem_cons_of_mem _ hother))
        (fun other hother => hfits other (List.mem_cons_of_mem _ hother))
      have hcalled := hdone called List.mem_cons_self
      have hfit := hfits called List.mem_cons_self
      cases called with
      | send bytes result =>
          obtain _ | _ | ⟨⟩ := result
          · contradiction
          · contradiction
          · simp only [transfers, List.filterMap_cons, Called.transfer,
              List.map_cons, Called.toCall, ByteChannel.calls,
              ByteChannel.call, channel, send, stepOf, if_true, Prod.map]
            rw [← transfers]
            exact congrArg (fun ran => (_ :: ran.1, ran.2)) hrest
      | receive size result =>
          obtain _ | _ | fragment := result
          · contradiction
          · contradiction
          · obtain ⟨hsize, hlength⟩ := hfit
            simp only [transfers, List.filterMap_cons, Called.transfer,
              List.map_cons, Called.toCall, ByteChannel.calls,
              ByteChannel.call, channel, receive, stepOf, if_neg hsize,
              List.isEmpty_nil, if_true, takePending,
              List.take_of_length_le hlength, List.drop_of_length_le hlength,
              Prod.map]
            rw [← transfers]
            exact congrArg (fun ran => (_ :: ran.1, ran.2)) hrest
      | flush result =>
          obtain _ | _ | ⟨⟩ := result
          · contradiction
          · contradiction
          · exact congrArg (fun ran => (_ :: ran.1, ran.2)) hrest

end ReplayChannel

theorem refused_fitting {called : Called} (h : called.toCall ≠ .receive 0) :
    ReplayChannel.Fitting called.refused := by
  cases called with
  | send bytes result => trivial
  | flush result => trivial
  | receive size result =>
      obtain _ | _ | fragment := result
      · trivial
      · trivial
      · rw [Called.refused]
        split_ifs with hlong
        · trivial
        · refine ⟨?_, Nat.le_of_not_lt hlong⟩
          rintro rfl
          exact h rfl

theorem toCall_calls {Channel : Type} (channel : ByteChannel Channel)
    (state : Channel) (calls : List ChannelCall) :
    (channel.calls state calls).1.map Called.toCall = calls := by
  induction calls generalizing state with
  | nil => rfl
  | cons call calls ih =>
      rw [ByteChannel.calls, List.map_cons, ih]
      cases call <;> rfl

theorem transfers_succeeded (returned : List Called) :
    transfers (returned.filter Called.succeeded) = transfers returned := by
  rw [transfers, transfers, List.filterMap_filter]
  refine List.filterMap_congr fun called _ => ?_
  split_ifs with hdone
  · rfl
  · rcases called with ⟨bytes, _ | _ | ⟨⟩⟩ | ⟨size, _ | _ | fragment⟩ | _
    all_goals first | rfl | exact absurd rfl hdone

theorem Trace.records_of_none_dropped {limits : TraceLimits}
    {pushed : List TraceRecord}
    (h : ((withLimits limits).pushAll pushed).droppedRecords = 0) :
    ((withLimits limits).pushAll pushed).records = pushed := by
  have hrecorded := recorded limits pushed
  have hcount := hrecorded.droppedRecords
  have hlength := hrecorded.sublist.length_le
  rw [h] at hcount
  have hnone := congrArg UInt64.toNat hcount
  rw [saturatingAdd_toNat] at hnone
  change 0 = min (0 + _) _ at hnone
  exact hrecorded.sublist.eq_of_length (by omega)

theorem withLimits_recorded {limits : TraceLimits} {pushed : List TraceRecord} :
    ReplayChannel.withLimits
        (ReplayChannel.scenarioOf
          ((Trace.withLimits limits).pushAll pushed).records)
        ⟨limits.clamped.maximumRecords, limits.clamped.maximumBytes⟩ =
      .ok ⟨ReplayChannel.scenarioOf
        ((Trace.withLimits limits).pushAll pushed).records, []⟩ := by
  have hfits := (Trace.recorded limits pushed).kept.fits
  generalize ((Trace.withLimits limits).pushAll pushed).records = records
    at hfits
  have hrecords : 1 ≤ limits.clamped.maximumRecords ∧
      limits.clamped.maximumRecords ≤ maximumReplaySteps := by
    unfold TraceLimits.clamped maximumTraceRecords maximumReplaySteps
    dsimp only
    omega
  have hbytes : 1 ≤ limits.clamped.maximumBytes ∧
      limits.clamped.maximumBytes ≤ maximumReplayBytes := by
    unfold TraceLimits.clamped maximumTraceBytes maximumReplayBytes
    dsimp only
    omega
  have hvalid : (ReplayLimits.mk limits.clamped.maximumRecords
      limits.clamped.maximumBytes).validate = .ok () := by
    unfold ReplayLimits.validate
    dsimp only
    rw [if_neg (by omega), if_neg (by omega), if_neg (by omega)]
  rw [ReplayChannel.withLimits, hvalid, ReplayChannel.bounded_eq]
  · rfl
  · rw [Nat.zero_add, ReplayChannel.scenarioBytes_scenarioOf]
    exact hfits.2
  · rw [ReplayChannel.scenarioOf, List.length_map, List.length_nil, Nat.zero_add]
    exact hfits.1
  · exact hbytes.2

/--
A recording that has dropped nothing, of calls that never read into an empty
buffer, is a scenario that a replay accepts under the limits the recorder works
with.  The calls that succeeded while it was made have the same results in the
replay, and complete it.
-/
theorem recording_replays {Channel : Type} (time : Nat → Int)
    (channel : ByteChannel Channel) (inner : Channel) (limits : TraceLimits)
    {calls : List ChannelCall} (hsize : .receive 0 ∉ calls) :
    let recorded := (RecordingChannel.channel time channel).calls
      (RecordingChannel.withLimits inner limits) calls
    let succeeded := recorded.1.filter Called.succeeded
    recorded.2.trace.droppedRecords = 0 →
    ∃ replay,
      ReplayChannel.withLimits
          (ReplayChannel.scenarioOf recorded.2.trace.records)
          ⟨limits.clamped.maximumRecords, limits.clamped.maximumBytes⟩ =
        .ok replay ∧
      (ReplayChannel.channel.calls replay
        (succeeded.map Called.toCall)).1 = succeeded ∧
      (ReplayChannel.channel.calls replay
        (succeeded.map Called.toCall)).2.isComplete = true := by
  intro recorded succeeded hdropped
  have hcalls : recorded = _ := RecordingChannel.calls_channel time channel
    (RecordingChannel.withLimits inner limits) calls
  have hfits : ∀ called ∈ succeeded, ReplayChannel.Fitting called := by
    intro called hcalled
    have hcalled := (List.mem_filter.mp hcalled).1
    rw [hcalls, List.mem_map] at hcalled
    obtain ⟨plain, hplain, rfl⟩ := hcalled
    apply refused_fitting
    intro hempty
    apply hsize
    rw [← hempty, ← toCall_calls channel inner calls]
    exact List.mem_map_of_mem hplain
  have htrace : recorded.2.trace =
      (Trace.withLimits limits).pushAll (stamped time 0 (transfers recorded.1)) := by
    rw [hcalls]
    rfl
  rw [htrace] at hdropped ⊢
  refine ⟨_, withLimits_recorded, ?_⟩
  rw [Trace.records_of_none_dropped hdropped,
    ReplayChannel.scenarioOf_stamped, ← transfers_succeeded]
  have hdone : ∀ called ∈ succeeded, called.succeeded = true :=
    fun called hcalled => (List.mem_filter.mp hcalled).2
  have hplayed := ReplayChannel.calls_of_transfers hdone hfits
  exact ⟨congrArg Prod.fst hplayed,
    congrArg (fun ran => ran.2.isComplete) hplayed⟩

/-- A recorded exchange of which the last read fails. -/
theorem recording_replays_poll :
    let recorded := (RecordingChannel.channel (fun _ => 0)
      ReplayChannel.channel).calls
      (RecordingChannel.withLimits
        ⟨[.expect [1], .provide [2, 3], .fail], []⟩ ⟨8, 8⟩)
      [.send [1], .receive 1, .receive 8, .receive 8]
    ∃ replay,
      ReplayChannel.withLimits
        (ReplayChannel.scenarioOf recorded.2.trace.records) ⟨8, 8⟩ =
          .ok replay ∧
      (ReplayChannel.channel.calls replay
        [.send [1], .receive 1, .receive 8]).2.isComplete = true := by
  intro recorded
  have hsize : ChannelCall.receive 0 ∉
      [.send [1], .receive 1, .receive 8, .receive 8] := by decide
  obtain ⟨replay, hreplay, -, hcomplete⟩ := recording_replays (fun _ => 0)
    ReplayChannel.channel ⟨[.expect [1], .provide [2, 3], .fail], []⟩ ⟨8, 8⟩
    hsize rfl
  exact ⟨replay, hreplay, hcomplete⟩

end HartLink.Recording
