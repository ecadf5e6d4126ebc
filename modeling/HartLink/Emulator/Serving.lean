import HartLink.Emulator.Identity
import HartLink.Emulator.Memory
import HartLink.Wire.Losses

/-!
# An emulated device at work

The task of an emulated device at the right endpoint of a memory channel, while
the owner of the left endpoint does what it likes.  In every interleaving the
device answers every request for it that it has read, once and in order, and
what it sends is what its fault plan makes of these answers.
-/

namespace HartLink.Emulator

open HartLink.Foundation
open HartLink.Wire
open HartLink.Service

def defaultLimits : DecodeLimits :=
  { bufferCapacity := 4096, minimumPreambles := 2, checksumPolicy := .strict }

def receiveBuffer : Nat := 512

/-- The response to an event, if the event is a request for the device. -/
def EmulatedDevice.answer (device : EmulatedDevice) :
    DecodeEvent → Option Frame
  | .frame request =>
      if request.kind ≠ .request || !device.acceptsAddress request.address then
        none
      else some (device.respond request)
  | .rejected _ => none

/--
`events` is the part of the last push that the loop has not come to, `answered`
what it has handed to `send`, and `result` what the task has returned.
-/
structure Serving where
  device : EmulatedDevice
  link : MemoryLink
  decoder : FrameDecoder := .new defaultLimits
  events : List DecodeEvent := []
  answered : List Bytes := []
  result : Option (Except ChannelError Unit) := none

inductive ServingAction where
  | host (call : MemoryLink.Call)
  | pull
  | read
  | handle
  | advance
  | closed
  deriving DecidableEq, Repr

namespace Serving

def finish (serving : Serving) (result : Except ChannelError Unit) : Serving :=
  { serving with
    result := some result
    link := serving.link.setEndpoint .right
      { serving.link.endpoint .right with pending := [], alive := false } }

/-- The loop waits in `receive` when it has handled all events. -/
def receiving (serving : Serving) : Bool :=
  serving.result.isNone && serving.events.isEmpty

def read (serving : Serving) : Option Serving :=
  if serving.receiving then
    (serving.link.step .right (.read receiveBuffer)).map fun link =>
      let fragment := (serving.link.pipe .right).remainder.take receiveBuffer
      let (events, decoder) := serving.decoder.push fragment
      { serving with link, decoder, events }
  else none

/-- One turn of the loop over the events; a send has to be over before it. -/
def handle (serving : Serving) : Option Serving :=
  if serving.result.isSome || !serving.link.idle .right then none
  else
    match serving.events with
    | [] => none
    | event :: events =>
        match serving.device.answer event with
        | none => some { serving with events }
        | some response =>
            match response.encode with
            | .error _ =>
                some (serving.finish (.error (.configuration
                  "emulator generated an invalid frame")))
            | .ok encoded =>
                some { serving with
                  link := serving.link.send .right encoded
                  events
                  answered := serving.answered ++ [encoded] }

/-- A send that finds the receiver gone ends the task with its error. -/
def advance (serving : Serving) : Option Serving :=
  if serving.result.isSome then none
  else
    match (serving.link.endpoint .right).pending with
    | [] => none
    | (lane, _) :: _ =>
        if (serving.link.endpoint (lane.target .right)).alive then
          (serving.link.advance .right).map fun link => { serving with link }
        else some (serving.finish (.error .closed))

def step (serving : Serving) : ServingAction → Option Serving
  | .host call =>
      (serving.link.step .left call).map fun link => { serving with link }
  | .pull =>
      if serving.receiving then
        (serving.link.step .right .pull).map fun link => { serving with link }
      else none
  | .read => serving.read
  | .handle => serving.handle
  | .advance => serving.advance
  | .closed =>
      if serving.receiving && serving.link.idle .right &&
          serving.link.closed .right then
        some (serving.finish (.ok ()))
      else none

def new (device : EmulatedDevice) (capacity : Nat) (plan : FaultPlan) :
    Serving where
  device
  link := (MemoryLink.pairWithCapacity capacity).setEndpoint .right
    { faults := plan }

end Serving

/-! ## What the device sends -/

namespace FaultPlan

def allSends (plan : FaultPlan) : List Bytes → List (Lane × Bytes)
  | [] => []
  | bytes :: transmissions =>
      plan.sends bytes ++ plan.afterSend.allSends transmissions

def afterSends (plan : FaultPlan) : List Bytes → FaultPlan
  | [] => plan
  | _ :: transmissions => plan.afterSend.afterSends transmissions

theorem allSends_concat (plan : FaultPlan) (transmissions : List Bytes)
    (bytes : Bytes) :
    plan.allSends (transmissions ++ [bytes]) =
      plan.allSends transmissions ++
        (plan.afterSends transmissions).sends bytes := by
  induction transmissions generalizing plan with
  | nil => simp [allSends, afterSends]
  | cons first transmissions ih =>
      rw [List.cons_append, allSends, allSends, afterSends, ih,
        List.append_assoc]

theorem afterSends_concat (plan : FaultPlan) (transmissions : List Bytes)
    (bytes : Bytes) :
    plan.afterSends (transmissions ++ [bytes]) =
      (plan.afterSends transmissions).afterSend := by
  induction transmissions generalizing plan with
  | nil => rfl
  | cons first transmissions ih =>
      rw [List.cons_append, afterSends, afterSends, ih]

end FaultPlan

theorem length_le_of_encode {frame : Frame} {encoded : Bytes}
    (h : frame.encode = .ok encoded) :
    encoded.length ≤ maximumEmulatorTransmissionBytes := by
  have haddress : frame.address.encodedLen ≤ 5 := by
    cases frame.address <;> simp [Address.encodedLen]
  have hpreambles := frame.preambles.toNat_lt
  have hbody := frame.length_body
  unfold Frame.encode at h
  split_ifs at h with hexpansion hpayload
  injection h with h
  rw [← h, List.length_append, List.length_replicate, List.length_append,
    List.length_singleton, maximumEmulatorTransmissionBytes]
  omega

/-- The bytes that the device hands to `send` for an event. -/
def EmulatedDevice.encodedAnswer (device : EmulatedDevice)
    (event : DecodeEvent) : Option Bytes :=
  (device.answer event).bind fun response => response.encode.toOption

namespace Serving

/-- The task has read all that was sent to it and has come to every event. -/
structure Drained (serving : Serving) : Prop where
  events : serving.events = []
  remainder : (serving.link.pipe .right).remainder = []
  waiting : (serving.link.pipe .right).waiting = []

/-- What holds of the task after every step. -/
structure Answering (device : EmulatedDevice) (plan : FaultPlan)
    (serving : Serving) : Prop where
  device_eq : serving.device = device
  balanced : serving.link.Balanced
  pieces : ∀ piece ∈ (serving.link.pipe .right).pieces,
    piece.length ≤ receiveBuffer
  decoded : ∃ handled,
    (FrameDecoder.new defaultLimits).pushAll
        (serving.link.pipe .right).pieces =
      (handled ++ serving.events, serving.decoder) ∧
    serving.answered = handled.filterMap device.encodedAnswer
  planned : (serving.link.endpoint .right).sent ++
    (serving.link.endpoint .right).pending <+: plan.allSends serving.answered
  running : serving.result = none →
    (serving.link.endpoint .right).sent ++
        (serving.link.endpoint .right).pending =
      plan.allSends serving.answered ∧
    (serving.link.endpoint .right).faults = plan.afterSends serving.answered ∧
    (serving.link.endpoint .right).alive = true
  gone : serving.result ≠ none →
    (serving.link.endpoint .right).alive = false
  complete : serving.result = some (.ok ()) →
    serving.Drained ∧
    (serving.link.endpoint .right).sent = plan.allSends serving.answered

section Steps

variable {device : EmulatedDevice} {plan : FaultPlan} {serving : Serving}

theorem answering_new (capacity : Nat) :
    (new device capacity plan).Answering device plan := by
  refine ⟨rfl, ?_, ?_, ⟨[], rfl, rfl⟩, ?_, ?_, fun hover => absurd rfl hover,
    fun hresult => nomatch hresult⟩
  · exact (MemoryLink.balanced_pair capacity).setEndpoint rfl
  · intro piece hpiece
    exact absurd hpiece (List.not_mem_nil)
  · exact List.prefix_refl []
  · intro _
    exact ⟨rfl, rfl, rfl⟩

/-- The task is over: what was pending is not sent any more. -/
theorem Answering.finish (h : serving.Answering device plan)
    {result : Except ChannelError Unit}
    (hcomplete : result = .ok () → serving.Drained ∧
      (serving.link.endpoint .right).sent = plan.allSends serving.answered) :
    (serving.finish result).Answering device plan := by
  have hendpoint : (serving.finish result).link.endpoint .right =
      { serving.link.endpoint .right with pending := [], alive := false } := by
    rw [Serving.finish, MemoryLink.setEndpoint_endpoint, if_pos rfl]
  refine ⟨h.device_eq, h.balanced.setEndpoint rfl, h.pieces, h.decoded, ?_,
    (fun hresult => nomatch hresult), ?_, ?_⟩
  · rw [hendpoint, List.append_nil]
    exact (List.prefix_append _ _).trans h.planned
  · intro _
    rw [hendpoint]
  · intro hresult
    injection hresult with hresult
    obtain ⟨hdrained, hsent⟩ := hcomplete hresult
    rw [hendpoint]
    exact ⟨⟨hdrained.events, hdrained.remainder, hdrained.waiting⟩, hsent⟩

/-- Steps that change neither the right endpoint nor what the task has read. -/
theorem Answering.setLink (h : serving.Answering device plan)
    {link : MemoryLink} (hbalanced : link.Balanced)
    (hendpoint : link.endpoint .right = serving.link.endpoint .right)
    (hpieces : (link.pipe .right).pieces =
      (serving.link.pipe .right).pieces)
    (hover : serving.result ≠ none →
      link.pipe .right = serving.link.pipe .right) :
    { serving with link }.Answering device plan := by
  refine ⟨h.device_eq, hbalanced, ?_, ?_, ?_, ?_, ?_, ?_⟩
  · rw [hpieces]
    exact h.pieces
  · rw [hpieces]
    exact h.decoded
  · rw [hendpoint]
    exact h.planned
  · rw [hendpoint]
    exact h.running
  · rw [hendpoint]
    exact h.gone
  · intro hresult
    obtain ⟨hdrained, hsent⟩ := h.complete hresult
    have hpipe := hover (by rw [hresult]; exact Option.some_ne_none _)
    rw [hendpoint]
    refine ⟨⟨hdrained.events, ?_, ?_⟩, hsent⟩
    · rw [hpipe]
      exact hdrained.remainder
    · rw [hpipe]
      exact hdrained.waiting

theorem Answering.host (h : serving.Answering device plan)
    {call : MemoryLink.Call} {link : MemoryLink}
    (hstep : serving.link.step .left call = some link) :
    { serving with link }.Answering device plan := by
  obtain ⟨hendpoint, hpieces⟩ := MemoryLink.step_other hstep
  exact h.setLink (h.balanced.step hstep) hendpoint hpieces
    fun hresult => MemoryLink.step_gone hstep (h.gone hresult)

theorem receiving_iff : serving.receiving = true ↔
    serving.result = none ∧ serving.events = [] := by
  rw [receiving, Bool.and_eq_true, List.isEmpty_iff, Option.isNone_iff_eq_none]

theorem Answering.pull (h : serving.Answering device plan)
    (hreceiving : serving.receiving = true) {link : MemoryLink}
    (hstep : serving.link.step .right .pull = some link) :
    { serving with link }.Answering device plan := by
  have hbalanced := h.balanced.step hstep
  obtain ⟨pipe, -, hpull, rfl⟩ := MemoryLink.pull_cases hstep
  obtain ⟨_, _, -, -, rfl⟩ := Pipe.pull_eq hpull
  exact h.setLink hbalanced rfl (by rw [MemoryLink.setPipe_pipe, if_pos rfl])
    fun hresult => absurd (receiving_iff.mp hreceiving).1 hresult

theorem Answering.read {next : Serving} (h : serving.Answering device plan)
    (hstep : serving.read = some next) : next.Answering device plan := by
  unfold Serving.read at hstep
  split_ifs at hstep with hreceiving
  rw [Option.map_eq_some_iff] at hstep
  obtain ⟨link, hlink, rfl⟩ := hstep
  have hbalanced := h.balanced.step hlink
  obtain ⟨pipe, -, hread, rfl⟩ := MemoryLink.read_cases hlink
  obtain ⟨-, -, rfl⟩ := Pipe.read_eq hread
  obtain ⟨hresult, hempty⟩ := receiving_iff.mp hreceiving
  refine ⟨h.device_eq, hbalanced, ?_, ?_, h.planned, h.running,
    fun hover => absurd hresult hover, fun hdone => ?_⟩
  · intro piece hpiece
    simp only [MemoryLink.setPipe_pipe, if_true, List.mem_append,
      List.mem_singleton] at hpiece
    rcases hpiece with hold | rfl
    · exact h.pieces piece hold
    · exact List.length_take_le _ _
  · obtain ⟨handled, hpushed, hanswered⟩ := h.decoded
    refine ⟨handled, ?_, hanswered⟩
    simp only [MemoryLink.setPipe_pipe, if_true]
    rw [FrameDecoder.pushAll_append, hpushed, hempty, List.append_nil]
    simp only [FrameDecoder.pushAll, List.append_nil]
  · exact absurd (hresult.symm.trans hdone) (by simp)

theorem Answering.handle {next : Serving} (h : serving.Answering device plan)
    (hstep : serving.handle = some next) : next.Answering device plan := by
  unfold Serving.handle at hstep
  split_ifs at hstep with hbusy
  rw [Bool.not_eq_true, Bool.or_eq_false_iff, Bool.not_eq_false'] at hbusy
  obtain ⟨hrunning, hidle⟩ := hbusy
  have hresult : serving.result = none := by simpa using hrunning
  have hpending : (serving.link.endpoint .right).pending = [] := by
    rw [MemoryLink.idle, Bool.and_eq_true, List.isEmpty_iff] at hidle
    exact hidle.2
  obtain ⟨hsent, hfaults, halive⟩ := h.running hresult
  rw [hpending, List.append_nil] at hsent
  obtain ⟨handled, hpushed, hanswered⟩ := h.decoded
  split at hstep
  · contradiction
  next event events hevents =>
    rw [hevents] at hpushed
    rw [h.device_eq] at hstep
    split at hstep
    next hnone =>
      injection hstep with hstep
      rw [← hstep]
      refine ⟨rfl, h.balanced, h.pieces, ⟨handled ++ [event], ?_, ?_⟩,
        h.planned, h.running, fun hover => absurd hresult hover,
        fun hdone => absurd (hresult.symm.trans hdone) (by simp)⟩
      · rw [hpushed, List.append_assoc]
        rfl
      · rw [List.filterMap_append, ← hanswered]
        simp [EmulatedDevice.encodedAnswer, hnone]
    next response hsome =>
      split at hstep
      · injection hstep with hstep
        rw [← hstep]
        exact h.finish (by simp)
      next encoded hencoded =>
        injection hstep with hstep
        rw [← hstep]
        have hlength := length_le_of_encode hencoded
        have hsend : serving.link.send .right encoded =
            serving.link.setEndpoint .right
              { serving.link.endpoint .right with
                faults := (serving.link.endpoint .right).faults.afterSend
                pending :=
                  (serving.link.endpoint .right).faults.sends encoded } := by
          rw [MemoryLink.send, if_neg (Nat.not_lt.mpr hlength)]
        have hplanned : (serving.link.endpoint .right).sent ++
            (serving.link.endpoint .right).faults.sends encoded =
              plan.allSends (serving.answered ++ [encoded]) := by
          rw [FaultPlan.allSends_concat, hsent, hfaults]
        refine ⟨rfl, h.balanced.send .right encoded, ?_, ?_, ?_, ?_,
          fun hover => absurd hresult hover,
          fun hdone => absurd (hresult.symm.trans hdone) (by simp)⟩
        · rw [hsend]
          exact h.pieces
        · refine ⟨handled ++ [event], ?_, ?_⟩
          · rw [hsend, MemoryLink.setEndpoint_pipe, hpushed, List.append_assoc]
            rfl
          · rw [List.filterMap_append, ← hanswered]
            simp [EmulatedDevice.encodedAnswer, hsome, hencoded,
              Except.toOption]
        · rw [hsend, MemoryLink.setEndpoint_endpoint, if_pos rfl, ← hplanned]
        · intro _
          rw [hsend, MemoryLink.setEndpoint_endpoint, if_pos rfl,
            FaultPlan.afterSends_concat, ← hfaults]
          exact ⟨hplanned, rfl, halive⟩

theorem Answering.advance {next : Serving} (h : serving.Answering device plan)
    (hstep : serving.advance = some next) : next.Answering device plan := by
  unfold Serving.advance at hstep
  split_ifs at hstep with hover
  split at hstep
  · contradiction
  next lane fragment pending hpending =>
    split_ifs at hstep with halive
    · rw [Option.map_eq_some_iff] at hstep
      obtain ⟨link, hlink, rfl⟩ := hstep
      have hbalanced := h.balanced.advance hlink
      obtain ⟨lane', fragment', pending', hpending', hcases⟩ :=
        MemoryLink.advance_cases hlink
      rw [hpending] at hpending'
      injection hpending' with hhead htail
      injection hhead with hlane hfragment
      subst hlane hfragment htail
      obtain ⟨pipe, -, hwrite, rfl⟩ | ⟨hgone, -⟩ := hcases
      · obtain ⟨-, rfl⟩ := Pipe.write_eq hwrite
        have hresult : serving.result = none := by simpa using hover
        obtain ⟨hsent, hfaults, hhere⟩ := h.running hresult
        have hplanned : (serving.link.endpoint .right).sent ++
            [(lane, fragment)] ++ pending =
              plan.allSends serving.answered := by
          rw [List.append_assoc, List.singleton_append, ← hpending, hsent]
        have hpieces : ((serving.link.setPipe (lane.target .right)
            { serving.link.pipe (lane.target .right) with
              waiting := (serving.link.pipe (lane.target .right)).waiting ++
                [fragment]
              accepted := (serving.link.pipe (lane.target .right)).accepted ++
                [(.right, fragment)] }).pipe .right).pieces =
            (serving.link.pipe .right).pieces := by
          rw [MemoryLink.setPipe_pipe]
          split_ifs with htarget
          · rw [← htarget]
          · rfl
        refine ⟨h.device_eq, hbalanced, ?_, ?_, ?_, ?_,
          fun hover => absurd hresult hover,
          fun hdone => absurd (hresult.symm.trans hdone) (by simp)⟩
        · rw [MemoryLink.setEndpoint_pipe, hpieces]
          exact h.pieces
        · rw [MemoryLink.setEndpoint_pipe, hpieces]
          exact h.decoded
        · rw [MemoryLink.setEndpoint_endpoint, if_pos rfl, hplanned]
        · intro _
          rw [MemoryLink.setEndpoint_endpoint, if_pos rfl]
          exact ⟨hplanned, hfaults, hhere⟩
      · rw [halive] at hgone
        contradiction
    · injection hstep with hstep
      rw [← hstep]
      exact h.finish (by simp)

theorem Answering.step {next : Serving} {action : ServingAction}
    (hstep : serving.step action = some next)
    (h : serving.Answering device plan) : next.Answering device plan := by
  cases action with
  | host call =>
      rw [Serving.step, Option.map_eq_some_iff] at hstep
      obtain ⟨link, hlink, rfl⟩ := hstep
      exact h.host hlink
  | pull =>
      rw [Serving.step] at hstep
      split_ifs at hstep with hreceiving
      rw [Option.map_eq_some_iff] at hstep
      obtain ⟨link, hlink, rfl⟩ := hstep
      exact h.pull hreceiving hlink
  | read => exact h.read hstep
  | handle => exact h.handle hstep
  | advance => exact h.advance hstep
  | closed =>
      rw [Serving.step] at hstep
      split_ifs at hstep with hclosed
      injection hstep with hstep
      rw [← hstep]
      simp only [Bool.and_eq_true, MemoryLink.idle, MemoryLink.closed,
        List.isEmpty_iff, receiving_iff] at hclosed
      obtain ⟨⟨⟨hresult, hevents⟩, -, hpending⟩,
        ⟨hremainder, hwaiting⟩, -⟩ := hclosed
      refine h.finish fun _ => ⟨⟨hevents, hremainder, hwaiting⟩, ?_⟩
      have hsent := (h.running hresult).1
      rw [hpending, List.append_nil] at hsent
      exact hsent

end Steps

/-! ## Every request is answered once -/

def eventsIn (stream : Bytes) : List DecodeEvent :=
  ((FrameDecoder.new defaultLimits).scanPush stream).2.1

theorem pushAll_fst_eq {pieces : List Bytes}
    (h : ∀ piece ∈ pieces, piece.length ≤ receiveBuffer) :
    ((FrameDecoder.new defaultLimits).pushAll pieces).1 =
      eventsIn pieces.flatten := by
  have hsettled := FrameDecoder.settled_new defaultLimits
  rw [FrameDecoder.pushAll_eq_scanPush hsettled
    (FrameDecoder.keepsAll_of_roomy hsettled (by decide) (by decide) h)]
  rfl

/-- What the task has handled, of all that it has read. -/
theorem Answering.handled {device : EmulatedDevice} {plan : FaultPlan}
    {serving : Serving} (h : serving.Answering device plan) :
    ∃ handled, eventsIn (serving.link.pipe .right).pieces.flatten =
        handled ++ serving.events ∧
      serving.answered = handled.filterMap device.encodedAnswer := by
  obtain ⟨handled, hpushed, hanswered⟩ := h.decoded
  refine ⟨handled, ?_, hanswered⟩
  rw [← pushAll_fst_eq h.pieces, hpushed]

theorem Answering.answered_of_drained {device : EmulatedDevice}
    {plan : FaultPlan} {serving : Serving}
    (h : serving.Answering device plan) (hdrained : serving.Drained) :
    serving.answered = (eventsIn (serving.link.pipe .right).written).filterMap
      device.encodedAnswer := by
  obtain ⟨handled, hevents, hanswered⟩ := h.handled
  rw [hdrained.events, List.append_nil] at hevents
  rw [hanswered, ← hevents, (h.balanced.sound .right).drained
    hdrained.remainder hdrained.waiting]

def Done (serving : Serving) : Prop :=
  serving.result = some (.ok ()) ∨
    serving.result = none ∧ serving.Drained ∧
      (serving.link.endpoint .right).pending = []

/--
In every interleaving of an emulated device with the owner of the other endpoint,
nothing is lost on the way, the device has answered exactly the requests for it
that it has read, each once and in order, and what it has sent is what its fault
plan makes of the answers.  When it is done, that is every request that was ever
sent to it.
-/
theorem emulated_device_answers_each_request {device : EmulatedDevice}
    {capacity : Nat} {plan : FaultPlan} {actions : List ServingAction}
    {final : Serving}
    (hrun : runSteps step (new device capacity plan) actions = some final) :
    final.link.Balanced ∧
      (∃ handled, eventsIn (final.link.pipe .right).pieces.flatten =
          handled ++ final.events ∧
        final.answered = handled.filterMap device.encodedAnswer) ∧
      (final.link.endpoint .right).sent ++
          (final.link.endpoint .right).pending <+:
        plan.allSends final.answered ∧
      (final.Done → (final.link.endpoint .right).sent = plan.allSends
        ((eventsIn (final.link.pipe .right).written).filterMap
          device.encodedAnswer)) := by
  have h : final.Answering device plan :=
    runSteps_invariant (fun hstep hserving => hserving.step hstep) hrun
      (answering_new capacity)
  refine ⟨h.balanced, h.handled, h.planned, ?_⟩
  rintro (hover | ⟨hrunning, hdrained, hpending⟩)
  · obtain ⟨hdrained, hsent⟩ := h.complete hover
    rw [hsent, h.answered_of_drained hdrained]
  · have hsent := (h.running hrunning).1
    rw [hpending, List.append_nil] at hsent
    rw [hsent, h.answered_of_drained hdrained]

end Serving

/-- A request for the primary variable is answered in fragments of four bytes. -/
def primaryActions : List ServingAction :=
  [.host (.send [0xff, 0xff, 0x02, 0x80, 0x01, 0x00, 0x83]), .host .advance,
    .pull, .read, .handle, .advance, .advance, .advance, .advance, .advance]

def primaryRun : Option Serving :=
  runSteps Serving.step
    (Serving.new (transmitter 0x06 7) 8 { fragmentSize := some 4 })
    primaryActions

theorem primaryRun_done : ∃ final, primaryRun = some final ∧ final.Done := by
  have hrun : primaryRun.any (fun final => final.result.isNone &&
      final.events.isEmpty && (final.link.pipe .right).remainder.isEmpty &&
      (final.link.pipe .right).waiting.isEmpty &&
      (final.link.endpoint .right).pending.isEmpty) = true := by
    decide +kernel
  rw [Option.any_eq_true] at hrun
  obtain ⟨final, hfinal, hfields⟩ := hrun
  simp only [Bool.and_eq_true, List.isEmpty_iff, Option.isNone_iff_eq_none]
    at hfields
  obtain ⟨⟨⟨⟨hresult, hevents⟩, hremainder⟩, hwaiting⟩, hpending⟩ := hfields
  exact ⟨final, hfinal,
    .inr ⟨hresult, ⟨hevents, hremainder, hwaiting⟩, hpending⟩⟩

theorem emulated_device_answers_primaryRun :
    ∃ final, primaryRun = some final ∧
      (final.link.endpoint .right).sent =
        ({ fragmentSize := some 4 } : FaultPlan).allSends
          ((Serving.eventsIn (final.link.pipe .right).written).filterMap
            (transmitter 0x06 7).encodedAnswer) := by
  obtain ⟨final, hrun, hdone⟩ := primaryRun_done
  exact ⟨final, hrun,
    (Serving.emulated_device_answers_each_request hrun).2.2.2 hdone⟩

end HartLink.Emulator
