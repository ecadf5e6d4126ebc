import HartLink.Emulator.Sessions
import HartLink.Service.Provenance

/-!
# A link with an emulated device

Clients, runner, channel and device in one system.  Whatever the clients do and
whatever requests share an exchange, each reply is what the device answers to the
request of its client, or it tells why there is none.
-/

namespace HartLink.Emulator

open HartLink.Foundation
open HartLink.Wire
open HartLink.Operation
open HartLink.Service
open HartLink.Command

/-! ## The system -/

structure EmulatedLink where
  link : LinkState
  serving : Serving

/-- A step of the link, and where it leaves the channel and the device. -/
structure EmulatedAction where
  action : LinkAction
  serving : Serving

namespace EmulatedLink

def step (setup : LinkSetup) (state : EmulatedLink)
    (action : EmulatedAction) : Option EmulatedLink :=
  (state.link.step setup action.action).map fun link =>
    ⟨link, action.serving⟩

/--
The clients send requests with frames that the device can decode.  The runner
receives what comes back through the channel, during an exchange or without one.
-/
def Proceeds (setup : LinkSetup) (state : EmulatedLink)
    (action : EmulatedAction) : Prop :=
  match action.action with
  | .client (.start request transmitPrefix _ _ _ _) =>
      action.serving = state.serving ∧ transmitPrefix = [] ∧
        request.frame.Encodable ∧ 2 ≤ request.frame.preambles
  | .runner (.exchange now surroundings) =>
      ∀ queue job reply followers,
        state.link.phase = .exchanging queue job reply followers →
          Conveyed setup.horizon now job surroundings state.link.port
            state.serving action.serving
  | .runner (.receive received) =>
      Visits [] state.link.port.readBufferSize [received] state.serving
        action.serving
  | .runner (.drain _ arrivals) =>
      Visits [] state.link.port.readBufferSize
        (arrivals.map Arrival.received) state.serving action.serving
  | _ => action.serving = state.serving

def asked (setup : LinkSetup) (state : EmulatedLink)
    (action : EmulatedAction) : List Asked :=
  state.link.asked setup action.action

def questions (setup : LinkSetup) (state : EmulatedLink)
    (actions : List EmulatedAction) : List Asked :=
  observe (step setup) (asked setup) state actions

def initial (build : LinkBuild) (device : EmulatedDevice) (capacity : Nat)
    (plan : FaultPlan) : EmulatedLink :=
  ⟨build.initial, .new device capacity plan⟩

end EmulatedLink

/-! ## The port and the device -/

/-- Both ends of the channel are at rest, and nothing has been lost on it. -/
structure Attached (device : EmulatedDevice) (plan : FaultPlan)
    (capacity : Nat) (port : LinkPort) (serving : Serving) : Prop where
  roomy : Roomy port.decoder port.readBufferSize
  usable : port.channelUsable = true
  rested : ∃ frames, Rested device plan capacity port.readBufferSize frames
      serving ∧
    port.sent = frames.map Frame.encoding

section Attached

variable {device : EmulatedDevice} {plan : FaultPlan} {capacity : Nat}
  {port next : LinkPort} {serving final : Serving}

theorem Attached.quiet (h : Attached device plan capacity port serving)
    (hport : next = { port with events := next.events }) :
    Attached device plan capacity next serving := by
  rw [hport]
  exact ⟨h.roomy, h.usable, h.rested⟩

/-- The device does not speak unless it is spoken to. -/
theorem Attached.idle (hstatus : device.additionalStatus.length ≤ 251)
    (hplan : plan.Faultless) (h : Attached device plan capacity port serving)
    {received : List Received}
    (hvisits : Visits [] port.readBufferSize received serving final) :
    received = [] ∧ Attached device plan capacity port final := by
  obtain ⟨frames, hrested, hsent⟩ := h.rested
  obtain ⟨hnone, hafter⟩ := hrested.idle hstatus hplan hvisits
  exact ⟨hnone, h.roomy, h.usable, frames, hafter, hsent⟩

theorem Attached.exchange (hstatus : device.additionalStatus.length ≤ 251)
    (hplan : plan.Faultless) (h : Attached device plan capacity port serving)
    {horizon now : Nat} {job : Job} {surroundings : Nat → Attempt}
    (hrequest : Sendable job.request) (htransmit : job.transmitPrefix = [])
    (hconveyed : Conveyed horizon now job surroundings port serving final) :
    device.Exchanged job.request.frame
        (Service.exchange horizon now job surroundings port).result ∧
      Attached device plan capacity
        (Service.exchange horizon now job surroundings port).port final := by
  obtain ⟨frames, hrested, hsent⟩ := h.rested
  obtain ⟨hresult, hready, hafter⟩ :=
    hconveyed.exchanged hstatus hplan hrequest htransmit h.roomy hrested
  refine ⟨hresult, hready.decoder, hready.channelUsable.trans h.usable,
    _, hready.readBufferSize ▸ hafter, ?_⟩
  rw [hready.sent, hsent, List.map_append, List.map_replicate]

end Attached

/-! ## Every step -/

namespace EmulatedLink

/-- What holds of the system after every step. -/
structure Serves (device : EmulatedDevice) (plan : FaultPlan)
    (capacity : Nat) (asked : List Asked) (state : EmulatedLink) : Prop where
  accounted : state.link.Accounted
  truthful : state.link.Truthful
    (fun request => device.Exchanged request.frame) asked
  encodable : ∀ ask ∈ asked, ask.transmitPrefix = [] ∧
    ask.request.frame.Encodable ∧ 2 ≤ ask.request.frame.preambles
  attached : Attached device plan capacity state.link.port state.serving

section Steps

variable {device : EmulatedDevice} {plan : FaultPlan} {capacity : Nat}
  {setup : LinkSetup} {asked : List Asked} {state next : EmulatedLink}
  {action : EmulatedAction}

theorem Serves.sendable (h : state.Serves device plan capacity asked)
    {queue : QueueId} {job : Job} {reply : ReplyId} {followers : List Job}
    (hphase : state.link.phase = .exchanging queue job reply followers) :
    Sendable job.request ∧ job.transmitPrefix = [] := by
  have hplace : (queue, { job with reply := some reply }) ∈
      state.link.places :=
    LinkState.mem_places_of_leader (by rw [hphase]; rfl)
  obtain ⟨ask, hask, hcovers⟩ := h.truthful.known _ hplace
  obtain ⟨htransmit, hencodable⟩ := h.encodable ask hask
  have hrequest : job.request = ask.request := hcovers.request
  have hvalid := h.truthful.valid ask hask
  rw [← hrequest] at hvalid hencodable
  exact ⟨⟨hvalid, hencodable⟩, hcovers.transmitPrefix.trans htransmit⟩

theorem Serves.exchanged (hstatus : device.additionalStatus.length ≤ 251)
    (hplan : plan.Faultless) (h : state.Serves device plan capacity asked)
    (hproceeds : state.Proceeds setup action) :
    ∀ shared ∈ state.link.exchanged setup action.action,
      device.Exchanged shared.leader.request.frame shared.result := by
  intro shared hshared
  unfold LinkState.exchanged at hshared
  split at hshared
  next now surroundings haction =>
    split at hshared
    next queue job reply followers hphase =>
      rw [List.mem_singleton] at hshared
      subst hshared
      rw [Proceeds, haction] at hproceeds
      obtain ⟨hrequest, htransmit⟩ := h.sendable hphase
      exact (h.attached.exchange hstatus hplan hrequest htransmit
        (hproceeds queue job reply followers hphase)).1
    · contradiction
  · contradiction

theorem encodable_asked (hproceeds : state.Proceeds setup action) :
    ∀ ask ∈ state.asked setup action, ask.transmitPrefix = [] ∧
      ask.request.frame.Encodable ∧ 2 ≤ ask.request.frame.preambles := by
  intro ask hask
  unfold EmulatedLink.asked LinkState.asked at hask
  split at hask
  next request transmitPrefix queue policy checkedAt acceptedAt haction =>
    rw [Proceeds, haction] at hproceeds
    split_ifs at hask
    · contradiction
    · rw [List.mem_singleton] at hask
      subst hask
      exact hproceeds.2
  · contradiction

theorem serving_of_still (hproceeds : state.Proceeds setup action)
    {still : RunnerAction} (haction : action.action = .runner still)
    (hstill : still.talks = false) : action.serving = state.serving := by
  rw [Proceeds, haction] at hproceeds
  cases still <;> first | exact hproceeds | contradiction

theorem attached_step (hstatus : device.additionalStatus.length ≤ 251)
    (hplan : plan.Faultless) (h : state.Serves device plan capacity asked)
    {link : LinkState}
    (hstep : state.link.step setup action.action = some link)
    (hproceeds : state.Proceeds setup action) :
    Attached device plan capacity link.port action.serving := by
  cases haction : action.action with
  | client client =>
      rw [haction] at hstep
      have hport := (LinkState.clientStep_change hstep).port
      have hserving : action.serving = state.serving := by
        rw [Proceeds, haction] at hproceeds
        cases client with
        | start => exact hproceeds.1
        | _ => exact hproceeds
      rw [hserving]
      exact h.attached.quiet hport
  | runner runner =>
      rw [haction] at hstep
      cases LinkState.channelStep hstep with
      | quiet talks port log =>
          rw [serving_of_still hproceeds haction talks]
          exact h.attached.quiet port
      | receive phase eq =>
          -- There is nothing to receive.
          rw [Proceeds, haction] at hproceeds
          obtain ⟨hnone, -⟩ := h.attached.idle hstatus hplan hproceeds
          contradiction
      | exchange phase eq =>
          rw [Proceeds, haction] at hproceeds
          obtain ⟨hrequest, htransmit⟩ := h.sendable phase
          rw [eq]
          exact (h.attached.exchange hstatus hplan hrequest htransmit
            (hproceeds _ _ _ _ phase)).2
      | drain phase eq =>
          rw [Proceeds, haction] at hproceeds
          obtain ⟨hnone, hafter⟩ := h.attached.idle hstatus hplan hproceeds
          rw [List.map_eq_nil_iff] at hnone
          rw [eq, hnone]
          have hport : ∀ now, state.link.port.drainLateResponses
              setup.horizon now setup.lateResponseGuard [] =
                state.link.port := by
            intro now
            unfold LinkPort.drainLateResponses
            split_ifs
            · rfl
            · split <;> rfl
          unfold LinkState.drain
          rw [hport]
          exact hafter

theorem Serves.step (hstatus : device.additionalStatus.length ≤ 251)
    (hplan : plan.Faultless) (h : state.Serves device plan capacity asked)
    (hstep : state.step setup action = some next)
    (hproceeds : state.Proceeds setup action) :
    next.Serves device plan capacity
      (asked ++ state.asked setup action) := by
  obtain ⟨link, hlink, rfl⟩ := Option.map_eq_some_iff.mp hstep
  refine ⟨LinkState.accounted_step hlink h.accounted,
    h.truthful.step hlink h.accounted.owed
      (h.exchanged hstatus hplan hproceeds), ?_,
    attached_step hstatus hplan h hlink hproceeds⟩
  intro ask hask
  rcases List.mem_append.mp hask with hold | hnew
  · exact h.encodable ask hold
  · exact encodable_asked hproceeds ask hnew

end Steps

end EmulatedLink

/-! ## Typed requests -/

def Understood (device : EmulatedDevice) {Output : Type}
    (operation : DeviceOperation Output) (address : Address)
    (result : Except ExchangeError DeviceReply) : Prop :=
  if device.acceptsAddress address then
    ∃ reply outcome, result = .ok reply ∧ Served device operation outcome ∧
      operation.decodeReply reply = outcome
  else result = .error .responseTimeout

theorem understood_attempted {device : EmulatedDevice}
    (hidentity : device.identity.Encodable) {Output : Type}
    {operation : DeviceOperation Output} {meaning : Meaning Output}
    (htyped : Typed operation meaning) {address : Address}
    (haddress : address.Accepted) {request : Request}
    (hrequest : operation.request address = .ok request) :
    Understood device operation address (device.attempted request.frame) := by
  have hframed := framed_of_request htyped haddress hrequest
  unfold Understood EmulatedDevice.attempted
  split_ifs with haccepts
  · obtain ⟨outcome, houtcome⟩ := exists_served device htyped
    obtain ⟨reply, hreply, hdecode⟩ := hframed.replyTo hidentity haccepts
    exact ⟨reply, outcome, by rw [hreply]; rfl, houtcome,
      hdecode outcome houtcome⟩
  · rw [hframed.silent (Bool.eq_false_iff.mpr haccepts)]
    rfl

/-! ## Runs -/

/-- What a reply says about the request that it answers. -/
structure Reported (device : EmulatedDevice) (ask : Asked)
    (result : Except ExchangeError DeviceReply) : Prop where
  attempted : GivenUp result ∨
    result = device.attempted ask.request.frame
  understood : ∀ {Output : Type} {operation : DeviceOperation Output}
    {meaning : Meaning Output}, Typed operation meaning →
      ∀ address : Address, address.Accepted →
        operation.request address = .ok ask.request →
          GivenUp result ∨ Understood device operation address result

namespace EmulatedLink

section Still

variable {setup : LinkSetup} {link : LinkState} {serving : Serving}

/-- The device is left alone while nobody talks to it. -/
theorem along_still {actions : List LinkAction} {more : List EmulatedAction}
    (hactions : ∀ action ∈ actions, ∀ link,
      Proceeds setup ⟨link, serving⟩ ⟨action, serving⟩)
    (hmore : ∀ next, link.run setup actions = some next →
      Along (step setup) (Proceeds setup) ⟨next, serving⟩ more) :
    Along (step setup) (Proceeds setup) ⟨link, serving⟩
      (actions.map (EmulatedAction.mk · serving) ++ more) := by
  induction actions generalizing link with
  | nil => exact hmore link rfl
  | cons action actions ih =>
      refine ⟨hactions action List.mem_cons_self link, ?_⟩
      intro next hnext
      obtain ⟨after, hafter, rfl⟩ := Option.map_eq_some_iff.mp hnext
      refine ih (fun other hother => hactions other
        (List.mem_cons_of_mem _ hother)) fun final hfinal => ?_
      refine hmore final ?_
      rw [LinkState.run, runSteps, hafter]
      exact hfinal

/-- The link runs with the device as it does by itself. -/
theorem exists_run {actions : List EmulatedAction} {final : LinkState}
    (h : link.run setup (actions.map EmulatedAction.action) = some final) :
    ∃ last, runSteps (step setup) ⟨link, serving⟩ actions =
      some ⟨final, last⟩ := by
  induction actions generalizing link serving with
  | nil =>
      injection h with h
      exact ⟨serving, by rw [← h]; rfl⟩
  | cons action actions ih =>
      obtain ⟨next, hnext, hrest⟩ := runSteps_cons _ h
      obtain ⟨last, hlast⟩ := @ih next action.serving hrest
      refine ⟨last, ?_⟩
      rw [runSteps, step, hnext]
      exact hlast

end Still

def identityBuild : LinkBuild :=
  { layout := [⟨⟨0⟩, 16, .default⟩]
    default := ⟨0⟩
    limits := defaultLimits
    readBufferSize := receiveBuffer
    burstHub := false
    valid := by decide }

def startIdentity : LinkAction :=
  .client (.start identityRequest [] ⟨0⟩ .default 0 0)

def gatherIdentity : List LinkAction :=
  [startIdentity, startIdentity, .runner .poll, .runner (.begin 0),
    .runner .gather, .runner .gather]

def exchangeIdentity : LinkAction :=
  .runner (.exchange 0 fun _ => identityAttempt)

def settleIdentity : List LinkAction :=
  [.runner .settle, .runner (.complete 5), .runner (.complete 5)]

def identityLink (rest : Serving) : List EmulatedAction :=
  gatherIdentity.map
      (EmulatedAction.mk · (.new (transmitter 0x06 7) 8 {})) ++
    ⟨exchangeIdentity, rest⟩ :: settleIdentity.map (EmulatedAction.mk · rest)

def exchangesIdentity (state : LinkState) : Bool :=
  match state.phase with
  | .exchanging _ job _ _ =>
      job.request == identityRequest &&
        state.port.readBufferSize == receiveBuffer &&
        decide (3 ≤ exchangeDeadline plainSetup.horizon 1 job) &&
        (exchange plainSetup.horizon 0 job (fun _ => identityAttempt)
          state.port).transmissions.length == 1
  | _ => false

theorem isSome_identityRun :
    (identityBuild.initial.run plainSetup
      (gatherIdentity ++ exchangeIdentity :: settleIdentity)).isSome := by
  decide +kernel

/-- Both clients get an answer. -/
example : ((identityBuild.initial.run plainSetup
    (gatherIdentity ++ exchangeIdentity :: settleIdentity)).get
      isSome_identityRun).replies.map Prod.fst = [0, 1] := by
  decide +kernel

theorem gatherIdentity_exchanges :
    (identityBuild.initial.run plainSetup gatherIdentity).any
      exchangesIdentity = true := by
  decide +kernel

theorem identityLink_proceeds {rest : Serving}
    (hrest : Visits [identityRequest.frame] receiveBuffer
      [.read identityPiece] (Serving.new (transmitter 0x06 7) 8 {}) rest) :
    Along (step plainSetup) (Proceeds plainSetup)
      (initial identityBuild (transmitter 0x06 7) 8 {})
      (identityLink rest) := by
  have haddress : (Address.Polling 0 .primary).Accepted :=
    (Address.accepted_polling_iff 0 .primary).mpr (by decide)
  have hframe := (@framed_of_request _ _ _ Typed.readDeviceIdentity _ haddress
    identityRequest rfl).sendable.encodable
  refine along_still ?_ ?_
  · intro action haction link
    simp only [gatherIdentity, List.mem_cons, List.not_mem_nil, or_false]
      at haction
    rcases haction with rfl | rfl | rfl | rfl | rfl | rfl
    all_goals first | rfl | exact ⟨rfl, rfl, hframe⟩
  intro next hnext
  refine ⟨?_, ?_⟩
  · intro queue job reply followers hphase
    have hready : exchangesIdentity next = true := by
      simpa [hnext] using gatherIdentity_exchanges
    dsimp only at hphase
    rw [exchangesIdentity, hphase] at hready
    simp only [Bool.and_eq_true, beq_iff_eq, decide_eq_true_eq] at hready
    obtain ⟨⟨⟨hrequest, hsize⟩, hdeadline⟩, hone⟩ := hready
    refine conveyed_of_first hone ⟨?_, ⟨rfl, ?_⟩, ?_⟩
    · rw [hrequest, hsize]
      exact hrest
    · exact Nat.le_trans (by decide) hdeadline
    · intro arrival harrival
      simp only [identityAttempt, List.mem_singleton] at harrival
      rw [harrival]
      exact hdeadline
  · intro after hafter
    obtain ⟨link, hlink, rfl⟩ := Option.map_eq_some_iff.mp hafter
    have hsettled := @along_still plainSetup link rest settleIdentity [] ?_
      fun _ _ => trivial
    · rwa [List.append_nil] at hsettled
    · intro action haction link
      simp only [settleIdentity, List.mem_cons, List.not_mem_nil, or_false]
        at haction
      rcases haction with rfl | rfl | rfl <;> rfl

end EmulatedLink

end HartLink.Emulator
