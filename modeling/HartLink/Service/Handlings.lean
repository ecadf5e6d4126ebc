import HartLink.Service.Provenance
import HartLink.Service.Session

/-!
# The requests of a run as single calls

The call of a session has what queue, runner, channel and device do with its
request as a parameter, its handling.  Over any run of a link every reply is the
one that such a call gets when it is handled as the run has handled it.  What holds
of a call under every handling therefore holds of every request of a run.
-/

namespace HartLink.Service

open HartLink.Foundation
open HartLink.Wire
open HartLink.Operation

/-! ## Orders and exchanges -/

/-- The handling reads what the order has read. -/
structure ClientOrder.Reads (order : ClientOrder) (handling : Handling) :
    Prop where
  checkedAt : handling.checkedAt = order.checkedAt
  acceptedAt : handling.acceptedAt = order.acceptedAt
  counters : handling.counters = order.counters
  reply : handling.reply = order.reply

structure ExchangeCall where
  job : Job
  reply : ReplyId
  now : Nat
  surroundings : Nat → Attempt
  port : LinkPort

def ExchangeCall.result (call : ExchangeCall) (horizon : Nat) :
    Except ExchangeError DeviceReply :=
  (exchange horizon call.now call.job call.surroundings call.port).result

/--
What becomes of the job of the order is what the runner has done: the exchange for
its own reply, or one of an equal request whose reply is shared.
-/
def ClientOrder.Meets (order : ClientOrder) (horizon : Nat)
    (calls : List ExchangeCall) : Delivery → Prop
  | .refused _ => False
  | .expired | .stopped => True
  | .coalesced value => ∃ call ∈ calls, call.job.request = order.request ∧
      call.result horizon = .ok value
  | .exchanged now surroundings port => ∃ call ∈ calls,
      call.reply = order.reply ∧ call.now = now ∧
        call.surroundings = surroundings ∧ call.port = port

def ClientOrder.Handled (order : ClientOrder) (link : SharedLink)
    (calls : List ExchangeCall)
    (result : Except ExchangeError DeviceReply) : Prop :=
  ∃ handling, order.Reads handling ∧
    order.Meets link.horizon calls handling.delivery ∧
    (link.request handling order.request order.requested
      order.policy).result = result.mapError .runner

theorem ClientOrder.Handled.execute {order : ClientOrder}
    {session : DeviceSession} {calls : List ExchangeCall}
    {result : Except ExchangeError DeviceReply}
    (h : order.Handled session.link calls result) {Output : Type}
    {operation : DeviceOperation Output}
    (hrequest : session.request operation = .ok order.request) :
    ∃ handling, order.Reads handling ∧
      order.Meets session.link.horizon calls handling.delivery ∧
      (session.execute handling operation order.requested
        order.policy).result =
          DeviceSession.decode operation (result.mapError .runner) := by
  obtain ⟨handling, hreads, hmeets, hresult⟩ := h
  refine ⟨handling, hreads, hmeets, ?_⟩
  simp only [DeviceSession.execute, hrequest, hresult]

/-- The link as the calls of its clients know it. -/
def LinkSetup.sharedLink (setup : LinkSetup) (queues : List QueueId) :
    SharedLink :=
  ⟨setup.client, queues, setup.horizon⟩

theorem ClientOrder.Makes.handled {order : ClientOrder} {setup : LinkSetup}
    {queues : List QueueId} {job : Job} (h : order.Makes setup queues job)
    (hplain : order.transmitPrefix = []) {calls : List ExchangeCall}
    {delivery : Delivery} (hmeets : order.Meets setup.horizon calls delivery)
    {result : Except ExchangeError DeviceReply}
    (hdelivery : ((setup.sharedLink queues).deliver
      ⟨0, order.checkedAt, order.acceptedAt, order.counters, order.reply,
        delivery, 0⟩ job).result = result.mapError .runner) :
    order.Handled (setup.sharedLink queues) calls result := by
  obtain ⟨queue, hqueue, hjob⟩ := h
  rw [hplain] at hjob
  refine ⟨⟨0, order.checkedAt, order.acceptedAt, order.counters, order.reply,
    delivery, 0⟩, ⟨rfl, rfl, rfl, rfl⟩, hmeets, ?_⟩
  rw [← hdelivery, SharedLink.request, SharedLink.makeJob]
  simp only [LinkSetup.sharedLink, hqueue, hjob]

/-! ## The job of an exchange -/

theorem exchangeLoop_reply (horizon : Nat) (job : Job) (frame : Frame)
    (encoded : Bytes) (surroundings : Nat → Attempt)
    (bound index checkedAt : Nat) (retries : Retries) (port : LinkPort)
    (reply : Option ReplyId) :
    exchangeLoop horizon { job with reply } frame encoded surroundings bound
        index checkedAt retries port =
      exchangeLoop horizon job frame encoded surroundings bound index checkedAt
        retries port := by
  induction bound generalizing index checkedAt retries port with
  | zero => rfl
  | succ bound ih =>
      rw [exchangeLoop, exchangeLoop]
      simp only [ih]
      rfl

/-- An exchange does not depend on who waits for it. -/
theorem exchange_reply (horizon now : Nat) (job : Job)
    (surroundings : Nat → Attempt) (port : LinkPort) (reply : Option ReplyId) :
    exchange horizon now { job with reply } surroundings port =
      exchange horizon now job surroundings port := by
  simp only [exchange, exchangeLoop_reply]

/-- What the exchange of the leader has ended with, and for whom. -/
def Phase.outcome :
    Phase → Option (Job × ReplyId × Except ExchangeError DeviceReply)
  | .succeeded _ job reply _ value => some (job, reply, .ok value)
  | .requeueing _ job reply _ error => some (job, reply, .error error)
  | _ => none

theorem Phase.leader_of_outcome {phase : Phase} {job : Job} {reply : ReplyId}
    {result : Except ExchangeError DeviceReply}
    (h : phase.outcome = some (job, reply, result)) :
    ∃ queue, phase.leader = some (queue, { job with reply := some reply }) := by
  cases phase with
  | succeeded queue =>
      injection h with h
      cases h
      exact ⟨queue, rfl⟩
  | requeueing queue =>
      injection h with h
      cases h
      exact ⟨queue, rfl⟩
  | _ => contradiction

theorem Phase.Holds.shares {phase : Phase}
    {Brings : Request → Except ExchangeError DeviceReply → Prop}
    (h : phase.Holds Brings) (houtcome : phase.outcome = none) :
    phase.Holds fun request result =>
      ∃ value, result = .ok value ∧ Brings request result := by
  cases phase with
  | completing => exact fun follower hfollower => ⟨_, rfl, h follower hfollower⟩
  | succeeded => contradiction
  | requeueing => contradiction
  | _ => exact h

namespace LinkState

def runnerCall (state : LinkState) : LinkAction → List ExchangeCall
  | .runner (.exchange now surroundings) =>
      match state.phase with
      | .exchanging _ job reply _ =>
          [⟨job, reply, now, surroundings, state.port⟩]
      | _ => []
  | _ => []

def runnerCalls (setup : LinkSetup) (state : LinkState)
    (actions : List LinkAction) : List ExchangeCall :=
  observe (step setup) runnerCall state actions

section Steps

variable {setup : LinkSetup} {state next : LinkState}
  {Brings : Request → Except ExchangeError DeviceReply → Prop}

theorem exists_runnerCall {action : LinkAction} {shared : SharedExchange}
    (h : shared ∈ state.exchanged setup action) :
    ∃ call ∈ state.runnerCall action, call.job = shared.leader ∧
      call.result setup.horizon = shared.result := by
  unfold exchanged at h
  split at h
  next now surroundings =>
    split at h
    next queue job reply followers hphase =>
      rw [List.mem_singleton] at h
      subst h
      refine ⟨⟨job, reply, now, surroundings, state.port⟩, ?_, rfl, rfl⟩
      simp only [runnerCall, hphase, List.mem_singleton]
    · contradiction
  · contradiction

/-- Only an exchange brings something new for the leader. -/
theorem outcome_runnerStep {action : RunnerAction}
    (h : state.runnerStep setup action = some next) :
    next.phase.outcome = none ∨ next.phase.outcome = state.phase.outcome ∨
      ∃ call ∈ state.runnerCall (.runner action), next.phase.outcome =
        some (call.job, call.reply, call.result setup.horizon) := by
  unfold runnerStep at h
  split at h
  all_goals first | contradiction | injection h with h; subst h
  next hphase =>
    unfold poll
    split <;> exact .inl rfl
  next hphase =>
    dsimp only [phase_enter]
    split_ifs <;> exact .inl rfl
  next hphase => exact .inl rfl
  next hphase =>
    unfold receive
    dsimp only
    split_ifs <;> exact .inl rfl
  next hphase =>
    unfold begin
    dsimp only
    split
    · exact .inl rfl
    · split_ifs <;> exact .inl rfl
  next hphase =>
    unfold gather
    split_ifs
    · exact .inl rfl
    split
    · exact .inl rfl
    · split_ifs
      · exact .inr (.inl (by simp [markCancelled, emit, withQueues]))
      · exact .inl rfl
      · exact .inl rfl
  next queue job reply followers now surroundings hphase =>
    refine .inr (.inr ⟨⟨job, reply, now, surroundings, state.port⟩, ?_, ?_⟩)
    · simp only [runnerCall, hphase, List.mem_singleton]
    unfold exchange ExchangeCall.result
    dsimp only
    split
    next value hvalue =>
      rw [hvalue]
      rfl
    next error herror =>
      rw [herror]
      rfl
  next hphase => exact .inl rfl
  next hphase =>
    unfold complete
    split <;> exact .inl rfl
  next hphase =>
    unfold requeue
    split
    · exact .inr (.inl (by rw [hphase]; rfl))
    · dsimp only [phase_enter]
      split_ifs <;> exact .inl rfl
  next hphase => exact .inl rfl
  next hphase =>
    dsimp only [phase_enter]
    split_ifs <;> exact .inl rfl
  next hphase => exact .inl rfl
  next hphase =>
    unfold fail
    split
    · exact .inl rfl
    · split
      · exact .inl rfl
      · exact .inr (.inl (by simp))

/-- A new reply is for the leader, a reply to share or a report of the link. -/
theorem replies_runnerStep {action : RunnerAction}
    (h : state.runnerStep setup action = some next)
    (hholds : state.phase.Holds Brings) {found : ReplyId}
    {sent : Except ExchangeError DeviceReply}
    (hfound : (found, sent) ∈ next.replies) :
    (found, sent) ∈ state.replies ∨
      (∃ job, state.phase.outcome = some (job, found, sent)) ∨
      ∃ place ∈ state.places, place.2.reply = some found ∧
        (GivenUp sent ∨ ∃ value, sent = .ok value ∧
          Brings place.2.request sent) := by
  cases houtcome : state.phase.outcome with
  | none =>
      rcases reports_runnerStep h (hholds.shares houtcome) found sent hfound
        with hold | hnew
      · exact .inl hold
      · exact .inr (.inr hnew)
  | some outcome =>
      obtain ⟨job, reply, result⟩ := outcome
      have hconcludes : (found, sent) ∈ state.replies ∨
          some reply = some found ∧ sent = result := by
        cases hphase : state.phase with
        | succeeded =>
            rw [hphase] at houtcome
            injection houtcome with houtcome
            cases houtcome
            unfold runnerStep at h
            rw [hphase] at h
            cases action <;> first | contradiction | injection h with h
            subst h
            exact mem_replies_conclude hfound
        | requeueing =>
            rw [hphase] at houtcome
            injection houtcome with houtcome
            cases houtcome
            unfold runnerStep at h
            rw [hphase] at h
            cases action <;> first | contradiction | injection h with h
            subst h
            unfold requeue at hfound
            split at hfound
            · exact .inl hfound
            · exact mem_replies_conclude hfound
        | _ =>
            rw [hphase] at houtcome
            contradiction
      rcases hconcludes with hold | ⟨hreply, rfl⟩
      · exact .inl hold
      · injection hreply with hreply
        subst hreply
        exact .inr (.inl ⟨job, rfl⟩)

end Steps

/-! ## Every step -/

/-- Jobs are made of orders, and replies are those of their calls. -/
structure Explained (setup : LinkSetup) (queues : List QueueId)
    (calls : List ExchangeCall) (orders : List ClientOrder)
    (state : LinkState) : Prop where
  ids : state.queues.ids = queues
  made : ∀ place ∈ state.places, ∃ order ∈ orders,
    order.Makes setup queues place.2
  holds : state.phase.Holds fun request result =>
    ∃ call ∈ calls, call.job.request = request ∧
      call.result setup.horizon = result
  brought : ∀ job reply result,
    state.phase.outcome = some (job, reply, result) →
      ∃ call ∈ calls, call.job = job ∧ call.reply = reply ∧
        call.result setup.horizon = result
  replies : ∀ reply result, (reply, result) ∈ state.replies →
    ∃ order ∈ orders, order.reply = reply ∧ (order.transmitPrefix = [] →
      order.Handled (setup.sharedLink queues) calls result)

section Explained

variable {setup : LinkSetup} {queues : List QueueId}
  {calls : List ExchangeCall} {orders : List ClientOrder}
  {state next : LinkState}

theorem Explained.leader (h : state.Explained setup queues calls orders) {job : Job}
    {reply : ReplyId} {result : Except ExchangeError DeviceReply}
    (houtcome : state.phase.outcome = some (job, reply, result)) :
    ∃ order ∈ orders, order.reply = reply ∧ (order.transmitPrefix = [] →
      order.Handled (setup.sharedLink queues) calls result) := by
  obtain ⟨queue, hleader⟩ := Phase.leader_of_outcome houtcome
  obtain ⟨order, horder, hmakes⟩ := h.made _ (mem_places_of_leader hleader)
  obtain ⟨call, hcall, rfl, rfl, hresult⟩ := h.brought _ _ _ houtcome
  have hreply : some call.reply = some order.reply := hmakes.covers.2.reply
  injection hreply with hreply
  refine ⟨order, horder, hreply.symm, fun hplain => ?_⟩
  refine @ClientOrder.Makes.handled _ _ _ _ hmakes hplain _
    (.exchanged call.now call.surroundings call.port)
    ⟨call, hcall, hreply, rfl, rfl, rfl⟩ _ ?_
  rw [← hresult]
  simp only [SharedLink.deliver, LinkSetup.sharedLink, exchange_reply,
    ExchangeCall.result]

/-- Whoever else is told something shares it, or nothing was exchanged. -/
theorem Explained.place (h : state.Explained setup queues calls orders)
    {place : Place} (hplace : place ∈ state.places) {reply : ReplyId}
    (hreply : place.2.reply = some reply)
    {result : Except ExchangeError DeviceReply}
    (hresult : GivenUp result ∨ ∃ value, result = .ok value ∧
      ∃ call ∈ calls, call.job.request = place.2.request ∧
        call.result setup.horizon = result) :
    ∃ order ∈ orders, order.reply = reply ∧ (order.transmitPrefix = [] →
      order.Handled (setup.sharedLink queues) calls result) := by
  obtain ⟨order, horder, hmakes⟩ := h.made place hplace
  rw [hmakes.covers.2.reply] at hreply
  injection hreply with hreply
  refine ⟨order, horder, hreply, fun hplain => ?_⟩
  rcases hresult with (rfl | rfl) | ⟨value, rfl, call, hcall, hrequest, hvalue⟩
  · exact @ClientOrder.Makes.handled _ _ _ _ hmakes hplain _ .expired trivial _ rfl
  · exact @ClientOrder.Makes.handled _ _ _ _ hmakes hplain _ .stopped trivial _ rfl
  · rw [hmakes.covers.2.request] at hrequest
    exact @ClientOrder.Makes.handled _ _ _ _ hmakes hplain _
      (.coalesced value) ⟨call, hcall, hrequest, hvalue⟩ _ rfl

theorem Explained.runnerStep {action : RunnerAction}
    (h : state.Explained setup queues calls orders)
    (hstep : state.runnerStep setup action = some next) (howed : state.Owed)
    (hcalls : ∀ call ∈ state.runnerCall (.runner action), call ∈ calls) :
    next.Explained setup queues calls orders := by
  obtain ⟨hmoves, hids⟩ := moves_runnerStep hstep howed
  refine ⟨hids.trans h.ids, ?_,
    holds_runnerStep hstep ?_ h.holds, ?_, ?_⟩
  · intro place hplace
    exact h.made place
      (places_of_moves hmoves (nextReply_runnerStep hstep) hplace)
  · intro shared hshared
    obtain ⟨call, hcall, hjob, hresult⟩ := exists_runnerCall hshared
    exact ⟨call, hcalls call hcall, by rw [hjob], hresult⟩
  · intro job reply result houtcome
    rcases outcome_runnerStep hstep with hnone | hsame | ⟨call, hcall, hnew⟩
    · rw [hnone] at houtcome
      contradiction
    · exact h.brought job reply result (hsame ▸ houtcome)
    · rw [hnew] at houtcome
      injection houtcome with houtcome
      cases houtcome
      exact ⟨call, hcalls call hcall, rfl, rfl, rfl⟩
  · intro found sent hfound
    rcases replies_runnerStep hstep h.holds hfound with
      hold | ⟨job, houtcome⟩ | ⟨place, hplace, hreply, hsent⟩
    · exact h.replies found sent hold
    · exact h.leader houtcome
    · exact h.place hplace hreply hsent

theorem Explained.mono {more : List ClientOrder}
    (h : state.Explained setup queues calls orders)
    (hids : next.queues.ids = state.queues.ids)
    (hphase : next.phase = state.phase)
    (hreplies : next.replies = state.replies)
    (hmade : ∀ place ∈ next.places, place ∈ state.places ∨
      ∃ order ∈ more, order.Makes setup queues place.2) :
    next.Explained setup queues calls (orders ++ more) := by
  refine ⟨hids.trans h.ids, ?_, hphase ▸ h.holds, hphase ▸ h.brought, ?_⟩
  · intro place hplace
    rcases hmade place hplace with hold | ⟨order, horder, hmakes⟩
    · obtain ⟨order, horder, hmakes⟩ := h.made place hold
      exact ⟨order, List.mem_append_left _ horder, hmakes⟩
    · exact ⟨order, List.mem_append_right _ horder, hmakes⟩
  · intro found sent hfound
    rw [hreplies] at hfound
    obtain ⟨order, horder, hreply⟩ := h.replies found sent hfound
    exact ⟨order, List.mem_append_left _ horder, hreply⟩

theorem Explained.clientStep {action : ClientAction}
    (h : state.Explained setup queues calls orders)
    (hstep : state.clientStep setup action = some next) :
    next.Explained setup queues calls
      (orders ++ state.ordered setup (.client action)) := by
  have hchange := clientStep_change hstep
  obtain ⟨hmoves, hids⟩ := moves_of_change hchange
  rcases clientStep_cases hstep with
    ⟨hsame, -, hnone⟩ |
      ⟨order, queue, job, -, hordered, -, -, hmakes, hplaces⟩
  · rw [hnone]
    exact h.mono hids hchange.phase hchange.replies fun place hplace =>
      .inl (places_of_moves hmoves hsame hplace)
  · rw [hordered]
    refine h.mono hids hchange.phase hchange.replies ?_
    intro place hplace
    rcases List.mem_cons.mp (hplaces.mem_iff.mp hplace) with rfl | hold
    · exact .inr ⟨order, List.mem_singleton_self _, h.ids ▸ hmakes⟩
    · exact .inl hold

theorem Explained.step {action : LinkAction}
    (h : state.Explained setup queues calls orders)
    (hstep : state.step setup action = some next) (howed : state.Owed)
    (hcalls : ∀ call ∈ state.runnerCall action, call ∈ calls) :
    next.Explained setup queues calls
      (orders ++ state.ordered setup action) := by
  cases action with
  | client action => exact h.clientStep hstep
  | runner action =>
      have hnone : state.ordered setup (.runner action) = [] := rfl
      rw [hnone, List.append_nil]
      exact h.runnerStep hstep howed hcalls

end Explained

theorem explained_initial (setup : LinkSetup) (build : LinkBuild)
    (calls : List ExchangeCall) :
    build.initial.Explained setup (build.layout.map QueueConfig.id) calls
      [] := by
  refine ⟨?_, ?_, trivial, ?_, ?_⟩
  · change (build.layout.map QueueSlot.new).map QueueSlot.id = _
    rw [List.map_map]
    rfl
  · intro place hplace
    have hentries : build.initial.queues.entries = [] :=
      QueueSet.entries_new _ (nodup_of_validateLayout build.valid)
    have hplaces : build.initial.places = build.initial.queues.entries := rfl
    rw [hplaces, hentries] at hplace
    contradiction
  · intro job reply result houtcome
    contradiction
  · intro found sent hfound
    contradiction

/--
In every run, however clients and runner interleave and whatever requests share an
exchange: each reply is the one that a call with the request of its client gets
when it is handled as the run has handled it, with the same clock, counters and
oneshot channel.  What holds of calls under every handling holds of the run.
-/
theorem run_replies_are_handled (setup : LinkSetup) (build : LinkBuild)
    (actions : List LinkAction) (final : LinkState)
    (hrun : build.initial.run setup actions = some final) :
    ∀ reply result, (reply, result) ∈ final.replies →
      ∃ order ∈ build.initial.orders setup actions, order.reply = reply ∧
        (order.transmitPrefix = [] →
          order.Handled (setup.sharedLink (build.layout.map QueueConfig.id))
            (build.initial.runnerCalls setup actions) result) := by
  have halong : Along (step setup)
      (fun state action => ∀ call ∈ state.runnerCall action,
        call ∈ build.initial.runnerCalls setup actions)
      build.initial actions := along_of_observe fun _ hcall => hcall
  have hfinal := @runSteps_observe_along _ _ (step setup) _ (ordered setup)
    (fun state action => ∀ call ∈ state.runnerCall action,
      call ∈ build.initial.runnerCalls setup actions)
    (fun orders state => state.Accounted ∧ state.Explained setup
      (build.layout.map QueueConfig.id)
      (build.initial.runnerCalls setup actions) orders)
    (fun hstep hcalls h =>
      ⟨accounted_step hstep h.1, h.2.step hstep h.1.owed hcalls⟩)
    [] build.initial final actions hrun halong
    ⟨accounted_initial _ _ _ _ _, explained_initial setup build _⟩
  exact hfinal.2.replies

/-- The second client gets the reply to the request of the first. -/
theorem run_replies_are_handled_shared :
    ∃ order ∈ pairBuild.initial.orders plainSetup sharedActions,
      order.reply = 1 ∧ (order.transmitPrefix = [] →
        order.Handled
          (plainSetup.sharedLink (pairBuild.layout.map QueueConfig.id))
          (pairBuild.initial.runnerCalls plainSetup sharedActions)
          (.ok identifyReply)) :=
  run_replies_are_handled plainSetup pairBuild sharedActions _
    (Option.some_get isSome_sharedRun).symm 1 (.ok identifyReply)
    (by decide +kernel)

end LinkState

end HartLink.Service
