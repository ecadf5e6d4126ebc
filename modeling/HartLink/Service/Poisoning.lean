import HartLink.Service.ChannelCalls
import HartLink.Service.Coalescing

/-!
# A broken stream is given up

When a call breaks the stream the runner makes no further call.  It returns the
followers it holds, concludes its leader, stops, and tells every request that
still waits that it has stopped.  The way out has a bounded number of steps, and
no step of it can be blocked.
-/

namespace HartLink.Service

open HartLink.Foundation
open HartLink.Wire
open HartLink.Operation

def LinkAction.isRunner : LinkAction → Bool
  | .runner _ => true
  | .client _ => false

namespace LinkState

def calls (setup : LinkSetup) (state : LinkState) :
    LinkAction → List ChannelCall
  | .runner (.receive received) =>
      [.receive (received.intact state.port.readBufferSize)]
  | .runner (.exchange now surroundings) =>
      match state.phase with
      | .exchanging _ job _ _ =>
          exchangeCalls setup.horizon now job surroundings state.port
      | _ => []
  | .runner (.drain now arrivals) =>
      state.port.drainCalls setup.horizon now setup.lateResponseGuard arrivals
  | _ => []

/-- The requests that wait in a queue or are held for another's exchange. -/
def waiting (state : LinkState) : List Ticket :=
  (state.phase.followers ++ state.queues.entries).filterMap Place.ticket

/-- The request was cancelled, or was told that the runner has stopped. -/
def EndsUnserved (state : LinkState) (ticket : Ticket) : Prop :=
  (ticket, .cancelled) ∈ state.outcomes ∨
    (ticket, .failed) ∈ state.outcomes ∧
      (ticket.2, .error .runnerStopped) ∈ state.replies

/-- The runner is on its way out. -/
def Poisoned (state : LinkState) : Prop :=
  match state.phase with
  | .requeueing .. | .checking => state.port.channelUsable = false
  | .stopping | .failing _ | .stopped => True
  | _ => False

theorem sent_step {setup : LinkSetup} {state next : LinkState}
    {action : LinkAction} (h : state.step setup action = some next) :
    next.port.sent = state.port.sent ++
      (state.calls setup action).filterMap ChannelCall.bytes := by
  have hquiet : next.port =
        { state.port with events := next.port.events } →
      state.calls setup action = [] →
      next.port.sent = state.port.sent ++
        (state.calls setup action).filterMap ChannelCall.bytes := by
    intro hport hcalls
    have hsent := congrArg LinkPort.sent hport
    rw [hcalls]
    exact hsent.trans (List.append_nil _).symm
  cases action with
  | client action => exact hquiet (clientStep_change h).port rfl
  | runner action =>
      cases channelStep h with
      | quiet talks port log =>
          refine hquiet port ?_
          cases action <;> first | rfl | contradiction
      | receive phase eq =>
          subst eq
          exact (state.port.kept_processIdleInput _).2.trans
            (List.append_nil _).symm
      | exchange phase eq =>
          subst eq
          simp only [calls, phase]
          exact sent_exchangeCalls ..
      | drain phase eq =>
          subst eq
          exact sent_drainCalls ..

theorem sent_run {setup : LinkSetup} {state final : LinkState}
    {actions : List LinkAction}
    (hrun : state.run setup actions = some final) :
    final.port.sent = state.port.sent ++
      (observe (step setup) (calls setup) state actions).filterMap
        ChannelCall.bytes := by
  have hinvariant := @runSteps_observe _ _ (step setup) _ (calls setup)
    (fun seen other => other.port.sent =
      state.port.sent ++ seen.filterMap ChannelCall.bytes)
    ?_ [] state final actions hrun (List.append_nil _).symm
  · exact hinvariant
  · intro seen other next action hstep hother
    rw [sent_step hstep, hother, List.filterMap_append, List.append_assoc]

/-! ## The way out -/

/-- What the runner does on its way out. -/
inductive Leaves (state next : LinkState) : RunnerAction → Prop
  | requeue (queue : QueueId) (job : Job) (reply : ReplyId)
      (followers : List Job) (follower : Job) (error : ExchangeError)
      (phase : state.phase =
        .requeueing queue job reply (followers ++ [follower]) error)
      (eq : next = (state.withQueues
        (state.queues.pushFront queue follower)).enter
          (.requeueing queue job reply followers error)) :
      Leaves state next .requeue
  | conclude (queue : QueueId) (job : Job) (reply : ReplyId)
      (error : ExchangeError)
      (phase : state.phase = .requeueing queue job reply [] error)
      (eq : next = (state.conclude queue job.id (some reply)
        (.error error)).enter .checking) :
      Leaves state next .requeue
  | check (phase : state.phase = .checking)
      (eq : next = state.enter .stopping) : Leaves state next .check
  | closeRunner (phase : state.phase = .stopping)
      (eq : next = (state.withQueues state.queues.closeRunner).enter
        (.failing state.queues.ids)) :
      Leaves state next .closeRunner
  | stop (phase : state.phase = .failing [])
      (eq : next = state.enter .stopped) : Leaves state next .fail
  | skip (queue : QueueId) (remaining : List QueueId)
      (phase : state.phase = .failing (queue :: remaining))
      (eq : next = state.enter (.failing remaining)) :
      Leaves state next .fail
  | fail (queue : QueueId) (remaining : List QueueId)
      (popped : Popped Job)
      (phase : state.phase = .failing (queue :: remaining))
      (pop : state.queues.popFrom queue = some popped)
      (eq : next = (state.withQueues
        (popped.queues.finishEntry queue)).conclude queue popped.entry.id
          popped.entry.reply (.error .runnerStopped)) :
      Leaves state next .fail

section Leaves

variable {setup : LinkSetup} {state next : LinkState} {action : RunnerAction}

theorem leaves_of_poisoned (h : state.runnerStep setup action = some next)
    (hstate : state.Poisoned) : state.Leaves next action := by
  unfold Poisoned at hstate
  unfold runnerStep at h
  split at h
  all_goals first | contradiction | injection h with h; subst h
  all_goals
    rename_i hphase
    rw [hphase] at hstate
  all_goals try exact hstate.elim
  next queue job reply followers error =>
    unfold requeue
    split
    next follower hlast =>
      have hfollowers := List.dropLast_append_getLast? follower hlast
      exact .requeue queue job reply followers.dropLast follower error
        (by rw [hfollowers]; exact hphase) rfl
    next hlast =>
      have hnil : followers = [] := List.getLast?_eq_none_iff.mp hlast
      subst hnil
      refine .conclude queue job reply error hphase ?_
      simp [hstate]
  · refine .check hphase ?_
    simp [hstate]
  · exact .closeRunner hphase rfl
  next remaining =>
    unfold fail
    split
    · exact .stop hphase rfl
    next queue remaining =>
      split
      · exact .skip queue remaining hphase rfl
      next popped hpopped =>
        exact .fail queue remaining popped hphase hpopped rfl

theorem isSome_of_poisoned (hstate : state.Poisoned)
    (hphase : state.phase ≠ .stopped) :
    ∃ action, (state.step setup (.runner action)).isSome := by
  unfold Poisoned at hstate
  split at hstate
  next hrequeueing => exact ⟨.requeue, by simp [step, runnerStep, hrequeueing]⟩
  next hchecking => exact ⟨.check, by simp [step, runnerStep, hchecking]⟩
  next hstopping => exact ⟨.closeRunner, by simp [step, runnerStep, hstopping]⟩
  next hfailing => exact ⟨.fail, by simp [step, runnerStep, hfailing]⟩
  next hstopped => exact absurd hstopped hphase
  · contradiction

theorem port_leaves (h : state.Leaves next action) :
    next.port = { state.port with events := next.port.events } ∧
      next.log = state.log := by
  cases h with
  | requeue queue job reply followers follower error phase eq
  | check phase eq | closeRunner phase eq | stop phase eq
  | skip queue remaining phase eq =>
      subst eq
      exact ⟨rfl, rfl⟩
  | conclude queue job reply error phase eq =>
      subst eq
      exact port_conclude ..
  | fail queue remaining popped phase pop eq =>
      subst eq
      exact port_conclude (state.withQueues _) ..

theorem poisoned_leaves (h : state.Leaves next action)
    (hstate : state.Poisoned) : next.Poisoned := by
  unfold Poisoned at hstate ⊢
  cases h with
  | requeue queue job reply followers follower error phase eq =>
      subst eq
      rw [phase] at hstate
      exact hstate
  | conclude queue job reply error phase eq =>
      have husable := congrArg LinkPort.channelUsable
        (port_conclude state queue job.id (some reply) (.error error)).1
      subst eq
      rw [phase] at hstate
      exact husable.trans hstate
  | check phase eq | closeRunner phase eq | stop phase eq
  | skip queue remaining phase eq =>
      subst eq
      trivial
  | fail queue remaining popped phase pop eq =>
      subst eq
      rw [phase_conclude, phase_withQueues, phase]
      trivial

theorem poisoned_of_change (h : state.ClientChange next)
    (hstate : state.Poisoned) : next.Poisoned := by
  have husable := congrArg LinkPort.channelUsable h.port
  unfold Poisoned at hstate ⊢
  rw [h.phase, husable]
  exact hstate

theorem poisoned_step {action : LinkAction}
    (h : state.step setup action = some next) (hstate : state.Poisoned) :
    next.Poisoned := by
  cases action with
  | client action => exact poisoned_of_change (clientStep_change h) hstate
  | runner action => exact poisoned_leaves (leaves_of_poisoned h hstate) hstate

theorem silent_step {action : LinkAction}
    (h : state.step setup action = some next) (hstate : state.Poisoned) :
    state.calls setup action = [] ∧ next.log = state.log := by
  cases action with
  | client action => exact ⟨rfl, (clientStep_change h).log⟩
  | runner action =>
      have hleaves := leaves_of_poisoned h hstate
      refine ⟨?_, (port_leaves hleaves).2⟩
      cases hleaves <;> rfl

end Leaves

/-! ## A broken call leads there -/

section Broken

variable {setup : LinkSetup} {state next : LinkState} {action : LinkAction}

/-- What a broken call leaves behind. -/
structure Breaks (setup : LinkSetup) (state : LinkState) (action : LinkAction)
    (next : LinkState) : Prop where
  poisoned : next.Poisoned
  notClosing : next.phase.closing = false
  last : ∃ before call, state.calls setup action = before ++ [call] ∧
    ∀ call ∈ before, call.intact = true
  followers : next.phase.followers = state.phase.followers
  queues : next.queues = state.queues

theorem Ends.of_broken {calls : List ChannelCall} {port after : LinkPort}
    (h : Ends calls port after)
    (hbroken : ∃ call ∈ calls, call.intact = false) :
    after.channelUsable = false ∧
      ∃ before call, calls = before ++ [call] ∧
        ∀ call ∈ before, call.intact = true := by
  cases h with
  | intact all usable =>
      obtain ⟨call, hcall, hbroken⟩ := hbroken
      rw [all call hcall] at hbroken
      contradiction
  | broken before call eq all broken unusable =>
      exact ⟨unusable, before, call, eq, all⟩

theorem breaks_of_broken (h : state.step setup action = some next)
    (hbroken : ∃ call ∈ state.calls setup action, call.intact = false) :
    Breaks setup state action next := by
  cases action with
  | client action =>
      obtain ⟨call, hcall, -⟩ := hbroken
      contradiction
  | runner action =>
      cases channelStep h with
      | quiet talks port log =>
          obtain ⟨call, hcall, -⟩ := hbroken
          cases action <;> contradiction
      | receive phase eq =>
          rename_i received
          obtain ⟨call, hcall, hbroken⟩ := hbroken
          rw [calls, List.mem_singleton] at hcall
          subst hcall
          have husable : (state.port.processIdleInput received).2 = false :=
            (state.port.processIdleInput_snd received).trans hbroken
          have hphase : (state.receive received).phase = .stopping := by
            unfold receive
            dsimp only
            rw [husable]
            rfl
          subst eq
          refine ⟨?_, by rw [hphase]; rfl, ⟨[], _, rfl, by simp⟩, ?_, rfl⟩
          · unfold Poisoned
            rw [hphase]
            trivial
          · rw [hphase, phase]
            rfl
      | exchange phase eq =>
          rename_i queue job reply followers now surroundings
          have hcalls : state.calls setup
              (.runner (.exchange now surroundings)) =
              exchangeCalls setup.horizon now job surroundings
                state.port := by
            simp only [calls, phase]
          rw [hcalls] at hbroken
          obtain ⟨hends, herror⟩ := ends_exchange setup.horizon now job
            surroundings state.port
          obtain ⟨error, herror⟩ := herror hbroken
          obtain ⟨hunusable, hlast⟩ := Ends.of_broken hends hbroken
          have hphase : (state.exchange setup queue job reply followers now
              surroundings).phase =
              .requeueing queue job reply followers error := by
            unfold exchange
            dsimp only
            rw [herror]
          subst eq
          refine ⟨?_, by rw [hphase]; rfl, hcalls ▸ hlast, ?_, rfl⟩
          · unfold Poisoned
            rw [hphase]
            exact hunusable
          · rw [hphase, phase]
            rfl
      | drain phase eq =>
          rename_i now arrivals
          obtain ⟨hunusable, hlast⟩ := Ends.of_broken
            (state.port.ends_drain setup.horizon now setup.lateResponseGuard
              arrivals) hbroken
          subst eq
          refine ⟨hunusable, rfl, hlast, ?_, rfl⟩
          rw [phase]
          rfl

end Broken

/-! ## What becomes of the waiting requests -/

/-- The request still waits, or has ended without an exchange. -/
def Doomed (state : LinkState) (ticket : Ticket) : Prop :=
  ticket ∈ state.waiting ∨ state.EndsUnserved ticket

section Doomed

variable {setup : LinkSetup} {state next : LinkState} {ticket : Ticket}

theorem EndsUnserved.mono (h : state.EndsUnserved ticket)
    (houtcomes : state.outcomes ⊆ next.outcomes)
    (hreplies : state.replies ⊆ next.replies) : next.EndsUnserved ticket := by
  rcases h with hcancelled | ⟨hfailed, hreply⟩
  · exact .inl (houtcomes hcancelled)
  · exact .inr ⟨houtcomes hfailed, hreplies hreply⟩

theorem Doomed.mono (h : state.Doomed ticket)
    (hwaiting : state.waiting ⊆ next.waiting)
    (houtcomes : state.outcomes ⊆ next.outcomes)
    (hreplies : state.replies ⊆ next.replies) : next.Doomed ticket := by
  rcases h with hwaits | hended
  · exact .inl (hwaiting hwaits)
  · exact .inr (hended.mono houtcomes hreplies)

theorem outcomes_conclude (state : LinkState) (queue : QueueId) (id : UInt64)
    (reply : Option ReplyId) (result : Except ExchangeError DeviceReply) :
    state.outcomes ⊆ (state.conclude queue id reply result).outcomes ∧
      state.replies ⊆ (state.conclude queue id reply result).replies := by
  unfold conclude
  split
  · exact ⟨List.subset_append_left _ _, List.Subset.refl _⟩
  · split_ifs
    · exact ⟨List.subset_append_left _ _, List.Subset.refl _⟩
    · cases result <;>
        exact ⟨List.subset_append_left _ _, List.subset_append_left _ _⟩

theorem endsUnserved_conclude (state : LinkState) (queue : QueueId)
    (id : UInt64) (reply : ReplyId) :
    (state.conclude queue id (some reply)
      (.error .runnerStopped)).EndsUnserved (queue, reply) := by
  simp only [conclude]
  split_ifs
  · refine .inl ?_
    simp [markCancelled, emit]
  · refine .inr ⟨?_, ?_⟩
    · simp [markFailed, send, emit]
    · simp [markFailed, send, emit]

theorem waiting_of_perm
    (h : (state.phase.followers ++ state.queues.entries).Perm
      (next.phase.followers ++ next.queues.entries)) :
    state.waiting ⊆ next.waiting :=
  (h.filterMap _).subset

theorem doomed_of_change (h : state.ClientChange next)
    (hticket : state.Doomed ticket) : next.Doomed ticket := by
  have hentries : state.queues.entries ⊆ next.queues.entries := by
    cases h.pushes with
    | nothing entries ids runnerClosed accepted nextReply =>
        exact entries.symm.subset
    | entry queue job reply known entries ids running accepted nextReply =>
        intro place hplace
        exact entries.mem_iff.mpr (List.mem_cons_of_mem _ hplace)
  refine hticket.mono ?_ (by rw [h.outcomes]; exact List.Subset.refl _)
    (by rw [h.replies]; exact List.Subset.refl _)
  unfold waiting
  rw [h.phase]
  refine List.filterMap_subset _ (List.append_subset.mpr ⟨?_, ?_⟩)
  · exact List.subset_append_left _ _
  · exact List.subset_append_of_subset_right _ hentries

theorem doomed_leaves {action : RunnerAction} (h : state.Leaves next action)
    (howed : state.Owed) (hticket : state.Doomed ticket) :
    next.Doomed ticket := by
  cases h with
  | requeue queue job reply followers follower error phase eq =>
      subst eq
      have hknown : queue ∈ state.queues.ids :=
        howed.known (by rw [phase]; rfl)
      refine hticket.mono (waiting_of_perm ?_) (List.Subset.refl _)
        (List.Subset.refl _)
      rw [phase, queues_enter, queues_withQueues]
      simp only [phase_enter, Phase.followers, List.map_append, List.map_cons,
        List.map_nil, List.append_assoc, List.singleton_append]
      exact ((QueueSet.entries_pushFront hknown follower).1.append_left _).symm
  | conclude queue job reply error phase eq =>
      obtain ⟨houtcomes, hreplies⟩ := outcomes_conclude state queue job.id
        (some reply) (.error error)
      subst eq
      refine hticket.mono (waiting_of_perm ?_) houtcomes hreplies
      rw [phase, queues_enter, queues_conclude]
      exact .refl _
  | check phase eq | stop phase eq | skip queue remaining phase eq =>
      subst eq
      refine hticket.mono (waiting_of_perm ?_) (List.Subset.refl _)
        (List.Subset.refl _)
      rw [phase]
      exact .refl _
  | closeRunner phase eq =>
      subst eq
      refine hticket.mono (waiting_of_perm ?_) (List.Subset.refl _)
        (List.Subset.refl _)
      rw [phase, queues_enter, queues_withQueues, QueueSet.entries_closeRunner]
      exact .refl _
  | fail queue remaining popped phase pop eq =>
      obtain ⟨hgives, hqueue⟩ := QueueSet.gives_popFrom pop
      obtain ⟨houtcomes, hreplies⟩ := outcomes_conclude
        (state.withQueues (popped.queues.finishEntry queue)) queue
        popped.entry.id popped.entry.reply (.error .runnerStopped)
      subst eq
      rcases hticket with hwaits | hended
      · obtain ⟨place, hplace, hticket⟩ := List.mem_filterMap.mp hwaits
        rw [phase] at hplace
        rcases List.mem_cons.mp (hgives.entries.mem_iff.mp hplace) with
          rfl | hmem
        · -- the request that this step tells
          obtain ⟨reply, hreply, rfl⟩ := Option.map_eq_some_iff.mp hticket
          dsimp only at hreply
          rw [hqueue, hreply]
          exact .inr (endsUnserved_conclude ..)
        · refine .inl (List.mem_filterMap.mpr ⟨place, ?_, hticket⟩)
          rw [phase_conclude, phase_withQueues, phase, queues_conclude]
          exact (QueueSet.entries_finishEntry ..).1.mem_iff.mpr hmem
      · exact .inr (hended.mono houtcomes hreplies)

theorem doomed_step {action : LinkAction}
    (h : state.step setup action = some next) (hstate : state.Poisoned)
    (howed : state.Owed) (hticket : state.Doomed ticket) :
    next.Doomed ticket := by
  cases action with
  | client action => exact doomed_of_change (clientStep_change h) hticket
  | runner action =>
      exact doomed_leaves (leaves_of_poisoned h hstate) howed hticket

/-- A stopped runner has left no request waiting. -/
theorem endsUnserved_of_stopped (hphase : state.phase = .stopped)
    (hdraining : state.Draining) (hticket : state.Doomed ticket) :
    state.EndsUnserved ticket := by
  unfold Draining at hdraining
  rw [hphase] at hdraining
  rcases hticket with hwaits | hended
  · rw [waiting, hphase, hdraining.2] at hwaits
    contradiction
  · exact hended

end Doomed

/-! ## The number of steps -/

/-- The steps of the runner before it stops, if few enough requests wait. -/
def stepsLeft (bound : Nat) (state : LinkState) : Nat :=
  match state.phase with
  | .requeueing _ _ _ followers _ => bound + followers.length + 3
  | .checking => bound + 2
  | .stopping => bound + 1
  | .failing remaining => state.queues.entries.length + remaining.length + 1
  | _ => 0

section StepsLeft

variable {setup : LinkSetup} {state next : LinkState} {bound : Nat}

theorem stepsLeft_leaves {action : RunnerAction}
    (h : state.Leaves next action)
    (hbound : state.queues.entries.length + state.queues.ids.length < bound) :
    next.stepsLeft bound + 1 ≤ state.stepsLeft bound := by
  cases h with
  | requeue queue job reply followers follower error phase eq =>
      subst eq
      simp only [stepsLeft, phase, phase_enter, List.length_append,
        List.length_singleton]
      omega
  | conclude queue job reply error phase eq | check phase eq
  | stop phase eq | skip queue remaining phase eq =>
      subst eq
      simp [stepsLeft, phase]
  | closeRunner phase eq =>
      subst eq
      simp only [stepsLeft, phase, phase_enter, queues_enter,
        queues_withQueues, QueueSet.entries_closeRunner]
      omega
  | fail queue remaining popped phase pop eq =>
      subst eq
      have hlength := (QueueSet.gives_popFrom pop).1.entries.length_eq
      have hfinish :=
        (QueueSet.entries_finishEntry popped.queues queue).1.length_eq
      rw [List.length_cons] at hlength
      simp only [stepsLeft, phase_conclude, phase_withQueues, phase,
        queues_conclude, queues_withQueues, List.length_cons]
      omega

theorem stepsLeft_of_change (h : state.ClientChange next)
    (hdraining : state.Draining) :
    next.stepsLeft bound = state.stepsLeft bound := by
  unfold stepsLeft
  rw [h.phase]
  split
  case h_4 remaining hphase =>
    unfold Draining at hdraining
    rw [hphase] at hdraining
    cases h.pushes with
    | nothing entries ids runnerClosed accepted nextReply =>
        rw [entries.length_eq]
    | entry queue job reply known entries ids running accepted nextReply =>
        rw [hdraining.1] at running
        contradiction
  all_goals rfl

theorem stepsLeft_step {action : LinkAction}
    (h : state.step setup action = some next) (hstate : state.Poisoned)
    (hdraining : state.Draining)
    (hbound : state.queues.entries.length + state.queues.ids.length < bound) :
    next.stepsLeft bound + (if action.isRunner then 1 else 0) ≤
      state.stepsLeft bound := by
  cases action with
  | client action =>
      exact (stepsLeft_of_change (clientStep_change h) hdraining).le
  | runner action =>
      exact stepsLeft_leaves (leaves_of_poisoned h hstate) hbound

/-- The capacities of the queues limit how many requests wait. -/
theorem length_entries_run {build : LinkBuild} {actions : List LinkAction}
    (hrun : build.initial.run setup actions = some state) :
    state.queues.entries.length ≤
        (build.layout.map QueueConfig.capacity).sum ∧
      state.queues.ids.length = build.layout.length := by
  have hcapacities := capacities_run hrun
  have hslots : state.queues.slots.map QueueSlot.capacity =
      build.layout.map QueueConfig.capacity := by
    have hsnd := congrArg (List.map Prod.snd) hcapacities
    simpa [QueueSet.capacities, Function.comp_def] using hsnd
  have hlength := congrArg List.length hcapacities
  simp only [QueueSet.capacities, List.length_map] at hlength
  refine ⟨?_, by simpa [QueueSet.ids] using hlength⟩
  rw [← hslots, QueueSet.entries, List.length_flatMap]
  refine List.sum_le_sum ?_
  intro slot hslot
  obtain ⟨hpermits, -⟩ := occupied_run hrun slot hslot
  simp only [QueueSlot.placed, List.length_map]
  omega

end StepsLeft

/-! ## A waiting request has not been sent -/

/-- Every transmission in the log belongs to an exchange. -/
def Recorded (seen : List SharedExchange) (state : LinkState) : Prop :=
  ∀ reply, .transmitted reply ∈ state.log →
    ∃ shared ∈ seen, shared.reply = reply

section Recorded

variable {setup : LinkSetup} {state next : LinkState}
  {seen : List SharedExchange}

theorem reply_of_logTransmission {reply found : ReplyId}
    {transmissions : List Transmission}
    (h : .transmitted found ∈ transmissions.flatMap (logTransmission reply)) :
    found = reply := by
  obtain ⟨transmission, -, hmem⟩ := List.mem_flatMap.mp h
  unfold logTransmission at hmem
  split at hmem <;> simpa using hmem

theorem recorded_step {action : LinkAction}
    (h : state.step setup action = some next) (hstate : Recorded seen state) :
    Recorded (seen ++ state.exchanged setup action) next := by
  have hsame : next.log = state.log →
      Recorded (seen ++ state.exchanged setup action) next := by
    intro hlog reply hreply
    rw [hlog] at hreply
    obtain ⟨shared, hshared, heq⟩ := hstate reply hreply
    exact ⟨shared, List.mem_append_left _ hshared, heq⟩
  cases action with
  | client action => exact hsame (clientStep_change h).log
  | runner action =>
      cases channelStep h with
      | quiet talks port log => exact hsame log
      | receive phase eq =>
          subst eq
          exact hsame rfl
      | exchange phase eq =>
          subst eq
          intro found hfound
          rcases List.mem_append.mp hfound with hold | hnew
          · obtain ⟨shared, hshared, heq⟩ := hstate found hold
            exact ⟨shared, List.mem_append_left _ hshared, heq⟩
          · rw [reply_of_logTransmission hnew]
            simp only [exchanged, phase]
            exact ⟨_, List.mem_append_right _ (List.mem_singleton_self _), rfl⟩
      | drain phase eq =>
          subst eq
          intro reply hreply
          have hold : .transmitted reply ∈ state.log := by
            unfold drain at hreply
            dsimp only at hreply
            split_ifs at hreply
            · exact hreply
            · simpa using hreply
          obtain ⟨shared, hshared, heq⟩ := hstate reply hold
          exact ⟨shared, List.mem_append_left _ hshared, heq⟩

theorem recorded_run {build : LinkBuild} {actions : List LinkAction}
    (hrun : build.initial.run setup actions = some state) :
    Recorded (build.initial.exchanges setup actions) state := by
  have hstart : Recorded [] build.initial := by
    intro reply hreply
    contradiction
  exact runSteps_observe recorded_step hrun hstart

theorem mem_entriesOf_of_entries {queues : QueueSet Job} {place : Place}
    (h : place ∈ queues.entries) : place.2 ∈ queues.entriesOf place.1 := by
  obtain ⟨slot, hslot, hplace⟩ := List.mem_flatMap.mp h
  obtain ⟨job, hjob, rfl⟩ := List.mem_map.mp hplace
  dsimp only
  rw [QueueSet.entriesOf_of_mem hslot]
  exact hjob

theorem followers_subset_unserved (phase : Phase) :
    phase.followers ⊆ phase.unserved := by
  cases phase <;> simp [Phase.followers, Phase.unserved]

theorem mem_line_of_waiting {ticket : Ticket} (h : ticket ∈ state.waiting) :
    ticket ∈ state.line ticket.1 := by
  obtain ⟨place, hplace, hticket⟩ := List.mem_filterMap.mp h
  obtain ⟨reply, hreply, rfl⟩ := Option.map_eq_some_iff.mp hticket
  rcases List.mem_append.mp hplace with hfollower | hentry
  · refine List.mem_append_left _ (List.mem_filterMap.mpr
      ⟨place, List.mem_filter.mpr ⟨?_, by simp⟩, hticket⟩)
    exact followers_subset_unserved _ hfollower
  · refine List.mem_append_right _ (List.mem_filterMap.mpr
      ⟨place.2, mem_entriesOf_of_entries hentry, ?_⟩)
    simp [hreply]

/-- Served and waiting requests are told apart by their oneshot channels. -/
theorem not_transmitted_of_waiting (horderly : Orderly setup seen state)
    (hrecorded : Recorded seen state) {ticket : Ticket}
    (h : ticket ∈ state.waiting) : .transmitted ticket.2 ∉ state.log := by
  intro hlog
  obtain ⟨shared, hshared, hreply⟩ := hrecorded ticket.2 hlog
  have hlined := horderly.inLine ticket.1
  have hother := horderly.inLine shared.queue
  have hwaits := mem_line_of_waiting h
  have hserved : shared.ticket ∈ acceptedBy
      (seen.map SharedExchange.ticket) shared.queue :=
    List.mem_filter.mpr
      ⟨List.mem_map.mpr ⟨shared, hshared, rfl⟩, by simp [SharedExchange.ticket]⟩
  have hin : ticket ∈ state.accepted :=
    (List.mem_filter.mp
      (hlined.sublist.subset (List.mem_append_right _ hwaits))).1
  have hsharedIn : shared.ticket ∈ state.accepted :=
    (List.mem_filter.mp
      (hother.sublist.subset (List.mem_append_left _ hserved))).1
  have hsame : shared.ticket = ticket :=
    List.inj_on_of_nodup_map horderly.accounted.sound.distinct hsharedIn hin
      hreply
  have hqueue : shared.queue = ticket.1 := congrArg Prod.fst hsame
  rw [hsame, hqueue] at hserved
  exact hlined.not_mem_of_served
    (nodup_acceptedBy (nodup_accepted horderly.accounted) ticket.1) hserved
    hwaits

end Recorded

/-! ## Runs -/

/--
What follows when an action breaks the stream: no call after the broken one, a
bounded number of steps of the runner, none of which can be blocked, and every
request that waited ends unserved.
-/
structure GivesUp (setup : LinkSetup) (build : LinkBuild) (state : LinkState)
    (action : LinkAction) (next : LinkState) (later : List LinkAction)
    (final : LinkState) : Prop where
  last : ∃ before call, state.calls setup action = before ++ [call] ∧
    ∀ call ∈ before, call.intact = true
  silent : observe (step setup) (calls setup) next later = []
  unsent : final.port.sent = next.port.sent
  bounded : later.countP LinkAction.isRunner ≤
    state.phase.followers.length +
      (build.layout.map QueueConfig.capacity).sum + build.layout.length + 4
  unblocked : final.phase ≠ .stopped →
    ∃ action, (final.step setup (.runner action)).isSome
  untransmitted : ∀ ticket ∈ state.waiting,
    .transmitted ticket.2 ∉ final.log
  ended : final.phase = .stopped →
    ∀ ticket ∈ state.waiting, final.EndsUnserved ticket

section Runs

variable {setup : LinkSetup} {build : LinkBuild} {state final : LinkState}
  {actions : List LinkAction}

theorem silent_run (hrun : state.run setup actions = some final)
    (hstate : state.Poisoned) :
    observe (step setup) (calls setup) state actions = [] ∧
      final.log = state.log := by
  have hinvariant := @runSteps_observe _ _ (step setup) _ (calls setup)
    (fun seen other => seen = [] ∧ other.Poisoned ∧ other.log = state.log)
    ?_ [] state final actions hrun ⟨rfl, hstate, rfl⟩
  · exact ⟨hinvariant.1, hinvariant.2.2⟩
  · rintro seen other next action hstep ⟨rfl, hother, hlog⟩
    obtain ⟨hcalls, hlogStep⟩ := silent_step hstep hother
    exact ⟨hcalls, poisoned_step hstep hother, hlogStep.trans hlog⟩

structure WayOut (setup : LinkSetup) (build : LinkBuild) (state : LinkState) :
    Prop where
  reached : build.Reaches setup state
  draining : state.Draining
  poisoned : state.Poisoned

theorem WayOut.step {next : LinkState} {action : LinkAction}
    (h : WayOut setup build state)
    (hstep : state.step setup action = some next) :
    WayOut setup build next :=
  ⟨h.reached.step hstep, draining_step hstep h.draining,
    poisoned_step hstep h.poisoned⟩

theorem draining_run (hrun : build.initial.run setup actions = some state) :
    state.Draining :=
  runSteps_invariant draining_step hrun (draining_of_phase rfl)

theorem bounded_run (hrun : state.run setup actions = some final)
    (hstate : WayOut setup build state) :
    actions.countP LinkAction.isRunner ≤
      state.stepsLeft ((build.layout.map QueueConfig.capacity).sum +
        build.layout.length + 1) := by
  have hcount := @runSteps_countP _ _ (step setup) (WayOut setup build)
    (stepsLeft ((build.layout.map QueueConfig.capacity).sum +
      build.layout.length + 1)) LinkAction.isRunner
    (fun hstep hway => hway.step hstep) ?_ _ _ _ hrun hstate
  · omega
  · intro other next action hstep hway
    obtain ⟨earlier, hearlier⟩ := hway.reached
    obtain ⟨hentries, hids⟩ := length_entries_run hearlier
    exact stepsLeft_step hstep hway.poisoned hway.draining (by omega)

theorem doomed_run (hrun : state.run setup actions = some final)
    (hstate : WayOut setup build state) {ticket : Ticket}
    (hticket : state.Doomed ticket) :
    WayOut setup build final ∧ final.Doomed ticket := by
  refine @runSteps_invariant _ _ (LinkState.step setup)
    (fun other => WayOut setup build other ∧ other.Doomed ticket) ?_ _ _ _
    hrun ⟨hstate, hticket⟩
  intro other next action hstep ⟨hway, hdoomed⟩
  obtain ⟨earlier, hearlier⟩ := hway.reached
  exact ⟨hway.step hstep, doomed_step hstep hway.poisoned
    (accounted_run hearlier).owed hdoomed⟩

theorem stepsLeft_of_breaks {next : LinkState} {action : LinkAction}
    {bound : Nat} (h : Breaks setup state action next) :
    next.stepsLeft bound ≤ bound + state.phase.followers.length + 3 := by
  have hclosing := h.notClosing
  rw [← h.followers]
  unfold stepsLeft
  split
  next hphase => simp [hphase, Phase.followers]
  · omega
  · omega
  next hphase =>
    rw [hphase] at hclosing
    contradiction
  · omega

/--
In every run, an action that breaks the stream is the last one that calls the
channel, and every request that waits then is told that the runner has stopped
or is cancelled, without having been sent.
-/
theorem run_gives_up (setup : LinkSetup) (build : LinkBuild)
    (earlier later : List LinkAction) (action : LinkAction)
    (state next final : LinkState)
    (hearlier : build.initial.run setup earlier = some state)
    (hbroken : ∃ call ∈ state.calls setup action, call.intact = false)
    (hstep : state.step setup action = some next)
    (hlater : next.run setup later = some final) :
    GivesUp setup build state action next later final := by
  have hbreaks := breaks_of_broken hstep hbroken
  have hreached : build.initial.run setup (earlier ++ [action]) = some next :=
    runSteps_concat _ hearlier hstep
  have hway : WayOut setup build next :=
    ⟨⟨_, hreached⟩, draining_run hreached, hbreaks.poisoned⟩
  have hwaiting : next.waiting = state.waiting := by
    rw [waiting, waiting, hbreaks.followers, hbreaks.queues]
  obtain ⟨hsilent, hlog⟩ := silent_run hlater hbreaks.poisoned
  have hsent : final.port.sent = next.port.sent := by
    rw [sent_run hlater, hsilent]
    exact List.append_nil _
  have hdoomed : ∀ ticket ∈ state.waiting,
      WayOut setup build final ∧ final.Doomed ticket := by
    intro ticket hticket
    exact doomed_run hlater hway (.inl (hwaiting ▸ hticket))
  refine ⟨hbreaks.last, hsilent, hsent, ?_, ?_, ?_, ?_⟩
  · have hcount := bounded_run hlater hway
    have hleft := @stepsLeft_of_breaks setup state next action
      ((build.layout.map QueueConfig.capacity).sum + build.layout.length + 1)
      hbreaks
    omega
  · have hfinal : WayOut setup build final :=
      runSteps_invariant (fun hstep hway => hway.step hstep) hlater hway
    exact isSome_of_poisoned hfinal.poisoned
  · intro ticket hticket
    rw [hlog]
    exact not_transmitted_of_waiting (orderly_run hreached)
      (recorded_run hreached) (hwaiting ▸ hticket)
  · intro hphase ticket hticket
    obtain ⟨hfinal, hticket⟩ := hdoomed ticket hticket
    exact endsUnserved_of_stopped hphase hfinal.draining hticket

def leadingActions : List LinkAction :=
  [startIn ⟨0⟩, startIn ⟨0⟩, .runner .poll, .runner (.begin 0),
    .runner .gather, .runner .gather, startIn ⟨1⟩]

def failingSend : LinkAction :=
  .runner (.exchange 0 fun _ => ⟨0, ⟨0, some .closed⟩, [], 1, 1⟩)

def leavingActions : List LinkAction :=
  [.runner .requeue, .runner .requeue, .runner .check, .runner .closeRunner,
    .runner .fail, .runner .fail, .runner .fail, .runner .fail, .runner .fail]

theorem isSome_leadingRun :
    (pairBuild.initial.run plainSetup leadingActions).isSome := by
  decide +kernel

theorem isSome_failingSend :
    (((pairBuild.initial.run plainSetup leadingActions).get
      isSome_leadingRun).step plainSetup failingSend).isSome := by
  decide +kernel

theorem isSome_leavingRun :
    (((((pairBuild.initial.run plainSetup leadingActions).get
      isSome_leadingRun).step plainSetup failingSend).get
        isSome_failingSend).run plainSetup leavingActions).isSome := by
  decide +kernel

theorem run_gives_up_failingSend :
    let state := (pairBuild.initial.run plainSetup leadingActions).get
      isSome_leadingRun
    let next := (state.step plainSetup failingSend).get isSome_failingSend
    let final := (next.run plainSetup leavingActions).get isSome_leavingRun
    state.waiting = [(⟨0⟩, 1), (⟨1⟩, 2)] ∧ final.phase = .stopped ∧
      GivesUp plainSetup pairBuild state failingSend next leavingActions
        final :=
  ⟨by decide +kernel, by decide +kernel,
    run_gives_up plainSetup pairBuild leadingActions leavingActions failingSend
      _ _ _ (Option.some_get isSome_leadingRun).symm
      ⟨_, List.mem_cons_self, by decide +kernel⟩
      (Option.some_get isSome_failingSend).symm
      (Option.some_get isSome_leavingRun).symm⟩

end Runs

end LinkState

end HartLink.Service
