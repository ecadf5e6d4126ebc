import HartLink.Service.Occupancy

/-!
# Leaving the serving loop

When the queues are empty the runner reads whether the clients are gone.  The
two looks are separate: a request that is pushed between them is overlooked if
the last client goes before the second look.  In all other runs on a usable
channel the runner leaves empty queues, and nobody is told that it has stopped.
-/

namespace HartLink.Service

open HartLink.Foundation
open HartLink.Wire
open HartLink.Operation

/-! ## An exchange does not report a stopped runner -/

section Exchange

theorem LinkPort.awaitReply_ne_runnerStopped (id : UInt64)
    (requestFrame : Frame) (deadline : Nat) (port : LinkPort)
    (arrivals : List Arrival) :
    (port.awaitReply id requestFrame deadline arrivals).2 ≠
      .error .runnerStopped := by
  induction arrivals generalizing port with
  | nil => simp [awaitReply]
  | cons arrival arrivals ih =>
      obtain ⟨instant, received⟩ := arrival
      cases received with
      | error error =>
          simp only [awaitReply]
          split_ifs <;> simp
      | read fragment =>
          simp only [awaitReply]
          split_ifs
          · simp
          · simp
          · simp
          · split
            · simp
            · exact ih _

theorem LinkPort.exchangeOnce_ne_runnerStopped (port : LinkPort) (id : UInt64)
    (requestFrame : Frame) (encoded : Bytes) (deadline : Nat) (sent : Sent)
    (arrivals : List Arrival) :
    (port.exchangeOnce id requestFrame encoded deadline sent arrivals).2 ≠
      .error .runnerStopped := by
  unfold exchangeOnce
  dsimp only
  split_ifs
  · simp
  · split
    · simp
    · exact awaitReply_ne_runnerStopped _ _ _ _ _

theorem turn_ne_runnerStopped {horizon : Nat} {job : Job} {attempt : Attempt}
    {retries : Retries} {outcome result : Except ExchangeError DeviceReply}
    {port after : LinkPort} (houtcome : outcome ≠ .error .runnerStopped)
    (h : turn horizon job attempt retries outcome port =
      (after, .over result)) : result ≠ .error .runnerStopped := by
  have hjudge : ∀ found, judgeAttempt job retries outcome = .finish found →
      found ≠ .error .runnerStopped := by
    intro found hfound
    unfold judgeAttempt at hfound
    split at hfound
    · split_ifs at hfound
      all_goals
        injection hfound with hfound
        subst hfound
        simp
    · split_ifs at hfound
      injection hfound with hfound
      exact hfound ▸ houtcome
  unfold turn at h
  split at h
  next found hfound =>
    injection h with _ h
    injection h with h
    exact h ▸ hjudge found hfound
  next cause retries paused hretry =>
    dsimp only at h
    split at h
    next error hwait =>
      injection h with _ h
      injection h with h
      subst h
      split_ifs at hwait
      unfold waitBeforeRetry at hwait
      split_ifs at hwait
      split at hwait
      · injection hwait with hwait
        simp [← hwait]
      · split_ifs at hwait
        injection hwait with hwait
        simp [← hwait]
    · split_ifs at h
      · injection h with _ h
        injection h with h
        simp [← h]
      · injection h with _ h
        contradiction

theorem exchangeLoop_ne_runnerStopped (horizon : Nat) (job : Job)
    (frame : Frame) (encoded : Bytes) (surroundings : Nat → Attempt)
    (bound index checkedAt : Nat) (retries : Retries) (port : LinkPort) :
    (exchangeLoop horizon job frame encoded surroundings bound index checkedAt
      retries port).result ≠ .error .runnerStopped := by
  induction bound generalizing index checkedAt retries port with
  | zero => simp [exchangeLoop]
  | succ bound ih =>
      simp only [exchangeLoop]
      split
      next after result hturn =>
        exact turn_ne_runnerStopped
          (LinkPort.exchangeOnce_ne_runnerStopped _ _ _ _ _ _ _) hturn
      · exact ih _ _ _ _

theorem exchange_ne_runnerStopped (horizon now : Nat) (job : Job)
    (surroundings : Nat → Attempt) (port : LinkPort) :
    (exchange horizon now job surroundings port).result ≠
      .error .runnerStopped := by
  unfold exchange
  split_ifs
  · simp
  · split
    · simp
    · split
      · simp
      · exact exchangeLoop_ne_runnerStopped _ _ _ _ _ _ _ _ _ _

end Exchange

/-! ## What the runner leaves -/

/-- The phases behind the serving loop. -/
def Phase.leaves : Phase → Bool
  | .stopping | .failing _ | .stopped => true
  | _ => false

/-- A phase of the serving loop that asks nothing about its end. -/
def Phase.busy : Phase → Bool
  | .polled | .stopping | .failing _ | .stopped => false
  | .requeueing _ _ _ _ error => error ≠ .runnerStopped
  | _ => true

namespace LinkState

def KeepsChannel (state : LinkState) : LinkAction → Prop
  | .runner (.receive received) => (state.port.processIdleInput received).2
  | .runner .check => state.port.channelUsable
  | _ => True

/--
The last client does not go while the runner stands between finding the queues
empty and reading that the clients are gone, with a request pushed since.
-/
def DropsInTime (state : LinkState) : LinkAction → Prop
  | .client .dropClients => state.phase = .polled → state.queues.entries = []
  | _ => True

/-- Without clients the runner stops looking only when nothing is left. -/
structure LeavesEmpty (state : LinkState) : Prop where
  closed : state.queues.inputClosed = !state.clientsAlive
  empty : state.phase = .polled ∨ state.phase.leaves →
    state.clientsAlive = false → state.queues.entries = []
  gone : state.phase.leaves → state.clientsAlive = false
  own : ∀ queue job reply followers error,
    state.phase = .requeueing queue job reply followers error →
      error ≠ .runnerStopped
  silent : ∀ reply, (reply, .error .runnerStopped) ∉ state.replies

section Steps

variable {setup : LinkSetup} {state next : LinkState} {queue : QueueId}
  {job : Job}

theorem inputClosed_start (setup : LinkSetup) (state : LinkState)
    (request : Request) (transmitPrefix : Bytes) (requested : QueueId)
    (policy : RetryPolicy) (checkedAt acceptedAt : Nat) :
    (state.start setup request transmitPrefix requested policy checkedAt
        acceptedAt).queues.inputClosed = state.queues.inputClosed := by
  rcases start_queues setup state request transmitPrefix requested policy
    checkedAt acceptedAt with hsame | ⟨queue, job, hpush⟩
  · rw [hsame]
  · exact (QueueSet.entries_tryPush hpush).2.2.1.inputClosed

theorem clientsAlive_start (setup : LinkSetup) (state : LinkState)
    (request : Request) (transmitPrefix : Bytes) (requested : QueueId)
    (policy : RetryPolicy) (checkedAt acceptedAt : Nat) :
    (state.start setup request transmitPrefix requested policy checkedAt
      acceptedAt).clientsAlive = state.clientsAlive := by
  unfold start
  split
  · rfl
  · dsimp only
    split
    · rfl
    · split <;> rfl

theorem leavesEmpty_clientStep {action : ClientAction}
    (hstep : state.clientStep setup action = some next)
    (hallowed : state.DropsInTime (.client action))
    (h : state.LeavesEmpty) : next.LeavesEmpty := by
  have hchange := clientStep_change hstep
  have hown : ∀ queue job reply followers error,
      next.phase = .requeueing queue job reply followers error →
        error ≠ .runnerStopped := by
    rw [hchange.phase]
    exact h.own
  have hsilent : ∀ reply, (reply, .error .runnerStopped) ∉ next.replies := by
    rw [hchange.replies]
    exact h.silent
  cases action with
  | start request transmitPrefix queue policy checkedAt acceptedAt =>
      simp only [clientStep] at hstep
      split_ifs at hstep with halive
      injection hstep with hstep
      subst hstep
      have hstill := (clientsAlive_start setup state request transmitPrefix
        queue policy checkedAt acceptedAt).trans halive
      refine ⟨?_, ?_, ?_, hown, hsilent⟩
      · rw [inputClosed_start, hstill, h.closed, halive]
      · intro _ hgone
        rw [hstill] at hgone
        contradiction
      · intro hleaves
        rw [hchange.phase] at hleaves
        rw [h.gone hleaves] at halive
        contradiction
  | dropReply reply =>
      injection hstep with hstep
      subst hstep
      exact ⟨h.closed, h.empty, h.gone, hown, hsilent⟩
  | setPriority queue priority =>
      simp only [clientStep] at hstep
      split_ifs at hstep with halive
      injection hstep with hstep
      subst hstep
      obtain ⟨hentries, hshape⟩ :=
        state.queues.entries_setPriority queue priority
      refine ⟨hshape.inputClosed.trans h.closed, ?_, h.gone, hown, hsilent⟩
      intro hphase hgone
      exact (h.empty hphase hgone ▸ hentries).eq_nil
  | dropClients =>
      simp only [clientStep] at hstep
      split_ifs at hstep with halive
      injection hstep with hstep
      subst hstep
      refine ⟨rfl, ?_, fun _ => rfl, hown, hsilent⟩
      rintro (hpolled | hleaves) _
      · exact hallowed hpolled
      · rw [h.gone hleaves] at halive
        contradiction

theorem LeavesEmpty.busy (h : state.LeavesEmpty)
    (hbusy : next.phase.busy)
    (hclosed : next.queues.inputClosed = state.queues.inputClosed)
    (halive : next.clientsAlive = state.clientsAlive)
    (hsilent : ∀ reply, (reply, .error .runnerStopped) ∉ next.replies) :
    next.LeavesEmpty := by
  refine ⟨by rw [hclosed, halive, h.closed], ?_, ?_, ?_, hsilent⟩
  · rintro (hpolled | hleaves)
    · rw [hpolled] at hbusy
      contradiction
    · cases hphase : next.phase <;> rw [hphase] at hbusy hleaves <;>
        contradiction
  · intro hleaves
    cases hphase : next.phase <;> rw [hphase] at hbusy hleaves <;>
      contradiction
  · intro queue job reply followers error hphase
    rw [hphase] at hbusy
    simpa [Phase.busy] using hbusy

@[simp] theorem clientsAlive_conclude (state : LinkState) (queue : QueueId)
    (id : UInt64) (reply : Option ReplyId)
    (result : Except ExchangeError DeviceReply) :
    (state.conclude queue id reply result).clientsAlive =
      state.clientsAlive := by
  rw [conclude_eq]

theorem silent_conclude {id : UInt64} {reply : Option ReplyId}
    {result : Except ExchangeError DeviceReply}
    (hresult : result ≠ .error .runnerStopped)
    (h : ∀ reply, (reply, .error .runnerStopped) ∉ state.replies)
    (found : ReplyId) :
    (found, .error .runnerStopped) ∉
      (state.conclude queue id reply result).replies := by
  intro hmem
  unfold conclude at hmem
  split at hmem
  · exact h found hmem
  next other =>
    split_ifs at hmem
    · exact h found hmem
    · cases result with
      | ok value =>
          rcases List.mem_append.mp hmem with hold | hnew
          · exact h found hold
          · simp at hnew
      | error error =>
          rcases List.mem_append.mp hmem with hold | hnew
          · exact h found hold
          · simp only [List.mem_singleton, Prod.mk.injEq, Except.error.injEq]
              at hnew
            exact hresult (by rw [hnew.2])

theorem inputClosed_finishEntry (queues : QueueSet Job) (id : QueueId) :
    (queues.finishEntry id).inputClosed = queues.inputClosed :=
  (QueueSet.sameShape_onSlot ..).inputClosed

theorem leavesEmpty_poll (hcounted : state.queues.Counted) (h : state.LeavesEmpty) :
    state.poll.LeavesEmpty := by
  unfold poll
  split
  next popped cursor hpopped =>
    refine h.busy rfl ?_ rfl h.silent
    exact (QueueSet.gives_popScheduled hpopped).shape.inputClosed
  next cursor hpopped =>
    have hempty : state.queues.entries = [] := by
      refine List.flatMap_eq_nil_iff.mpr ?_
      intro slot hslot
      rw [QueueSlot.placed, QueueSet.empty_of_popScheduled_none hcounted
        hpopped hslot]
      rfl
    refine ⟨h.closed, fun _ _ => hempty, ?_, ?_, h.silent⟩
    · intro hleaves
      contradiction
    · intro queue job reply followers error hrequeueing
      contradiction

theorem leavesEmpty_begin {now : Nat} (h : state.LeavesEmpty) :
    (state.begin queue job now).LeavesEmpty := by
  have hclosed := inputClosed_finishEntry state.queues queue
  unfold begin
  dsimp only
  split
  · refine h.busy rfl (by simpa using hclosed)
      (clientsAlive_conclude ..) ?_
    exact silent_conclude (by simp) h.silent
  · split_ifs
    · refine h.busy rfl (by simpa using hclosed)
        (clientsAlive_conclude ..) ?_
      exact silent_conclude (by simp) h.silent
    · exact h.busy rfl hclosed rfl h.silent

theorem leavesEmpty_gather {reply : ReplyId} {followers : List Job}
    (hphase : state.phase = .gathering queue job reply followers)
    (h : state.LeavesEmpty) :
    (state.gather setup queue job reply followers).LeavesEmpty := by
  unfold gather
  split_ifs
  · exact h.busy rfl rfl rfl h.silent
  split
  · exact h.busy rfl rfl rfl h.silent
  next popped hpopped =>
    have hshape := (QueueSet.gives_popFrom hpopped).1.shape
    split_ifs
    · refine h.busy (by simp [markCancelled, emit, withQueues, hphase,
        Phase.busy]) ?_ rfl h.silent
      exact (inputClosed_finishEntry ..).trans hshape.inputClosed
    · exact h.busy rfl hshape.inputClosed rfl h.silent
    · refine h.busy rfl ?_ rfl h.silent
      exact (QueueSet.sameShape_onSlot ..).inputClosed.trans
        hshape.inputClosed

theorem leavesEmpty_complete {followers : List Job} {value : DeviceReply}
    {now : Nat} (h : state.LeavesEmpty) :
    (state.complete queue followers value now).LeavesEmpty := by
  cases followers with
  | nil => exact h.busy rfl rfl rfl h.silent
  | cons follower followers =>
      have hclosed := inputClosed_finishEntry state.queues queue
      refine h.busy rfl (by simpa [complete] using hclosed)
        (clientsAlive_conclude ..) ?_
      refine silent_conclude ?_ h.silent
      split_ifs <;> simp

theorem leavesEmpty_requeue {reply : ReplyId} {followers : List Job}
    {error : ExchangeError}
    (hphase : state.phase = .requeueing queue job reply followers error)
    (h : state.LeavesEmpty) :
    (state.requeue queue job reply followers error).LeavesEmpty := by
  have herror := h.own queue job reply followers error hphase
  unfold requeue
  split
  · refine h.busy (by simpa [Phase.busy] using herror) ?_ rfl h.silent
    exact (QueueSet.sameShape_onSlot ..).inputClosed
  · refine h.busy ?_ (by simp) (clientsAlive_conclude ..) ?_
    · dsimp only [phase_enter]
      split_ifs <;> rfl
    · exact silent_conclude (by simpa using herror) h.silent

theorem leavesEmpty_fail {remaining : List QueueId}
    (hphase : state.phase = .failing remaining) (h : state.LeavesEmpty) :
    (state.fail remaining).LeavesEmpty := by
  have hgone := h.gone (by rw [hphase]; rfl)
  have hempty := h.empty (.inr (by rw [hphase]; rfl)) hgone
  have hleaves : ∀ phase : Phase, phase.leaves →
      (∀ queue job reply followers error,
        phase ≠ .requeueing queue job reply followers error) →
      (state.enter phase).LeavesEmpty := by
    intro phase _ hother
    refine ⟨h.closed, fun _ _ => hempty, fun _ => hgone, ?_, h.silent⟩
    intro queue job reply followers error hrequeueing
    exact absurd hrequeueing (hother queue job reply followers error)
  unfold fail
  split
  · exact hleaves .stopped rfl (by simp)
  next queue remaining =>
    split
    · exact hleaves (.failing remaining) rfl (by simp)
    next popped hpopped =>
      have hperm := (QueueSet.gives_popFrom hpopped).1.entries
      rw [hempty] at hperm
      exact absurd hperm.symm.eq_nil (List.cons_ne_nil _ _)

theorem leavesEmpty_runnerStep {action : RunnerAction}
    (hstep : state.runnerStep setup action = some next)
    (hcounted : state.phase = .polling → state.queues.Counted)
    (hchannel : state.KeepsChannel (.runner action))
    (h : state.LeavesEmpty) : next.LeavesEmpty := by
  unfold runnerStep at hstep
  split at hstep
  all_goals first | contradiction | injection hstep with hstep; subst hstep
  next hphase => exact leavesEmpty_poll (hcounted hphase) h
  next hphase =>
    split_ifs with hclosed
    · have hgone : state.clientsAlive = false := by
        rw [h.closed] at hclosed
        simpa using hclosed
      refine ⟨h.closed, fun _ _ => h.empty (.inl hphase) hgone,
        fun _ => hgone, ?_, h.silent⟩
      intro queue job reply followers error hrequeueing
      contradiction
    · exact h.busy rfl rfl rfl h.silent
  next hphase => exact h.busy rfl rfl rfl h.silent
  next received hphase =>
    have husable : (state.port.processIdleInput received).2 = true := hchannel
    refine h.busy ?_ rfl rfl h.silent
    unfold receive
    dsimp only
    rw [if_pos husable]
    rfl
  next hphase => exact leavesEmpty_begin h
  next hphase => exact leavesEmpty_gather hphase h
  next hphase =>
    refine h.busy ?_ rfl rfl h.silent
    unfold exchange
    dsimp only
    split
    · rfl
    next error herror =>
      have hother := exchange_ne_runnerStopped setup.horizon
      simp only [Phase.busy, decide_eq_true_eq]
      rintro rfl
      exact hother _ _ _ _ herror
  next hphase =>
    refine h.busy rfl (by simp) (clientsAlive_conclude ..) ?_
    exact silent_conclude (by simp) h.silent
  next hphase => exact leavesEmpty_complete h
  next hphase => exact leavesEmpty_requeue hphase h
  next hphase => exact h.busy rfl rfl rfl h.silent
  next hphase =>
    have husable : state.port.channelUsable = true := hchannel
    rw [if_pos husable]
    exact h.busy rfl rfl rfl h.silent
  next hphase =>
    have hgone := h.gone (by rw [hphase]; rfl)
    have hempty := h.empty (.inr (by rw [hphase]; rfl)) hgone
    refine ⟨?_, ?_, fun _ => hgone, ?_, h.silent⟩
    · refine Eq.trans ?_ h.closed
      rw [queues_enter, queues_withQueues]
      unfold QueueSet.closeRunner
      split_ifs <;> rfl
    · intro _ _
      rw [queues_enter, queues_withQueues, QueueSet.entries_closeRunner]
      exact hempty
    · intro queue job reply followers error hrequeueing
      contradiction
  next hphase => exact leavesEmpty_fail hphase h

end Steps

/-! ## Runs -/

instance decidableKeepsChannel (state : LinkState) :
    (action : LinkAction) → Decidable (state.KeepsChannel action)
  | .runner (.receive received) =>
      inferInstanceAs (Decidable
        ((state.port.processIdleInput received).2 = true))
  | .runner .check =>
      inferInstanceAs (Decidable (state.port.channelUsable = true))
  | .client _ | .runner .poll | .runner .readInputClosed | .runner .wake
  | .runner (.begin _) | .runner .gather | .runner (.exchange _ _)
  | .runner .settle | .runner (.complete _) | .runner .requeue
  | .runner (.drain _ _) | .runner .closeRunner | .runner .fail =>
      isTrue trivial

instance decidableDropsInTime (state : LinkState) :
    (action : LinkAction) → Decidable (state.DropsInTime action)
  | .client .dropClients =>
      inferInstanceAs (Decidable (state.phase = .polled → _))
  | .client (.start _ _ _ _ _ _) | .client (.dropReply _)
  | .client (.setPriority _ _) | .runner _ => isTrue trivial

/--
In every run on a usable channel in which the last client goes in time, the
runner leaves its loop for the clients' sake only when every queue is empty, and
no request ends because the runner has stopped.
-/
theorem run_leaves_empty (setup : LinkSetup) (build : LinkBuild)
    (actions : List LinkAction) (state : LinkState)
    (hrun : build.initial.run setup actions = some state)
    (hchannel : Along (step setup) KeepsChannel build.initial actions)
    (hdrops : Along (step setup) DropsInTime build.initial actions) :
    (state.phase = .polled → state.queues.inputClosed = true →
        state.queues.entries = []) ∧
      (state.phase = .stopping → state.queues.entries = []) ∧
      ∀ reply, (reply, .error .runnerStopped) ∉ state.replies := by
  have hleaves : build.Reaches setup state ∧ state.LeavesEmpty := by
    refine @runSteps_invariant_along _ _ (step setup)
      (fun state action =>
        state.KeepsChannel action ∧ state.DropsInTime action)
      (fun state => build.Reaches setup state ∧ state.LeavesEmpty) ?_ _ _ _
      hrun (hchannel.and hdrops) ⟨⟨[], rfl⟩, rfl, ?_, ?_, ?_, ?_⟩
    · intro state next action hstep hallowed ⟨hreached, hstate⟩
      refine ⟨hreached.step hstep, ?_⟩
      cases action with
      | client action => exact leavesEmpty_clientStep hstep hallowed.2 hstate
      | runner action =>
          refine leavesEmpty_runnerStep hstep ?_ hallowed.1 hstate
          intro hphase
          obtain ⟨earlier, hearlier⟩ := hreached
          exact counted_run hearlier (by rw [hphase]; rfl)
    · rintro (hpolled | hleaves) <;> contradiction
    · intro hleaves
      contradiction
    · intro queue job reply followers error hphase
      contradiction
    · intro reply hreply
      contradiction
  obtain ⟨-, hstate⟩ := hleaves
  refine ⟨?_, ?_, hstate.silent⟩
  · intro hphase hclosed
    refine hstate.empty (.inl hphase) ?_
    rw [hstate.closed] at hclosed
    simpa using hclosed
  · intro hphase
    exact hstate.empty (.inr (by rw [hphase]; rfl))
      (hstate.gone (by rw [hphase]; rfl))

def timelyActions : List LinkAction :=
  startIn ⟨0⟩ :: serve (fun _ => receiving identifyResponse.encoding) ++
    [.runner .settle, .runner (.complete 2), .runner .check, .runner .poll,
      .runner .readInputClosed, startIn ⟨0⟩, .client .dropClients,
      .runner .wake] ++
    serve (fun _ => receiving identifyResponse.encoding) ++
    [.runner .settle, .runner (.complete 2), .runner .check, .runner .poll,
      .runner .readInputClosed]

theorem isSome_timelyRun :
    (pairBuild.initial.run plainSetup timelyActions).isSome := by
  decide +kernel

theorem run_leaves_empty_timely :
    let state := (pairBuild.initial.run plainSetup timelyActions).get
      isSome_timelyRun
    (state.phase = .polled → state.queues.inputClosed = true →
        state.queues.entries = []) ∧
      (state.phase = .stopping → state.queues.entries = []) ∧
      ∀ reply, (reply, .error .runnerStopped) ∉ state.replies :=
  run_leaves_empty plainSetup pairBuild timelyActions _
    (Option.some_get isSome_timelyRun).symm (by decide +kernel)
    (by decide +kernel)

def overlookedActions : List LinkAction :=
  [.runner .poll, startIn ⟨0⟩, .client .dropClients, .runner .readInputClosed,
    .runner .closeRunner, .runner .fail]

theorem isSome_overlookedRun :
    (pairBuild.initial.run plainSetup overlookedActions).isSome := by
  decide +kernel

theorem overlooked_request :
    Along (step plainSetup) KeepsChannel pairBuild.initial
        overlookedActions ∧
      ∃ state, pairBuild.initial.run plainSetup overlookedActions =
          some state ∧
        state.accepted = [(⟨0⟩, 0)] ∧
        state.replies = [(0, .error .runnerStopped)] :=
  ⟨by decide +kernel, _, (Option.some_get isSome_overlookedRun).symm,
    by decide +kernel, by decide +kernel⟩

end LinkState

end HartLink.Service
