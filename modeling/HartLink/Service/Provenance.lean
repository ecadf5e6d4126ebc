import HartLink.Service.Coalescing

/-!
# Whose answer a reply is

A reply goes to the client of one request.  Over any run it is the result of an
exchange of that request, by itself or by an equal one that it shared the exchange
with, unless the link reports a deadline that has passed or a runner that has
stopped.
-/

namespace HartLink.Service

open HartLink.Foundation
open HartLink.Wire
open HartLink.Operation

/-! ## What was asked -/

/-- A request that was accepted, with the reply that its client waits for. -/
structure Asked where
  reply : ReplyId
  request : Request
  transmitPrefix : Bytes

/-- The job is what the request was made into. -/
structure Asked.Covers (asked : Asked) (job : Job) : Prop where
  reply : job.reply = some asked.reply
  request : job.request = asked.request
  transmitPrefix : job.transmitPrefix = asked.transmitPrefix

/-- A request that was accepted, with everything that `start` read for it. -/
structure ClientOrder where
  reply : ReplyId
  counters : Counters
  request : Request
  transmitPrefix : Bytes
  requested : QueueId
  policy : RetryPolicy
  checkedAt : Nat
  acceptedAt : Nat

def ClientOrder.Makes (order : ClientOrder) (setup : LinkSetup)
    (queues : List QueueId) (job : Job) : Prop :=
  ∃ queue, setup.client.resolveQueue queues order.request order.requested =
      .ok queue ∧
    (setup.client.makeJob ⟨setup.horizon, order.checkedAt, order.acceptedAt,
      order.reply⟩ order.counters order.request order.transmitPrefix queue
      order.policy).1 = .ok job

def ClientOrder.asks (order : ClientOrder) : Asked :=
  ⟨order.reply, order.request, order.transmitPrefix⟩

theorem ClientOrder.Makes.covers {order : ClientOrder} {setup : LinkSetup}
    {queues : List QueueId} {job : Job} (h : order.Makes setup queues job) :
    order.request.validate = .ok () ∧ order.asks.Covers job := by
  obtain ⟨queue, -, hjob⟩ := h
  obtain ⟨hvalid, -, hrequest, htransmit, -, hreply⟩ :=
    LinkClient.makeJob_ok hjob
  exact ⟨hvalid, hreply, hrequest, htransmit⟩

/-- The link reports that nothing was exchanged to the end. -/
def GivenUp (result : Except ExchangeError DeviceReply) : Prop :=
  result = .error .deadline ∨ result = .error .runnerStopped

namespace LinkState

def asked (setup : LinkSetup) (state : LinkState) : LinkAction → List Asked
  | .client (.start request transmitPrefix queue policy checkedAt
      acceptedAt) =>
      if (state.start setup request transmitPrefix queue policy checkedAt
          acceptedAt).nextReply = state.nextReply then []
      else [⟨state.nextReply, request, transmitPrefix⟩]
  | _ => []

def questions (setup : LinkSetup) (state : LinkState)
    (actions : List LinkAction) : List Asked :=
  observe (step setup) (asked setup) state actions

def ordered (setup : LinkSetup) (state : LinkState) :
    LinkAction → List ClientOrder
  | .client (.start request transmitPrefix queue policy checkedAt
      acceptedAt) =>
      if (state.start setup request transmitPrefix queue policy checkedAt
          acceptedAt).nextReply = state.nextReply then []
      else
        [⟨state.nextReply, state.counters, request, transmitPrefix, queue,
          policy, checkedAt, acceptedAt⟩]
  | _ => []

def orders (setup : LinkSetup) (state : LinkState)
    (actions : List LinkAction) : List ClientOrder :=
  observe (step setup) (ordered setup) state actions

/-! ## What the steps do to places and replies -/

section Steps

variable {setup : LinkSetup} {state next : LinkState} {queue : QueueId}
  {job : Job} {reply : ReplyId} {followers : List Job}

theorem clientStep_cases {action : ClientAction}
    (h : state.clientStep setup action = some next) :
    (next.nextReply = state.nextReply ∧
        state.asked setup (.client action) = [] ∧
        state.ordered setup (.client action) = []) ∨
      ∃ order queue job, state.asked setup (.client action) = [order.asks] ∧
        state.ordered setup (.client action) = [order] ∧
        order.reply = state.nextReply ∧
        next.nextReply = state.nextReply + 1 ∧
        order.Makes setup state.queues.ids job ∧
        next.places.Perm ((queue, job) :: state.places) := by
  cases action with
  | start request transmitPrefix requested policy checkedAt acceptedAt =>
      simp only [LinkState.clientStep] at h
      split_ifs at h
      injection h with h
      rw [LinkState.asked, LinkState.ordered, h]
      unfold LinkState.start at h
      split at h
      · subst h
        exact .inl ⟨rfl, if_pos rfl, if_pos rfl⟩
      next queue hqueue =>
        dsimp only at h
        split at h
        · subst h
          exact .inl ⟨rfl, if_pos rfl, if_pos rfl⟩
        next job hjob =>
          split at h
          · subst h
            exact .inl ⟨rfl, if_pos rfl, if_pos rfl⟩
          next queues hqueues =>
            subst h
            have hmore : state.nextReply + 1 ≠ state.nextReply :=
              Nat.succ_ne_self _
            refine .inr ⟨⟨state.nextReply, state.counters, request,
              transmitPrefix, requested, policy, checkedAt, acceptedAt⟩, queue,
              job, if_neg hmore, if_neg hmore, rfl, rfl, ⟨queue, hqueue, hjob⟩,
              ?_⟩
            have hentries := (QueueSet.entries_tryPush hqueues).1
            rw [places, places, ← List.append_assoc, ← List.append_assoc]
            exact (hentries.append_left _).trans List.perm_middle
  | dropReply reply =>
      injection h with h
      subst h
      exact .inl ⟨rfl, rfl, rfl⟩
  | setPriority queue priority =>
      simp only [LinkState.clientStep] at h
      split_ifs at h
      injection h with h
      subst h
      exact .inl ⟨rfl, rfl, rfl⟩
  | dropClients =>
      simp only [LinkState.clientStep] at h
      split_ifs at h
      injection h with h
      subst h
      exact .inl ⟨rfl, rfl, rfl⟩

@[simp] theorem nextReply_conclude (state : LinkState) (queue : QueueId)
    (id : UInt64) (reply : Option ReplyId)
    (result : Except ExchangeError DeviceReply) :
    (state.conclude queue id reply result).nextReply = state.nextReply := by
  rw [conclude_eq]

theorem nextReply_runnerStep {action : RunnerAction}
    (h : state.runnerStep setup action = some next) :
    next.nextReply = state.nextReply := by
  unfold runnerStep at h
  split at h
  all_goals first | contradiction | injection h with h; subst h
  next hphase =>
    unfold poll
    split <;> rfl
  · rfl
  · rfl
  · rfl
  next hphase =>
    unfold begin
    dsimp only
    split
    · exact nextReply_conclude ..
    · split_ifs
      · exact nextReply_conclude ..
      · rfl
  next hphase =>
    unfold gather
    split_ifs
    · rfl
    split
    · rfl
    · split_ifs <;> rfl
  · rfl
  · exact nextReply_conclude ..
  next hphase =>
    unfold complete
    split
    · rfl
    · exact nextReply_conclude ..
  next hphase =>
    unfold requeue
    split
    · rfl
    · exact nextReply_conclude ..
  · rfl
  · rfl
  · rfl
  next hphase =>
    unfold fail
    split
    · rfl
    · split
      · rfl
      · exact nextReply_conclude ..

/-- A step that accepts nothing adds no place. -/
theorem places_of_moves (h : state.Moves next)
    (hsame : next.nextReply = state.nextReply) {place : Place}
    (hplace : place ∈ next.places) : place ∈ state.places := by
  cases h with
  | keep places books => exact places.mem_iff.mpr hplace
  | accept queue job reply known places books =>
      have hnext : next.nextReply = state.nextReply + 1 :=
        congrArg Books.nextReply books
      exact absurd (hnext.symm.trans hsame) (Nat.succ_ne_self _)
  | conclude queue job reply outcome sent reply_eq places books =>
      exact places.mem_iff.mpr (List.mem_cons_of_mem _ hplace)

theorem mem_replies_conclude {id : UInt64} {reply : Option ReplyId}
    {result sent : Except ExchangeError DeviceReply} {found : ReplyId}
    (h : (found, sent) ∈ (state.conclude queue id reply result).replies) :
    (found, sent) ∈ state.replies ∨ reply = some found ∧ sent = result := by
  unfold conclude at h
  split at h
  · exact .inl h
  next other =>
    split_ifs at h
    · exact .inl h
    · cases result with
      | ok value =>
          rcases List.mem_append.mp h with hold | hnew
          · exact .inl hold
          · rw [List.mem_singleton, Prod.mk.injEq] at hnew
            exact .inr ⟨by rw [hnew.1], hnew.2⟩
      | error error =>
          rcases List.mem_append.mp h with hold | hnew
          · exact .inl hold
          · rw [List.mem_singleton, Prod.mk.injEq] at hnew
            exact .inr ⟨by rw [hnew.1], hnew.2⟩

end Steps

end LinkState

/-! ## Results for requests -/

section Results

variable (Brings : Request → Except ExchangeError DeviceReply → Prop)

/--
What the runner hands out or is about to is brought by the request of whoever it
is for.
-/
def Phase.Holds : Phase → Prop
  | .gathering _ job _ followers | .exchanging _ job _ followers =>
      ∀ follower ∈ followers, follower.request = job.request
  | .succeeded _ job _ followers value =>
      Brings job.request (.ok value) ∧
        ∀ follower ∈ followers, follower.request = job.request
  | .completing _ followers value =>
      ∀ follower ∈ followers, Brings follower.request (.ok value)
  | .requeueing _ job _ _ error => Brings job.request (.error error)
  | _ => True

/-- Places and replies are those of accepted requests. -/
structure LinkState.Truthful (asked : List Asked) (state : LinkState) :
    Prop where
  valid : ∀ ask ∈ asked, ask.request.validate = .ok ()
  numbered : asked.map Asked.reply = List.range state.nextReply
  known : ∀ place ∈ state.places, ∃ ask ∈ asked, ask.Covers place.2
  holds : state.phase.Holds Brings
  replies : ∀ reply result, (reply, result) ∈ state.replies →
    ∃ ask ∈ asked, ask.reply = reply ∧
      (GivenUp result ∨ Brings ask.request result)

end Results

namespace LinkState

section Truthful

variable {Brings : Request → Except ExchangeError DeviceReply → Prop}
  {setup : LinkSetup} {state next : LinkState} {queue : QueueId} {job : Job}
  {reply : ReplyId} {followers : List Job}

theorem mem_places_of_leader {place : Place}
    (h : state.phase.leader = some place) : place ∈ state.places := by
  rw [places, h]
  exact List.mem_cons_self

theorem mem_places_of_followers {place : Place}
    (h : place ∈ state.phase.followers) : place ∈ state.places :=
  List.mem_append_right _ (List.mem_append_left _ h)

theorem mem_places_of_entries {place : Place}
    (h : place ∈ state.queues.entries) : place ∈ state.places :=
  List.mem_append_right _ (List.mem_append_right _ h)

/-- A new reply goes to a place, with a result for its request. -/
def Reports (Brings : Request → Except ExchangeError DeviceReply → Prop)
    (state next : LinkState) : Prop :=
  ∀ found sent, (found, sent) ∈ next.replies →
    (found, sent) ∈ state.replies ∨
      ∃ place ∈ state.places, place.2.reply = some found ∧
        (GivenUp sent ∨ Brings place.2.request sent)

theorem reports_of_replies (h : next.replies = state.replies) :
    state.Reports Brings next := by
  intro found sent hfound
  exact .inl (h ▸ hfound)

theorem reports_of_conclude (middle : LinkState) (queue : QueueId)
    (id : UInt64) {result : Except ExchangeError DeviceReply} {place : Place}
    (hplace : place ∈ state.places)
    (hresult : GivenUp result ∨ Brings place.2.request result)
    (hmiddle : middle.replies = state.replies)
    (hnext : next.replies =
      (middle.conclude queue id place.2.reply result).replies) :
    state.Reports Brings next := by
  intro found sent hfound
  rw [hnext] at hfound
  rcases mem_replies_conclude hfound with hold | ⟨hreply, rfl⟩
  · exact .inl (hmiddle ▸ hold)
  · exact .inr ⟨place, hplace, hreply, hresult⟩

theorem reports_begin {now : Nat} (hphase : state.phase = .begun queue job) :
    state.Reports Brings (state.begin queue job now) := by
  have hplace : (queue, job) ∈ state.places :=
    mem_places_of_leader (by rw [hphase]; rfl)
  unfold begin
  dsimp only
  split
  next hreply =>
    refine reports_of_conclude
      (state.withQueues (state.queues.finishEntry queue)) queue job.id hplace
      (.inl (.inl rfl)) rfl ?_
    rw [hreply]
    rfl
  next reply hreply =>
    split_ifs
    · refine reports_of_conclude
        (state.withQueues (state.queues.finishEntry queue)) queue job.id hplace
        (.inl (.inl rfl)) rfl ?_
      rw [hreply]
      rfl
    · exact reports_of_replies rfl

theorem reports_complete {value : DeviceReply} {now : Nat}
    (hphase : state.phase = .completing queue followers value)
    (hholds : state.phase.Holds Brings) :
    state.Reports Brings (state.complete queue followers value now) := by
  rw [hphase] at hholds
  cases followers with
  | nil => exact reports_of_replies rfl
  | cons follower followers =>
      have hplace : (queue, follower) ∈ state.places :=
        mem_places_of_followers (by
          rw [hphase]
          exact List.mem_cons_self)
      refine reports_of_conclude
        (state.withQueues (state.queues.finishEntry queue)) queue follower.id
        hplace ?_ rfl rfl
      split_ifs
      · exact .inl (.inl rfl)
      · exact .inr (hholds follower List.mem_cons_self)

theorem reports_requeue {error : ExchangeError}
    (hphase : state.phase = .requeueing queue job reply followers error)
    (hholds : state.phase.Holds Brings) :
    state.Reports Brings (state.requeue queue job reply followers error) := by
  rw [hphase] at hholds
  have hplace : (queue, { job with reply := some reply }) ∈ state.places :=
    mem_places_of_leader (by rw [hphase]; rfl)
  unfold requeue
  split
  · exact reports_of_replies rfl
  · exact reports_of_conclude state queue job.id hplace (.inr hholds) rfl rfl

theorem reports_fail {remaining : List QueueId} :
    state.Reports Brings (state.fail remaining) := by
  unfold fail
  split
  · exact reports_of_replies rfl
  next queue remaining =>
    split
    · exact reports_of_replies rfl
    next popped hpopped =>
      obtain ⟨hgives, hqueue⟩ := QueueSet.gives_popFrom hpopped
      have hplace : (popped.queue, popped.entry) ∈ state.places :=
        mem_places_of_entries (hgives.entries.mem_iff.mpr
          List.mem_cons_self)
      exact reports_of_conclude
        (state.withQueues (popped.queues.finishEntry queue)) queue
        popped.entry.id hplace (.inl (.inr rfl)) rfl rfl

theorem reports_runnerStep {action : RunnerAction}
    (h : state.runnerStep setup action = some next)
    (hholds : state.phase.Holds Brings) : state.Reports Brings next := by
  unfold runnerStep at h
  split at h
  all_goals first | contradiction | injection h with h; subst h
  next hphase =>
    unfold poll
    split <;> exact reports_of_replies rfl
  · exact reports_of_replies rfl
  · exact reports_of_replies rfl
  · exact reports_of_replies rfl
  next hphase => exact reports_begin hphase
  next hphase =>
    unfold gather
    split_ifs
    · exact reports_of_replies rfl
    split
    · exact reports_of_replies rfl
    · split_ifs <;> exact reports_of_replies rfl
  · exact reports_of_replies rfl
  next queue job reply followers value hphase =>
    have hplace : (queue, { job with reply := some reply }) ∈ state.places :=
      mem_places_of_leader (by rw [hphase]; rfl)
    rw [hphase] at hholds
    exact reports_of_conclude state queue job.id hplace (.inr hholds.1) rfl rfl
  next hphase => exact reports_complete hphase hholds
  next hphase => exact reports_requeue hphase hholds
  · exact reports_of_replies rfl
  · exact reports_of_replies rfl
  · exact reports_of_replies rfl
  next hphase => exact reports_fail

theorem holds_gather
    (hphase : state.phase = .gathering queue job reply followers)
    (h : state.phase.Holds Brings) :
    (state.gather setup queue job reply followers).phase.Holds Brings := by
  rw [hphase] at h
  unfold gather
  split_ifs
  · exact h
  split
  · exact h
  next popped hpopped =>
    split_ifs with hcoalesce
    · simpa [markCancelled, emit, withQueues, hphase] using h
    · simp only [requestsCanCoalesce, decide_eq_true_eq] at hcoalesce
      intro follower hfollower
      rcases List.mem_append.mp hfollower with hold | hnew
      · exact h follower hold
      · rw [List.mem_singleton.mp hnew]
        exact hcoalesce.1
    · exact h

theorem holds_runnerStep {action : RunnerAction}
    (hstep : state.runnerStep setup action = some next)
    (hbrings : ∀ shared ∈ state.exchanged setup (.runner action),
      Brings shared.leader.request shared.result)
    (h : state.phase.Holds Brings) : next.phase.Holds Brings := by
  unfold runnerStep at hstep
  split at hstep
  all_goals first | contradiction | injection hstep with hstep; subst hstep
  next hphase =>
    unfold poll
    split <;> trivial
  next hphase =>
    dsimp only [phase_enter]
    split_ifs <;> trivial
  next hphase => trivial
  next hphase =>
    unfold receive
    dsimp only
    split_ifs <;> trivial
  next hphase =>
    unfold begin
    dsimp only
    split
    · trivial
    · split_ifs
      · trivial
      · intro follower hfollower
        contradiction
  next hphase => exact holds_gather hphase h
  next hphase =>
    rw [hphase] at h
    simp only [exchanged, hphase, List.mem_singleton, forall_eq] at hbrings
    unfold exchange
    dsimp only
    split
    next value hvalue =>
      rw [hvalue] at hbrings
      exact ⟨hbrings, h⟩
    next error herror =>
      rw [herror] at hbrings
      exact hbrings
  next hphase =>
    rw [hphase] at h
    intro follower hfollower
    rw [h.2 follower hfollower]
    exact h.1
  next hphase =>
    rw [hphase] at h
    unfold complete
    split
    · trivial
    · intro follower hfollower
      exact h follower (List.mem_cons_of_mem _ hfollower)
  next hphase =>
    rw [hphase] at h
    unfold requeue
    split
    · exact h
    · dsimp only [phase_enter]
      split_ifs <;> trivial
  next hphase => trivial
  next hphase =>
    dsimp only [phase_enter]
    split_ifs <;> trivial
  next hphase => trivial
  next hphase =>
    unfold fail
    split
    · trivial
    · split
      · trivial
      · simp [hphase, Phase.Holds]

/-! ## Every step -/

theorem Truthful.runnerStep {asked : List Asked} {action : RunnerAction}
    (h : state.Truthful Brings asked)
    (hstep : state.runnerStep setup action = some next) (howed : state.Owed)
    (hbrings : ∀ shared ∈ state.exchanged setup (.runner action),
      Brings shared.leader.request shared.result) :
    next.Truthful Brings asked := by
  have hsame := nextReply_runnerStep hstep
  refine ⟨h.valid, by rw [hsame]; exact h.numbered, ?_,
    holds_runnerStep hstep hbrings h.holds, ?_⟩
  · intro place hplace
    exact h.known place
      (places_of_moves (moves_runnerStep hstep howed).1 hsame hplace)
  · intro found sent hfound
    rcases reports_runnerStep hstep h.holds found sent hfound with
      hold | ⟨place, hplace, hreply, hsent⟩
    · exact h.replies found sent hold
    · obtain ⟨ask, hask, hcovers⟩ := h.known place hplace
      rw [hcovers.reply] at hreply
      injection hreply with hreply
      rw [hcovers.request] at hsent
      exact ⟨ask, hask, hreply, hsent⟩

theorem Truthful.mono {asked more : List Asked}
    (h : state.Truthful Brings asked) (hphase : next.phase = state.phase)
    (hreplies : next.replies = state.replies)
    (hvalid : ∀ ask ∈ more, ask.request.validate = .ok ())
    (hnumbered : (asked ++ more).map Asked.reply = List.range next.nextReply)
    (hknown : ∀ place ∈ next.places, place ∈ state.places ∨
      ∃ ask ∈ more, ask.Covers place.2) :
    next.Truthful Brings (asked ++ more) := by
  refine ⟨?_, hnumbered, ?_, hphase ▸ h.holds, ?_⟩
  · intro ask hask
    rcases List.mem_append.mp hask with hold | hnew
    · exact h.valid ask hold
    · exact hvalid ask hnew
  · intro place hplace
    rcases hknown place hplace with hold | ⟨ask, hask, hcovers⟩
    · obtain ⟨ask, hask, hcovers⟩ := h.known place hold
      exact ⟨ask, List.mem_append_left _ hask, hcovers⟩
    · exact ⟨ask, List.mem_append_right _ hask, hcovers⟩
  · intro found sent hfound
    rw [hreplies] at hfound
    obtain ⟨ask, hask, hreply, hsent⟩ := h.replies found sent hfound
    exact ⟨ask, List.mem_append_left _ hask, hreply, hsent⟩

theorem Truthful.clientStep {asked : List Asked} {action : ClientAction}
    (h : state.Truthful Brings asked)
    (hstep : state.clientStep setup action = some next) :
    next.Truthful Brings (asked ++ state.asked setup (.client action)) := by
  have hchange := clientStep_change hstep
  have hmoves := (moves_of_change hchange).1
  rcases clientStep_cases hstep with
    ⟨hsame, hnone, -⟩ |
      ⟨order, queue, job, hasked, -, hreply, hnext, hmakes, hplaces⟩
  · rw [hnone]
    refine h.mono hchange.phase hchange.replies (by simp) ?_ ?_
    · rw [List.append_nil, hsame]
      exact h.numbered
    · intro place hplace
      exact .inl (places_of_moves hmoves hsame hplace)
  · obtain ⟨hvalid, hcovers⟩ := hmakes.covers
    rw [hasked]
    refine h.mono hchange.phase hchange.replies ?_ ?_ ?_
    · intro ask hask
      rw [List.mem_singleton] at hask
      exact hask ▸ hvalid
    · rw [List.map_append, h.numbered, hnext, List.range_succ, ← hreply]
      rfl
    · intro place hplace
      rcases List.mem_cons.mp (hplaces.mem_iff.mp hplace) with rfl | hold
      · exact .inr ⟨_, List.mem_singleton_self _, hcovers⟩
      · exact .inl hold

theorem Truthful.step {asked : List Asked} {action : LinkAction}
    (h : state.Truthful Brings asked)
    (hstep : state.step setup action = some next) (howed : state.Owed)
    (hbrings : ∀ shared ∈ state.exchanged setup action,
      Brings shared.leader.request shared.result) :
    next.Truthful Brings (asked ++ state.asked setup action) := by
  cases action with
  | client action => exact h.clientStep hstep
  | runner action =>
      have hnone : state.asked setup (.runner action) = [] := rfl
      rw [hnone, List.append_nil]
      exact h.runnerStep hstep howed hbrings

/-- Nothing has been asked at the start. -/
theorem truthful_initial (build : LinkBuild) :
    build.initial.Truthful Brings [] := by
  refine ⟨by simp, rfl, ?_, trivial, ?_⟩
  · intro place hplace
    have hentries : build.initial.queues.entries = [] :=
      QueueSet.entries_new _ (nodup_of_validateLayout build.valid)
    have hplaces : build.initial.places = build.initial.queues.entries := rfl
    rw [hplaces, hentries] at hplace
    contradiction
  · intro found sent hfound
    contradiction

end Truthful

/-! ## Runs -/

/-- What every exchange of a run brings, the replies of the run bring. -/
theorem truthful_run {Brings : Request → Except ExchangeError DeviceReply → Prop}
    {setup : LinkSetup} {build : LinkBuild} {actions : List LinkAction}
    {final : LinkState} (hrun : build.initial.run setup actions = some final)
    (hbrings : ∀ shared ∈ build.initial.exchanges setup actions,
      Brings shared.leader.request shared.result) :
    final.Truthful Brings (build.initial.questions setup actions) := by
  have halong := along_of_observe hbrings
  have hfinal := @runSteps_observe_along _ _ (step setup) _ (asked setup)
    (fun state action => ∀ shared ∈ state.exchanged setup action,
      Brings shared.leader.request shared.result)
    (fun asked state => state.Accounted ∧ state.Truthful Brings asked)
    (fun hstep hbrings h =>
      ⟨accounted_step hstep h.1, h.2.step hstep h.1.owed hbrings⟩)
    [] build.initial final actions hrun halong
    ⟨accounted_initial _ _ _ _ _, truthful_initial build⟩
  exact hfinal.2

/--
In every run, however clients and runner interleave and whatever requests share an
exchange: each reply goes to the client of one accepted request, and it is the
result of an exchange of that very request, or the report of a deadline or of a
stopped runner.
-/
theorem run_answers_own_request (setup : LinkSetup) (build : LinkBuild)
    (actions : List LinkAction) (final : LinkState)
    (hrun : build.initial.run setup actions = some final) :
    ((build.initial.questions setup actions).map Asked.reply).Nodup ∧
      ∀ reply result, (reply, result) ∈ final.replies →
        ∃ ask ∈ build.initial.questions setup actions, ask.reply = reply ∧
          (GivenUp result ∨
            ∃ shared ∈ build.initial.exchanges setup actions,
              shared.leader.request = ask.request ∧
                shared.result = result) := by
  have htruthful := @truthful_run (fun request result =>
    ∃ shared ∈ build.initial.exchanges setup actions,
      shared.leader.request = request ∧ shared.result = result)
    setup build actions final hrun
    fun shared hshared => ⟨shared, hshared, rfl, rfl⟩
  refine ⟨?_, htruthful.replies⟩
  rw [htruthful.numbered]
  exact List.nodup_range

theorem run_answers_own_request_shared :
    let final := (pairBuild.initial.run plainSetup sharedActions).get
      isSome_sharedRun
    ((pairBuild.initial.questions plainSetup sharedActions).map
        Asked.reply).Nodup ∧
      ∀ reply result, (reply, result) ∈ final.replies →
        ∃ ask ∈ pairBuild.initial.questions plainSetup sharedActions,
          ask.reply = reply ∧ (GivenUp result ∨
            ∃ shared ∈ pairBuild.initial.exchanges plainSetup sharedActions,
              shared.leader.request = ask.request ∧
                shared.result = result) :=
  run_answers_own_request plainSetup pairBuild sharedActions _
    (Option.some_get isSome_sharedRun).symm

end LinkState

end HartLink.Service
