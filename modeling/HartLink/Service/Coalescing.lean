import HartLink.Foundation.Line
import HartLink.Service.Occupancy

/-!
# Order and sharing of exchanges

The requests of a queue that have not been exchanged stand in a line: first those
that the runner holds, then the entries.  A follower that is taken, cancelled,
answered or returned keeps the order of the line, so exchanges start in the order
of acceptance, and between a leader and its followers nothing else was waiting.
-/

namespace HartLink.Service

open HartLink.Foundation
open HartLink.Wire
open HartLink.Operation

/-- The requests in the runner's hands that have not been exchanged. -/
def Phase.unserved : Phase → List Place
  | .begun queue job => [(queue, job)]
  | .gathering queue job reply followers
  | .exchanging queue job reply followers =>
      (queue, { job with reply := some reply }) :: followers.map (queue, ·)
  | phase => phase.followers

def acceptedBy (accepted : List Ticket) (queue : QueueId) : List Ticket :=
  accepted.filter fun ticket => ticket.1 = queue

def cancelledTickets (outcomes : List (Ticket × Outcome)) : List Ticket :=
  (outcomes.filter fun ended => ended.2 = .cancelled).map Prod.fst

def ticketsOf (queue : QueueId) (jobs : List Job) : List Ticket :=
  jobs.filterMap fun job => job.reply.map (queue, ·)

namespace LinkState

/-- The requests of a queue that wait for an exchange of their own. -/
def line (state : LinkState) (queue : QueueId) : List Ticket :=
  (state.phase.unserved.filter fun place => place.1 = queue).filterMap
      Place.ticket ++
    ticketsOf queue (state.queues.entriesOf queue)

/-- Every queue has served its requests in order. -/
def InLine (served : List Ticket) (state : LinkState) : Prop :=
  ∀ queue, Lined (acceptedBy state.accepted queue) (acceptedBy served queue)
    (state.line queue) (cancelledTickets state.outcomes)

section Line

variable {state next : LinkState} {served : List Ticket} {queue : QueueId}

theorem fst_of_mem_line {ticket : Ticket} (h : ticket ∈ state.line queue) :
    ticket.1 = queue := by
  rcases List.mem_append.mp h with hheld | hentry
  · obtain ⟨place, hplace, hticket⟩ := List.mem_filterMap.mp hheld
    obtain ⟨reply, -, rfl⟩ := Option.map_eq_some_iff.mp hticket
    simpa using (List.mem_filter.mp hplace).2
  · obtain ⟨job, -, hticket⟩ := List.mem_filterMap.mp hentry
    obtain ⟨reply, -, rfl⟩ := Option.map_eq_some_iff.mp hticket
    rfl

theorem mem_entries_of_entriesOf {queues : QueueSet Job} {job : Job}
    (h : job ∈ queues.entriesOf queue) : (queue, job) ∈ queues.entries := by
  by_cases hid : queue ∈ queues.ids
  · obtain ⟨slot, hslot, rfl⟩ := List.mem_map.mp hid
    rw [QueueSet.entriesOf_of_mem hslot] at h
    exact List.mem_flatMap.mpr ⟨slot, hslot, List.mem_map.mpr ⟨job, h, rfl⟩⟩
  · rw [QueueSet.entriesOf, QueueSet.slotOf_of_not_mem hid] at h
    simp at h

theorem mem_places_of_mem_line {ticket : Ticket}
    (h : ticket ∈ state.line queue) :
    ticket ∈ (state.phase.unserved ++ state.queues.entries).filterMap
      Place.ticket := by
  rw [List.filterMap_append, List.mem_append]
  rcases List.mem_append.mp h with hheld | hentry
  · obtain ⟨place, hplace, hticket⟩ := List.mem_filterMap.mp hheld
    exact .inl (List.mem_filterMap.mpr
      ⟨place, (List.mem_filter.mp hplace).1, hticket⟩)
  · obtain ⟨job, hjob, hticket⟩ := List.mem_filterMap.mp hentry
    exact .inr (List.mem_filterMap.mpr
      ⟨(queue, job), mem_entries_of_entriesOf hjob, hticket⟩)

/-! ### How a line changes -/

theorem InLine.of_same (h : InLine served state)
    (hline : ∀ queue, next.line queue = state.line queue)
    (haccepted : next.accepted = state.accepted)
    (houtcomes : next.outcomes = state.outcomes) : InLine served next := by
  intro queue
  rw [hline, haccepted, houtcomes]
  exact h queue

theorem nodup_acceptedBy {accepted : List Ticket} (h : accepted.Nodup)
    (queue : QueueId) : (acceptedBy accepted queue).Nodup :=
  List.filter_sublist.nodup h

/-- What a recorded ending adds to the cancelled requests. -/
inductive Strikes (outcomes next : List (Ticket × Outcome))
    (queue : QueueId) (reply : Option ReplyId) : Prop
  | nothing (eq : cancelledTickets next = cancelledTickets outcomes)
  | ticket (found : ReplyId) (reply : reply = some found)
      (eq : cancelledTickets next =
        cancelledTickets outcomes ++ [(queue, found)])

theorem strikes_conclude (state : LinkState) (queue : QueueId) (id : UInt64)
    (reply : Option ReplyId) (result : Except ExchangeError DeviceReply) :
    Strikes state.outcomes (state.conclude queue id reply result).outcomes
      queue reply := by
  unfold conclude
  split
  · exact .nothing (by simp [markCancelled, emit])
  next found =>
    split_ifs
    · refine .ticket found rfl ?_
      simp [markCancelled, emit, cancelledTickets]
    · cases result with
      | ok value =>
          refine .nothing ?_
          simp [markCompleted, send, emit, cancelledTickets]
      | error error =>
          refine .nothing ?_
          simp [markFailed, send, emit, cancelledTickets]

/-- A request leaves the line where it stands, cancelled or at its front. -/
theorem InLine.leave (h : InLine served state) (hnodup : state.accepted.Nodup)
    (job : Job)
    (hline : state.line queue = ticketsOf queue [job] ++ next.line queue)
    (hothers : ∀ other ≠ queue, next.line other = state.line other)
    (haccepted : next.accepted = state.accepted)
    (hstrikes : Strikes state.outcomes next.outcomes queue job.reply) :
    InLine served next := by
  intro other
  rw [haccepted]
  by_cases hother : other = queue
  · subst hother
    have hleft : Lined (acceptedBy state.accepted other)
        (acceptedBy served other) (next.line other)
        (cancelledTickets state.outcomes) := by
      have hbefore := h other
      rw [hline] at hbefore
      cases hreply : job.reply with
      | none => simpa [ticketsOf, hreply] using hbefore
      | some reply =>
          simp only [ticketsOf, List.filterMap_cons, hreply, Option.map_some,
            List.filterMap_nil, List.singleton_append] at hbefore
          exact hbefore.leave
    cases hstrikes with
    | nothing eq => exact eq ▸ hleft
    | ticket reply hreply eq =>
        rw [eq]
        refine hleft.strike_of_not_mem ?_
        have hbefore := (h other).nodup (nodup_acceptedBy hnodup other)
        rw [hline] at hbefore
        simp only [ticketsOf, List.filterMap_cons, hreply, Option.map_some,
          List.filterMap_nil, List.singleton_append, List.nodup_cons]
          at hbefore
        exact hbefore.1
  · have hsame := h other
    rw [← hothers other hother] at hsame
    cases hstrikes with
    | nothing eq => exact eq ▸ hsame
    | ticket reply hreply eq =>
        rw [eq]
        refine hsame.strike_of_not_mem ?_
        intro hmem
        exact hother (fst_of_mem_line hmem).symm

/-- A request that is in no line may end. -/
theorem InLine.conclude_out (h : InLine served state)
    (hline : ∀ queue, next.line queue = state.line queue)
    (haccepted : next.accepted = state.accepted) {reply : ReplyId}
    (hout : (queue, reply) ∉ state.line queue)
    (hstrikes : Strikes state.outcomes next.outcomes queue (some reply)) :
    InLine served next := by
  intro other
  rw [haccepted, hline]
  cases hstrikes with
  | nothing eq => exact eq ▸ h other
  | ticket found hfound eq =>
      injection hfound with hfound
      subst hfound
      rw [eq]
      refine (h other).strike_of_not_mem ?_
      intro hmem
      have hqueue : queue = other := fst_of_mem_line hmem
      subst hqueue
      exact hout hmem

theorem InLine.cancel (h : InLine served state) (hnodup : state.accepted.Nodup)
    {before after : List Ticket} (reply : ReplyId)
    (hline : state.line queue = before ++ (queue, reply) :: after)
    (hnext : next.line queue = before ++ after)
    (hothers : ∀ other ≠ queue, next.line other = state.line other)
    (haccepted : next.accepted = state.accepted)
    (houtcomes : next.outcomes =
      state.outcomes ++ [((queue, reply), .cancelled)]) :
    InLine served next := by
  intro other
  have hstruck : cancelledTickets next.outcomes =
      cancelledTickets state.outcomes ++ [(queue, reply)] := by
    simp [cancelledTickets, houtcomes]
  rw [haccepted, hstruck]
  have hbefore := h other
  by_cases hother : other = queue
  · subst hother
    rw [hnext]
    rw [hline] at hbefore
    exact hbefore.strike_of_mem (nodup_acceptedBy hnodup other)
  · rw [hothers other hother]
    refine hbefore.strike_of_not_mem ?_
    intro hmem
    exact hother (fst_of_mem_line hmem).symm

end Line

/-! ## The steps of the clients -/

section Steps

variable {setup : LinkSetup} {state next : LinkState} {served : List Ticket}
  {queue : QueueId} {job : Job} {reply : ReplyId} {followers : List Job}

theorem ticketsOf_append (queue : QueueId) (first second : List Job) :
    ticketsOf queue (first ++ second) =
      ticketsOf queue first ++ ticketsOf queue second :=
  List.filterMap_append

theorem ticketsOf_cons (queue : QueueId) (job : Job) (jobs : List Job) :
    ticketsOf queue (job :: jobs) =
      ticketsOf queue [job] ++ ticketsOf queue jobs :=
  ticketsOf_append queue [job] jobs

theorem line_eq {jobs : List Job}
    (h : state.phase.unserved = jobs.map (queue, ·)) (other : QueueId) :
    state.line other =
      (if other = queue then ticketsOf queue jobs else []) ++
        ticketsOf other (state.queues.entriesOf other) := by
  rw [line, h]
  congr 1
  split_ifs with hother
  · subst hother
    rw [List.filter_eq_self.mpr (by simp), List.filterMap_map]
    rfl
  · rw [List.filter_eq_nil_iff.mpr, List.filterMap_nil]
    intro place hplace
    obtain ⟨found, -, rfl⟩ := List.mem_map.mp hplace
    simpa using Ne.symm hother

theorem line_of_idle (h : state.phase.unserved = []) (other : QueueId) :
    state.line other = ticketsOf other (state.queues.entriesOf other) := by
  rw [line, h]
  rfl

theorem line_of_same (hphase : next.phase.unserved = state.phase.unserved)
    (hentries : ∀ queue, next.queues.entriesOf queue =
      state.queues.entriesOf queue) (queue : QueueId) :
    next.line queue = state.line queue := by
  rw [line, line, hphase, hentries]

theorem entriesOf_finishEntry (queues : QueueSet Job) (id other : QueueId) :
    (queues.finishEntry id).entriesOf other = queues.entriesOf other :=
  QueueSet.entriesOf_onSlot queues id QueueSlot.id_finishEntry
    (fun _ => rfl) other

/-- Every ended request was accepted. -/
theorem mem_accepted_of_cancelled (h : state.Accounted) {ticket : Ticket}
    (hticket : ticket ∈ cancelledTickets state.outcomes) :
    ticket ∈ state.accepted := by
  obtain ⟨ended, hended, rfl⟩ := List.mem_map.mp hticket
  refine h.balanced.perm.mem_iff.mpr (List.mem_append_right _ ?_)
  exact List.mem_map.mpr ⟨ended, (List.mem_filter.mp hended).1, rfl⟩

theorem inLine_push (h : InLine served state) (hstate : state.Accounted)
    (hreply : job.reply = some state.nextReply)
    (hpush : state.queues.tryPush queue job = .ok next.queues)
    (hphase : next.phase = state.phase)
    (haccepted : next.accepted = state.accepted ++ [(queue, state.nextReply)])
    (houtcomes : next.outcomes = state.outcomes) : InLine served next := by
  intro other
  have hbefore := h other
  have hentries := QueueSet.entriesOf_tryPush hpush other
  rw [haccepted, houtcomes, acceptedBy, List.filter_append]
  by_cases hother : other = queue
  · subst hother
    have hline : next.line other =
        state.line other ++ [(other, state.nextReply)] := by
      rw [line, line, hphase, hentries, if_pos rfl, ticketsOf_append,
        List.append_assoc]
      simp [ticketsOf, hreply]
    have hfresh : (other, state.nextReply) ∉
        cancelledTickets state.outcomes := by
      intro hmem
      have hlt := hstate.sound.fresh _ (mem_accepted_of_cancelled hstate hmem)
      exact Nat.lt_irrefl _ hlt
    rw [hline, List.filter_cons_of_pos (by simp), List.filter_nil]
    exact hbefore.join hfresh
  · have hline : next.line other = state.line other := by
      rw [line, line, hphase, hentries, if_neg hother]
    rw [hline, List.filter_cons_of_neg (by simpa using Ne.symm hother),
      List.filter_nil, List.append_nil]
    exact hbefore

theorem inLine_start (h : InLine served state) (hstate : state.Accounted)
    (request : Request) (transmitPrefix : Bytes) (requested : QueueId)
    (policy : RetryPolicy) (checkedAt acceptedAt : Nat) :
    InLine served (state.start setup request transmitPrefix requested policy
      checkedAt acceptedAt) := by
  unfold start
  split
  · exact h
  next queue hqueue =>
    dsimp only
    split
    · exact h
    next job hjob =>
      obtain ⟨-, -, -, -, -, hreply⟩ := LinkClient.makeJob_ok hjob
      split
      · exact h
      next queues hqueues =>
        exact inLine_push h hstate hreply hqueues rfl rfl rfl

theorem inLine_clientStep {action : ClientAction}
    (hstep : state.clientStep setup action = some next)
    (hstate : state.Accounted) (h : InLine served state) :
    InLine served next := by
  cases action with
  | start request transmitPrefix queue policy checkedAt acceptedAt =>
      simp only [clientStep] at hstep
      split_ifs at hstep
      injection hstep with hstep
      subst hstep
      exact inLine_start h hstate _ _ _ _ _ _
  | dropReply reply =>
      injection hstep with hstep
      subst hstep
      exact h
  | setPriority queue priority =>
      simp only [clientStep] at hstep
      split_ifs at hstep
      injection hstep with hstep
      subst hstep
      refine h.of_same (line_of_same rfl ?_) rfl rfl
      exact QueueSet.entriesOf_onSlot _ _ _ fun _ => rfl
  | dropClients =>
      simp only [clientStep] at hstep
      split_ifs at hstep
      injection hstep with hstep
      subst hstep
      exact h

/-! ## The steps of the runner -/

@[simp] theorem accepted_conclude (state : LinkState) (queue : QueueId)
    (id : UInt64) (reply : Option ReplyId)
    (result : Except ExchangeError DeviceReply) :
    (state.conclude queue id reply result).accepted = state.accepted := by
  rw [conclude_eq]

theorem line_conclude (state : LinkState) (queue : QueueId) (id : UInt64)
    (reply : Option ReplyId) (result : Except ExchangeError DeviceReply)
    (other : QueueId) :
    (state.conclude queue id reply result).line other = state.line other := by
  rw [line, line, phase_conclude, queues_conclude]

theorem nodup_accepted (h : state.Accounted) : state.accepted.Nodup :=
  h.balanced.nodup

/-- The requests in places are told apart. -/
theorem nodup_places (h : state.Accounted) :
    (state.places.filterMap Place.ticket).Nodup := by
  have hperm := h.balanced.perm.nodup_iff.mp h.balanced.nodup
  exact (List.sublist_append_left _ _).nodup hperm

theorem leader_not_mem_line (h : state.Accounted) (job : Job)
    (hplaces : state.places = (queue, { job with reply := some reply }) ::
      (state.phase.unserved ++ state.queues.entries)) :
    (queue, reply) ∉ state.line queue := by
  intro hmem
  have hnodup := nodup_places h
  rw [hplaces, List.filterMap_cons_some (by rfl), List.nodup_cons] at hnodup
  exact hnodup.1 (mem_places_of_mem_line hmem)

theorem inLine_poll (hphase : state.phase = .polling)
    (h : InLine served state) : InLine served state.poll := by
  unfold poll
  split
  next popped cursor hpopped =>
    obtain ⟨index, hpop⟩ := QueueSet.popScheduled_popAt hpopped
    refine h.of_same ?_ rfl rfl
    intro other
    rw [@line_eq _ popped.queue [popped.entry] (by rfl),
      line_of_idle (by rw [hphase]; rfl), QueueSet.entriesOf_popAt hpop other]
    split_ifs with hother
    · subst hother
      exact (ticketsOf_cons _ _ _).symm
    · rfl
  · refine h.of_same (line_of_same ?_ fun _ => rfl) rfl rfl
    rw [hphase]
    rfl

theorem inLine_begin {now : Nat} (hphase : state.phase = .begun queue job)
    (hstate : state.Accounted) (h : InLine served state) :
    InLine served (state.begin queue job now) := by
  have hline := @line_eq state queue [job] (by rw [hphase]; rfl)
  have hended : ∀ result, InLine served
      (((state.withQueues (state.queues.finishEntry queue)).conclude queue
        job.id job.reply result).enter .polling) := by
    intro result
    have hnext : ∀ other,
        (((state.withQueues (state.queues.finishEntry queue)).conclude queue
          job.id job.reply result).enter .polling).line other =
        ticketsOf other (state.queues.entriesOf other) := by
      intro other
      rw [line_of_idle (by rfl), queues_enter, queues_conclude,
        queues_withQueues, entriesOf_finishEntry]
    refine h.leave (nodup_accepted hstate) job ?_ ?_ (accepted_conclude ..)
      (strikes_conclude (state.withQueues (state.queues.finishEntry queue))
        queue job.id job.reply result)
    · rw [hline, hnext, if_pos rfl]
    · intro other hother
      rw [hline, hnext, if_neg hother, List.nil_append]
  unfold begin
  dsimp only
  split
  next hreply =>
    have hdone := hended (.error .deadline)
    rwa [hreply] at hdone
  next reply hreply =>
    split_ifs
    · have hdone := hended (.error .deadline)
      rwa [hreply] at hdone
    · refine h.of_same ?_ rfl rfl
      intro other
      rw [hline, @line_eq _ queue
        [{ ({ job with reply := none } : Job) with reply := some reply }]
        (by rfl), queues_enter, queues_withQueues, entriesOf_finishEntry]
      simp [ticketsOf, hreply]

theorem inLine_gather
    (hphase : state.phase = .gathering queue job reply followers)
    (hstate : state.Accounted) (h : InLine served state) :
    InLine served (state.gather setup queue job reply followers) := by
  have hline := @line_eq state queue
    ({ job with reply := some reply } :: followers) (by rw [hphase]; rfl)
  have hstarted : InLine served (state.started queue job reply followers) := by
    refine h.of_same (line_of_same ?_ fun _ => rfl) rfl rfl
    rw [hphase]
    rfl
  unfold gather
  split_ifs
  · exact hstarted
  split
  · exact hstarted
  next popped hpopped =>
    obtain ⟨index, -, hpop⟩ := Option.bind_eq_some_iff.mp hpopped
    have hqueue := (QueueSet.gives_popFrom hpopped).2
    have hentries := QueueSet.entriesOf_popAt hpop
    rw [hqueue] at hentries
    have hmine := hentries queue
    rw [if_pos rfl] at hmine
    have hothers : ∀ other ≠ queue, popped.queues.entriesOf other =
        state.queues.entriesOf other := by
      intro other hother
      rw [hentries other, if_neg hother]
    split_ifs
    · -- a follower whose waiter is gone is cancelled where it stands
      have howed : popped.entry.reply.isSome := by
        refine (hstate.owed (queue, popped.entry) ?_).1
        rw [places_of_phase hphase]
        refine List.mem_append_right _ (List.mem_append_right _ ?_)
        refine mem_entries_of_entriesOf ?_
        rw [hmine]
        exact List.mem_cons_self
      obtain ⟨found, hfound⟩ := Option.isSome_iff_exists.mp howed
      have hnext : ∀ other,
          ((state.withQueues (popped.queues.finishEntry queue)).markCancelled
            popped.entry.id (popped.entry.reply.map (queue, ·))).line other =
          (if other = queue then
            ticketsOf queue ({ job with reply := some reply } :: followers)
          else []) ++ ticketsOf other (popped.queues.entriesOf other) := by
        intro other
        rw [@line_eq _ queue ({ job with reply := some reply } :: followers)
          (by
            change state.phase.unserved = _
            rw [hphase]
            rfl)]
        congr 2
        exact entriesOf_finishEntry ..
      refine h.cancel (nodup_accepted hstate) found ?_ (hnext queue) ?_ rfl ?_
      · rw [hline, hmine, if_pos rfl, ticketsOf_cons queue popped.entry]
        simp only [ticketsOf, List.filterMap_cons, hfound, Option.map_some,
          List.filterMap_nil, List.singleton_append]
      · intro other hother
        rw [hnext, hline, if_neg hother, hothers other hother]
      · simp [markCancelled, emit, withQueues, hfound]
    · refine h.of_same ?_ rfl rfl
      intro other
      rw [hline, @line_eq _ queue
        ({ job with reply := some reply } :: (followers ++ [popped.entry]))
        (by rfl)]
      by_cases hother : other = queue
      · subst hother
        rw [if_pos rfl, if_pos rfl, hmine, ticketsOf_cons _ popped.entry,
          ← List.cons_append, ticketsOf_append, List.append_assoc]
      · rw [if_neg hother, if_neg hother]
        exact congrArg (ticketsOf other) (hothers other hother)
    · refine h.of_same (line_of_same ?_ ?_) rfl rfl
      · rw [hphase]
        rfl
      · intro other
        have hknown : queue ∈ popped.queues.ids := by
          rw [(QueueSet.gives_popAt hpop).shape.ids]
          exact hstate.owed.known (by rw [hphase]; rfl)
        change (popped.queues.pushFront queue popped.entry).entriesOf other = _
        rw [QueueSet.entriesOf_pushFront hknown, hentries other]

theorem inLine_exchange {now : Nat} {surroundings : Nat → Attempt}
    (hphase : state.phase = .exchanging queue job reply followers)
    (h : InLine served state) :
    InLine (served ++ [(queue, reply)]) (state.exchange setup queue job reply
      followers now surroundings) := by
  have hline := @line_eq state queue
    ({ job with reply := some reply } :: followers) (by rw [hphase]; rfl)
  have hnext := @line_eq (state.exchange setup queue job reply followers now
    surroundings) queue followers (by
      unfold exchange
      dsimp only
      split <;> rfl)
  intro other
  have hbefore := h other
  rw [acceptedBy, acceptedBy, List.filter_append]
  rw [hline] at hbefore
  rw [hnext]
  by_cases hother : other = queue
  · subst hother
    rw [if_pos rfl] at hbefore ⊢
    rw [List.filter_cons_of_pos (by simp), List.filter_nil]
    exact hbefore.serve
  · rw [if_neg hother] at hbefore ⊢
    rw [List.filter_cons_of_neg (by simpa using Ne.symm hother),
      List.filter_nil, List.append_nil]
    exact hbefore

theorem inLine_settle {value : DeviceReply}
    (hphase : state.phase = .succeeded queue job reply followers value)
    (hstate : state.Accounted) (h : InLine served state) :
    InLine served ((state.conclude queue job.id (some reply) (.ok value)).enter
      (.completing queue followers value)) := by
  refine h.conclude_out (line_of_same ?_ ?_) (accepted_conclude ..)
    (leader_not_mem_line hstate job ?_)
    (strikes_conclude state queue job.id (some reply) (.ok value))
  · rw [hphase]
    rfl
  · intro other
    rw [queues_enter, queues_conclude]
  · rw [places_of_phase hphase, hphase]
    rfl

theorem inLine_complete {value : DeviceReply} {now : Nat}
    (hphase : state.phase = .completing queue followers value)
    (hstate : state.Accounted) (h : InLine served state) :
    InLine served (state.complete queue followers value now) := by
  have hline := @line_eq state queue followers (by rw [hphase]; rfl)
  cases followers with
  | nil =>
      refine h.of_same (line_of_same ?_ fun _ => rfl) rfl rfl
      rw [hphase]
      rfl
  | cons follower followers =>
      have hnext := @line_eq (state.complete queue (follower :: followers)
        value now) queue followers (by rfl)
      simp only [complete, queues_enter, queues_conclude, queues_withQueues,
        entriesOf_finishEntry] at hnext
      refine h.leave (nodup_accepted hstate) follower ?_ ?_
        (accepted_conclude ..)
        (strikes_conclude (state.withQueues (state.queues.finishEntry queue))
          queue follower.id follower.reply _)
      · rw [hline, complete, hnext, if_pos rfl, if_pos rfl, ticketsOf_cons,
          List.append_assoc]
      · intro other hother
        rw [hline, complete, hnext, if_neg hother, if_neg hother]

theorem inLine_requeue {error : ExchangeError}
    (hphase : state.phase = .requeueing queue job reply followers error)
    (hstate : state.Accounted) (h : InLine served state) :
    InLine served (state.requeue queue job reply followers error) := by
  have hplaces := places_of_phase hphase
  unfold requeue
  split
  next follower hlast =>
    have hline := @line_eq state queue followers (by rw [hphase]; rfl)
    have hknown : queue ∈ state.queues.ids :=
      hstate.owed.known (by rw [hphase]; rfl)
    refine h.of_same ?_ rfl rfl
    intro other
    rw [hline, @line_eq _ queue followers.dropLast (by rfl), queues_enter,
      queues_withQueues, QueueSet.entriesOf_pushFront hknown]
    split_ifs with hother
    · subst hother
      rw [ticketsOf_cons _ follower, ← List.append_assoc, ← ticketsOf_append,
        List.dropLast_append_getLast? follower hlast]
    · rfl
  next hlast =>
    have hnil : followers = [] := List.getLast?_eq_none_iff.mp hlast
    subst hnil
    refine h.conclude_out (line_of_same ?_ ?_) (accepted_conclude ..)
      (leader_not_mem_line hstate job ?_)
      (strikes_conclude state queue job.id (some reply) (.error error))
    · rw [hphase]
      split_ifs <;> rfl
    · intro other
      rw [queues_enter, queues_conclude]
    · rw [hplaces, hphase]
      rfl

theorem inLine_fail {remaining : List QueueId}
    (hphase : state.phase = .failing remaining) (hstate : state.Accounted)
    (h : InLine served state) : InLine served (state.fail remaining) := by
  have hline : ∀ other, state.line other =
      ticketsOf other (state.queues.entriesOf other) :=
    line_of_idle (by rw [hphase]; rfl)
  unfold fail
  split
  · exact h.of_same (line_of_same (by rw [hphase]; rfl) fun _ => rfl) rfl rfl
  next queue remaining =>
    split
    · exact h.of_same (line_of_same (by rw [hphase]; rfl) fun _ => rfl) rfl rfl
    next popped hpopped =>
      obtain ⟨index, -, hpop⟩ := Option.bind_eq_some_iff.mp hpopped
      have hentries := QueueSet.entriesOf_popAt hpop
      rw [(QueueSet.gives_popFrom hpopped).2] at hentries
      have hnext : ∀ other,
          ((state.withQueues (popped.queues.finishEntry queue)).conclude queue
            popped.entry.id popped.entry.reply (.error .runnerStopped)
            ).line other =
          ticketsOf other (popped.queues.entriesOf other) := by
        intro other
        rw [line_conclude, line_of_idle (by
          rw [phase_withQueues, hphase]
          rfl), queues_withQueues, entriesOf_finishEntry]
      refine h.leave (nodup_accepted hstate) popped.entry ?_ ?_
        (accepted_conclude ..)
        (strikes_conclude
          (state.withQueues (popped.queues.finishEntry queue)) queue
          popped.entry.id popped.entry.reply _)
      · rw [hline, hnext, hentries, if_pos rfl, ticketsOf_cons]
      · intro other hother
        rw [hline, hnext, hentries, if_neg hother]

end Steps

end LinkState

/-! ## What an exchange serves -/

/-- An exchange with what the link knew when it started, and its result. -/
structure SharedExchange where
  queue : QueueId
  leader : Job
  reply : ReplyId
  followers : List Job
  accepted : List Ticket
  outcomes : List (Ticket × Outcome)
  result : Except ExchangeError DeviceReply

namespace SharedExchange

def ticket (shared : SharedExchange) : Ticket := (shared.queue, shared.reply)

/--
A request that another one's exchange answers: an equal read-only request with
no bytes of its own before the frame, accepted into the same queue before the
exchange started, behind nothing but requests that share the exchange or were
cancelled.
-/
structure Shares (shared : SharedExchange) (job : Job) (reply : ReplyId) :
    Prop where
  sender : job.reply = some reply
  safety : resolvedSafety job.request = .readOnly
  transmitPrefix : job.transmitPrefix = []
  request : job.request = shared.leader.request
  policy : job.policy = shared.leader.policy
  behind : ∃ before gap after,
    acceptedBy shared.accepted shared.queue =
        before ++ shared.ticket :: (gap ++ (shared.queue, reply) :: after) ∧
      ∀ ticket ∈ gap, ticket ∈ ticketsOf shared.queue shared.followers ∨
        (ticket, .cancelled) ∈ shared.outcomes

def Answers (shared : SharedExchange) (reply : ReplyId)
    (value : DeviceReply) : Prop :=
  shared.result = .ok value ∧
    (reply = shared.reply ∨ ∃ job ∈ shared.followers, shared.Shares job reply)

structure Sound (setup : LinkSetup) (shared : SharedExchange) : Prop where
  bounded : shared.followers.length ≤ setup.maximumCoalesced
  joined : ∀ job ∈ shared.followers, ∃ reply, shared.Shares job reply

end SharedExchange

/-- The followers so far may share an exchange with the leader. -/
def Phase.Joined (setup : LinkSetup) : Phase → Prop
  | .gathering _ job _ followers | .exchanging _ job _ followers =>
      followers.length ≤ setup.maximumCoalesced ∧
        ∀ follower ∈ followers, resolvedSafety job.request = .readOnly ∧
          requestsCanCoalesce job follower
  | _ => True

/-- The value that the runner hands out came from an exchange. -/
def Phase.Carries (seen : List SharedExchange) : Phase → Prop
  | .succeeded _ _ reply followers value =>
      ∃ shared ∈ seen, shared.result = .ok value ∧ shared.reply = reply ∧
        ∀ job ∈ followers, job ∈ shared.followers
  | .completing _ followers value =>
      ∃ shared ∈ seen, shared.result = .ok value ∧
        ∀ job ∈ followers, job ∈ shared.followers
  | _ => True

namespace LinkState

def exchanged (setup : LinkSetup) (state : LinkState) :
    LinkAction → List SharedExchange
  | .runner (.exchange now surroundings) =>
      match state.phase with
      | .exchanging queue job reply followers =>
          [⟨queue, job, reply, followers, state.accepted, state.outcomes,
            (Service.exchange setup.horizon now job surroundings
              state.port).result⟩]
      | _ => []
  | _ => []

def exchanges (setup : LinkSetup) (state : LinkState)
    (actions : List LinkAction) : List SharedExchange :=
  observe (step setup) (exchanged setup) state actions

section Exchanged

variable {setup : LinkSetup} {state next : LinkState} {served : List Ticket}

theorem inLine_runnerStep {action : RunnerAction}
    (hstep : state.runnerStep setup action = some next)
    (hstate : state.Accounted) (h : InLine served state) :
    InLine (served ++ (state.exchanged setup (.runner action)).map
      SharedExchange.ticket) next := by
  unfold runnerStep at hstep
  split at hstep
  all_goals first | contradiction | injection hstep with hstep; subst hstep
  all_goals
    try simp only [exchanged, List.map_nil, List.append_nil]
  next hphase => exact inLine_poll hphase h
  next hphase =>
    refine h.of_same (line_of_same ?_ fun _ => rfl) rfl rfl
    rw [hphase]
    dsimp only [phase_enter]
    split_ifs <;> rfl
  next hphase =>
    exact h.of_same (line_of_same (by rw [hphase]; rfl) fun _ => rfl) rfl rfl
  next hphase =>
    refine h.of_same (line_of_same ?_ fun _ => rfl) rfl rfl
    rw [hphase]
    unfold receive
    dsimp only
    split_ifs <;> rfl
  next hphase => exact inLine_begin hphase hstate h
  next hphase => exact inLine_gather hphase hstate h
  next hphase =>
    simp only [hphase, List.map_cons, List.map_nil]
    exact inLine_exchange hphase h
  next hphase => exact inLine_settle hphase hstate h
  next hphase => exact inLine_complete hphase hstate h
  next hphase => exact inLine_requeue hphase hstate h
  next hphase =>
    exact h.of_same (line_of_same (by rw [hphase]; rfl) fun _ => rfl) rfl rfl
  next hphase =>
    refine h.of_same (line_of_same ?_ fun _ => rfl) rfl rfl
    rw [hphase]
    dsimp only [phase_enter]
    split_ifs <;> rfl
  next hphase =>
    refine h.of_same (line_of_same (by rw [hphase]; rfl) ?_) rfl rfl
    exact QueueSet.entriesOf_closeRunner _
  next hphase => exact inLine_fail hphase hstate h

theorem inLine_step {action : LinkAction}
    (hstep : state.step setup action = some next) (hstate : state.Accounted)
    (h : InLine served state) :
    InLine (served ++ (state.exchanged setup action).map
      SharedExchange.ticket) next := by
  cases action with
  | client action =>
      simp only [exchanged, List.map_nil, List.append_nil]
      exact inLine_clientStep hstep hstate h
  | runner action => exact inLine_runnerStep hstep hstate h

/-! ### Who may share -/

theorem joined_gather {queue : QueueId} {job : Job} {reply : ReplyId}
    {followers : List Job}
    (hphase : state.phase = .gathering queue job reply followers)
    (h : state.phase.Joined setup) :
    (state.gather setup queue job reply followers).phase.Joined setup := by
  rw [hphase] at h
  unfold gather
  split_ifs with hstop
  · exact h
  split
  · exact h
  next popped hpopped =>
    split_ifs with hcoalesce hclosed
    · simpa [markCancelled, emit, withQueues, hphase] using h
    · simp only [not_or, not_not, not_le] at hstop
      refine ⟨?_, ?_⟩
      · simpa using hstop.2.2
      · intro follower hfollower
        rcases List.mem_append.mp hfollower with hold | hnew
        · exact h.2 follower hold
        · rw [List.mem_singleton.mp hnew]
          exact ⟨hstop.1, hcoalesce⟩
    · exact h

theorem joined_runnerStep {action : RunnerAction}
    (hstep : state.runnerStep setup action = some next)
    (h : state.phase.Joined setup) : next.phase.Joined setup := by
  unfold runnerStep at hstep
  split at hstep
  all_goals first | contradiction | injection hstep with hstep; subst hstep
  next hphase =>
    unfold poll
    split <;> trivial
  next hphase =>
    dsimp only [phase_enter]
    split_ifs <;> trivial
  next hphase => trivial
  next hphase =>
    unfold receive
    dsimp only
    split_ifs <;> trivial
  next hphase =>
    unfold begin
    dsimp only
    split
    · trivial
    · split_ifs
      · trivial
      · exact ⟨Nat.zero_le _, by simp⟩
  next hphase => exact joined_gather hphase h
  next hphase =>
    unfold exchange
    dsimp only
    split <;> trivial
  next hphase => trivial
  next hphase =>
    unfold complete
    split <;> trivial
  next hphase =>
    unfold requeue
    split
    · trivial
    · dsimp only [phase_enter]
      split_ifs <;> trivial
  next hphase => trivial
  next hphase =>
    dsimp only [phase_enter]
    split_ifs <;> trivial
  next hphase => trivial
  next hphase =>
    unfold fail
    split
    · trivial
    · split
      · trivial
      · simp [hphase, Phase.Joined]

/-- The line shows what stands between a leader and a follower. -/
theorem sound_exchanged {action : LinkAction} (hstate : state.Accounted)
    (hline : InLine served state) (hjoined : state.phase.Joined setup) :
    ∀ shared ∈ state.exchanged setup action, shared.Sound setup := by
  intro shared hshared
  unfold exchanged at hshared
  split at hshared
  next now surroundings =>
    split at hshared
    next queue job reply followers hphase =>
      rw [List.mem_singleton] at hshared
      subst hshared
      rw [hphase] at hjoined
      refine ⟨hjoined.1, ?_⟩
      intro follower hfollower
      obtain ⟨hsafety, hcoalesce⟩ := hjoined.2 follower hfollower
      simp only [requestsCanCoalesce, decide_eq_true_eq] at hcoalesce
      obtain ⟨hrequest, hprefix, hpolicy⟩ := hcoalesce
      have howed : follower.reply.isSome := by
        refine (hstate.owed (queue, follower) ?_).1
        rw [places_of_phase hphase]
        refine List.mem_append_right _ (List.mem_append_left _ ?_)
        exact List.mem_map.mpr ⟨follower, hfollower, rfl⟩
      obtain ⟨found, hfound⟩ := Option.isSome_iff_exists.mp howed
      refine ⟨found, hfound, hrequest ▸ hsafety, hprefix, hrequest, hpolicy,
        ?_⟩
      obtain ⟨earlier, later, rfl⟩ := List.append_of_mem hfollower
      have hqueue := hline queue
      rw [@line_eq state queue ({ job with reply := some reply } ::
        (earlier ++ follower :: later)) (by rw [hphase]; rfl), if_pos rfl,
        ticketsOf_cons, ticketsOf_append, ticketsOf_cons queue follower]
        at hqueue
      simp only [ticketsOf, List.filterMap_cons, Option.map_some, hfound,
        List.filterMap_nil, List.append_assoc, List.cons_append] at hqueue
      obtain ⟨before, gap, after, haccepted, hgap⟩ := hqueue.between
      refine ⟨before, gap, after, haccepted, ?_⟩
      intro ticket hticket
      rcases hgap ticket hticket with hmiddle | hstruck
      · refine .inl ?_
        dsimp only
        rw [ticketsOf_append]
        exact List.mem_append_left _ hmiddle
      · obtain ⟨ended, hended, rfl⟩ := List.mem_map.mp hstruck
        obtain ⟨hended, hcancelled⟩ := List.mem_filter.mp hended
        simp only [decide_eq_true_eq] at hcancelled
        exact .inr (hcancelled ▸ hended)
    · contradiction
  · contradiction

/-! ### Who is answered -/

theorem replies_conclude {queue : QueueId} {id : UInt64}
    {reply : Option ReplyId} {result : Except ExchangeError DeviceReply}
    {found : ReplyId} {value : DeviceReply}
    (h : (found, .ok value) ∈
      (state.conclude queue id reply result).replies) :
    (found, .ok value) ∈ state.replies ∨
      reply = some found ∧ result = .ok value := by
  unfold conclude at h
  split at h
  · exact .inl h
  next other =>
    split_ifs at h
    · exact .inl h
    · cases result with
      | ok sent =>
          rcases List.mem_append.mp h with hold | hnew
          · exact .inl hold
          · simp only [List.mem_singleton, Prod.mk.injEq, Except.ok.injEq]
              at hnew
            exact .inr ⟨by rw [hnew.1], by rw [hnew.2]⟩
      | error error =>
          rcases List.mem_append.mp h with hold | hnew
          · exact .inl hold
          · simp at hnew

/-- Every value that was sent came from an exchange for its request. -/
def Answered (seen : List SharedExchange) (state : LinkState) : Prop :=
  ∀ reply value, (reply, .ok value) ∈ state.replies →
    ∃ shared ∈ seen, shared.Answers reply value

theorem Answered.withQueues {seen : List SharedExchange}
    (h : Answered seen state) (queues : QueueSet Job) :
    Answered seen (state.withQueues queues) := h

theorem Answered.conclude_error {seen : List SharedExchange}
    (h : Answered seen state) (queue : QueueId) (id : UInt64)
    (reply : Option ReplyId) (error : ExchangeError) :
    Answered seen (state.conclude queue id reply (.error error)) := by
  intro found value hfound
  rcases replies_conclude hfound with hold | ⟨-, hresult⟩
  · exact h found value hold
  · contradiction

theorem Answered.complete {seen : List SharedExchange} {queue : QueueId}
    {followers : List Job} {value : DeviceReply} {now : Nat}
    (h : Answered seen state)
    (hsound : ∀ shared ∈ seen, shared.Sound setup)
    (hphase : state.phase = .completing queue followers value)
    (hcarries : state.phase.Carries seen) :
    Answered seen (state.complete queue followers value now) ∧
      (state.complete queue followers value now).phase.Carries seen := by
  rw [hphase] at hcarries
  cases followers with
  | nil => exact ⟨h, trivial⟩
  | cons follower followers =>
      obtain ⟨shared, hshared, hresult, hfollowers⟩ := hcarries
      constructor
      · intro found sent hfound
        rcases replies_conclude hfound with hold | ⟨hreply, hsent⟩
        · exact h found sent hold
        · split_ifs at hsent
          injection hsent with hsent
          subst hsent
          have hmem := hfollowers follower List.mem_cons_self
          obtain ⟨reply, hshares⟩ := (hsound shared hshared).joined follower
            hmem
          rw [hshares.sender] at hreply
          injection hreply with hreply
          subst hreply
          exact ⟨shared, hshared, hresult, .inr ⟨follower, hmem, hshares⟩⟩
      · refine ⟨shared, hshared, hresult, ?_⟩
        intro job hjob
        exact hfollowers job (List.mem_cons_of_mem _ hjob)

theorem answered_runnerStep {seen : List SharedExchange}
    {action : RunnerAction}
    (hstep : state.runnerStep setup action = some next)
    (hsound : ∀ shared ∈ seen, shared.Sound setup) (h : Answered seen state)
    (hcarries : state.phase.Carries seen) :
    Answered (seen ++ state.exchanged setup (.runner action)) next ∧
      next.phase.Carries (seen ++ state.exchanged setup (.runner action)) := by
  unfold runnerStep at hstep
  split at hstep
  all_goals first | contradiction | injection hstep with hstep; subst hstep
  all_goals try simp only [exchanged, List.append_nil]
  next hphase =>
    unfold poll
    split <;> exact ⟨h, trivial⟩
  next hphase =>
    refine ⟨h, ?_⟩
    dsimp only [phase_enter]
    split_ifs <;> trivial
  next hphase => exact ⟨h, trivial⟩
  next hphase =>
    refine ⟨h, ?_⟩
    unfold receive
    dsimp only
    split_ifs <;> trivial
  next hphase =>
    unfold begin
    dsimp only
    split
    · exact ⟨(h.withQueues _).conclude_error _ _ _ _, trivial⟩
    · split_ifs
      · exact ⟨(h.withQueues _).conclude_error _ _ _ _, trivial⟩
      · exact ⟨h, trivial⟩
  next queue job reply followers hphase =>
    unfold gather
    split_ifs
    · exact ⟨h, trivial⟩
    split
    · exact ⟨h, trivial⟩
    · split_ifs
      · refine ⟨h, ?_⟩
        simp [markCancelled, emit, withQueues, hphase, Phase.Carries]
      · exact ⟨h, trivial⟩
      · exact ⟨h, trivial⟩
  next queue job reply followers now surroundings hphase =>
    simp only [hphase]
    constructor
    · intro found value hfound
      obtain ⟨shared, hshared, hanswers⟩ := h found value hfound
      exact ⟨shared, List.mem_append_left _ hshared, hanswers⟩
    · unfold exchange
      dsimp only
      split
      next value hvalue =>
        exact ⟨_, List.mem_append_right _ (List.mem_singleton_self _), hvalue,
          rfl, fun _ => id⟩
      · trivial
  next queue job reply followers value hphase =>
    rw [hphase] at hcarries
    obtain ⟨shared, hshared, hresult, hreply, hfollowers⟩ := hcarries
    refine ⟨?_, shared, hshared, hresult, hfollowers⟩
    intro found sent hfound
    rcases replies_conclude hfound with hold | ⟨hfound, hsent⟩
    · exact h found sent hold
    · injection hfound with hfound
      injection hsent with hsent
      subst hfound hsent
      exact ⟨shared, hshared, hresult, .inl hreply.symm⟩
  next hphase => exact h.complete hsound hphase hcarries
  next hphase =>
    unfold requeue
    split
    · exact ⟨h, trivial⟩
    · refine ⟨h.conclude_error _ _ _ _, ?_⟩
      dsimp only [phase_enter]
      split_ifs <;> trivial
  next hphase => exact ⟨h, trivial⟩
  next hphase =>
    refine ⟨h, ?_⟩
    dsimp only [phase_enter]
    split_ifs <;> trivial
  next hphase => exact ⟨h, trivial⟩
  next hphase =>
    unfold fail
    split
    · exact ⟨h, trivial⟩
    · split
      · exact ⟨h, trivial⟩
      · refine ⟨(h.withQueues _).conclude_error _ _ _ _, ?_⟩
        simp [hphase, Phase.Carries]

end Exchanged

/-! ## Runs -/

def taken (state : LinkState) : List QueueId :=
  match state.phase with
  | .begun queue _ => [queue]
  | _ => []

theorem count_held (state : LinkState) (queue : QueueId) :
    state.held.count queue =
      state.taken.count queue +
        (state.phase.followers.map Prod.fst).count queue := by
  unfold held taken
  cases state.phase <;> simp [Phase.holds, Phase.followers]

/-- What the steps keep about the order and the sharing of exchanges. -/
structure Orderly (setup : LinkSetup) (seen : List SharedExchange)
    (state : LinkState) : Prop where
  accounted : state.Accounted
  inLine : InLine (seen.map SharedExchange.ticket) state
  joined : state.phase.Joined setup
  sound : ∀ shared ∈ seen, shared.Sound setup
  answered : Answered seen state
  carries : state.phase.Carries seen

theorem orderly_step {setup : LinkSetup} {seen : List SharedExchange}
    {state next : LinkState} {action : LinkAction}
    (hstep : state.step setup action = some next)
    (h : Orderly setup seen state) :
    Orderly setup (seen ++ state.exchanged setup action) next := by
  have hline : InLine ((seen ++ state.exchanged setup action).map
      SharedExchange.ticket) next := by
    rw [List.map_append]
    exact inLine_step hstep h.accounted h.inLine
  have hsound : ∀ shared ∈ seen ++ state.exchanged setup action,
      shared.Sound setup := by
    intro shared hshared
    rcases List.mem_append.mp hshared with hold | hnew
    · exact h.sound shared hold
    · exact sound_exchanged h.accounted h.inLine h.joined shared hnew
  cases action with
  | client action =>
      have hchange := clientStep_change hstep
      refine ⟨accounted_step hstep h.accounted, hline, ?_, hsound, ?_, ?_⟩
      · rw [hchange.phase]
        exact h.joined
      · intro reply value hreply
        rw [hchange.replies] at hreply
        simpa [exchanged] using h.answered reply value hreply
      · rw [hchange.phase]
        simpa [exchanged] using h.carries
  | runner action =>
      obtain ⟨hanswered, hcarries⟩ :=
        answered_runnerStep hstep h.sound h.answered h.carries
      exact ⟨accounted_step hstep h.accounted, hline,
        joined_runnerStep hstep h.joined, hsound, hanswered, hcarries⟩

theorem orderly_run {setup : LinkSetup} {build : LinkBuild}
    {actions : List LinkAction} {state : LinkState}
    (hrun : build.initial.run setup actions = some state) :
    Orderly setup (build.initial.exchanges setup actions) state := by
  have hstart : Orderly setup [] build.initial := by
    refine ⟨accounted_initial _ _ _ _ _, ?_, trivial, by simp, ?_, trivial⟩
    · intro queue
      have hline : build.initial.line queue = [] := by
        rw [line_of_idle (by rfl), ticketsOf, List.filterMap_eq_nil_iff]
        intro job hjob
        have hmem := mem_entries_of_entriesOf hjob
        change _ ∈ (QueueSet.new build.layout
          (nodup_of_validateLayout build.valid)).entries at hmem
        rw [QueueSet.entries_new] at hmem
        contradiction
      rw [hline]
      exact lined_nil
    · intro reply value hreply
      contradiction
  exact runSteps_observe orderly_step hrun hstart

/--
In every run the permits of a queue, its entries, the followers that the runner
holds and the entry it has just popped add up to the capacity; the exchanges of
a queue start in the order of acceptance; every value that answers a request was
brought by an exchange that the request led or could share, and no exchange has
too many followers.
-/
theorem run_orderly (setup : LinkSetup) (build : LinkBuild)
    (actions : List LinkAction) (state : LinkState)
    (hrun : build.initial.run setup actions = some state) :
    (∀ slot ∈ state.queues.slots,
      slot.permits + (slot.entries.length + state.taken.count slot.id) +
            (state.phase.followers.map Prod.fst).count slot.id =
          slot.capacity ∧
        (slot.id, slot.capacity) ∈
          build.layout.map fun config => (config.id, config.capacity)) ∧
      (∀ queue,
        (acceptedBy ((build.initial.exchanges setup actions).map
            SharedExchange.ticket) queue).Sublist
          (acceptedBy state.accepted queue)) ∧
      (∀ reply value, (reply, .ok value) ∈ state.replies →
        ∃ shared ∈ build.initial.exchanges setup actions,
          shared.Answers reply value) ∧
      ∀ shared ∈ build.initial.exchanges setup actions,
        shared.followers.length ≤ setup.maximumCoalesced := by
  have horderly := orderly_run hrun
  refine ⟨?_, ?_, horderly.answered, ?_⟩
  · intro slot hslot
    obtain ⟨hpermits, -⟩ := occupied_run hrun slot hslot
    rw [count_held] at hpermits
    refine ⟨by omega, ?_⟩
    rw [← capacities_run hrun]
    exact List.mem_map.mpr ⟨slot, hslot, rfl⟩
  · intro queue
    exact (List.sublist_append_left _ _).trans (horderly.inLine queue).sublist
  · intro shared hshared
    exact (horderly.sound shared hshared).bounded

def sharedActions : List LinkAction :=
  [startIn ⟨0⟩, startIn ⟨0⟩, .runner .poll, .runner (.begin 0),
    .runner .gather, .runner .gather,
    .runner (.exchange 0 fun _ => receiving identifyResponse.encoding),
    .runner .settle, .runner (.complete 2), .runner (.complete 2)]

theorem isSome_sharedRun :
    (pairBuild.initial.run plainSetup sharedActions).isSome := by
  decide +kernel

example : ((pairBuild.initial.run plainSetup sharedActions).get
    isSome_sharedRun).replies =
      [(0, .ok identifyReply), (1, .ok identifyReply)] := by
  decide +kernel

theorem run_orderly_shared :
    let state := (pairBuild.initial.run plainSetup sharedActions).get
      isSome_sharedRun
    (∀ slot ∈ state.queues.slots,
      slot.permits + (slot.entries.length + state.taken.count slot.id) +
            (state.phase.followers.map Prod.fst).count slot.id =
          slot.capacity ∧
        (slot.id, slot.capacity) ∈
          pairBuild.layout.map fun config => (config.id, config.capacity)) ∧
      (∀ queue,
        (acceptedBy ((pairBuild.initial.exchanges plainSetup sharedActions).map
            SharedExchange.ticket) queue).Sublist
          (acceptedBy state.accepted queue)) ∧
      (∀ reply value, (reply, .ok value) ∈ state.replies →
        ∃ shared ∈ pairBuild.initial.exchanges plainSetup sharedActions,
          shared.Answers reply value) ∧
      ∀ shared ∈ pairBuild.initial.exchanges plainSetup sharedActions,
        shared.followers.length ≤ plainSetup.maximumCoalesced :=
  run_orderly plainSetup pairBuild sharedActions _
    (Option.some_get isSome_sharedRun).symm

end LinkState

end HartLink.Service
