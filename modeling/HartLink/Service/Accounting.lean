import HartLink.Foundation.Ledger
import HartLink.Service.Runner

/-!
# Every accepted request ends once

A place is a queue with a job that stands in it or was taken out of it.  The
places of a state are those of the runner's leader, of its followers and of the
queues' entries.  Every step of the system keeps the places up to their order,
adds the place of an accepted request or concludes the request of one place;
`LinkState.ledger` reads this as a move of a ledger.
-/

namespace HartLink.Service

open HartLink.Foundation
open HartLink.Wire
open HartLink.Operation

/-! ## Places -/

abbrev Place := QueueId × Job

def Place.ticket (place : Place) : Option Ticket :=
  place.2.reply.map (place.1, ·)

namespace Phase

/-- The request in flight, with its sender put back. -/
def leader : Phase → Option Place
  | .begun queue job => some (queue, job)
  | .gathering queue job reply _ | .exchanging queue job reply _
  | .succeeded queue job reply _ _ | .requeueing queue job reply _ _ =>
      some (queue, { job with reply := some reply })
  | _ => none

def followers : Phase → List Place
  | .gathering queue _ _ followers | .exchanging queue _ _ followers
  | .succeeded queue _ _ followers _ | .completing queue followers _
  | .requeueing queue _ _ followers _ => followers.map (queue, ·)
  | _ => []

def closing : Phase → Bool
  | .failing _ | .stopped => true
  | _ => false

end Phase

/-- What the steps record about requests. -/
structure Books where
  accepted : List Ticket
  nextReply : ReplyId
  outcomes : List (Ticket × Outcome)
  replies : List (ReplyId × Except ExchangeError DeviceReply)
  completed : UInt64
  failed : UInt64
  cancelled : UInt64

namespace Books

def accept (books : Books) (queue : QueueId) : Books :=
  { books with
    accepted := books.accepted ++ [(queue, books.nextReply)]
    nextReply := books.nextReply + 1 }

def conclude (books : Books) (ticket : Ticket) (outcome : Outcome)
    (sent : Option (Except ExchangeError DeviceReply)) : Books :=
  { books with
    outcomes := books.outcomes ++ [(ticket, outcome)]
    replies := books.replies ++ sent.toList.map (ticket.2, ·)
    completed := books.completed + if outcome = .completed then 1 else 0
    failed := books.failed + if outcome = .failed then 1 else 0
    cancelled := books.cancelled + if outcome = .cancelled then 1 else 0 }

def tally (books : Books) (outcome : Outcome) : Nat :=
  books.outcomes.countP fun ended => ended.2 = outcome

/-- Requests are told apart, counted and answered at most once. -/
structure Sound (books : Books) : Prop where
  fresh : ∀ ticket ∈ books.accepted, ticket.2 < books.nextReply
  distinct : (books.accepted.map Prod.snd).Nodup
  sent : (books.replies.map Prod.fst).Sublist
    (books.outcomes.map fun ended => ended.1.2)
  completed : books.completed = UInt64.ofNat (books.tally .completed)
  failed : books.failed = UInt64.ofNat (books.tally .failed)
  cancelled : books.cancelled = UInt64.ofNat (books.tally .cancelled)

theorem sound_accept {books : Books} (h : books.Sound) (queue : QueueId) :
    (books.accept queue).Sound := by
  refine ⟨?_, ?_, h.sent, h.completed, h.failed, h.cancelled⟩
  · intro ticket hticket
    rcases List.mem_append.mp hticket with hold | hnew
    · exact Nat.lt_succ_of_lt (h.fresh ticket hold)
    · rw [List.mem_singleton] at hnew
      subst hnew
      exact Nat.lt_succ_self _
  · simp only [accept, List.map_append, List.map_cons, List.map_nil]
    rw [List.nodup_append_comm, List.singleton_append, List.nodup_cons]
    refine ⟨?_, h.distinct⟩
    intro hmem
    obtain ⟨ticket, hticket, heq⟩ := List.mem_map.mp hmem
    exact Nat.lt_irrefl _ (heq ▸ h.fresh ticket hticket)

theorem tally_conclude (books : Books) (ticket : Ticket)
    (outcome other : Outcome)
    (sent : Option (Except ExchangeError DeviceReply)) :
    (books.conclude ticket outcome sent).tally other =
      books.tally other + if outcome = other then 1 else 0 := by
  simp [tally, conclude, List.countP_append, List.countP_singleton]

theorem sound_conclude {books : Books} (h : books.Sound) (ticket : Ticket)
    (outcome : Outcome)
    (sent : Option (Except ExchangeError DeviceReply)) :
    (books.conclude ticket outcome sent).Sound := by
  have hcount (other : Outcome) (counter : UInt64)
      (hcounter : counter = UInt64.ofNat (books.tally other)) :
      (counter + if outcome = other then 1 else 0) =
        UInt64.ofNat ((books.conclude ticket outcome sent).tally other) := by
    rw [tally_conclude, hcounter, UInt64.ofNat_add]
    split_ifs <;> rfl
  refine ⟨h.fresh, h.distinct, ?_, hcount _ _ h.completed,
    hcount _ _ h.failed, hcount _ _ h.cancelled⟩
  simp only [conclude, List.map_append, List.map_cons, List.map_nil]
  refine h.sent.append ?_
  cases sent with
  | none => exact List.nil_sublist _
  | some result => exact List.Sublist.refl _

end Books

namespace LinkState

def places (state : LinkState) : List Place :=
  state.phase.leader.toList ++ (state.phase.followers ++ state.queues.entries)

def books (state : LinkState) : Books where
  accepted := state.accepted
  nextReply := state.nextReply
  outcomes := state.outcomes
  replies := state.replies
  completed := state.counters.completed
  failed := state.counters.failed
  cancelled := state.counters.cancelled

def ledger (state : LinkState) : Ledger Ticket Outcome where
  accepted := state.accepted
  live := state.places.filterMap Place.ticket
  ended := state.outcomes

/-! ## What one step does to the requests -/

inductive Moves (state next : LinkState) : Prop
  | keep (places : state.places.Perm next.places)
      (books : next.books = state.books)
  | accept (queue : QueueId) (job : Job)
      (reply : job.reply = some state.nextReply)
      (known : queue ∈ state.queues.ids)
      (places : next.places.Perm ((queue, job) :: state.places))
      (books : next.books = state.books.accept queue)
  | conclude (queue : QueueId) (job : Job) (reply : ReplyId)
      (outcome : Outcome)
      (sent : Option (Except ExchangeError DeviceReply))
      (reply_eq : job.reply = some reply)
      (places : state.places.Perm ((queue, job) :: next.places))
      (books : next.books = state.books.conclude (queue, reply) outcome sent)

theorem books_conclude (state : LinkState) (queue : QueueId) (id : UInt64)
    (reply : ReplyId) (result : Except ExchangeError DeviceReply) :
    ∃ outcome sent, (state.conclude queue id (some reply) result).books =
      state.books.conclude (queue, reply) outcome sent := by
  simp only [conclude]
  split_ifs
  · refine ⟨.cancelled, none, ?_⟩
    simp [books, markCancelled, emit, Books.conclude]
  · cases result with
    | ok value =>
        refine ⟨.completed, some (.ok value), ?_⟩
        simp [books, markCompleted, send, emit, Books.conclude]
    | error error =>
        refine ⟨.failed, some (.error error), ?_⟩
        simp [books, markFailed, send, emit, Books.conclude]

theorem conclude_of_closed (state : LinkState) {reply : Option ReplyId}
    (h : reply.all (· ∈ state.closedReplies)) (queue : QueueId) (id : UInt64)
    (result : Except ExchangeError DeviceReply) :
    state.conclude queue id reply result =
      state.markCancelled id (reply.map (queue, ·)) := by
  cases reply with
  | none => rfl
  | some reply =>
      have hclosed : reply ∈ state.closedReplies := by simpa using h
      simp only [conclude, if_pos hclosed, Option.map_some]

/-- Every place awaits an answer and belongs to a queue of the link. -/
def Owed (state : LinkState) : Prop :=
  ∀ place ∈ state.places,
    place.2.reply.isSome ∧ place.1 ∈ state.queues.ids

theorem Owed.known {state : LinkState} (h : state.Owed) {place : Place}
    (hleader : state.phase.leader = some place) :
    place.1 ∈ state.queues.ids := by
  refine (h place ?_).2
  rw [places, hleader]
  exact List.mem_cons_self

theorem moves_of_conclude {state next : LinkState} (middle : LinkState)
    {queue : QueueId} {id : UInt64} {job : Job}
    {result : Except ExchangeError DeviceReply} (hreply : job.reply.isSome)
    (hplaces : state.places.Perm ((queue, job) :: next.places))
    (hmiddle : middle.books = state.books)
    (hnext : next.books =
      (middle.conclude queue id job.reply result).books) :
    state.Moves next := by
  obtain ⟨reply, hreply⟩ := Option.isSome_iff_exists.mp hreply
  rw [hreply] at hnext
  obtain ⟨outcome, sent, hbooks⟩ :=
    middle.books_conclude queue id reply result
  refine .conclude queue job reply outcome sent hreply hplaces ?_
  rw [hnext, hbooks, hmiddle]

/-! ### The steps of the runner -/

section Steps

variable {setup : LinkSetup} {state : LinkState} {queue : QueueId} {job : Job}
  {reply : ReplyId} {followers : List Job}

theorem moves_of_phase {next : LinkState} {phase : Phase}
    (hphase : state.phase = phase) (hleader : next.phase.leader = phase.leader)
    (hfollowers : next.phase.followers = phase.followers)
    (hqueues : next.queues = state.queues) (hbooks : next.books = state.books) :
    state.Moves next ∧ next.queues.ids = state.queues.ids := by
  refine ⟨.keep ?_ hbooks, by rw [hqueues]⟩
  rw [places, places, hphase, hleader, hfollowers, hqueues]

theorem places_of_phase {phase : Phase} (h : state.phase = phase) :
    state.places =
      phase.leader.toList ++ (phase.followers ++ state.queues.entries) := by
  rw [places, h]

theorem moves_poll (hphase : state.phase = .polling) :
    state.Moves state.poll ∧ state.poll.queues.ids = state.queues.ids := by
  unfold poll
  split
  next popped cursor hpopped =>
    have hgives := QueueSet.gives_popScheduled hpopped
    refine ⟨.keep ?_ rfl, hgives.shape.ids⟩
    rw [places_of_phase hphase]
    exact hgives.entries
  · exact moves_of_phase hphase rfl rfl rfl rfl

theorem moves_begin {now : Nat} (hphase : state.phase = .begun queue job)
    (howed : state.Owed) :
    state.Moves (state.begin queue job now) ∧
      (state.begin queue job now).queues.ids = state.queues.ids := by
  obtain ⟨hentries, hshape⟩ :=
    QueueSet.entries_finishEntry state.queues queue
  have hplaces : state.places = (queue, job) :: state.queues.entries :=
    places_of_phase hphase
  have hsome : job.reply.isSome := (howed (queue, job) (by simp [hplaces])).1
  obtain ⟨reply, hreply⟩ := Option.isSome_iff_exists.mp hsome
  simp only [begin, hreply]
  split_ifs
  · refine ⟨moves_of_conclude
      (state.withQueues (state.queues.finishEntry queue)) hsome ?_ rfl
      (by rw [hreply]; rfl), by simpa using hshape.ids⟩
    rw [hplaces, places, queues_enter, queues_conclude]
    exact hentries.symm.cons _
  · refine ⟨.keep ?_ rfl, hshape.ids⟩
    have hjob : { job with reply := some reply } = job := by
      rw [← hreply]
    rw [hplaces, ← hjob]
    exact hentries.symm.cons _

theorem moves_gather
    (hphase : state.phase = .gathering queue job reply followers)
    (howed : state.Owed) :
    state.Moves (state.gather setup queue job reply followers) ∧
      (state.gather setup queue job reply followers).queues.ids =
        state.queues.ids := by
  have hstarted : state.Moves (state.started queue job reply followers) ∧
      (state.started queue job reply followers).queues.ids =
        state.queues.ids :=
    moves_of_phase hphase rfl rfl rfl rfl
  unfold gather
  split_ifs
  · exact hstarted
  split
  · exact hstarted
  next popped hpopped =>
    obtain ⟨hgives, hqueue⟩ := QueueSet.gives_popFrom hpopped
    have hentries := hqueue ▸ hgives.entries
    have hknown : queue ∈ popped.queues.ids := by
      rw [hgives.shape.ids, ← hqueue]
      exact hgives.queue
    have hplaces := places_of_phase hphase
    split_ifs with hcoalesce hclosed
    · -- the waiter of the entry is gone
      obtain ⟨hfinished, hshape⟩ :=
        QueueSet.entries_finishEntry popped.queues queue
      have hsome : popped.entry.reply.isSome :=
        (howed (queue, popped.entry) (by
          rw [hplaces]
          simp [hentries.mem_iff])).1
      rw [← conclude_of_closed (state.withQueues
        (popped.queues.finishEntry queue)) hclosed queue popped.entry.id
        (.error .deadline)]
      refine ⟨moves_of_conclude (state.withQueues
        (popped.queues.finishEntry queue)) hsome ?_ rfl rfl, ?_⟩
      · rw [hplaces, places, queues_conclude, phase_conclude,
          phase_withQueues, hphase, ← List.append_assoc, ← List.append_assoc]
        exact ((hentries.trans (hfinished.symm.cons _)).append_left _).trans
          List.perm_middle
      · rw [queues_conclude]
        exact hshape.ids.trans hgives.shape.ids
    · refine ⟨.keep ?_ rfl, hgives.shape.ids⟩
      rw [hplaces]
      refine .append_left _ ?_
      simp only [Phase.followers, List.map_append, List.map_cons, List.map_nil,
        List.append_assoc, List.singleton_append]
      exact hentries.append_left _
    · obtain ⟨hback, hshape⟩ :=
        QueueSet.entries_pushFront hknown popped.entry
      refine ⟨.keep ?_ rfl, hshape.ids.trans hgives.shape.ids⟩
      rw [hplaces]
      exact ((hentries.trans hback.symm).append_left _).append_left _

theorem moves_exchange {now : Nat} {surroundings : Nat → Attempt}
    (hphase : state.phase = .exchanging queue job reply followers) :
    state.Moves (state.exchange setup queue job reply followers now
      surroundings) ∧
      (state.exchange setup queue job reply followers now
        surroundings).queues.ids = state.queues.ids := by
  unfold exchange
  dsimp only
  split <;> exact moves_of_phase hphase rfl rfl rfl rfl

theorem moves_settle {value : DeviceReply}
    (hphase : state.phase = .succeeded queue job reply followers value) :
    state.Moves ((state.conclude queue job.id (some reply) (.ok value)).enter
      (.completing queue followers value)) := by
  have hplaces : state.places.Perm
      ((queue, { job with reply := some reply }) ::
        ((state.conclude queue job.id (some reply) (.ok value)).enter
          (.completing queue followers value)).places) := by
    rw [places_of_phase hphase, places, queues_enter, queues_conclude]
    exact .refl _
  exact moves_of_conclude state rfl hplaces rfl rfl

theorem moves_complete {value : DeviceReply} {now : Nat}
    (hphase : state.phase = .completing queue followers value)
    (howed : state.Owed) :
    state.Moves (state.complete queue followers value now) ∧
      (state.complete queue followers value now).queues.ids =
        state.queues.ids := by
  cases followers with
  | nil => exact moves_of_phase hphase rfl rfl rfl rfl
  | cons follower followers =>
      obtain ⟨hentries, hshape⟩ :=
        QueueSet.entries_finishEntry state.queues queue
      have hplaces := places_of_phase hphase
      refine ⟨moves_of_conclude
        (state.withQueues (state.queues.finishEntry queue))
        (howed (queue, follower) (by rw [hplaces]; simp [Phase.followers])).1
        ?_ rfl rfl, ?_⟩
      · rw [hplaces, complete, places, queues_enter, queues_conclude]
        exact (hentries.symm.append_left _).cons _
      · rw [complete, queues_enter, queues_conclude]
        exact hshape.ids

theorem moves_requeue {error : ExchangeError}
    (hphase : state.phase = .requeueing queue job reply followers error)
    (howed : state.Owed) :
    state.Moves (state.requeue queue job reply followers error) ∧
      (state.requeue queue job reply followers error).queues.ids =
        state.queues.ids := by
  have hplaces := places_of_phase hphase
  unfold requeue
  split
  next follower hlast =>
    have hknown : queue ∈ state.queues.ids :=
      (howed (queue, { job with reply := some reply })
        (by rw [hplaces]; exact List.mem_cons_self)).2
    obtain ⟨hentries, hshape⟩ :=
      QueueSet.entries_pushFront hknown follower
    refine ⟨.keep ?_ rfl, hshape.ids⟩
    have hsplit : followers.map (queue, ·) =
        followers.dropLast.map (queue, ·) ++ [(queue, follower)] := by
      conv_lhs =>
        rw [← List.dropLast_append_getLast? follower hlast]
      simp
    rw [hplaces]
    simp only [Phase.followers, hsplit, List.append_assoc,
      List.singleton_append]
    exact (hentries.symm.append_left _).append_left _
  next hlast =>
    have hnil : followers = [] := List.getLast?_eq_none_iff.mp hlast
    have hconclude : state.places.Perm
        ((queue, { job with reply := some reply }) ::
          ((state.conclude queue job.id (some reply) (.error error)).enter
            (if error = .responseTimeout ∧ state.port.channelUsable then
              .draining else .checking)).places) := by
      rw [hplaces, hnil, places, queues_enter, queues_conclude]
      split_ifs <;> exact .refl _
    exact ⟨moves_of_conclude state rfl hconclude rfl rfl, by simp⟩

theorem moves_closeRunner (hphase : state.phase = .stopping) :
    state.Moves ((state.withQueues state.queues.closeRunner).enter
      (.failing state.queues.ids)) ∧
      state.queues.closeRunner.ids = state.queues.ids := by
  refine ⟨.keep ?_ rfl, QueueSet.ids_closeRunner _⟩
  rw [places_of_phase hphase, places, queues_enter, queues_withQueues,
    QueueSet.entries_closeRunner]
  exact .refl _

theorem moves_fail {remaining : List QueueId}
    (hphase : state.phase = .failing remaining) (howed : state.Owed) :
    state.Moves (state.fail remaining) ∧
      (state.fail remaining).queues.ids = state.queues.ids := by
  unfold fail
  split
  · exact moves_of_phase hphase rfl rfl rfl rfl
  next queue remaining =>
    split
    · exact moves_of_phase hphase rfl rfl rfl rfl
    next popped hpopped =>
      obtain ⟨hgives, hqueue⟩ := QueueSet.gives_popFrom hpopped
      have hentries := hqueue ▸ hgives.entries
      obtain ⟨hfinished, hshape⟩ :=
        QueueSet.entries_finishEntry popped.queues queue
      have hplaces : state.places = state.queues.entries :=
        places_of_phase hphase
      have hsome : popped.entry.reply.isSome :=
        (howed (queue, popped.entry)
          (by simp [hplaces, hentries.mem_iff])).1
      refine ⟨moves_of_conclude (state.withQueues
        (popped.queues.finishEntry queue)) hsome ?_ rfl rfl, ?_⟩
      · rw [hplaces, places, queues_conclude, phase_conclude,
          phase_withQueues, hphase]
        exact hentries.trans (hfinished.symm.cons _)
      · rw [queues_conclude]
        exact hshape.ids.trans hgives.shape.ids

theorem moves_runnerStep {next : LinkState} {action : RunnerAction}
    (h : state.runnerStep setup action = some next) (howed : state.Owed) :
    state.Moves next ∧ next.queues.ids = state.queues.ids := by
  unfold runnerStep at h
  split at h
  all_goals first | contradiction | injection h with h; subst h
  next hphase => exact moves_poll hphase
  next hphase => split_ifs <;> exact moves_of_phase hphase rfl rfl rfl rfl
  next hphase => exact moves_of_phase hphase rfl rfl rfl rfl
  next hphase =>
    unfold receive
    dsimp only
    split_ifs <;> exact moves_of_phase hphase rfl rfl rfl rfl
  next hphase => exact moves_begin hphase howed
  next hphase => exact moves_gather hphase howed
  next hphase => exact moves_exchange hphase
  next hphase => exact ⟨moves_settle hphase, by simp⟩
  next hphase => exact moves_complete hphase howed
  next hphase => exact moves_requeue hphase howed
  next hphase => exact moves_of_phase hphase rfl rfl rfl rfl
  next hphase => split_ifs <;> exact moves_of_phase hphase rfl rfl rfl rfl
  next hphase => exact moves_closeRunner hphase
  next hphase => exact moves_fail hphase howed

/-! ### The steps of the clients -/

theorem moves_of_change {next : LinkState} (h : state.ClientChange next) :
    state.Moves next ∧ next.queues.ids = state.queues.ids := by
  have hsame : ∀ accepted nextReply, next.accepted = accepted →
      next.nextReply = nextReply →
      next.books = { state.books with accepted, nextReply } := by
    intro accepted nextReply haccepted hnextReply
    simp [books, haccepted, hnextReply, h.outcomes, h.replies, h.completed,
      h.failed, h.cancelled]
  cases h.pushes with
  | nothing entries ids runnerClosed accepted nextReply =>
      refine ⟨.keep ?_ (hsame _ _ accepted nextReply), ids⟩
      rw [places, places, h.phase]
      exact (entries.symm.append_left _).append_left _
  | entry queue job reply known entries ids running accepted nextReply =>
      refine ⟨.accept queue job reply known ?_ (hsame _ _ accepted nextReply),
        ids⟩
      rw [places, places, h.phase, ← List.append_assoc, ← List.append_assoc]
      exact (entries.append_left _).trans List.perm_middle

theorem moves_step {next : LinkState} {action : LinkAction}
    (h : state.step setup action = some next) (howed : state.Owed) :
    state.Moves next ∧ next.queues.ids = state.queues.ids := by
  cases action with
  | client action => exact moves_of_change (clientStep_change h)
  | runner action => exact moves_runnerStep h howed

end Steps

/-! ## What every run keeps -/

structure Accounted (state : LinkState) : Prop where
  owed : state.Owed
  sound : state.books.Sound
  balanced : state.ledger.Balanced

section Invariant

variable {state next : LinkState}

theorem ledger_move (h : state.Moves next) (hsound : state.books.Sound) :
    state.ledger.Move next.ledger := by
  cases h with
  | keep places books =>
      exact .keep (congrArg Books.accepted books) (places.filterMap _)
        (congrArg Books.outcomes books)
  | accept queue job reply known places books =>
      refine .accept (queue, state.nextReply) ?_
        (congrArg Books.accepted books) ?_ (congrArg Books.outcomes books)
      · intro hmem
        exact Nat.lt_irrefl _ (hsound.fresh _ hmem)
      · have hlive := places.filterMap Place.ticket
        simp only [List.filterMap_cons, Place.ticket, reply,
          Option.map_some] at hlive
        exact hlive
  | conclude queue job reply outcome sent reply_eq places books =>
      refine .conclude (queue, reply) outcome
        (congrArg Books.accepted books) ?_ (congrArg Books.outcomes books)
      have hlive := places.filterMap Place.ticket
      simp only [List.filterMap_cons, Place.ticket, reply_eq,
        Option.map_some] at hlive
      exact hlive

theorem owed_of_moves (h : state.Moves next)
    (hids : next.queues.ids = state.queues.ids) (howed : state.Owed) :
    next.Owed := by
  intro place hplace
  rw [hids]
  cases h with
  | keep places books => exact howed place (places.mem_iff.mpr hplace)
  | accept queue job reply known places books =>
      rcases List.mem_cons.mp (places.mem_iff.mp hplace) with rfl | hmem
      · exact ⟨by simp [reply], known⟩
      · exact howed place hmem
  | conclude queue job reply outcome sent reply_eq places books =>
      exact howed place (places.mem_iff.mpr (List.mem_cons_of_mem _ hplace))

theorem accounted_of_moves (h : state.Moves next)
    (hids : next.queues.ids = state.queues.ids) (hstate : state.Accounted) :
    next.Accounted := by
  refine ⟨owed_of_moves h hids hstate.owed, ?_,
    Ledger.balanced_move (ledger_move h hstate.sound) hstate.balanced⟩
  cases h with
  | keep places books => exact books ▸ hstate.sound
  | accept queue job reply known places books =>
      exact books ▸ Books.sound_accept hstate.sound queue
  | conclude queue job reply outcome sent reply_eq places books =>
      exact books ▸ Books.sound_conclude hstate.sound _ outcome sent

theorem accounted_step {setup : LinkSetup} {action : LinkAction}
    (h : state.step setup action = some next) (hstate : state.Accounted) :
    next.Accounted := by
  obtain ⟨hmoves, hids⟩ := moves_step h hstate.owed
  exact accounted_of_moves hmoves hids hstate

theorem accounted_initial (layout : List QueueConfig)
    (hlayout : (layout.map QueueConfig.id).Nodup) (limits : DecodeLimits)
    (readBufferSize : Nat) (burstHub : Bool) :
    (initial layout hlayout limits readBufferSize burstHub).Accounted := by
  have hplaces :
      (initial layout hlayout limits readBufferSize burstHub).places = [] :=
    QueueSet.entries_new layout hlayout
  refine ⟨?_, ?_, ?_⟩
  · intro place hplace
    rw [hplaces] at hplace
    contradiction
  · exact ⟨by simp [books, initial], .nil, .slnil, rfl, rfl, rfl⟩
  · constructor
    · exact .nil
    · simp [ledger, hplaces]
      exact .refl _

/-! ## The end of a run -/

/--
Once the runner has closed its queues they only lose entries, and the queues it
has passed stay empty.
-/
def Draining (state : LinkState) : Prop :=
  match state.phase with
  | .failing remaining => state.queues.runnerClosed = true ∧
      ∀ place ∈ state.queues.entries, place.1 ∈ remaining
  | .stopped => state.queues.runnerClosed = true ∧ state.queues.entries = []
  | _ => True

theorem draining_of_change (h : state.ClientChange next)
    (hstate : state.Draining) : next.Draining := by
  have hentries : state.queues.runnerClosed = true →
      next.queues.runnerClosed = true ∧
        next.queues.entries.Perm state.queues.entries := by
    intro hclosed
    cases h.pushes with
    | nothing entries ids runnerClosed accepted nextReply =>
        exact ⟨runnerClosed.trans hclosed, entries⟩
    | entry queue job reply known entries ids running accepted nextReply =>
        rw [hclosed] at running
        contradiction
  unfold Draining at hstate ⊢
  rw [h.phase]
  split at hstate
  · obtain ⟨hclosed, hperm⟩ := hentries hstate.1
    exact ⟨hclosed, fun place hplace =>
      hstate.2 place (hperm.mem_iff.mp hplace)⟩
  · obtain ⟨hclosed, hperm⟩ := hentries hstate.1
    exact ⟨hclosed, (hstate.2 ▸ hperm).eq_nil⟩
  · trivial

theorem draining_fail {remaining : List QueueId}
    (hphase : state.phase = .failing remaining)
    (hclosed : state.queues.runnerClosed = true)
    (hentries : ∀ place ∈ state.queues.entries, place.1 ∈ remaining) :
    (state.fail remaining).Draining := by
  unfold fail
  split
  · refine ⟨hclosed, List.eq_nil_iff_forall_not_mem.mpr ?_⟩
    intro place hplace
    exact List.not_mem_nil (hentries place hplace)
  next queue remaining =>
    split
    next hnone =>
      refine ⟨hclosed, ?_⟩
      intro place hplace
      rcases List.mem_cons.mp (hentries place hplace) with heq | hmem
      · exact absurd heq (QueueSet.popFrom_none hnone place hplace)
      · exact hmem
    next popped hpopped =>
      obtain ⟨hgives, -⟩ := QueueSet.gives_popFrom hpopped
      obtain ⟨hfinished, hshape⟩ :=
        QueueSet.entries_finishEntry popped.queues queue
      simp only [Draining, phase_conclude, phase_withQueues, hphase,
        queues_conclude, queues_withQueues]
      refine ⟨(hshape.runnerClosed.trans hgives.shape.runnerClosed).trans
        hclosed, ?_⟩
      intro place hplace
      refine hentries place (hgives.entries.mem_iff.mpr ?_)
      exact List.mem_cons_of_mem _ (hfinished.mem_iff.mp hplace)

theorem draining_of_phase {next : LinkState}
    (h : next.phase.closing = false) : next.Draining := by
  unfold Draining
  split
  next hphase =>
    rw [hphase] at h
    contradiction
  next hphase =>
    rw [hphase] at h
    contradiction
  · trivial

theorem draining_runnerStep {setup : LinkSetup} {action : RunnerAction}
    (h : state.runnerStep setup action = some next)
    (hstate : state.Draining) : next.Draining := by
  unfold runnerStep at h
  split at h
  all_goals first | contradiction | injection h with h; subst h
  next hphase =>
    unfold poll
    split <;> exact draining_of_phase rfl
  next hphase => split_ifs <;> exact draining_of_phase rfl
  next hphase => exact draining_of_phase rfl
  next hphase =>
    unfold receive
    dsimp only
    split_ifs <;> exact draining_of_phase rfl
  next hphase =>
    unfold begin
    dsimp only
    split
    · exact draining_of_phase rfl
    · split_ifs <;> exact draining_of_phase rfl
  next hphase =>
    unfold gather
    split_ifs
    · exact draining_of_phase rfl
    split
    · exact draining_of_phase rfl
    split_ifs
    · exact draining_of_phase (congrArg Phase.closing hphase)
    · exact draining_of_phase rfl
    · exact draining_of_phase rfl
  next hphase =>
    unfold exchange
    dsimp only
    split <;> exact draining_of_phase rfl
  next hphase => exact draining_of_phase rfl
  next hphase =>
    unfold complete
    split <;> exact draining_of_phase rfl
  next hphase =>
    unfold requeue
    split
    · exact draining_of_phase rfl
    · split_ifs <;> exact draining_of_phase rfl
  next hphase => exact draining_of_phase rfl
  next hphase => split_ifs <;> exact draining_of_phase rfl
  next hphase =>
    refine ⟨QueueSet.runnerClosed_closeRunner _, ?_⟩
    intro place hplace
    rw [queues_enter, queues_withQueues,
      QueueSet.entries_closeRunner] at hplace
    exact QueueSet.mem_ids_of_mem_entries hplace
  next hphase =>
    simp only [Draining, hphase] at hstate
    exact draining_fail hphase hstate.1 hstate.2

theorem draining_step {setup : LinkSetup} {action : LinkAction}
    (h : state.step setup action = some next) (hstate : state.Draining) :
    next.Draining := by
  cases action with
  | client action => exact draining_of_change (clientStep_change h) hstate
  | runner action => exact draining_runnerStep h hstate

end Invariant

/-! ## Exactly one outcome -/

/--
Where every accepted request stands, how the counters and the senders follow
from it, and what is left when the runner has returned.
-/
structure EndsOnce (state : LinkState) : Prop where
  distinct : (state.accepted.map Prod.snd).Nodup
  onePlace : ∀ ticket ∈ state.accepted,
    (state.queues.entries.filterMap Place.ticket).count ticket +
      (state.phase.followers.filterMap Place.ticket).count ticket +
      (state.phase.leader.toList.filterMap Place.ticket).count ticket +
      (state.outcomes.map Prod.fst).count ticket = 1
  accepted : ∀ ticket, ticket ∈ state.places.filterMap Place.ticket ∨
    ticket ∈ state.outcomes.map Prod.fst → ticket ∈ state.accepted
  completed : state.counters.completed =
    UInt64.ofNat (state.books.tally .completed)
  failed : state.counters.failed = UInt64.ofNat (state.books.tally .failed)
  cancelled : state.counters.cancelled =
    UInt64.ofNat (state.books.tally .cancelled)
  answeredOnce : (state.replies.map Prod.fst).Nodup
  answeredEnded : ∀ reply ∈ state.replies.map Prod.fst,
    reply ∈ state.outcomes.map fun ended => ended.1.2
  settled : state.phase = .stopped → state.queues.entries = [] ∧
    state.accepted.length = state.books.tally .completed +
      state.books.tally .failed + state.books.tally .cancelled ∧
    UInt64.ofNat state.accepted.length = state.counters.completed +
      state.counters.failed + state.counters.cancelled

theorem nodup_outcomes {state : LinkState} (h : state.Accounted) :
    (state.outcomes.map fun ended => ended.1.2).Nodup := by
  have hperm := (h.balanced.perm.map Prod.snd).nodup_iff.mp h.sound.distinct
  rw [List.map_append] at hperm
  have hended := (List.nodup_append.mp hperm).2.1
  rw [List.map_map] at hended
  exact hended

theorem length_outcomes (books : Books) :
    books.outcomes.length =
      books.tally .completed + books.tally .failed + books.tally .cancelled := by
  simp only [Books.tally]
  induction books.outcomes with
  | nil => rfl
  | cons ended outcomes ih =>
      obtain ⟨ticket, outcome⟩ := ended
      rw [List.length_cons, ih]
      cases outcome with
      | completed =>
          simp
          omega
      | failed =>
          simp
          omega
      | cancelled =>
          simp
          omega

theorem endsOnce_of_accounted {state : LinkState} (h : state.Accounted)
    (hdraining : state.Draining) : state.EndsOnce := by
  refine ⟨h.sound.distinct, ?_, ?_, h.sound.completed, h.sound.failed,
    h.sound.cancelled, (nodup_outcomes h).sublist h.sound.sent,
    fun reply hreply => h.sound.sent.subset hreply, ?_⟩
  · intro ticket hticket
    have hcount := h.balanced.count_eq_one hticket
    simp only [ledger, places, List.filterMap_append,
      List.count_append] at hcount
    omega
  · intro ticket hticket
    exact h.balanced.perm.mem_iff.mpr (List.mem_append.mpr hticket)
  · intro hstopped
    simp only [Draining, hstopped] at hdraining
    have hlive : state.ledger.live = [] := by
      simp [ledger, places_of_phase hstopped, Phase.leader, Phase.followers,
        hdraining.2]
    have hlength := (h.balanced.length_of_settled hlive).trans
      (length_outcomes state.books)
    refine ⟨hdraining.2, hlength, ?_⟩
    calc UInt64.ofNat state.accepted.length
        = UInt64.ofNat (state.books.tally .completed +
            state.books.tally .failed + state.books.tally .cancelled) :=
          congrArg UInt64.ofNat hlength
      _ = state.books.completed + state.books.failed +
            state.books.cancelled := by
          rw [UInt64.ofNat_add, UInt64.ofNat_add, h.sound.completed,
            h.sound.failed, h.sound.cancelled]

theorem run_endsOnce (setup : LinkSetup) (layout : List QueueConfig)
    (hlayout : (layout.map QueueConfig.id).Nodup) (limits : DecodeLimits)
    (readBufferSize : Nat) (burstHub : Bool) (actions : List LinkAction)
    (state : LinkState)
    (hrun : (initial layout hlayout limits readBufferSize burstHub).run setup
      actions = some state) :
    state.EndsOnce := by
  have haccounted : state.Accounted :=
    runSteps_invariant accounted_step hrun
      (accounted_initial layout hlayout limits readBufferSize burstHub)
  have hdraining : state.Draining :=
    runSteps_invariant draining_step hrun (draining_of_phase rfl)
  exact endsOnce_of_accounted haccounted hdraining

def servedActions : List LinkAction :=
  startIdentify :: serve (fun _ => receiving identifyResponse.encoding) ++
    [.runner .settle, .runner (.complete 2), .runner .check,
      .client .dropClients, .runner .poll, .runner .readInputClosed,
      .runner .closeRunner, .runner .fail, .runner .fail]

theorem isSome_servedActions :
    (plainLink.run plainSetup servedActions).isSome := by
  decide +kernel

theorem run_endsOnce_served :
    ((plainLink.run plainSetup servedActions).get
      isSome_servedActions).EndsOnce :=
  run_endsOnce plainSetup _ _ _ _ _ servedActions _
    (Option.some_get isSome_servedActions).symm

end LinkState

end HartLink.Service
