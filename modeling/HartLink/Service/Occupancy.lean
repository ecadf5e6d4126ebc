import HartLink.Service.Accounting
import HartLink.Service.Scheduling

/-!
# How the queues of a link are occupied

An entry keeps its permit and its place in the queue's count from its push until
the runner finishes it, also while the runner holds it.  The count that a
scheduling decision reads is therefore exact, and no queue ever holds more
requests than its capacity.
-/

namespace HartLink.Service

open HartLink.Foundation
open HartLink.Wire
open HartLink.Operation

/-! ## Queue layouts -/

def maximumTotalQueueCapacity : Nat := 1048576

def maximumLinkQueues : Nat := 256

inductive QueueConfigError where
  | duplicateId (queue : QueueId)
  | empty
  | tooManyQueues
  | totalCapacity (total : Nat)
  | missingDefault (queue : QueueId)
  deriving DecidableEq, Repr

def checkDefinitions : List QueueConfig → List QueueId → Nat →
    Except QueueConfigError (List QueueId)
  | [], ids, _ => .ok ids
  | definition :: definitions, ids, total =>
      if definition.id ∈ ids then .error (.duplicateId definition.id)
      else if total + definition.capacity ≥ 2 ^ 64 then
        .error (.totalCapacity (2 ^ 64 - 1))
      else if total + definition.capacity > maximumTotalQueueCapacity then
        .error (.totalCapacity (total + definition.capacity))
      else
        checkDefinitions definitions (definition.id :: ids)
          (total + definition.capacity)

def validateLayout (definitions : List QueueConfig) (default : QueueId) :
    Except QueueConfigError Unit :=
  if definitions.isEmpty then .error .empty
  else if definitions.length > maximumLinkQueues then .error .tooManyQueues
  else
    match checkDefinitions definitions [] 0 with
    | .error error => .error error
    | .ok ids =>
        if default ∈ ids then .ok () else .error (.missingDefault default)

theorem checkDefinitions_ok {definitions : List QueueConfig}
    {ids result : List QueueId} {total : Nat}
    (h : checkDefinitions definitions ids total = .ok result)
    (hids : ids.Nodup) :
    (definitions.map QueueConfig.id ++ ids).Nodup ∧
      (definitions ≠ [] →
        total + (definitions.map QueueConfig.capacity).sum ≤
          maximumTotalQueueCapacity) := by
  induction definitions generalizing ids total with
  | nil => exact ⟨hids, fun hne => absurd rfl hne⟩
  | cons definition definitions ih =>
      simp only [checkDefinitions] at h
      split_ifs at h with hmem hlarge htotal
      obtain ⟨hnodup, hsum⟩ := ih h (List.nodup_cons.mpr ⟨hmem, hids⟩)
      constructor
      · rw [List.map_cons, List.cons_append]
        exact List.perm_middle.nodup_iff.mp hnodup
      · intro _
        rw [List.map_cons, List.sum_cons, ← Nat.add_assoc]
        cases definitions with
        | nil => simpa using Nat.le_of_not_lt htotal
        | cons first rest => exact hsum (List.cons_ne_nil _ _)

theorem checkDefinitions_of_validateLayout {definitions : List QueueConfig}
    {default : QueueId} (h : validateLayout definitions default = .ok ()) :
    definitions ≠ [] ∧
      ∃ ids, checkDefinitions definitions [] 0 = .ok ids := by
  unfold validateLayout at h
  split_ifs at h with hempty hmany
  refine ⟨by simpa using hempty, ?_⟩
  split at h
  · contradiction
  next ids hids => exact ⟨ids, hids⟩

theorem nodup_of_validateLayout {definitions : List QueueConfig}
    {default : QueueId} (h : validateLayout definitions default = .ok ()) :
    (definitions.map QueueConfig.id).Nodup := by
  obtain ⟨-, ids, hids⟩ := checkDefinitions_of_validateLayout h
  have hnodup := (checkDefinitions_ok hids List.nodup_nil).1
  rwa [List.append_nil] at hnodup

theorem capacity_of_validateLayout {definitions : List QueueConfig}
    {default : QueueId} (h : validateLayout definitions default = .ok ()) :
    (definitions.map QueueConfig.capacity).sum ≤
      maximumTotalQueueCapacity := by
  obtain ⟨hne, ids, hids⟩ := checkDefinitions_of_validateLayout h
  have hsum := (checkDefinitions_ok hids List.nodup_nil).2 hne
  rwa [Nat.zero_add] at hsum

/-! ## What the runner holds -/

/-- The entries that the runner has taken out and not finished. -/
def Phase.holds : Phase → List Place
  | .begun queue job => [(queue, job)]
  | phase => phase.followers

namespace LinkState

def held (state : LinkState) : List QueueId :=
  state.phase.holds.map Prod.fst

def Occupied (state : LinkState) : Prop :=
  state.queues.Occupied state.held

/-! ## The steps of the clients -/

/-- What a client does to the queues. -/
inductive QueueChange (queues next : QueueSet Job) : Prop
  | same (eq : next = queues)
  | push (queue : QueueId) (job : Job)
      (push : queues.tryPush queue job = .ok next)
  | setPriority (queue : QueueId) (priority : QueuePriority)
      (eq : next = queues.setPriority queue priority)
  | closeInput (eq : next = queues.closeInput)

theorem start_queues (setup : LinkSetup) (state : LinkState)
    (request : Request) (transmitPrefix : Bytes) (requested : QueueId)
    (policy : RetryPolicy) (checkedAt acceptedAt : Nat) :
    (state.start setup request transmitPrefix requested policy checkedAt
        acceptedAt).queues = state.queues ∨
      ∃ queue job, state.queues.tryPush queue job =
        .ok (state.start setup request transmitPrefix requested policy
          checkedAt acceptedAt).queues := by
  unfold start
  split
  · exact .inl rfl
  next queue hqueue =>
    dsimp only
    split
    · exact .inl rfl
    next job hjob =>
      split
      · exact .inl rfl
      next queues hqueues => exact .inr ⟨queue, job, hqueues⟩

theorem clientStep_queues {setup : LinkSetup} {state next : LinkState}
    {action : ClientAction} (h : state.clientStep setup action = some next) :
    QueueChange state.queues next.queues := by
  cases action with
  | start request transmitPrefix queue policy checkedAt acceptedAt =>
      simp only [clientStep] at h
      split_ifs at h
      injection h with h
      subst h
      rcases start_queues setup state request transmitPrefix queue policy
        checkedAt acceptedAt with heq | ⟨target, job, hpush⟩
      · exact .same heq
      · exact .push target job hpush
  | dropReply reply =>
      injection h with h
      subst h
      exact .same rfl
  | setPriority queue priority =>
      simp only [clientStep] at h
      split_ifs at h
      injection h with h
      subst h
      exact .setPriority queue priority rfl
  | dropClients =>
      simp only [clientStep] at h
      split_ifs at h
      injection h with h
      subst h
      exact .closeInput rfl

theorem occupied_clientStep {setup : LinkSetup} {state next : LinkState}
    {action : ClientAction} (h : state.clientStep setup action = some next)
    (hstate : state.Occupied) : next.Occupied := by
  have hphase := (clientStep_change h).phase
  rw [Occupied, held, hphase]
  cases clientStep_queues h with
  | same eq => exact eq ▸ hstate
  | push queue job push => exact QueueSet.Occupied.tryPush hstate push
  | setPriority queue priority eq =>
      exact eq ▸ QueueSet.Occupied.setPriority hstate queue priority
  | closeInput eq => exact eq ▸ hstate

/-! ## The steps of the runner -/

section Steps

variable {setup : LinkSetup} {state : LinkState} {queue : QueueId} {job : Job}
  {reply : ReplyId} {followers : List Job}

theorem occupied_of_phase {next : LinkState} {phase : Phase}
    (hphase : state.phase = phase)
    (hholds : next.phase.holds = phase.holds)
    (hqueues : next.queues = state.queues) (h : state.Occupied) :
    next.Occupied := by
  unfold Occupied held at h ⊢
  rw [hholds, hqueues, ← hphase]
  exact h

theorem occupied_poll (hphase : state.phase = .polling)
    (h : state.Occupied) : state.poll.Occupied := by
  unfold poll
  split
  next popped cursor hpopped =>
    obtain ⟨index, hpop⟩ := QueueSet.popScheduled_popAt hpopped
    unfold Occupied held at h
    rw [hphase] at h
    exact h.popAt hpop
  · exact occupied_of_phase hphase rfl rfl h

theorem occupied_begin {now : Nat} (hphase : state.phase = .begun queue job)
    (h : state.Occupied) : (state.begin queue job now).Occupied := by
  have hfinished : (state.queues.finishEntry queue).Occupied [] := by
    unfold Occupied held at h
    rw [hphase] at h
    exact h.finishEntry
  unfold begin
  dsimp only
  split
  · simpa [Occupied, held, Phase.holds, Phase.followers] using hfinished
  · split_ifs
    · simpa [Occupied, held, Phase.holds, Phase.followers] using hfinished
    · exact hfinished

theorem occupied_gather
    (hphase : state.phase = .gathering queue job reply followers)
    (howed : state.Owed) (h : state.Occupied) :
    (state.gather setup queue job reply followers).Occupied := by
  have hstarted : (state.started queue job reply followers).Occupied :=
    occupied_of_phase hphase rfl rfl h
  unfold gather
  split_ifs
  · exact hstarted
  split
  · exact hstarted
  next popped hpopped =>
    obtain ⟨index, -, hpop⟩ := Option.bind_eq_some_iff.mp hpopped
    have hqueue := (QueueSet.gives_popFrom hpopped).2
    have hheld := QueueSet.Occupied.popAt h hpop
    rw [hqueue, held, hphase] at hheld
    have hknown : queue ∈ popped.queues.ids := by
      rw [(QueueSet.gives_popAt hpop).shape.ids]
      exact howed.known (by rw [hphase]; rfl)
    split_ifs
    · have hfinished := hheld.finishEntry
      unfold Occupied held markCancelled emit withQueues
      rw [hphase]
      exact hfinished
    · refine hheld.perm ?_
      simp only [Phase.holds, Phase.followers, held, List.map_append,
        List.map_cons, List.map_nil]
      exact (List.perm_append_singleton _ _).symm
    · exact hheld.pushFront hknown popped.entry

theorem occupied_complete {value : DeviceReply} {now : Nat}
    (hphase : state.phase = .completing queue followers value)
    (h : state.Occupied) :
    (state.complete queue followers value now).Occupied := by
  cases followers with
  | nil => exact occupied_of_phase hphase rfl rfl h
  | cons follower followers =>
      unfold Occupied held at h
      rw [hphase] at h
      have hfinished := QueueSet.Occupied.finishEntry h
      unfold complete Occupied held
      rw [queues_enter, queues_conclude, phase_enter]
      exact hfinished

theorem occupied_requeue {error : ExchangeError}
    (hphase : state.phase = .requeueing queue job reply followers error)
    (howed : state.Owed) (h : state.Occupied) :
    (state.requeue queue job reply followers error).Occupied := by
  unfold requeue
  split
  next follower hlast =>
    have hknown : queue ∈ state.queues.ids :=
      howed.known (by rw [hphase]; rfl)
    unfold Occupied held at h
    rw [hphase, ← List.dropLast_append_getLast? follower hlast] at h
    refine QueueSet.Occupied.pushFront hknown (h.perm ?_) follower
    simp only [Phase.holds, Phase.followers, List.map_append, List.map_cons,
      List.map_nil]
    exact List.perm_append_singleton _ _
  next hlast =>
    have hnil : followers = [] := List.getLast?_eq_none_iff.mp hlast
    subst hnil
    refine occupied_of_phase hphase ?_ ?_ h
    · split_ifs <;> rfl
    · simp

theorem occupied_fail {remaining : List QueueId}
    (hphase : state.phase = .failing remaining) (h : state.Occupied) :
    (state.fail remaining).Occupied := by
  unfold fail
  split
  · exact occupied_of_phase hphase rfl rfl h
  next queue remaining =>
    split
    · exact occupied_of_phase hphase rfl rfl h
    next popped hpopped =>
      obtain ⟨index, -, hpop⟩ := Option.bind_eq_some_iff.mp hpopped
      have hheld := QueueSet.Occupied.popAt h hpop
      rw [(QueueSet.gives_popFrom hpopped).2] at hheld
      have hfinished := hheld.finishEntry
      simpa [Occupied, held, hphase] using hfinished

theorem occupied_runnerStep {next : LinkState} {action : RunnerAction}
    (h : state.runnerStep setup action = some next) (howed : state.Owed)
    (hstate : state.Occupied) : next.Occupied := by
  unfold runnerStep at h
  split at h
  all_goals first | contradiction | injection h with h; subst h
  next hphase => exact occupied_poll hphase hstate
  next hphase =>
    split_ifs <;> exact occupied_of_phase hphase rfl rfl hstate
  next hphase => exact occupied_of_phase hphase rfl rfl hstate
  next hphase =>
    unfold receive
    dsimp only
    split_ifs <;> exact occupied_of_phase hphase rfl rfl hstate
  next hphase => exact occupied_begin hphase hstate
  next hphase => exact occupied_gather hphase howed hstate
  next hphase =>
    unfold exchange
    dsimp only
    split <;> exact occupied_of_phase hphase rfl rfl hstate
  next hphase =>
    exact occupied_of_phase hphase rfl (by simp) hstate
  next hphase => exact occupied_complete hphase hstate
  next hphase => exact occupied_requeue hphase howed hstate
  next hphase => exact occupied_of_phase hphase rfl rfl hstate
  next hphase =>
    split_ifs <;> exact occupied_of_phase hphase rfl rfl hstate
  next hphase =>
    have hclosed := QueueSet.Occupied.closeRunner hstate
    rw [held, hphase] at hclosed
    exact hclosed
  next hphase => exact occupied_fail hphase hstate

theorem occupied_step {next : LinkState} {action : LinkAction}
    (h : state.step setup action = some next) (howed : state.Owed)
    (hstate : state.Occupied) : next.Occupied := by
  cases action with
  | client action => exact occupied_clientStep h hstate
  | runner action => exact occupied_runnerStep h howed hstate

end Steps

/-! ## Configurations along a run -/

section Configs

variable {setup : LinkSetup} {state next : LinkState}

theorem configs_finishEntry (queues : QueueSet Job) (id : QueueId) :
    (queues.finishEntry id).configs = queues.configs :=
  QueueSet.configs_onSlot queues id QueueSlot.id_finishEntry fun _ => rfl

theorem configs_pushFront (queues : QueueSet Job) (id : QueueId)
    (job : Job) : (queues.pushFront id job).configs = queues.configs :=
  QueueSet.configs_onSlot queues id (QueueSlot.id_pushFront job) fun _ => rfl

theorem configs_popFrom {queues : QueueSet Job} {id : QueueId}
    {popped : Popped Job} (h : queues.popFrom id = some popped) :
    popped.queues.configs = queues.configs := by
  obtain ⟨index, -, hpop⟩ := Option.bind_eq_some_iff.mp h
  exact QueueSet.configs_popAt hpop

theorem configs_gather (queue : QueueId) (job : Job) (reply : ReplyId)
    (followers : List Job) :
    (state.gather setup queue job reply followers).queues.configs =
      state.queues.configs := by
  unfold gather
  split_ifs
  · rfl
  split
  · rfl
  next popped hpopped =>
    have hconfigs := configs_popFrom hpopped
    split_ifs
    · exact (configs_finishEntry _ _).trans hconfigs
    · exact hconfigs
    · exact (configs_pushFront _ _ _).trans hconfigs

theorem configs_runnerStep {action : RunnerAction}
    (h : state.runnerStep setup action = some next) :
    next.queues.configs = state.queues.configs := by
  unfold runnerStep at h
  split at h
  all_goals first | contradiction | injection h with h; subst h
  next hphase =>
    unfold poll
    split
    next popped cursor hpopped =>
      obtain ⟨index, hpop⟩ := QueueSet.popScheduled_popAt hpopped
      exact QueueSet.configs_popAt hpop
    · rfl
  · rfl
  · rfl
  · rfl
  next hphase =>
    unfold begin
    dsimp only
    split
    · simpa using configs_finishEntry _ _
    · split_ifs
      · simpa using configs_finishEntry _ _
      · exact configs_finishEntry _ _
  next hphase => exact configs_gather ..
  · rfl
  · simp
  next hphase =>
    unfold complete
    split
    · rfl
    · simpa using configs_finishEntry _ _
  next hphase =>
    unfold requeue
    split
    · exact configs_pushFront _ _ _
    · simp
  · rfl
  · rfl
  next hphase => exact QueueSet.configs_closeRunner _
  next hphase =>
    unfold fail
    split
    · rfl
    · split
      · rfl
      next popped hpopped =>
        simpa using (configs_finishEntry _ _).trans (configs_popFrom hpopped)

theorem configs_step {action : LinkAction}
    (h : state.step setup action = some next)
    (hfixed : ∀ queue priority,
      action ≠ .client (.setPriority queue priority)) :
    next.queues.configs = state.queues.configs := by
  cases action with
  | runner action => exact configs_runnerStep h
  | client action =>
      cases action with
      | setPriority queue priority => exact absurd rfl (hfixed queue priority)
      | start request transmitPrefix queue policy checkedAt acceptedAt =>
          simp only [step, clientStep] at h
          split_ifs at h
          injection h with h
          subst h
          rcases start_queues setup state request transmitPrefix queue policy
            checkedAt acceptedAt with heq | ⟨target, job, hpush⟩
          · rw [heq]
          · exact QueueSet.configs_tryPush hpush
      | dropReply reply =>
          injection h with h
          subst h
          rfl
      | dropClients =>
          simp only [step, clientStep] at h
          split_ifs at h
          injection h with h
          subst h
          rfl

theorem capacities_step {action : LinkAction}
    (h : state.step setup action = some next) :
    next.queues.capacities = state.queues.capacities := by
  cases action with
  | runner action =>
      exact QueueSet.capacities_of_configs (configs_runnerStep h)
  | client action =>
      cases clientStep_queues h with
      | same eq => rw [eq]
      | push queue job push =>
          exact QueueSet.capacities_of_configs
            (QueueSet.configs_tryPush push)
      | setPriority queue priority eq =>
          rw [eq]
          exact QueueSet.capacities_setPriority _ _ _
      | closeInput eq =>
          rw [eq]
          rfl

end Configs

end LinkState

/-! ## Runs -/

/-- What a link is built from; its layout has passed the validation. -/
structure LinkBuild where
  layout : List QueueConfig
  default : QueueId
  limits : DecodeLimits
  readBufferSize : Nat
  burstHub : Bool
  valid : validateLayout layout default = .ok ()

def LinkBuild.initial (build : LinkBuild) : LinkState :=
  .initial build.layout (nodup_of_validateLayout build.valid) build.limits
    build.readBufferSize build.burstHub

/-- A run of the link from its start comes to the state. -/
def LinkBuild.Reaches (build : LinkBuild) (setup : LinkSetup)
    (state : LinkState) : Prop :=
  ∃ actions, build.initial.run setup actions = some state

theorem LinkBuild.Reaches.step {build : LinkBuild} {setup : LinkSetup}
    {state next : LinkState} {action : LinkAction}
    (h : build.Reaches setup state)
    (hstep : state.step setup action = some next) :
    build.Reaches setup next := by
  obtain ⟨actions, hrun⟩ := h
  exact ⟨actions ++ [action], runSteps_concat _ hrun hstep⟩

namespace LinkState

section Runs

variable {setup : LinkSetup} {build : LinkBuild} {actions : List LinkAction}
  {state : LinkState}

theorem accounted_run (hrun : build.initial.run setup actions = some state) :
    state.Accounted :=
  runSteps_invariant accounted_step hrun (accounted_initial _ _ _ _ _)

theorem occupied_run (hrun : build.initial.run setup actions = some state) :
    state.Occupied := by
  have hboth : state.Accounted ∧ state.Occupied := by
    refine @runSteps_invariant _ _ (step setup)
      (fun state => state.Accounted ∧ state.Occupied) ?_ _ _ _ hrun
      ⟨accounted_initial _ _ _ _ _, QueueSet.occupied_new build.layout
        (nodup_of_validateLayout build.valid)⟩
    intro state next action hnext hstate
    exact ⟨accounted_step hnext hstate.1,
      occupied_step hnext hstate.1.owed hstate.2⟩
  exact hboth.2

theorem capacities_run (hrun : build.initial.run setup actions = some state) :
    state.queues.capacities =
      build.layout.map fun config => (config.id, config.capacity) := by
  refine @runSteps_invariant _ _ (step setup)
    (fun state => state.queues.capacities =
      build.layout.map fun config => (config.id, config.capacity)) ?_ _ _ _
    hrun ?_
  · intro state next action hnext hstate
    exact (capacities_step hnext).trans hstate
  · simp only [LinkBuild.initial, initial, QueueSet.capacities, QueueSet.new,
      List.map_map]
    rfl

/-- No capacity reaches the range of the counters. -/
theorem capacity_le_run (hrun : build.initial.run setup actions = some state)
    {slot : QueueSlot Job} (hslot : slot ∈ state.queues.slots) :
    slot.capacity ≤ maximumTotalQueueCapacity := by
  have hmem : (slot.id, slot.capacity) ∈ state.queues.capacities :=
    List.mem_map.mpr ⟨slot, hslot, rfl⟩
  rw [capacities_run hrun] at hmem
  obtain ⟨config, hconfig, heq⟩ := List.mem_map.mp hmem
  injection heq with hid hcapacity
  rw [← hcapacity]
  exact (List.le_sum_of_mem (List.mem_map.mpr ⟨config, hconfig, rfl⟩)).trans
    (capacity_of_validateLayout build.valid)

theorem counted_run (hrun : build.initial.run setup actions = some state)
    (hholds : state.phase.holds = []) : state.queues.Counted := by
  intro slot hslot
  obtain ⟨hpermits, hqueued⟩ := occupied_run hrun slot hslot
  have hcapacity := capacity_le_run hrun hslot
  simp only [held, hholds, List.map_nil, List.count_nil, Nat.add_zero]
    at hpermits hqueued
  have hlength : slot.entries.length < 2 ^ 64 := by
    unfold maximumTotalQueueCapacity at hcapacity
    omega
  rw [hqueued, UInt64.lt_iff_toNat_lt, UInt64.toNat_ofNat_of_lt' hlength]
  simp [List.length_pos_iff]

/--
At every decision of a run the scheduler finds an entry if there is one, takes
the front entry of a queue of the largest strict rank among the queues with
entries, or of a weighted queue if these are all weighted, and changes no other
queue.
-/
theorem run_schedules (setup : LinkSetup) (build : LinkBuild)
    (actions : List LinkAction) (state : LinkState)
    (hrun : build.initial.run setup actions = some state)
    (hphase : state.phase = .polling) :
    ((state.queues.popScheduled state.cursor).1 = none ↔
        ∀ slot ∈ state.queues.slots, slot.entries = []) ∧
      ∀ popped, (state.queues.popScheduled state.cursor).1 = some popped →
        state.queues.Serves popped :=
  QueueSet.popScheduled_spec
    (counted_run hrun (by rw [hphase]; rfl)) state.cursor

def pairBuild : LinkBuild :=
  { layout := [⟨⟨0⟩, 2, .default⟩, ⟨⟨1⟩, 2, .strict 7⟩]
    default := ⟨0⟩
    limits := ⟨4096, 2, .strict⟩
    readBufferSize := 512
    burstHub := true
    valid := by decide }

def startIn (queue : QueueId) : LinkAction :=
  .client (.start identifyRequest [] queue .default 0 0)

theorem isSome_pairRun :
    (pairBuild.initial.run plainSetup [startIn ⟨0⟩, startIn ⟨1⟩]).isSome := by
  decide +kernel

theorem run_schedules_pair :
    let state := (pairBuild.initial.run plainSetup
      [startIn ⟨0⟩, startIn ⟨1⟩]).get isSome_pairRun
    ((state.queues.popScheduled state.cursor).1 = none ↔
        ∀ slot ∈ state.queues.slots, slot.entries = []) ∧
      ∀ popped, (state.queues.popScheduled state.cursor).1 = some popped →
        state.queues.Serves popped :=
  run_schedules plainSetup pairBuild [startIn ⟨0⟩, startIn ⟨1⟩] _
    (Option.some_get isSome_pairRun).symm (by decide +kernel)

end Runs

end LinkState

end HartLink.Service
