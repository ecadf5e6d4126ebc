import HartLink.Foundation.Steps
import HartLink.Service.QueueSet
import Mathlib.Logic.Relation

/-!
# Pushing into queues whose runner stops

The other modules take a push and the closing of the queues as one step each.
Here every access to the shared state is a step of its own: a push reads the
flag, takes a permit, reads the flag again, appends its entry and counts it; the
runner sets the flag, closes the semaphores one by one and drains the queues one
by one.  `steps_tryPush` and `steps_closeRunner` lead back to the single steps.
-/

namespace HartLink.Service

open HartLink.Foundation

namespace QueueSlot

variable {α : Type*}

def takePermit (slot : QueueSlot α) : QueueSlot α :=
  { slot with permits := slot.permits - 1 }

def returnPermit (slot : QueueSlot α) : QueueSlot α :=
  { slot with permits := slot.permits + 1 }

def append (entry : α) (slot : QueueSlot α) : QueueSlot α :=
  { slot with entries := slot.entries ++ [entry] }

def countUp (slot : QueueSlot α) : QueueSlot α :=
  { slot with queued := slot.queued + 1 }

theorem id_takePermit (slot : QueueSlot α) : slot.takePermit.id = slot.id := rfl

theorem id_returnPermit (slot : QueueSlot α) :
    slot.returnPermit.id = slot.id := rfl

theorem id_append (entry : α) (slot : QueueSlot α) :
    (slot.append entry).id = slot.id := rfl

theorem id_countUp (slot : QueueSlot α) : slot.countUp.id = slot.id := rfl

theorem id_close (slot : QueueSlot α) : slot.close.id = slot.id := rfl

end QueueSlot

/-! ## The pushing side -/

/-- Where a call of `push` or `try_push` stands. -/
inductive PushPoint where
  | ready
  | admitted
  | permitted
  | rechecked
  | appended
  | returned (result : Except QueuePushError Unit)
  deriving DecidableEq

/-- A call; it waits for a permit if it is a `push`. -/
structure Push (α : Type*) where
  queue : QueueId
  entry : α
  waits : Bool
  point : PushPoint := .ready
  deriving DecidableEq

namespace Push

variable {α : Type*}

def reach (push : Push α) (point : PushPoint) : Push α :=
  { push with point }

/-- The next step of a call; a call that waits in vain has none. -/
def step (push : Push α) (queues : QueueSet α) :
    Option (Push α × QueueSet α) :=
  match queues.slotOf push.queue with
  | none =>
      match push.point with
      | .ready =>
          some (push.reach (.returned (.error (.unknown push.queue))), queues)
      | _ => none
  | some slot =>
      match push.point with
      | .ready =>
          if queues.runnerClosed then
            some (push.reach (.returned (.error .closed)), queues)
          else some (push.reach .admitted, queues)
      | .admitted =>
          if slot.permitsClosed then
            some (push.reach (.returned (.error .closed)), queues)
          else if slot.permits = 0 then
            if push.waits then none
            else some (push.reach (.returned (.error .full)), queues)
          else
            some (push.reach .permitted, queues.onSlot push.queue
              QueueSlot.takePermit QueueSlot.id_takePermit)
      | .permitted =>
          if queues.runnerClosed then
            some (push.reach (.returned (.error .closed)),
              queues.onSlot push.queue QueueSlot.returnPermit
                QueueSlot.id_returnPermit)
          else some (push.reach .rechecked, queues)
      | .rechecked =>
          some (push.reach .appended, queues.onSlot push.queue
            (QueueSlot.append push.entry) (QueueSlot.id_append push.entry))
      | .appended =>
          some (push.reach (.returned (.ok ())), queues.onSlot push.queue
            QueueSlot.countUp QueueSlot.id_countUp)
      | .returned _ => none

def expire (push : Push α) : Option (Push α) :=
  if push.point = .admitted ∧ push.waits then
    some (push.reach (.returned (.error .deadline)))
  else none

def place (push : Push α) : Option (QueueId × α) :=
  match push.point with
  | .appended | .returned (.ok _) => some (push.queue, push.entry)
  | _ => none

end Push

/-! ## The stopping runner -/

inductive StopPoint where
  | running
  | closing (remaining : List QueueId)
  | draining (remaining : List QueueId)
  | exited
  deriving DecidableEq

namespace StopPoint

def Passed : StopPoint → QueueId → Prop
  | .running, _ | .closing _, _ => False
  | .draining remaining, queue => queue ∉ remaining
  | .exited, _ => True

instance (point : StopPoint) (queue : QueueId) :
    Decidable (point.Passed queue) :=
  match point with
  | .running | .closing _ => isFalse id
  | .draining remaining => inferInstanceAs (Decidable (queue ∉ remaining))
  | .exited => isTrue trivial

end StopPoint

/-- `popped` records the entries that the runner has taken out, in order. -/
structure StopState (α : Type*) where
  queues : QueueSet α
  pushes : List (Push α)
  point : StopPoint := .running
  popped : List (QueueId × α) := []

inductive StopAction where
  | push (index : Nat)
  | expire (index : Nat)
  | runner
  deriving DecidableEq, Repr

namespace StopState

variable {α : Type*}

/-- One step of `close_runner` and of the drain in `fail_pending_jobs`. -/
def runnerStep (state : StopState α) : Option (StopState α) :=
  match state.point with
  | .running =>
      if state.queues.runnerClosed then
        some { state with point := .draining state.queues.ids }
      else
        some { state with
          queues := { state.queues with runnerClosed := true }
          point := .closing state.queues.ids }
  | .closing [] => some { state with point := .draining state.queues.ids }
  | .closing (queue :: remaining) =>
      some { state with
        queues := state.queues.onSlot queue QueueSlot.close QueueSlot.id_close
        point := .closing remaining }
  | .draining [] => some { state with point := .exited }
  | .draining (queue :: remaining) =>
      match state.queues.popFrom queue with
      | none => some { state with point := .draining remaining }
      | some popped =>
          some { state with
            queues := popped.queues.finishEntry queue
            popped := state.popped ++ [(queue, popped.entry)] }
  | .exited => none

def step (state : StopState α) : StopAction → Option (StopState α)
  | .push index =>
      match state.pushes[index]? with
      | none => none
      | some push =>
          match push.step state.queues with
          | none => none
          | some (next, queues) =>
              some { state with
                queues, pushes := state.pushes.set index next }
  | .expire index =>
      match state.pushes[index]? with
      | none => none
      | some push =>
          match push.expire with
          | none => none
          | some next =>
              some { state with pushes := state.pushes.set index next }
  | .runner => state.runnerStep

def Finished (state : StopState α) : Prop :=
  state.point = .exited ∧
    ∀ push ∈ state.pushes, ∃ result, push.point = .returned result

/--
No entry remains, and the runner has taken out what was there at first and every
entry whose call returned without an error.
-/
def NoneStranded (state : StopState α) (queues : QueueSet α) : Prop :=
  state.queues.entries = [] ∧
    state.popped.Perm
      (queues.entries ++ state.pushes.filterMap Push.place)

/-- No call appends its entry to a queue that the runner will not look into. -/
def InTime (state : StopState α) : StopAction → Prop
  | .push index =>
      ∀ push, state.pushes[index]? = some push → push.point = .rechecked →
        ¬ state.point.Passed push.queue
  | _ => True

end StopState

/-! ## What one step does to the entries -/

namespace Push

variable {α : Type*} {push next : Push α} {queues after : QueueSet α}

/-- A call appends its entry in one step and leaves the entries otherwise. -/
inductive Effect (push next : Push α) (queues after : QueueSet α) : Prop
  | append (point : push.point = .rechecked) (place : push.place = none)
      (next_place : next.place = some (push.queue, push.entry))
      (entries : after.entries.Perm
        ((push.queue, push.entry) :: queues.entries))
  | keep (point : push.point ≠ .rechecked) (place : next.place = push.place)
      (entries : after.entries.Perm queues.entries)

theorem step_effect (h : push.step queues = some (next, after)) :
    push.Effect next queues after := by
  unfold step at h
  split at h
  · split at h
    · rename_i hpoint
      simp only [Option.some.injEq, Prod.mk.injEq] at h
      obtain ⟨rfl, rfl⟩ := h
      exact .keep (by simp [hpoint]) (by simp [place, hpoint, reach]) (.refl _)
    · contradiction
  next slot hslot =>
    have hid := QueueSet.mem_ids_of_slotOf hslot
    split at h
    next hpoint =>
      split_ifs at h
      all_goals
        simp only [Option.some.injEq, Prod.mk.injEq] at h
        obtain ⟨rfl, rfl⟩ := h
        exact .keep (by simp [hpoint]) (by simp [place, hpoint, reach])
          (.refl _)
    next hpoint =>
      split_ifs at h
      all_goals
        simp only [Option.some.injEq, Prod.mk.injEq] at h
        obtain ⟨rfl, rfl⟩ := h
        refine .keep (by simp [hpoint]) (by simp [place, hpoint, reach]) ?_
      · exact .refl _
      · exact .refl _
      · exact QueueSet.entries_onSlot _ _ _ _ fun _ => rfl
    next hpoint =>
      split_ifs at h
      all_goals
        simp only [Option.some.injEq, Prod.mk.injEq] at h
        obtain ⟨rfl, rfl⟩ := h
        refine .keep (by simp [hpoint]) (by simp [place, hpoint, reach]) ?_
      · exact QueueSet.entries_onSlot _ _ _ _ fun _ => rfl
      · exact .refl _
    next hpoint =>
      simp only [Option.some.injEq, Prod.mk.injEq] at h
      obtain ⟨rfl, rfl⟩ := h
      exact .append hpoint (by simp [place, hpoint])
        (by simp [place, reach])
        (QueueSet.entries_onSlot_add hid _ fun slot =>
          QueueSet.placed_append slot push.entry)
    next hpoint =>
      simp only [Option.some.injEq, Prod.mk.injEq] at h
      obtain ⟨rfl, rfl⟩ := h
      exact .keep (by simp [hpoint]) (by simp [place, hpoint, reach])
        (QueueSet.entries_onSlot _ _ _ _ fun _ => rfl)
    next => contradiction

theorem expire_place (h : push.expire = some next) :
    next.place = push.place := by
  unfold expire at h
  split_ifs at h with hpoint
  injection h with h
  subst h
  simp [place, reach, hpoint.1]

end Push

namespace StopState

variable {α : Type*} {state next : StopState α}

def appeared (state : StopState α) : List (QueueId × α) :=
  state.queues.entries ++ state.popped

def pushed (state : StopState α) : List (QueueId × α) :=
  state.pushes.filterMap Push.place

theorem filterMap_set {pushes : List (Push α)} {index : Nat}
    {push : Push α} (h : pushes[index]? = some push) (other : Push α) :
    ∃ others, (pushes.filterMap Push.place).Perm
        (push.place.toList ++ others) ∧
      ((pushes.set index other).filterMap Push.place).Perm
        (other.place.toList ++ others) := by
  have hcons : ∀ (first : Push α) (rest : List (Push α)),
      (first :: rest).filterMap Push.place =
        first.place.toList ++ rest.filterMap Push.place := by
    intro first rest
    cases hplace : first.place <;> simp [hplace]
  obtain ⟨hindex, hget⟩ := List.getElem?_eq_some_iff.mp h
  have hbefore := (List.getElem_cons_eraseIdx_perm hindex).filterMap Push.place
  have hafter := (List.set_perm_cons_eraseIdx hindex other).filterMap
    Push.place
  rw [hget, hcons] at hbefore
  rw [hcons] at hafter
  exact ⟨_, hbefore.symm, hafter⟩

/-- Entries appear in the queues when a call appends them. -/
inductive Effect (state next : StopState α) : Prop
  | keep (appeared : next.appeared.Perm state.appeared)
      (pushed : next.pushed.Perm state.pushed)
  | append (place : QueueId × α)
      (appeared : next.appeared.Perm (place :: state.appeared))
      (pushed : next.pushed.Perm (place :: state.pushed))

theorem push_effect {index : Nat} (h : state.step (.push index) = some next) :
    state.Effect next := by
  simp only [step] at h
  split at h
  · contradiction
  next push hpush =>
    split at h
    · contradiction
    next other queues hstep =>
      injection h with h
      subst h
      obtain ⟨others, hbefore, hafter⟩ := filterMap_set hpush other
      cases Push.step_effect hstep with
      | append point place next_place entries =>
          rw [place] at hbefore
          rw [next_place] at hafter
          exact .append (push.queue, push.entry) (entries.append_right _)
            (hafter.trans (hbefore.symm.cons _))
      | keep point place entries =>
          rw [place] at hafter
          exact .keep (entries.append_right _) (hafter.trans hbefore.symm)

theorem expire_effect {index : Nat}
    (h : state.step (.expire index) = some next) : state.Effect next := by
  simp only [step] at h
  split at h
  · contradiction
  next push hpush =>
    split at h
    · contradiction
    next other hexpire =>
      injection h with h
      subst h
      obtain ⟨others, hbefore, hafter⟩ := filterMap_set hpush other
      rw [Push.expire_place hexpire] at hafter
      exact .keep (.refl _) (hafter.trans hbefore.symm)

theorem runner_effect (h : state.step .runner = some next) :
    state.Effect next := by
  simp only [step, runnerStep] at h
  split at h
  · split_ifs at h
    all_goals
      injection h with h
      subst h
      exact .keep (.refl _) (.refl _)
  · injection h with h
    subst h
    exact .keep (.refl _) (.refl _)
  · injection h with h
    subst h
    refine .keep (List.Perm.append_right _ ?_) (.refl _)
    exact QueueSet.entries_onSlot _ _ _ _ fun _ => rfl
  · injection h with h
    subst h
    exact .keep (.refl _) (.refl _)
  next queue remaining hpoint =>
    split at h
    · injection h with h
      subst h
      exact .keep (.refl _) (.refl _)
    next popped hpopped =>
      injection h with h
      subst h
      obtain ⟨hgives, hqueue⟩ := QueueSet.gives_popFrom hpopped
      have hentries := hqueue ▸ hgives.entries
      have hfinished := (popped.queues.entries_finishEntry queue).1
      refine .keep ?_ (.refl _)
      calc (popped.queues.finishEntry queue).entries ++
              (state.popped ++ [(queue, popped.entry)])
          |>.Perm (popped.queues.entries ++
              (state.popped ++ [(queue, popped.entry)])) :=
            hfinished.append_right _
        _ |>.Perm (popped.queues.entries ++
              ((queue, popped.entry) :: state.popped)) :=
            (List.perm_append_singleton _ _).append_left _
        _ |>.Perm ((queue, popped.entry) ::
              (popped.queues.entries ++ state.popped)) := List.perm_middle
        _ |>.Perm (state.queues.entries ++ state.popped) :=
            (hentries.symm.append_right _)
  · contradiction

theorem step_effect {action : StopAction}
    (h : state.step action = some next) : state.Effect next := by
  cases action with
  | push index => exact push_effect h
  | expire index => exact expire_effect h
  | runner => exact runner_effect h

def Accounts (state : StopState α) (queues : QueueSet α) : Prop :=
  state.appeared.Perm (queues.entries ++ state.pushed)

theorem accounts_step {queues : QueueSet α} {action : StopAction}
    (h : state.step action = some next) (hstate : state.Accounts queues) :
    next.Accounts queues := by
  cases step_effect h with
  | keep appeared pushed =>
      exact appeared.trans (hstate.trans (pushed.symm.append_left _))
  | append place appeared pushed =>
      refine appeared.trans ((hstate.cons place).trans ?_)
      exact List.perm_middle.symm.trans (pushed.symm.append_left _)

/-! ## Entries behind the runner -/

/-- The runner still has every queue that holds an entry before it. -/
def Kept (state : StopState α) : Prop :=
  ∀ place ∈ state.queues.entries, ¬ state.point.Passed place.1

theorem kept_cons {point : StopPoint} {entries more : List (QueueId × α)}
    {place : QueueId × α} (h : more.Perm (place :: entries)) :
    (∀ other ∈ more, ¬ point.Passed other.1) ↔
      (∀ other ∈ entries, ¬ point.Passed other.1) ∧
        ¬ point.Passed place.1 := by
  constructor
  · intro hmore
    refine ⟨fun other hother => hmore other ?_, hmore place ?_⟩
    · exact h.mem_iff.mpr (List.mem_cons_of_mem _ hother)
    · exact h.mem_iff.mpr List.mem_cons_self
  · rintro ⟨hentries, hplace⟩ other hother
    rcases List.mem_cons.mp (h.mem_iff.mp hother) with rfl | hold
    · exact hplace
    · exact hentries other hold

theorem kept_push {index : Nat} (h : state.step (.push index) = some next) :
    next.Kept ↔ state.Kept ∧ state.InTime (.push index) := by
  simp only [step] at h
  split at h
  · contradiction
  next push hpush =>
    split at h
    · contradiction
    next other queues hstep =>
      injection h with h
      subst h
      have hintime : state.InTime (.push index) ↔
          (push.point = .rechecked → ¬ state.point.Passed push.queue) := by
        simp [InTime, hpush]
      rw [hintime]
      cases Push.step_effect hstep with
      | append point place next_place entries =>
          refine (kept_cons entries).trans (and_congr_right' ?_)
          exact ⟨fun hahead _ => hahead, fun hahead => hahead point⟩
      | keep point place entries =>
          simp only [point, false_implies, and_true]
          exact forall_congr' fun place => imp_congr_left entries.mem_iff

theorem kept_of_running (h : state.point = .running) : state.Kept := by
  intro place hplace
  rw [h]
  exact id

theorem kept_of_closing {remaining : List QueueId}
    (h : state.point = .closing remaining) : state.Kept := by
  intro place hplace
  rw [h]
  exact id

theorem kept_of_draining (h : state.point = .draining state.queues.ids) :
    state.Kept := by
  intro place hplace hpassed
  rw [h] at hpassed
  exact hpassed (QueueSet.mem_ids_of_mem_entries hplace)

theorem kept_pass {queue : QueueId} {remaining : List QueueId}
    (hpoint : state.point = .draining (queue :: remaining))
    (hnone : state.queues.popFrom queue = none) :
    { state with point := .draining remaining }.Kept ↔ state.Kept := by
  have hother := QueueSet.popFrom_none hnone
  unfold Kept
  rw [hpoint]
  refine forall₂_congr fun place hplace => not_congr ?_
  simp [StopPoint.Passed, hother place hplace]

theorem kept_pop {queue : QueueId} {remaining : List QueueId}
    {popped : Popped α}
    (hpoint : state.point = .draining (queue :: remaining))
    (hpopped : state.queues.popFrom queue = some popped) :
    { state with
      queues := popped.queues.finishEntry queue
      popped := state.popped ++ [(queue, popped.entry)] }.Kept ↔
        state.Kept := by
  obtain ⟨hgives, hqueue⟩ := QueueSet.gives_popFrom hpopped
  have hentries := hqueue ▸ hgives.entries
  have hfinished := (popped.queues.entries_finishEntry queue).1
  have hahead : ¬ state.point.Passed queue := by
    simp [hpoint, StopPoint.Passed]
  have hkept := (kept_cons (hentries.trans (hfinished.symm.cons _))).trans
    (and_iff_left hahead)
  exact hkept.symm

theorem kept_runner (h : state.step .runner = some next) :
    next.Kept ↔ state.Kept := by
  simp only [step, runnerStep] at h
  split at h
  next hpoint =>
    split_ifs at h
    · injection h with h
      subst h
      exact iff_of_true (kept_of_draining rfl) (kept_of_running hpoint)
    · injection h with h
      subst h
      exact iff_of_true (kept_of_closing rfl) (kept_of_running hpoint)
  next hpoint =>
    injection h with h
    subst h
    exact iff_of_true (kept_of_draining rfl) (kept_of_closing hpoint)
  next queue remaining hpoint =>
    injection h with h
    subst h
    exact iff_of_true (kept_of_closing rfl) (kept_of_closing hpoint)
  next hpoint =>
    injection h with h
    subst h
    unfold Kept
    rw [hpoint]
    simp [StopPoint.Passed]
  next queue remaining hpoint =>
    split at h
    next hnone =>
      injection h with h
      subst h
      exact kept_pass hpoint hnone
    next popped hpopped =>
      injection h with h
      subst h
      exact kept_pop hpoint hpopped
  · contradiction

theorem kept_step {action : StopAction} (h : state.step action = some next) :
    next.Kept ↔ state.Kept ∧ state.InTime action := by
  cases action with
  | push index => exact kept_push h
  | expire index =>
      simp only [step] at h
      split at h
      · contradiction
      split at h
      · contradiction
      injection h with h
      subst h
      exact (and_iff_left trivial).symm
  | runner => exact (kept_runner h).trans (and_iff_left trivial).symm

/-! ## Complete runs -/

theorem noneStranded_iff_kept {queues : QueueSet α}
    (hfinished : state.Finished) (haccounts : state.Accounts queues) :
    state.NoneStranded queues ↔ state.Kept := by
  obtain ⟨hexited, -⟩ := hfinished
  have hkept : state.Kept ↔ state.queues.entries = [] := by
    rw [List.eq_nil_iff_forall_not_mem, Kept, hexited]
    simp [StopPoint.Passed]
  rw [hkept]
  constructor
  · exact And.left
  · intro hempty
    rw [Accounts, appeared, hempty] at haccounts
    exact ⟨hempty, haccounts⟩

/--
In every complete run the runner has taken out exactly the entries that were
there and those whose calls succeeded, if and only if no call appended its entry
to a queue that the runner had already left behind.
-/
theorem runSteps_noneStranded_iff (queues : QueueSet α)
    (pushes : List (Push α)) (hready : ∀ push ∈ pushes, push.point = .ready)
    (actions : List StopAction) (final : StopState α)
    (hrun : runSteps step { queues, pushes } actions = some final)
    (hfinished : final.Finished) :
    final.NoneStranded queues ↔
      Along step InTime { queues, pushes } actions := by
  have hinitial : ({ queues, pushes } : StopState α).Accounts queues := by
    have hnone : pushes.filterMap Push.place = [] := by
      rw [List.filterMap_eq_nil_iff]
      intro push hpush
      simp [Push.place, hready push hpush]
    simp [Accounts, appeared, pushed, hnone]
  have haccounts : final.Accounts queues :=
    @runSteps_invariant _ _ step (fun state => state.Accounts queues)
      accounts_step _ _ _ hrun hinitial
  have hkept := runSteps_iff_along (fun _ _ => trivial)
    (fun h (_ : True) => kept_step h) hrun trivial
  rw [noneStranded_iff_kept hfinished haccounts, hkept]
  exact and_iff_right (kept_of_running rfl)

/-! ### One push and a runner -/

def oneQueue : QueueSet Nat :=
  .new [⟨⟨0⟩, 1, .default⟩] (by decide)

def onePush : List (Push Nat) := [⟨⟨0⟩, 7, false, .ready⟩]

def callSteps (steps : Nat) : List StopAction :=
  List.replicate steps (.push 0)

def stopSteps : List StopAction := List.replicate 5 .runner

theorem finished_of_points {state : StopState Nat}
    {result : Except QueuePushError Unit} (hpoint : state.point = .exited)
    (hpushes : state.pushes.map Push.point = [.returned result]) :
    state.Finished := by
  refine ⟨hpoint, ?_⟩
  intro push hpush
  have hmem : push.point ∈ state.pushes.map Push.point :=
    List.mem_map_of_mem hpush
  rw [hpushes, List.mem_singleton] at hmem
  exact ⟨result, hmem⟩

def earlyRun : Option (StopState Nat) :=
  runSteps step { queues := oneQueue, pushes := onePush }
    (callSteps 5 ++ List.replicate 6 .runner)

theorem isSome_earlyRun : earlyRun.isSome := rfl

theorem runSteps_noneStranded_iff_early :
    (earlyRun.get isSome_earlyRun).NoneStranded oneQueue ↔
      Along step InTime { queues := oneQueue, pushes := onePush }
        (callSteps 5 ++ List.replicate 6 .runner) :=
  runSteps_noneStranded_iff oneQueue onePush (by decide) _ _
    (Option.some_get isSome_earlyRun).symm
    (@finished_of_points _ (.ok ()) rfl rfl)

/-- The runner stops between the second reading of the flag and the append. -/
def lateRun : Option (StopState Nat) :=
  runSteps step { queues := oneQueue, pushes := onePush }
    (callSteps 3 ++ stopSteps ++ callSteps 2)

theorem isSome_lateRun : lateRun.isSome := rfl

/-- The call succeeds, and its entry stays behind. -/
theorem lateRun_strands :
    lateRun = some (lateRun.get isSome_lateRun) ∧
      (lateRun.get isSome_lateRun).Finished ∧
      (lateRun.get isSome_lateRun).pushes.map Push.point =
        [.returned (.ok ())] ∧
      (lateRun.get isSome_lateRun).queues.entries = [(⟨0⟩, 7)] ∧
      (lateRun.get isSome_lateRun).popped = [] ∧
      ¬ (lateRun.get isSome_lateRun).NoneStranded oneQueue := by
  refine ⟨rfl, @finished_of_points _ (.ok ()) rfl rfl, rfl, rfl, rfl, ?_⟩
  intro hnone
  exact absurd hnone.1 (List.cons_ne_nil _ _)

end StopState

/-! ## Calls and stops without interleaving -/

section Sequential

variable {α : Type*}

def Push.Next (before after : Push α × QueueSet α) : Prop :=
  before.1.step before.2 = some after

theorem steps_append (push : Push α) {queues : QueueSet α}
    {slot : QueueSlot α} (hslot : queues.slotOf push.queue = some slot)
    (hclosed : queues.runnerClosed = false)
    (hpermitsClosed : slot.permitsClosed ≠ true) (hpermits : slot.permits ≠ 0) :
    Relation.ReflTransGen Push.Next (push.reach .admitted, queues)
      (push.reach (.returned (.ok ())),
        queues.onSlot push.queue (QueueSlot.pushBack push.entry)
          (QueueSlot.id_pushBack push.entry)) := by
  let taken := queues.onSlot push.queue QueueSlot.takePermit
    QueueSlot.id_takePermit
  let appended := taken.onSlot push.queue (QueueSlot.append push.entry)
    (QueueSlot.id_append push.entry)
  have htaken : taken.slotOf push.queue = some slot.takePermit := by
    rw [QueueSet.slotOf_onSlot, hslot, Option.map_some]
  have happended : appended.slotOf push.queue =
      some (slot.takePermit.append push.entry) := by
    rw [QueueSet.slotOf_onSlot, htaken, Option.map_some]
  have hopen : taken.runnerClosed = false :=
    (QueueSet.sameShape_onSlot queues _ _ _).runnerClosed.trans hclosed
  have hcounted : appended.onSlot push.queue QueueSlot.countUp
      QueueSlot.id_countUp = queues.onSlot push.queue
        (QueueSlot.pushBack push.entry) (QueueSlot.id_pushBack push.entry) := by
    rw [QueueSet.onSlot_onSlot, QueueSet.onSlot_onSlot]
    rfl
  have hpermitted : Push.Next (push.reach .admitted, queues)
      (push.reach .permitted, taken) := by
    simp [Push.Next, Push.step, Push.reach, hslot, hpermitsClosed, hpermits,
      taken]
  have hrechecked : Push.Next (push.reach .permitted, taken)
      (push.reach .rechecked, taken) := by
    simp [Push.Next, Push.step, Push.reach, htaken, hopen]
  have happend : Push.Next (push.reach .rechecked, taken)
      (push.reach .appended, appended) := by
    simp [Push.Next, Push.step, Push.reach, htaken, appended]
  have hreturned : Push.Next (push.reach .appended, appended)
      (push.reach (.returned (.ok ())), appended.onSlot push.queue
        QueueSlot.countUp QueueSlot.id_countUp) := by
    simp [Push.Next, Push.step, Push.reach, happended]
  rw [← hcounted]
  exact .head hpermitted (.head hrechecked (.head happend (.single hreturned)))

/-- A call that nothing comes between is a single step of the link. -/
theorem steps_tryPush (push : Push α) (queues : QueueSet α)
    (hready : push.point = .ready) (hwaits : push.waits = false) :
    Relation.ReflTransGen Push.Next (push, queues)
      (match queues.tryPush push.queue push.entry with
      | .ok next => (push.reach (.returned (.ok ())), next)
      | .error error => (push.reach (.returned (.error error)), queues)) := by
  cases hslot : queues.slotOf push.queue with
  | none =>
      refine .single ?_
      simp [Push.Next, Push.step, QueueSet.tryPush, hslot, hready]
  | some slot =>
      cases hclosed : queues.runnerClosed with
      | true =>
          refine .single ?_
          simp [Push.Next, Push.step, QueueSet.tryPush, hslot, hready, hclosed]
      | false =>
          have hadmitted : Push.Next (push, queues)
              (push.reach .admitted, queues) := by
            simp [Push.Next, Push.step, hslot, hready, hclosed]
          refine .head hadmitted ?_
          by_cases hpermits : slot.permitsClosed = true ∨ slot.permits = 0
          · refine .single ?_
            by_cases hpermitsClosed : slot.permitsClosed = true
            · simp [Push.Next, Push.step, Push.reach, QueueSet.tryPush, hslot,
                hclosed, hpermitsClosed]
            · have hfull : slot.permits = 0 := by tauto
              simp [Push.Next, Push.step, Push.reach, QueueSet.tryPush, hslot,
                hclosed, hpermitsClosed, hfull, hwaits]
          simp only [not_or] at hpermits
          have hpush : queues.tryPush push.queue push.entry =
              .ok (queues.onSlot push.queue (QueueSlot.pushBack push.entry)
                (QueueSlot.id_pushBack push.entry)) := by
            simp [QueueSet.tryPush, hslot, hclosed, hpermits]
          rw [hpush]
          exact steps_append push hslot hclosed hpermits.1 hpermits.2

theorem indexOf_middle {queues : QueueSet α} {pre post : List (QueueSlot α)}
    {slot : QueueSlot α} (h : queues.slots = pre ++ slot :: post) :
    queues.indexOf slot.id = some pre.length := by
  have hnodup := queues.nodup
  rw [h, List.map_append, List.map_cons] at hnodup
  have hnone : pre.findIdx? (fun other => other.id = slot.id) = none := by
    rw [List.findIdx?_eq_none_iff]
    intro other hother
    have hne := (List.nodup_append.mp hnodup).2.2 other.id
      (List.mem_map_of_mem hother) slot.id List.mem_cons_self
    simpa using hne
  rw [QueueSet.indexOf, h, List.findIdx?_append, hnone]
  simp [List.findIdx?_cons]

theorem steps_closing (pre post : List (QueueSlot α)) (state : StopState α)
    (hpoint : state.point = .closing (post.map QueueSlot.id))
    (hslots : state.queues.slots = pre.map QueueSlot.close ++ post) :
    ∃ final, Relation.ReflTransGen
        (fun before after => before.runnerStep = some after) state final ∧
      final.queues.slots = (pre ++ post).map QueueSlot.close ∧
      state.queues.SameShape final.queues ∧
      final.point = .draining state.queues.ids ∧
      final.pushes = state.pushes ∧ final.popped = state.popped := by
  induction post generalizing pre state with
  | nil =>
      refine ⟨{ state with point := .draining state.queues.ids }, .single ?_,
        ?_, ⟨rfl, rfl, rfl⟩, rfl, rfl, rfl⟩
      · simp [StopState.runnerStep, hpoint]
      · simpa using hslots
  | cons slot post ih =>
      let next : StopState α := { state with
        queues := state.queues.onSlot slot.id QueueSlot.close
          QueueSlot.id_close
        point := .closing (post.map QueueSlot.id) }
      have hclosed : next.queues.slots =
          (pre ++ [slot]).map QueueSlot.close ++ post := by
        have hlength : (pre.map QueueSlot.close).length <
            (pre.map QueueSlot.close ++ slot :: post).length := by
          simp
        rw [QueueSet.slots_onSlot (indexOf_middle hslots), hslots,
          List.modify_eq_take_cons_drop hlength]
        simp [List.drop_append]
      have hshape := state.queues.sameShape_onSlot slot.id QueueSlot.close
        QueueSlot.id_close
      obtain ⟨final, hsteps, hfinal, hfinalShape, hdraining, hpushes,
        hpopped⟩ := ih (pre ++ [slot]) next rfl hclosed
      have hnext : state.runnerStep = some next := by
        simp [StopState.runnerStep, hpoint, next]
      refine ⟨final, .head hnext hsteps, ?_, ?_, ?_, hpushes, hpopped⟩
      · simpa using hfinal
      · exact ⟨hfinalShape.ids.trans hshape.ids,
          hfinalShape.inputClosed.trans hshape.inputClosed,
          hfinalShape.runnerClosed.trans hshape.runnerClosed⟩
      · rw [hdraining]
        exact congrArg StopPoint.draining hshape.ids

theorem steps_closeRunner (state : StopState α)
    (hpoint : state.point = .running)
    (hopen : state.queues.runnerClosed = false) :
    Relation.ReflTransGen
      (fun before after => before.runnerStep = some after) state
      { state with
        queues := state.queues.closeRunner
        point := .draining state.queues.ids } := by
  let flagged : StopState α := { state with
    queues := { state.queues with runnerClosed := true }
    point := .closing state.queues.ids }
  have hflagged : state.runnerStep = some flagged := by
    simp [StopState.runnerStep, hpoint, hopen, flagged]
  obtain ⟨final, hsteps, hslots, hshape, hdraining, hpushes, hpopped⟩ :=
    steps_closing [] state.queues.slots flagged rfl rfl
  have hqueues : final.queues = state.queues.closeRunner := by
    ext1
    · simp [hslots, QueueSet.closeRunner, hopen]
    · simp [hshape.inputClosed, QueueSet.closeRunner, hopen, flagged]
    · simp [hshape.runnerClosed, QueueSet.closeRunner, hopen, flagged]
  have hfinal : final = { state with
      queues := state.queues.closeRunner
      point := .draining state.queues.ids } := by
    obtain ⟨queues, pushes, point, popped⟩ := final
    simp only [StopState.mk.injEq]
    exact ⟨hqueues, hpushes, hdraining, hpopped⟩
  rw [← hfinal]
  exact .head hflagged hsteps

end Sequential

end HartLink.Service
