import Mathlib.Data.UInt
import HartLink.Service.Occupancy
import HartLink.Service.Stop

/-!
# The count of a queue between its steps

A push makes its entry visible before it counts it, and finishing an entry
returns its permit before it counts it off.  The runner can therefore finish an
entry that is not counted yet, and a push can use a permit whose entry is still
counted.  Here every access is a step of its own, and the count stays in its
range in the runs where neither happens.
-/

namespace HartLink.Service

open HartLink.Foundation

namespace QueueSlot

variable {α : Type*}

def countDown (slot : QueueSlot α) : QueueSlot α :=
  { slot with queued := slot.queued - 1 }

theorem id_countDown (slot : QueueSlot α) : slot.countDown.id = slot.id := rfl

end QueueSlot

/-! ## What the clients read -/

structure QueueSnapshot where
  id : QueueId
  capacity : Nat
  queued : UInt64
  priority : QueuePriority
  deriving DecidableEq, Repr

namespace QueueSet

variable {α : Type*}

def snapshots (queues : QueueSet α) : List QueueSnapshot :=
  queues.slots.map fun slot =>
    ⟨slot.id, slot.capacity, slot.queued, slot.priority⟩

def pendingTotal (queues : QueueSet α) : UInt64 :=
  (queues.slots.map QueueSlot.queued).sum

end QueueSet

/-! ## Calls and the runner step by step -/

namespace Push

variable {α : Type*}

def permitted (push : Push α) : Bool :=
  push.point = .permitted ∨ push.point = .rechecked

/-- The entry is in the queue or was, and is not counted. -/
def uncounted (push : Push α) : Bool :=
  push.point = .appended

end Push

section Access

variable {α : Type*}

/-- The one access to the shared state in a step of a call. -/
inductive Push.Access (push next : Push α) (queues after : QueueSet α) : Prop
  | read (eq : after = queues) (permitted : next.permitted = push.permitted)
      (uncounted : next.uncounted = push.uncounted)
  | takePermit
      (free : ∀ slot, queues.slotOf push.queue = some slot → slot.permits ≠ 0)
      (permitted : push.permitted = false ∧ next.permitted = true)
      (uncounted : push.uncounted = false ∧ next.uncounted = false)
      (eq : after = queues.onSlot push.queue QueueSlot.takePermit
        QueueSlot.id_takePermit)
  | returnPermit (permitted : push.permitted = true ∧ next.permitted = false)
      (uncounted : push.uncounted = false ∧ next.uncounted = false)
      (eq : after = queues.onSlot push.queue QueueSlot.returnPermit
        QueueSlot.id_returnPermit)
  | append (permitted : push.permitted = true ∧ next.permitted = false)
      (uncounted : push.uncounted = false ∧ next.uncounted = true)
      (eq : after = queues.onSlot push.queue (QueueSlot.append push.entry)
        (QueueSlot.id_append push.entry))
  | count (point : push.point = .appended)
      (permitted : push.permitted = false ∧ next.permitted = false)
      (uncounted : push.uncounted = true ∧ next.uncounted = false)
      (eq : after = queues.onSlot push.queue QueueSlot.countUp
        QueueSlot.id_countUp)

theorem Push.step_access {push next : Push α} {queues after : QueueSet α}
    (h : push.step queues = some (next, after)) :
    next.queue = push.queue ∧ push.Access next queues after := by
  unfold Push.step at h
  split at h
  · split at h
    next hpoint =>
      simp only [Option.some.injEq, Prod.mk.injEq] at h
      obtain ⟨rfl, rfl⟩ := h
      exact ⟨rfl, .read rfl (by simp [permitted, reach, hpoint])
        (by simp [uncounted, reach, hpoint])⟩
    · contradiction
  next slot hslot =>
    split at h
    next hpoint =>
      split_ifs at h
      all_goals
        simp only [Option.some.injEq, Prod.mk.injEq] at h
        obtain ⟨rfl, rfl⟩ := h
        exact ⟨rfl, .read rfl (by simp [permitted, reach, hpoint])
          (by simp [uncounted, reach, hpoint])⟩
    next hpoint =>
      split_ifs at h with hclosed hfree hwaits
      all_goals
        simp only [Option.some.injEq, Prod.mk.injEq] at h
        obtain ⟨rfl, rfl⟩ := h
        refine ⟨rfl, ?_⟩
      · exact .read rfl (by simp [permitted, reach, hpoint])
          (by simp [uncounted, reach, hpoint])
      · exact .read rfl (by simp [permitted, reach, hpoint])
          (by simp [uncounted, reach, hpoint])
      · refine .takePermit ?_ (by simp [permitted, reach, hpoint])
          (by simp [uncounted, reach, hpoint]) rfl
        intro found hfound
        rw [hslot] at hfound
        injection hfound with hfound
        exact hfound ▸ hfree
    next hpoint =>
      split_ifs at h
      all_goals
        simp only [Option.some.injEq, Prod.mk.injEq] at h
        obtain ⟨rfl, rfl⟩ := h
        refine ⟨rfl, ?_⟩
      · exact .returnPermit (by simp [permitted, reach, hpoint])
          (by simp [uncounted, reach, hpoint]) rfl
      · exact .read rfl (by simp [permitted, reach, hpoint])
          (by simp [uncounted, reach, hpoint])
    next hpoint =>
      simp only [Option.some.injEq, Prod.mk.injEq] at h
      obtain ⟨rfl, rfl⟩ := h
      exact ⟨rfl, .append (by simp [permitted, reach, hpoint])
        (by simp [uncounted, reach, hpoint]) rfl⟩
    next hpoint =>
      simp only [Option.some.injEq, Prod.mk.injEq] at h
      obtain ⟨rfl, rfl⟩ := h
      exact ⟨rfl, .count hpoint (by simp [permitted, reach, hpoint])
        (by simp [uncounted, reach, hpoint]) rfl⟩
    next => contradiction

end Access

/--
The runner holds the entries it has popped; while it finishes one, the permit is
returned and the count still stands.
-/
structure CountState (α : Type*) where
  queues : QueueSet α
  pushes : List (Push α)
  cursor : QueueCursor := {}
  holding : List (QueueId × α) := []
  finishing : Option QueueId := none

inductive CountAction where
  | push (index : Nat)
  | expire (index : Nat)
  | setPriority (queue : QueueId) (priority : QueuePriority)
  | pop
  | popFrom (queue : QueueId)
  | pushFront (index : Nat)
  | release (index : Nat)
  | countDown
  | raiseFlag
  | closeSlot (queue : QueueId)
  deriving DecidableEq, Repr

namespace CountState

variable {α : Type*}

/-- A link whose clients are about to make the calls. -/
def initial (layout : List QueueConfig)
    (hlayout : (layout.map QueueConfig.id).Nodup)
    (calls : List (QueueId × α × Bool)) : CountState α where
  queues := .new layout hlayout
  pushes := calls.map fun call => ⟨call.1, call.2.1, call.2.2, .ready⟩

def hold (state : CountState α) (popped : Popped α) : CountState α :=
  { state with
    queues := popped.queues
    holding := state.holding ++ [(popped.queue, popped.entry)] }

def runnerStep (state : CountState α) : CountAction → Option (CountState α)
  | .pop =>
      match state.queues.popScheduled state.cursor with
      | (some popped, cursor) => some { state.hold popped with cursor }
      | (none, cursor) => some { state with cursor }
  | .popFrom queue =>
      match state.queues.popFrom queue with
      | some popped => some (state.hold popped)
      | none => some state
  | .pushFront index =>
      match state.holding[index]? with
      | none => none
      | some (queue, entry) =>
          some { state with
            queues := state.queues.pushFront queue entry
            holding := state.holding.eraseIdx index }
  | .release index =>
      match state.holding[index]? with
      | none => none
      | some (queue, _) =>
          some { state with
            queues := state.queues.onSlot queue QueueSlot.returnPermit
              QueueSlot.id_returnPermit
            holding := state.holding.eraseIdx index
            finishing := some queue }
  | .raiseFlag =>
      some { state with
        queues := { state.queues with runnerClosed := true } }
  | .closeSlot queue =>
      some { state with
        queues := state.queues.onSlot queue QueueSlot.close
          QueueSlot.id_close }
  | _ => none

def step (state : CountState α) : CountAction → Option (CountState α)
  | .push index =>
      match state.pushes[index]? with
      | none => none
      | some push =>
          match push.step state.queues with
          | none => none
          | some (next, queues) =>
              some { state with
                queues, pushes := state.pushes.set index next }
  | .expire index =>
      match state.pushes[index]? with
      | none => none
      | some push =>
          match push.expire with
          | none => none
          | some next =>
              some { state with pushes := state.pushes.set index next }
  | .setPriority queue priority =>
      some { state with queues := state.queues.setPriority queue priority }
  | .countDown =>
      match state.finishing with
      | none => none
      | some queue =>
          some { state with
            queues := state.queues.onSlot queue QueueSlot.countDown
              QueueSlot.id_countDown
            finishing := none }
  | action =>
      match state.finishing with
      | none => state.runnerStep action
      | some _ => none

def run (state : CountState α) (actions : List CountAction) :
    Option (CountState α) :=
  runSteps step state actions

/-! ## Where the permits and the counts are -/

structure Tally where
  held : Nat
  permitted : Nat
  uncounted : Nat
  finishing : Nat

def tally (state : CountState α) (queue : QueueId) : Tally where
  held := (state.holding.map Prod.fst).count queue
  permitted := state.pushes.countP fun push =>
    push.permitted ∧ push.queue = queue
  uncounted := state.pushes.countP fun push =>
    push.uncounted ∧ push.queue = queue
  finishing := if state.finishing = some queue then 1 else 0

/--
Every permit is free, with an entry or with a call; every entry is counted but
for the calls that have not counted theirs; a returned permit is free or used by
a call whose entry is not counted.
-/
structure Agrees (slot : QueueSlot α) (tally : Tally) : Prop where
  permits : slot.permits + slot.entries.length + tally.held +
    tally.permitted = slot.capacity
  queued : slot.queued.toNat + tally.uncounted =
    slot.entries.length + tally.held + tally.finishing
  returned : tally.finishing ≤
    slot.permits + tally.permitted + tally.uncounted

theorem Agrees.le_capacity {slot : QueueSlot α} {tally : Tally}
    (h : Agrees slot tally) : slot.queued.toNat ≤ slot.capacity := by
  have := h.permits
  have := h.queued
  have := h.returned
  omega

/-- The counts of all queues agree with what is under way. -/
def Counts (state : CountState α) : Prop :=
  ∀ slot ∈ state.queues.slots, Agrees slot (state.tally slot.id)

/--
An entry is counted off only while the queue and the runner have as many others
as there are calls that have not counted theirs, and a call does not count its
entry under a permit whose last entry is still counted, unless another permit of
the queue is free or with a call.
-/
def InTurn (state : CountState α) : CountAction → Prop
  | .push index =>
      ∀ push ∈ state.pushes[index]?, push.point = .appended →
        state.finishing = some push.queue →
          ∀ slot ∈ state.queues.slots, slot.id = push.queue →
            2 ≤ slot.permits + (state.tally slot.id).permitted +
              (state.tally slot.id).uncounted
  | .countDown =>
      ∀ slot ∈ state.queues.slots, state.finishing = some slot.id →
        (state.tally slot.id).uncounted ≤
          slot.entries.length + (state.tally slot.id).held
  | _ => True

instance decidableInTurn (state : CountState α) :
    (action : CountAction) → Decidable (state.InTurn action)
  | .push index =>
      inferInstanceAs (Decidable (∀ push ∈ state.pushes[index]?,
        push.point = .appended → state.finishing = some push.queue →
          ∀ slot ∈ state.queues.slots, slot.id = push.queue → _))
  | .countDown =>
      inferInstanceAs (Decidable (∀ slot ∈ state.queues.slots, _ → _))
  | .expire _ | .setPriority _ _ | .pop | .popFrom _ | .pushFront _
  | .release _ | .raiseFlag | .closeSlot _ => isTrue trivial

/-! ## Steps -/

section Steps

variable {state next : CountState α} {queue : QueueId}

theorem countP_set_add {pushes : List (Push α)} {index : Nat}
    {push : Push α} (h : pushes[index]? = some push) (after : Push α)
    (p : Push α → Bool) :
    (pushes.set index after).countP p + (if p push then 1 else 0) =
      pushes.countP p + (if p after then 1 else 0) := by
  obtain ⟨hlt, rfl⟩ := List.getElem?_eq_some_iff.mp h
  rw [List.countP_set hlt]
  by_cases hp : p pushes[index] = true
  · have hpos := List.countP_pos_iff.mpr
      ⟨pushes[index], List.getElem_mem hlt, hp⟩
    rw [if_pos hp]
    omega
  · rw [if_neg hp]
    omega

theorem Counts.replace (h : state.Counts) {before after : QueueSlot α}
    (hreplaces : state.queues.Replaces next.queues before after)
    (hsame : ∀ id ≠ before.id, next.tally id = state.tally id)
    (hafter : Agrees after (next.tally before.id)) : next.Counts := by
  refine hreplaces.forall_slots h ?_ (by rwa [hreplaces.id])
  intro slot hne hold
  rwa [hsame slot.id hne]

theorem Counts.onSlot (h : state.Counts) {change : QueueSlot α → QueueSlot α}
    {hid : ∀ slot, (change slot).id = slot.id}
    (hqueues : next.queues = state.queues.onSlot queue change hid)
    (hsame : ∀ id ≠ queue, next.tally id = state.tally id)
    (hslot : ∀ slot ∈ state.queues.slots, slot.id = queue →
      Agrees slot (state.tally queue) →
        Agrees (change slot) (next.tally queue)) : next.Counts := by
  by_cases hknown : queue ∈ state.queues.ids
  · obtain ⟨slot, -, rfl, hreplaces⟩ :=
      QueueSet.replaces_onSlot hknown change hid
    rw [← hqueues] at hreplaces
    exact h.replace hreplaces hsame
      (hslot slot hreplaces.before_mem rfl (h slot hreplaces.before_mem))
  · rw [QueueSet.onSlot_of_not_mem hknown] at hqueues
    intro slot hmem
    rw [hqueues] at hmem
    have hne : slot.id ≠ queue := by
      rintro rfl
      exact hknown (List.mem_map.mpr ⟨slot, hmem, rfl⟩)
    rw [hsame slot.id hne]
    exact h slot hmem

theorem tally_hold (state : CountState α) (popped : Popped α)
    (id : QueueId) :
    (state.hold popped).tally id = { state.tally id with
      held := (state.tally id).held + if popped.queue = id then 1 else 0 } := by
  simp only [tally, hold, List.map_append, List.map_cons, List.map_nil,
    List.count_append, List.count_singleton, beq_iff_eq]
  congr

theorem counts_hold {index : Nat} {popped : Popped α} (h : state.Counts)
    (hpop : state.queues.popAt index = some popped) :
    (state.hold popped).Counts := by
  obtain ⟨slot, rest, -, hentries, hqueue, hreplaces⟩ :=
    QueueSet.replaces_popAt hpop
  refine h.replace hreplaces ?_ ?_
  · intro id hne
    rw [tally_hold, hqueue, if_neg (Ne.symm hne)]
    rfl
  · obtain ⟨hpermits, hqueued, hreturned⟩ := h slot hreplaces.before_mem
    rw [hentries, List.length_cons] at hpermits hqueued
    rw [tally_hold, hqueue, if_pos rfl]
    exact ⟨by dsimp only; omega, by dsimp only; omega, hreturned⟩

/-- An entry leaves the runner's hands. -/
theorem count_eraseIdx {holding : List (QueueId × α)} {index : Nat}
    {entry : α} (h : holding[index]? = some (queue, entry)) (id : QueueId) :
    ((holding.eraseIdx index).map Prod.fst).count id +
        (if queue = id then 1 else 0) =
      (holding.map Prod.fst).count id := by
  obtain ⟨hlt, hget⟩ := List.getElem?_eq_some_iff.mp h
  have hperm := (List.getElem_cons_eraseIdx_perm hlt).map Prod.fst
  rw [← hperm.count_eq, hget, List.map_cons, List.count_cons]
  simp

theorem counts_pushFront {index : Nat} {entry : α} (h : state.Counts)
    (hheld : state.holding[index]? = some (queue, entry)) :
    ({ state with
      queues := state.queues.pushFront queue entry
      holding := state.holding.eraseIdx index } : CountState α).Counts := by
  have hcount := count_eraseIdx hheld
  refine h.onSlot rfl ?_ ?_
  · intro id hne
    have hother := hcount id
    rw [if_neg (Ne.symm hne), Nat.add_zero] at hother
    simp only [tally, hother]
  · rintro slot hslot rfl ⟨hpermits, hqueued, hreturned⟩
    have hown := hcount slot.id
    rw [if_pos rfl] at hown
    simp only [tally, ← hown] at hpermits hqueued hreturned
    constructor
    · simp only [tally, QueueSlot.pushFront, List.length_cons]
      omega
    · simp only [tally, QueueSlot.pushFront, List.length_cons]
      omega
    · exact hreturned

theorem counts_release {index : Nat} {entry : α} (h : state.Counts)
    (hheld : state.holding[index]? = some (queue, entry))
    (hidle : state.finishing = none) :
    ({ state with
      queues := state.queues.onSlot queue QueueSlot.returnPermit
        QueueSlot.id_returnPermit
      holding := state.holding.eraseIdx index
      finishing := some queue } : CountState α).Counts := by
  have hcount := count_eraseIdx hheld
  refine h.onSlot rfl ?_ ?_
  · intro id hne
    have hother := hcount id
    rw [if_neg (Ne.symm hne), Nat.add_zero] at hother
    simp [tally, hother, hidle, Ne.symm hne]
  · rintro slot hslot rfl ⟨hpermits, hqueued, hreturned⟩
    have hown := hcount slot.id
    rw [if_pos rfl] at hown
    simp only [tally, ← hown, hidle, reduceCtorEq, if_false]
      at hpermits hqueued hreturned
    constructor
    · simp only [tally, QueueSlot.returnPermit]
      omega
    · simp only [tally, QueueSlot.returnPermit, if_pos]
      omega
    · simp only [tally, QueueSlot.returnPermit, if_pos]
      omega

theorem counts_countDown (h : state.Counts)
    (hfinishing : state.finishing = some queue)
    (hallowed : state.InTurn .countDown) :
    ({ state with
      queues := state.queues.onSlot queue QueueSlot.countDown
        QueueSlot.id_countDown
      finishing := none } : CountState α).Counts := by
  refine h.onSlot rfl ?_ ?_
  · intro id hne
    simp [tally, hfinishing, Ne.symm hne]
  · rintro slot hslot rfl ⟨hpermits, hqueued, hreturned⟩
    have hothers := hallowed slot hslot hfinishing
    simp only [tally, hfinishing, if_pos] at hpermits hqueued hreturned hothers
    have hone : (1 : UInt64) ≤ slot.queued := by
      rw [UInt64.le_iff_toNat_le]
      change 1 ≤ _
      omega
    constructor
    · exact hpermits
    · simp only [tally, QueueSlot.countDown, UInt64.toNat_sub_of_le _ _ hone,
        reduceCtorEq, if_false]
      change slot.queued.toNat - 1 + _ = _
      omega
    · simp [tally]

/-- What the progress of one call adds to the tallies. -/
theorem tally_set {push after : Push α} {index : Nat}
    (h : state.pushes[index]? = some push) (hqueue : after.queue = push.queue)
    (queues : QueueSet α) (id : QueueId) :
    let next := ({ state with
      queues, pushes := state.pushes.set index after } : CountState α).tally id
    next.held = (state.tally id).held ∧
      next.finishing = (state.tally id).finishing ∧
      (id ≠ push.queue → next = state.tally id) ∧
      (id = push.queue →
        next.permitted + push.permitted.toNat =
            (state.tally id).permitted + after.permitted.toNat ∧
          next.uncounted + push.uncounted.toNat =
            (state.tally id).uncounted + after.uncounted.toNat) := by
  have hpermitted := countP_set_add h after fun push =>
    push.permitted ∧ push.queue = id
  have huncounted := countP_set_add h after fun push =>
    push.uncounted ∧ push.queue = id
  refine ⟨rfl, rfl, ?_, ?_⟩
  · intro hne
    simp only [hqueue, Ne.symm hne, and_false, decide_false,
      Bool.false_eq_true, if_false, Nat.add_zero] at hpermitted huncounted
    simp only [tally, hpermitted, huncounted]
  · rintro rfl
    simp only [hqueue, and_true, Bool.decide_eq_true] at hpermitted huncounted
    refine ⟨?_, ?_⟩
    · cases hbefore : push.permitted <;> cases hafter : after.permitted <;>
        simpa [tally, hbefore, hafter] using hpermitted
    · cases hbefore : push.uncounted <;> cases hafter : after.uncounted <;>
        simpa [tally, hbefore, hafter] using huncounted

/-- A step of a call that changes nothing shared. -/
theorem counts_read {push after : Push α} {index : Nat} (h : state.Counts)
    (hget : state.pushes[index]? = some push)
    (hqueue : after.queue = push.queue)
    (hpermitted : after.permitted = push.permitted)
    (huncounted : after.uncounted = push.uncounted) :
    ({ state with pushes := state.pushes.set index after } :
      CountState α).Counts := by
  intro slot hslot
  obtain ⟨hheld, hfinishing, hother, hown⟩ :=
    tally_set hget hqueue state.queues slot.id
  obtain ⟨hpermits, hqueued, hreturned⟩ := h slot hslot
  by_cases hid : slot.id = push.queue
  · obtain ⟨hpermittedCount, huncountedCount⟩ := hown hid
    rw [hpermitted] at hpermittedCount
    rw [huncounted] at huncountedCount
    exact ⟨by omega, by omega, by omega⟩
  · rw [hother hid]
    exact h slot hslot

/-- What a step of a call changes of what is under way for its queue. -/
structure Tally.Moves (before after : Tally) (push next : Push α) : Prop where
  held : after.held = before.held
  finishing : after.finishing = before.finishing
  permitted : after.permitted + push.permitted.toNat =
    before.permitted + next.permitted.toNat
  uncounted : after.uncounted + push.uncounted.toNat =
    before.uncounted + next.uncounted.toNat

theorem counts_change {push after : Push α} {index : Nat}
    {queues : QueueSet α} (h : state.Counts)
    (hget : state.pushes[index]? = some push)
    (hqueue : after.queue = push.queue)
    {change : QueueSlot α → QueueSlot α}
    {hid : ∀ slot, (change slot).id = slot.id}
    (hqueues : queues = state.queues.onSlot push.queue change hid)
    (hslot : ∀ slot ∈ state.queues.slots, slot.id = push.queue →
      ∀ tally : Tally, (state.tally push.queue).Moves tally push after →
        Agrees slot (state.tally push.queue) → Agrees (change slot) tally) :
    ({ state with
      queues, pushes := state.pushes.set index after } :
        CountState α).Counts := by
  refine h.onSlot hqueues ?_ ?_
  · intro id hne
    exact (tally_set hget hqueue queues id).2.2.1 hne
  · intro slot hmem hslotId hagrees
    obtain ⟨hheld, hfinishing, -, hown⟩ :=
      tally_set hget hqueue queues push.queue
    obtain ⟨hpermitted, huncounted⟩ := hown rfl
    exact hslot slot hmem hslotId _
      ⟨hheld, hfinishing, hpermitted, huncounted⟩ hagrees

theorem counts_push {push after : Push α} {index : Nat}
    {queues : QueueSet α}
    (hbound : ∀ slot ∈ state.queues.slots, slot.capacity < 2 ^ 64)
    (h : state.Counts) (hget : state.pushes[index]? = some push)
    (hstep : push.step state.queues = some (after, queues))
    (hallowed : state.InTurn (.push index)) :
    ({ state with
      queues, pushes := state.pushes.set index after } :
        CountState α).Counts := by
  obtain ⟨hqueue, haccess⟩ := Push.step_access hstep
  cases haccess with
  | read eq permitted uncounted =>
      subst eq
      exact counts_read h hget hqueue permitted uncounted
  | takePermit free permitted uncounted eq =>
      refine counts_change h hget hqueue eq ?_
      rintro slot hslot hid tally ⟨hheld, hfinishing, hpermitted, huncounted⟩
        ⟨hpermits, hqueued, hreturned⟩
      have hfree := free slot (hid ▸ QueueSet.slotOf_of_mem hslot)
      simp only [permitted, uncounted, Bool.toNat_false, Bool.toNat_true]
        at hpermitted huncounted
      constructor <;> simp only [QueueSlot.takePermit] <;> omega
  | returnPermit permitted uncounted eq =>
      refine counts_change h hget hqueue eq ?_
      rintro slot hslot hid tally ⟨hheld, hfinishing, hpermitted, huncounted⟩
        ⟨hpermits, hqueued, hreturned⟩
      simp only [permitted, uncounted, Bool.toNat_false, Bool.toNat_true]
        at hpermitted huncounted
      constructor <;> simp only [QueueSlot.returnPermit] <;> omega
  | append permitted uncounted eq =>
      refine counts_change h hget hqueue eq ?_
      rintro slot hslot hid tally ⟨hheld, hfinishing, hpermitted, huncounted⟩
        ⟨hpermits, hqueued, hreturned⟩
      simp only [permitted, uncounted, Bool.toNat_false, Bool.toNat_true]
        at hpermitted huncounted
      constructor <;>
        simp only [QueueSlot.append, List.length_append,
          List.length_singleton] <;> omega
  | count point permitted uncounted eq =>
      refine counts_change h hget hqueue eq ?_
      rintro slot hslot hid tally ⟨hheld, hfinishing, hpermitted, huncounted⟩
        ⟨hpermits, hqueued, hreturned⟩
      simp only [permitted, uncounted, Bool.toNat_false, Bool.toNat_true]
        at hpermitted huncounted
      -- a returned permit whose entry is still counted must not be the last
      have hroom : (state.tally push.queue).finishing + 1 ≤ slot.permits +
          (state.tally push.queue).permitted +
          (state.tally push.queue).uncounted := by
        by_cases hbusy : state.finishing = some push.queue
        · have htwo := hallowed push hget point hbusy slot hslot hid
          rw [hid] at htwo
          have hone : (state.tally push.queue).finishing = 1 := by
            simp [CountState.tally, hbusy]
          omega
        · have hzero : (state.tally push.queue).finishing = 0 := by
            simp [CountState.tally, hbusy]
          omega
      have hcapacity := hbound slot hslot
      have hcount : (slot.queued + 1).toNat = slot.queued.toNat + 1 := by
        rw [UInt64.toNat_add]
        exact Nat.mod_eq_of_lt (by change slot.queued.toNat + 1 < _; omega)
      constructor
      · simp only [QueueSlot.countUp]
        omega
      · simp only [QueueSlot.countUp, hcount]
        omega
      · simp only [QueueSlot.countUp]
        omega

theorem counts_expire {push after : Push α} {index : Nat} (h : state.Counts)
    (hget : state.pushes[index]? = some push)
    (hexpire : push.expire = some after) :
    ({ state with pushes := state.pushes.set index after } :
      CountState α).Counts := by
  unfold Push.expire at hexpire
  split_ifs at hexpire with hpoint
  injection hexpire with hexpire
  subst hexpire
  exact counts_read h hget rfl
    (by simp [Push.permitted, Push.reach, hpoint.1])
    (by simp [Push.uncounted, Push.reach, hpoint.1])

theorem counts_runnerStep {action : CountAction}
    (hstep : state.runnerStep action = some next)
    (hidle : state.finishing = none) (h : state.Counts) : next.Counts := by
  cases action with
  | pop =>
      simp only [runnerStep] at hstep
      split at hstep
      next popped cursor hpopped =>
        injection hstep with hstep
        subst hstep
        obtain ⟨index, hpop⟩ := QueueSet.popScheduled_popAt hpopped
        exact counts_hold h hpop
      next cursor hpopped =>
        injection hstep with hstep
        subst hstep
        exact h
  | popFrom queue =>
      simp only [runnerStep] at hstep
      split at hstep
      next popped hpopped =>
        injection hstep with hstep
        subst hstep
        obtain ⟨index, -, hpop⟩ := Option.bind_eq_some_iff.mp hpopped
        exact counts_hold h hpop
      next hpopped =>
        injection hstep with hstep
        subst hstep
        exact h
  | pushFront index =>
      simp only [runnerStep] at hstep
      split at hstep
      · contradiction
      next queue entry hheld =>
        injection hstep with hstep
        subst hstep
        exact counts_pushFront h hheld
  | release index =>
      simp only [runnerStep] at hstep
      split at hstep
      · contradiction
      next queue entry hheld =>
        injection hstep with hstep
        subst hstep
        exact counts_release h hheld hidle
  | raiseFlag =>
      injection hstep with hstep
      subst hstep
      exact h
  | closeSlot queue =>
      injection hstep with hstep
      subst hstep
      exact h.onSlot rfl (fun _ _ => rfl) fun _ _ _ hagrees =>
        ⟨hagrees.permits, hagrees.queued, hagrees.returned⟩
  | push index => contradiction
  | expire index => contradiction
  | setPriority queue priority => contradiction
  | countDown => contradiction

theorem counts_step {action : CountAction}
    (hstep : state.step action = some next)
    (hbound : ∀ slot ∈ state.queues.slots, slot.capacity < 2 ^ 64)
    (hallowed : state.InTurn action) (h : state.Counts) : next.Counts := by
  unfold step at hstep
  split at hstep
  next index =>
    split at hstep
    · contradiction
    next push hget =>
      split at hstep
      · contradiction
      next after queues hpush =>
        injection hstep with hstep
        subst hstep
        exact counts_push hbound h hget hpush hallowed
  next index =>
    split at hstep
    · contradiction
    next push hget =>
      split at hstep
      · contradiction
      next after hexpire =>
        injection hstep with hstep
        subst hstep
        exact counts_expire h hget hexpire
  next queue priority =>
    injection hstep with hstep
    subst hstep
    exact h.onSlot rfl (fun _ _ => rfl) fun _ _ _ hagrees =>
        ⟨hagrees.permits, hagrees.queued, hagrees.returned⟩
  next =>
    split at hstep
    · contradiction
    next queue hfinishing =>
      injection hstep with hstep
      subst hstep
      exact counts_countDown h hfinishing hallowed
  next =>
    split at hstep
    next hidle => exact counts_runnerStep hstep hidle h
    · contradiction

/-! ## Capacities -/

theorem capacities_hold {index : Nat} {popped : Popped α}
    (hpop : state.queues.popAt index = some popped) :
    (state.hold popped).queues.capacities = state.queues.capacities :=
  QueueSet.capacities_of_configs (QueueSet.configs_popAt hpop)

theorem capacities_pushStep {push after : Push α} {queues next : QueueSet α}
    (h : push.step queues = some (after, next)) :
    next.capacities = queues.capacities := by
  cases (Push.step_access h).2 with
  | read eq permitted uncounted => rw [eq]
  | takePermit free permitted uncounted eq =>
      rw [eq]
      exact QueueSet.capacities_onSlot _ _ _ fun _ => rfl
  | returnPermit permitted uncounted eq =>
      rw [eq]
      exact QueueSet.capacities_onSlot _ _ _ fun _ => rfl
  | append permitted uncounted eq =>
      rw [eq]
      exact QueueSet.capacities_onSlot _ _ _ fun _ => rfl
  | count point permitted uncounted eq =>
      rw [eq]
      exact QueueSet.capacities_onSlot _ _ _ fun _ => rfl

theorem capacities_runnerStep {action : CountAction}
    (hstep : state.runnerStep action = some next) :
    next.queues.capacities = state.queues.capacities := by
  unfold runnerStep at hstep
  split at hstep
  · split at hstep
    next popped cursor hpopped =>
      injection hstep with hstep
      subst hstep
      obtain ⟨index, hpop⟩ := QueueSet.popScheduled_popAt hpopped
      exact capacities_hold hpop
    next cursor hpopped =>
      injection hstep with hstep
      subst hstep
      rfl
  · split at hstep
    next popped hpopped =>
      injection hstep with hstep
      subst hstep
      obtain ⟨index, -, hpop⟩ := Option.bind_eq_some_iff.mp hpopped
      exact capacities_hold hpop
    next hpopped =>
      injection hstep with hstep
      subst hstep
      rfl
  · split at hstep
    · contradiction
    · injection hstep with hstep
      subst hstep
      exact QueueSet.capacities_onSlot _ _ _ fun _ => rfl
  · split at hstep
    · contradiction
    · injection hstep with hstep
      subst hstep
      exact QueueSet.capacities_onSlot _ _ _ fun _ => rfl
  · injection hstep with hstep
    subst hstep
    rfl
  · injection hstep with hstep
    subst hstep
    exact QueueSet.capacities_onSlot _ _ _ fun _ => rfl
  · contradiction

theorem capacities_step {action : CountAction}
    (hstep : state.step action = some next) :
    next.queues.capacities = state.queues.capacities := by
  unfold step at hstep
  split at hstep
  · split at hstep
    · contradiction
    · split at hstep
      · contradiction
      next after queues hpush =>
        injection hstep with hstep
        subst hstep
        exact capacities_pushStep hpush
  · split at hstep
    · contradiction
    · split at hstep
      · contradiction
      · injection hstep with hstep
        subst hstep
        rfl
  · injection hstep with hstep
    subst hstep
    exact QueueSet.capacities_setPriority _ _ _
  · split at hstep
    · contradiction
    · injection hstep with hstep
      subst hstep
      exact QueueSet.capacities_onSlot _ _ _ fun _ => rfl
  · split at hstep
    · exact capacities_runnerStep hstep
    · contradiction

end Steps

/-! ## Runs -/

theorem toNat_sum {counts : List UInt64}
    (h : (counts.map UInt64.toNat).sum < 2 ^ 64) :
    counts.sum.toNat = (counts.map UInt64.toNat).sum := by
  induction counts with
  | nil => rfl
  | cons count counts ih =>
      rw [List.map_cons, List.sum_cons] at h
      rw [List.sum_cons, UInt64.toNat_add, ih (by omega), List.map_cons,
        List.sum_cons]
      exact Nat.mod_eq_of_lt h

theorem sum_queued_le {slots : List (QueueSlot α)}
    (h : ∀ slot ∈ slots, slot.queued.toNat ≤ slot.capacity) :
    ((slots.map QueueSlot.queued).map UInt64.toNat).sum ≤
      (slots.map QueueSlot.capacity).sum := by
  induction slots with
  | nil => exact Nat.le_refl _
  | cons slot slots ih =>
      simp only [List.map_cons, List.sum_cons]
      exact Nat.add_le_add (h slot List.mem_cons_self)
        (ih fun other hother => h other (List.mem_cons_of_mem _ hother))

theorem counts_initial (layout : List QueueConfig)
    (hlayout : (layout.map QueueConfig.id).Nodup)
    (calls : List (QueueId × α × Bool)) :
    (initial layout hlayout calls).Counts := by
  intro slot hslot
  obtain ⟨config, -, rfl⟩ := List.mem_map.mp hslot
  have hnone : ∀ p : Push α → Bool, (∀ push, push.point = .ready →
      p push = false) → (initial layout hlayout calls).pushes.countP p = 0 := by
    intro p hp
    refine List.countP_eq_zero.mpr ?_
    intro push hpush
    obtain ⟨call, -, rfl⟩ := List.mem_map.mp hpush
    rw [hp _ rfl]
    exact Bool.false_ne_true
  have hpermitted := hnone (fun push => push.permitted ∧ push.queue = config.id)
    (by
      intro push hpoint
      simp [Push.permitted, hpoint])
  have huncounted := hnone (fun push => push.uncounted ∧ push.queue = config.id)
    (by
      intro push hpoint
      simp [Push.uncounted, hpoint])
  have htally : (initial layout hlayout calls).tally config.id =
      ⟨0, 0, 0, 0⟩ := by
    simp only [tally, hpermitted, huncounted]
    rfl
  change Agrees (QueueSlot.new config)
    ((initial layout hlayout calls).tally config.id)
  rw [htally]
  exact ⟨rfl, rfl, Nat.zero_le _⟩

/--
In every run whose steps are in turn, for every layout that passes the
validation and any number of calls, no count leaves the range up to the capacity
of its queue, and the sum of the counts does not overflow.
-/
theorem run_counts (layout : List QueueConfig) (default : QueueId)
    (hvalid : validateLayout layout default = .ok ())
    (calls : List (QueueId × α × Bool)) (actions : List CountAction)
    (state : CountState α)
    (hrun : (initial layout (nodup_of_validateLayout hvalid) calls).run
      actions = some state)
    (hturn : Along step InTurn
      (initial layout (nodup_of_validateLayout hvalid) calls) actions) :
    (∀ snapshot ∈ state.queues.snapshots,
        snapshot.queued.toNat ≤ snapshot.capacity) ∧
      state.queues.pendingTotal.toNat =
        ((state.queues.slots.map QueueSlot.queued).map UInt64.toNat).sum := by
  have htotal := capacity_of_validateLayout hvalid
  have hboth : state.Counts ∧ state.queues.capacities =
      layout.map fun config => (config.id, config.capacity) := by
    refine @runSteps_invariant_along _ _ step InTurn (fun state =>
      state.Counts ∧ state.queues.capacities =
        layout.map fun config => (config.id, config.capacity)) ?_ _ _ _ hrun
      hturn ⟨counts_initial _ _ _, ?_⟩
    · intro state next action hstep hallowed hstate
      have hcapacities := (capacities_step hstep).trans hstate.2
      refine ⟨counts_step hstep ?_ hallowed hstate.1, hcapacities⟩
      intro slot hslot
      have hmem : (slot.id, slot.capacity) ∈ state.queues.capacities :=
        List.mem_map.mpr ⟨slot, hslot, rfl⟩
      rw [hstate.2] at hmem
      obtain ⟨config, hconfig, heq⟩ := List.mem_map.mp hmem
      injection heq with hid hcapacity
      have hle := List.le_sum_of_mem
        (List.mem_map.mpr ⟨config, hconfig, rfl⟩ :
          config.capacity ∈ layout.map QueueConfig.capacity)
      rw [← hcapacity]
      unfold maximumTotalQueueCapacity at htotal
      omega
    · simp only [initial, QueueSet.capacities, QueueSet.new, List.map_map]
      rfl
  obtain ⟨hcounts, hcapacities⟩ := hboth
  have hle : ∀ slot ∈ state.queues.slots,
      slot.queued.toNat ≤ slot.capacity :=
    fun slot hslot => (hcounts slot hslot).le_capacity
  constructor
  · intro snapshot hsnapshot
    obtain ⟨slot, hslot, rfl⟩ := List.mem_map.mp hsnapshot
    exact hle slot hslot
  · refine toNat_sum ((sum_queued_le hle).trans_lt ?_)
    have hsame : state.queues.slots.map QueueSlot.capacity =
        layout.map QueueConfig.capacity := by
      have hmap := congrArg (List.map Prod.snd) hcapacities
      simp only [QueueSet.capacities, List.map_map] at hmap
      exact hmap
    rw [hsame]
    unfold maximumTotalQueueCapacity at htotal
    omega

def soleLayout : List QueueConfig := [⟨⟨0⟩, 1, .default⟩]

theorem soleLayout_valid : validateLayout soleLayout ⟨0⟩ = .ok () := by
  decide

def soleLink : CountState Unit :=
  initial soleLayout (nodup_of_validateLayout soleLayout_valid)
    [(⟨0⟩, (), false), (⟨0⟩, (), false)]

def turnActions : List CountAction :=
  List.replicate 5 (.push 0) ++ [.pop, .release 0, .countDown]

theorem isSome_turnRun : (soleLink.run turnActions).isSome := by
  decide +kernel

theorem run_counts_turn :
    let state := (soleLink.run turnActions).get isSome_turnRun
    (∀ snapshot ∈ state.queues.snapshots,
        snapshot.queued.toNat ≤ snapshot.capacity) ∧
      state.queues.pendingTotal.toNat =
        ((state.queues.slots.map QueueSlot.queued).map UInt64.toNat).sum :=
  run_counts soleLayout ⟨0⟩ soleLayout_valid _ turnActions _
    (Option.some_get isSome_turnRun).symm (by decide +kernel)

def earlyActions : List CountAction :=
  List.replicate 4 (.push 0) ++ [.pop, .release 0, .countDown]

theorem isSome_earlyRun : (soleLink.run earlyActions).isSome := by
  decide +kernel

theorem early_finish_wraps :
    ∃ state, soleLink.run earlyActions = some state ∧
      state.queues.snapshots = [⟨⟨0⟩, 1, 18446744073709551615, .default⟩] ∧
      ¬ ∀ snapshot ∈ state.queues.snapshots,
        snapshot.queued.toNat ≤ snapshot.capacity :=
  ⟨_, (Option.some_get isSome_earlyRun).symm, by decide +kernel,
    by decide +kernel⟩

/-- The second call uses the permit of an entry that is still counted. -/
example : (soleLink.run (List.replicate 5 (.push 0) ++ [.pop, .release 0] ++
    List.replicate 5 (.push 1))).map (fun state => state.queues.snapshots) =
      some [⟨⟨0⟩, 1, 2, .default⟩] := by
  decide +kernel

end CountState

end HartLink.Service
