import HartLink.Foundation.Ring
import HartLink.Service.Slots

/-!
# What the scheduler chooses

`StrictChoice` and `WeightedChoice` say which entry a scheduling decision may
take and where it leaves the cursor.  Everything later about scheduling follows
from the four lemmas that invert `popStrict` and `popWeighted`.
-/

namespace HartLink.Service

open HartLink.Foundation

namespace QueueSet

variable {α : Type*}

/-! ## Slots by position -/

def priorityAt (queues : QueueSet α) (index : Nat) : Option QueuePriority :=
  queues.slots[index]?.map QueueSlot.priority

theorem popAt_eq_none_iff (queues : QueueSet α) (index : Nat) :
    queues.popAt index = none ↔
      ∀ slot, queues.slots[index]? = some slot → slot.entries = [] := by
  unfold popAt
  split
  next hslot => simp [hslot]
  next slot hslot =>
    split
    next hentries => simp [hslot, hentries]
    next entry rest hentries => simp [hslot, hentries]

theorem lt_length_of_popAt {queues : QueueSet α} {index : Nat}
    {popped : Popped α} (h : queues.popAt index = some popped) :
    index < queues.slots.length := by
  obtain ⟨slot, -, hslot, -⟩ := replaces_popAt h
  exact (List.getElem?_eq_some_iff.mp hslot).1

/-! ## Strict queues -/

/-- The nearest ready queue of a rank, behind the last strict queue served. -/
structure StrictChoice (queues : QueueSet α) (cursor : QueueCursor)
    (popped : Popped α) (next : QueueCursor) (rank : UInt16)
    (index : Nat) : Prop where
  ready : queues.readyRank = some rank
  priority : queues.priorityAt index = some (.strict rank)
  pop : queues.popAt index = some popped
  next : next = { cursor with strictIndex := index }
  nearest : ∀ other < queues.slots.length,
    ahead queues.slots.length
        (cursor.strictIndex % queues.slots.length) other <
      ahead queues.slots.length
        (cursor.strictIndex % queues.slots.length) index →
    queues.priorityAt other = some (.strict rank) →
      queues.popAt other = none

section Strict

variable {queues : QueueSet α} {cursor next : QueueCursor}
  {popped : Popped α}

def strictAt (queues : QueueSet α) (cursor : QueueCursor) (rank : UInt16)
    (index : Nat) : Option (Popped α × QueueCursor) :=
  if queues.priorityAt index = some (.strict rank) then
    (queues.popAt index).map fun popped =>
      (popped, { cursor with strictIndex := index })
  else none

theorem popStrict_eq {rank : UInt16} (h : queues.readyRank = some rank) :
    queues.popStrict cursor =
      (List.range queues.slots.length).findSome? fun offset =>
        queues.strictAt cursor rank
          ((cursor.strictIndex % queues.slots.length + (offset + 1)) %
            queues.slots.length) := by
  simp only [popStrict, h, strictAt, priorityAt, Nat.mod_add_mod]

theorem strictAt_eq_none_iff {rank : UInt16} {index : Nat} :
    queues.strictAt cursor rank index = none ↔
      (queues.priorityAt index = some (.strict rank) →
        queues.popAt index = none) := by
  unfold strictAt
  split_ifs with hpriority
  · simp [hpriority]
  · simp [hpriority]

theorem length_pos_of_readyRank {rank : UInt16}
    (h : queues.readyRank = some rank) : 0 < queues.slots.length := by
  rw [List.length_pos_iff]
  intro hnil
  simp [readyRank, hnil] at h

theorem popStrict_some
    (h : queues.popStrict cursor = some (popped, next)) :
    ∃ rank index, queues.StrictChoice cursor popped next rank index := by
  cases hrank : queues.readyRank with
  | none => simp [popStrict, hrank] at h
  | some rank =>
      have hlength := length_pos_of_readyRank hrank
      rw [popStrict_eq hrank, findSome?_ahead_eq_some_iff
        (Nat.mod_lt _ hlength) (Nat.le_refl _)] at h
      obtain ⟨index, hindex, -, hfound, hnearest⟩ := h
      unfold strictAt at hfound
      split_ifs at hfound with hpriority
      obtain ⟨found, hpop, heq⟩ := Option.map_eq_some_iff.mp hfound
      injection heq with hpopped hcursor
      subst hpopped hcursor
      refine ⟨rank, index, hrank, hpriority, hpop, rfl, ?_⟩
      intro other hother hlt
      exact strictAt_eq_none_iff.mp (hnearest other hother hlt)

theorem popStrict_none (h : queues.popStrict cursor = none) {rank : UInt16}
    (hrank : queues.readyRank = some rank) {index : Nat}
    (hpriority : queues.priorityAt index = some (.strict rank)) :
    queues.popAt index = none := by
  have hlength := length_pos_of_readyRank hrank
  rw [popStrict_eq hrank, findSome?_ahead_eq_none_iff
    (Nat.mod_lt _ hlength) (Nat.le_refl _)] at h
  obtain ⟨slot, hslot, -⟩ := Option.map_eq_some_iff.mp hpriority
  have hindex := (List.getElem?_eq_some_iff.mp hslot).1
  exact strictAt_eq_none_iff.mp
    (h index hindex (ahead_le (Nat.mod_lt _ hlength) hindex)) hpriority

end Strict

/-! ## Weighted queues -/

/-- The queue that the rotation stands on, or the nearest one ahead of it. -/
inductive WeightedChoice (queues : QueueSet α) (cursor : QueueCursor)
    (popped : Popped α) : QueueCursor → Prop
  | current (weight : UInt16)
      (weightAt : queues.weightAt cursor.weightedIndex = some weight)
      (used : cursor.weightedUsed < weight)
      (pop : queues.popAt cursor.weightedIndex = some popped) :
      WeightedChoice queues cursor popped { cursor with
        weightedUsed := saturatingSucc16 cursor.weightedUsed }
  | other (index : Nat) (ne : index ≠ cursor.weightedIndex)
      (weightAt : (queues.weightAt index).isSome)
      (pop : queues.popAt index = some popped)
      (left : ∀ weight,
        queues.weightAt cursor.weightedIndex = some weight →
        cursor.weightedUsed < weight →
          queues.popAt cursor.weightedIndex = none)
      (nearest : ∀ other < queues.slots.length,
        ahead queues.slots.length cursor.weightedIndex other <
          ahead queues.slots.length cursor.weightedIndex index →
        (queues.weightAt other).isSome → queues.popAt other = none) :
      WeightedChoice queues cursor popped { cursor with
        weightedIndex := index, weightedUsed := 1 }
  | again (weight : UInt16)
      (weightAt : queues.weightAt cursor.weightedIndex = some weight)
      (used : ¬ cursor.weightedUsed < weight)
      (pop : queues.popAt cursor.weightedIndex = some popped)
      (alone : ∀ other < queues.slots.length,
        other ≠ cursor.weightedIndex →
        (queues.weightAt other).isSome → queues.popAt other = none) :
      WeightedChoice queues cursor popped { cursor with
        weightedUsed := weight }

section Weighted

variable {queues : QueueSet α} {cursor next : QueueCursor}
  {popped : Popped α}

theorem WeightedChoice.exists_popAt
    (h : queues.WeightedChoice cursor popped next) :
    ∃ index, queues.popAt index = some popped := by
  cases h with
  | current weight weightAt used pop => exact ⟨_, pop⟩
  | other index ne weightAt pop left nearest => exact ⟨_, pop⟩
  | again weight weightAt used pop alone => exact ⟨_, pop⟩

theorem normalizeCursor_lt (hlength : 0 < queues.slots.length) :
    (queues.normalizeCursor cursor).weightedIndex < queues.slots.length := by
  unfold normalizeCursor
  split_ifs with hlarge
  · exact hlength
  · exact Nat.lt_of_not_le hlarge

theorem popCurrent_some
    (h : queues.popCurrent cursor = some (popped, next)) :
    queues.WeightedChoice cursor popped next := by
  unfold popCurrent at h
  split at h
  · contradiction
  next weight hweight =>
    split_ifs at h with hused
    obtain ⟨found, hpop, heq⟩ := Option.map_eq_some_iff.mp h
    injection heq with hpopped hcursor
    subst hpopped hcursor
    exact .current weight hweight hused hpop

theorem popCurrent_none (h : queues.popCurrent cursor = none)
    {weight : UInt16}
    (hweight : queues.weightAt cursor.weightedIndex = some weight)
    (hused : cursor.weightedUsed < weight) :
    queues.popAt cursor.weightedIndex = none := by
  simpa [popCurrent, hweight, hused] using h

def otherAt (queues : QueueSet α) (cursor : QueueCursor) (index : Nat) :
    Option (Popped α × QueueCursor) :=
  if (queues.weightAt index).isSome then
    (queues.popAt index).map fun popped =>
      (popped, { cursor with weightedIndex := index, weightedUsed := 1 })
  else none

theorem otherAt_eq_none_iff {index : Nat} :
    queues.otherAt cursor index = none ↔
      ((queues.weightAt index).isSome → queues.popAt index = none) := by
  unfold otherAt
  split_ifs with hweight
  · simp [hweight]
  · simp [hweight]

theorem popOther_some (hlt : cursor.weightedIndex < queues.slots.length)
    (hcurrent : queues.popCurrent cursor = none)
    (h : queues.popOther cursor = some (popped, next)) :
    queues.WeightedChoice cursor popped next := by
  change (List.range (queues.slots.length - 1)).findSome? (fun offset =>
    queues.otherAt cursor ((cursor.weightedIndex + (offset + 1)) %
      queues.slots.length)) = some (popped, next) at h
  rw [findSome?_ahead_eq_some_iff hlt (Nat.sub_le _ _)] at h
  obtain ⟨index, hindex, hahead, hfound, hnearest⟩ := h
  unfold otherAt at hfound
  split_ifs at hfound with hweight
  obtain ⟨found, hpop, heq⟩ := Option.map_eq_some_iff.mp hfound
  injection heq with hpopped hcursor
  subst hpopped hcursor
  refine .other index ((ahead_le_pred_iff hindex).mp hahead) hweight hpop
    ?_ ?_
  · intro weight hcurrentWeight hused
    exact popCurrent_none hcurrent hcurrentWeight hused
  · intro other hother hless
    exact otherAt_eq_none_iff.mp (hnearest other hother hless)

theorem popOther_none (hlt : cursor.weightedIndex < queues.slots.length)
    (h : queues.popOther cursor = none) {index : Nat}
    (hindex : index < queues.slots.length)
    (hne : index ≠ cursor.weightedIndex)
    (hweight : (queues.weightAt index).isSome) :
    queues.popAt index = none := by
  change (List.range (queues.slots.length - 1)).findSome? (fun offset =>
    queues.otherAt cursor ((cursor.weightedIndex + (offset + 1)) %
      queues.slots.length)) = none at h
  rw [findSome?_ahead_eq_none_iff hlt (Nat.sub_le _ _)] at h
  exact otherAt_eq_none_iff.mp
    (h index hindex ((ahead_le_pred_iff hindex).mpr hne)) hweight

theorem popWeighted_some
    (h : queues.popWeighted cursor = (some popped, next)) :
    queues.WeightedChoice (queues.normalizeCursor cursor) popped next := by
  unfold popWeighted at h
  split_ifs at h with hempty
  · simp at h
  have hlt : (queues.normalizeCursor cursor).weightedIndex <
      queues.slots.length :=
    normalizeCursor_lt (List.length_pos_iff.mpr (by simpa using hempty))
  dsimp only at h
  split at h
  next found foundCursor hcurrent =>
    simp only [Prod.mk.injEq, Option.some.injEq] at h
    obtain ⟨rfl, rfl⟩ := h
    exact popCurrent_some hcurrent
  next hcurrent =>
    split at h
    next found foundCursor hother =>
      simp only [Prod.mk.injEq, Option.some.injEq] at h
      obtain ⟨rfl, rfl⟩ := h
      exact popOther_some hlt hcurrent hother
    next hother =>
      split at h
      next found foundCursor hagain =>
        simp only [Prod.mk.injEq, Option.some.injEq] at h
        obtain ⟨rfl, rfl⟩ := h
        unfold popAgain at hagain
        split at hagain
        · contradiction
        next weight hweight =>
          obtain ⟨found, hpop, heq⟩ := Option.map_eq_some_iff.mp hagain
          injection heq with hpopped hcursor
          subst hpopped hcursor
          refine .again weight hweight ?_ hpop ?_
          · intro hused
            rw [popCurrent_none hcurrent hweight hused] at hpop
            contradiction
          · intro other hlength hne
            exact popOther_none hlt hother hlength hne
      · simp at h

theorem popWeighted_none
    (h : queues.popWeighted cursor = (none, next)) {index : Nat}
    (hweight : (queues.weightAt index).isSome) :
    queues.popAt index = none := by
  have hindex : index < queues.slots.length := by
    by_contra hlarge
    simp [weightAt, List.getElem?_eq_none (Nat.le_of_not_lt hlarge)]
      at hweight
  unfold popWeighted at h
  split_ifs at h with hempty
  · simp at hempty
    simp [hempty] at hindex
  dsimp only at h
  split at h
  · simp at h
  split at h
  · simp at h
  next hother =>
    split at h
    · simp at h
    next hagain =>
      by_cases hne : index =
          (queues.normalizeCursor cursor).weightedIndex
      · obtain ⟨weight, hsome⟩ := Option.isSome_iff_exists.mp hweight
        rw [hne] at hsome ⊢
        simpa [popAgain, hsome] using hagain
      · exact popOther_none (normalizeCursor_lt (by omega)) hother hindex hne
          hweight

end Weighted

/-! ## One decision -/

section Decision

variable {queues : QueueSet α} {cursor next : QueueCursor}
  {popped : Popped α}

theorem max_rank (first second : UInt16) :
    max first second = if first ≤ second then second else first := rfl

instance : Std.LawfulOrderMax UInt16 :=
  .of_max_le_iff
    (by
      intro first second bound
      rw [max_rank]
      simp only [UInt16.le_iff_toNat_le]
      split_ifs <;> omega)
    (by
      intro first second
      rw [max_rank]
      split_ifs <;> simp)

theorem mem_readyRanks {slot : QueueSlot α} (hslot : slot ∈ queues.slots)
    {rank : UInt16} (hpriority : slot.priority = .strict rank)
    (hqueued : 0 < slot.queued) :
    ∃ best, queues.readyRank = some best ∧ rank ≤ best := by
  cases hbest : queues.readyRank with
  | none =>
      rw [readyRank, List.max?_eq_none_iff] at hbest
      have hnone := List.filterMap_eq_nil_iff.mp hbest slot hslot
      simp [hpriority, hqueued] at hnone
  | some best =>
      refine ⟨best, rfl, (List.max?_eq_some_iff.mp hbest).2 rank ?_⟩
      refine List.mem_filterMap.mpr ⟨slot, hslot, ?_⟩
      simp [hpriority, hqueued]

theorem exists_slot_of_readyRank {rank : UInt16}
    (h : queues.readyRank = some rank) :
    ∃ slot ∈ queues.slots, slot.priority = .strict rank ∧
      0 < slot.queued := by
  have hmem := (List.max?_eq_some_iff.mp h).1
  obtain ⟨slot, hslot, hrank⟩ := List.mem_filterMap.mp hmem
  split at hrank
  next found hpriority =>
    split_ifs at hrank with hqueued
    injection hrank with hrank
    exact ⟨slot, hslot, by rw [hpriority, hrank], hqueued⟩
  · contradiction

/-- Every decision pops at some position and touches one part of the cursor. -/
theorem popScheduled_popAt
    (h : queues.popScheduled cursor = (some popped, next)) :
    ∃ index, queues.popAt index = some popped := by
  unfold popScheduled at h
  split at h
  next found foundCursor hstrict =>
    simp only [Prod.mk.injEq, Option.some.injEq] at h
    obtain ⟨rfl, rfl⟩ := h
    obtain ⟨rank, index, hchoice⟩ := popStrict_some hstrict
    exact ⟨index, hchoice.pop⟩
  · exact (popWeighted_some h).exists_popAt

/-- A queue is counted exactly while it holds an entry. -/
def Counted (queues : QueueSet α) : Prop :=
  ∀ slot ∈ queues.slots, 0 < slot.queued ↔ slot.entries ≠ []

/--
The front entry of one queue leaves it and all other queues stay; no queue with
an entry has a larger strict rank, or a rank at all if this one is weighted.
-/
def Serves (queues : QueueSet α) (popped : Popped α) : Prop :=
  ∃ slot rest, slot.entries = popped.entry :: rest ∧
    popped.queue = slot.id ∧
    queues.Replaces popped.queues slot { slot with entries := rest } ∧
    ∀ other ∈ queues.slots, other.entries ≠ [] →
      ∀ rank, other.priority = .strict rank →
        ∃ best, slot.priority = .strict best ∧ rank ≤ best

theorem serves_of_popStrict (hcounted : queues.Counted)
    (h : queues.popStrict cursor = some (popped, next)) :
    queues.Serves popped := by
  obtain ⟨best, index, hchoice⟩ := popStrict_some h
  obtain ⟨slot, rest, hslot, hentries, hqueue, hreplaces⟩ :=
    replaces_popAt hchoice.pop
  refine ⟨slot, rest, hentries, hqueue, hreplaces, ?_⟩
  intro other hother hready rank hrank
  obtain ⟨found, hfound, hle⟩ :=
    mem_readyRanks hother hrank ((hcounted other hother).mpr hready)
  rw [hchoice.ready] at hfound
  injection hfound with hfound
  subst hfound
  refine ⟨best, ?_, hle⟩
  simpa [priorityAt, hslot] using hchoice.priority

theorem empty_of_popStrict_none (hcounted : queues.Counted)
    (h : queues.popStrict cursor = none) {slot : QueueSlot α}
    (hslot : slot ∈ queues.slots) {rank : UInt16}
    (hpriority : slot.priority = .strict rank) : slot.entries = [] := by
  by_contra hready
  obtain ⟨best, hbest, -⟩ := mem_readyRanks hslot hpriority
    ((hcounted slot hslot).mpr hready)
  obtain ⟨found, hfound, hrank, hqueued⟩ := exists_slot_of_readyRank hbest
  obtain ⟨index, hindex⟩ := List.mem_iff_getElem?.mp hfound
  have hnone := @popStrict_none _ _ _ h _ hbest index
    (by simp [priorityAt, hindex, hrank])
  exact (hcounted found hfound).mp hqueued
    ((popAt_eq_none_iff _ _).mp hnone found hindex)

theorem serves_of_popScheduled (hcounted : queues.Counted)
    (h : queues.popScheduled cursor = (some popped, next)) :
    queues.Serves popped := by
  obtain ⟨index, hpop⟩ := popScheduled_popAt h
  unfold popScheduled at h
  split at h
  next found foundCursor hstrict =>
    simp only [Prod.mk.injEq, Option.some.injEq] at h
    obtain ⟨rfl, rfl⟩ := h
    exact serves_of_popStrict hcounted hstrict
  next hstrict =>
    obtain ⟨slot, rest, -, hentries, hqueue, hreplaces⟩ :=
      replaces_popAt hpop
    refine ⟨slot, rest, hentries, hqueue, hreplaces, ?_⟩
    intro other hother hready rank hrank
    exact absurd (empty_of_popStrict_none hcounted hstrict hother hrank)
      hready

theorem empty_of_popScheduled_none (hcounted : queues.Counted)
    (h : queues.popScheduled cursor = (none, next)) {slot : QueueSlot α}
    (hslot : slot ∈ queues.slots) : slot.entries = [] := by
  unfold popScheduled at h
  split at h
  · simp at h
  next hstrict =>
    cases hpriority : slot.priority with
    | strict rank =>
        exact empty_of_popStrict_none hcounted hstrict hslot hpriority
    | weighted weight =>
        obtain ⟨index, hindex⟩ := List.mem_iff_getElem?.mp hslot
        have hnone := @popWeighted_none _ _ _ _ h index
          (by simp [weightAt, hindex, hpriority, QueuePriority.weight])
        exact (popAt_eq_none_iff _ _).mp hnone slot hindex

/-- What the scheduler decides on counted queues, from any cursor. -/
theorem popScheduled_spec (hcounted : queues.Counted)
    (cursor : QueueCursor) :
    ((queues.popScheduled cursor).1 = none ↔
        ∀ slot ∈ queues.slots, slot.entries = []) ∧
      ∀ popped, (queues.popScheduled cursor).1 = some popped →
        queues.Serves popped := by
  cases h : queues.popScheduled cursor with
  | mk result next =>
      cases result with
      | none =>
          simp only [true_iff, reduceCtorEq, false_implies, implies_true,
            and_true]
          intro slot hslot
          exact empty_of_popScheduled_none hcounted h hslot
      | some popped =>
          have hserves := serves_of_popScheduled hcounted h
          constructor
          · obtain ⟨slot, rest, hentries, -, hreplaces, -⟩ := hserves
            simp only [reduceCtorEq, false_iff]
            intro hempty
            rw [hempty slot hreplaces.before_mem] at hentries
            contradiction
          · intro other hother
            injection hother with hother
            exact hother ▸ hserves

end Decision

end QueueSet

end HartLink.Service
