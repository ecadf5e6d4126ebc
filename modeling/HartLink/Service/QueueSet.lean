import HartLink.Service.Link

/-!
# Bounded queues and their scheduler

A queue set is generic in its entries.  Every operation here is one atomic step
on the shared state: a lookup and what it does under one lock.  The results say
where an entry goes; `gives_popAt`, `entries_pushFront` and `entries_tryPush`
account for every entry up to its place in the queues.
-/

namespace HartLink.Service

inductive QueuePriority where
  | weighted (weight : { weight : UInt16 // weight ≠ 0 })
  | strict (rank : UInt16)
  deriving DecidableEq, Repr

namespace QueuePriority

def weight : QueuePriority → Option UInt16
  | .weighted weight => some weight
  | .strict _ => none

protected def default : QueuePriority := .weighted ⟨1, by decide⟩

end QueuePriority

structure QueueConfig where
  id : QueueId
  capacity : Nat
  priority : QueuePriority
  deriving DecidableEq, Repr

inductive QueuePushError where
  | full
  | closed
  | deadline
  | unknown (queue : QueueId)
  deriving DecidableEq, Repr

/-- An entry keeps its permit until it is finished. -/
structure QueueSlot (α : Type*) where
  id : QueueId
  capacity : Nat
  priority : QueuePriority
  permits : Nat
  permitsClosed : Bool
  queued : UInt64
  entries : List α
  deriving DecidableEq, Repr

namespace QueueSlot

variable {α : Type*}

def new (config : QueueConfig) : QueueSlot α :=
  { id := config.id
    capacity := config.capacity
    priority := config.priority
    permits := config.capacity
    permitsClosed := false
    queued := 0
    entries := [] }

def placed (slot : QueueSlot α) : List (QueueId × α) :=
  slot.entries.map (slot.id, ·)

def dropFront (slot : QueueSlot α) : QueueSlot α :=
  { slot with entries := slot.entries.tail }

def pushFront (entry : α) (slot : QueueSlot α) : QueueSlot α :=
  { slot with entries := entry :: slot.entries }

def pushBack (entry : α) (slot : QueueSlot α) : QueueSlot α :=
  { slot with
    permits := slot.permits - 1
    entries := slot.entries ++ [entry]
    queued := slot.queued + 1 }

def finishEntry (slot : QueueSlot α) : QueueSlot α :=
  { slot with permits := slot.permits + 1, queued := slot.queued - 1 }

def close (slot : QueueSlot α) : QueueSlot α :=
  { slot with permitsClosed := true }

def setPriority (priority : QueuePriority) (slot : QueueSlot α) :
    QueueSlot α :=
  { slot with priority }

theorem id_dropFront (slot : QueueSlot α) : slot.dropFront.id = slot.id := rfl

theorem id_pushFront (entry : α) (slot : QueueSlot α) :
    (slot.pushFront entry).id = slot.id := rfl

theorem id_pushBack (entry : α) (slot : QueueSlot α) :
    (slot.pushBack entry).id = slot.id := rfl

theorem id_finishEntry (slot : QueueSlot α) :
    slot.finishEntry.id = slot.id := rfl

theorem id_setPriority (priority : QueuePriority) (slot : QueueSlot α) :
    (slot.setPriority priority).id = slot.id := rfl

end QueueSlot

structure QueueCursor where
  weightedIndex : Nat := 0
  weightedUsed : UInt16 := 0
  strictIndex : Nat := 0
  deriving DecidableEq, Repr

/-- No identifier is configured twice, so a lookup finds the only slot. -/
@[ext]
structure QueueSet (α : Type*) where
  slots : List (QueueSlot α)
  inputClosed : Bool := false
  runnerClosed : Bool := false
  nodup : (slots.map QueueSlot.id).Nodup
  deriving DecidableEq

/-- A popped entry with its queue and the queues without it. -/
structure Popped (α : Type*) where
  queue : QueueId
  entry : α
  queues : QueueSet α

namespace QueueSet

variable {α : Type*}

def new (definitions : List QueueConfig)
    (h : (definitions.map QueueConfig.id).Nodup) : QueueSet α where
  slots := definitions.map QueueSlot.new
  nodup := by
    rw [List.map_map]
    exact h

def ids (queues : QueueSet α) : List QueueId :=
  queues.slots.map QueueSlot.id

def entries (queues : QueueSet α) : List (QueueId × α) :=
  queues.slots.flatMap QueueSlot.placed

def indexOf (queues : QueueSet α) (id : QueueId) : Option Nat :=
  queues.slots.findIdx? fun slot => slot.id = id

theorem map_id_modify (slots : List (QueueSlot α)) (index : Nat)
    {change : QueueSlot α → QueueSlot α}
    (h : ∀ slot, (change slot).id = slot.id) :
    (slots.modify index change).map QueueSlot.id =
      slots.map QueueSlot.id := by
  induction slots generalizing index with
  | nil => cases index <;> rfl
  | cons slot slots ih =>
      cases index with
      | zero => simp [h]
      | succ index => simp [ih]

def update (queues : QueueSet α) (index : Nat)
    (change : QueueSlot α → QueueSlot α)
    (h : ∀ slot, (change slot).id = slot.id) : QueueSet α :=
  { queues with
    slots := queues.slots.modify index change
    nodup := by
      rw [map_id_modify _ _ h]
      exact queues.nodup }

theorem slots_update (queues : QueueSet α) (index : Nat)
    (change : QueueSlot α → QueueSlot α)
    (h : ∀ slot, (change slot).id = slot.id) :
    (queues.update index change h).slots =
      queues.slots.modify index change := rfl

/-! ## Operations on one queue -/

def popAt (queues : QueueSet α) (index : Nat) : Option (Popped α) :=
  match queues.slots[index]? with
  | none => none
  | some slot =>
      match slot.entries with
      | [] => none
      | entry :: _ =>
          some ⟨slot.id, entry,
            queues.update index QueueSlot.dropFront QueueSlot.id_dropFront⟩

def popFrom (queues : QueueSet α) (id : QueueId) : Option (Popped α) :=
  (queues.indexOf id).bind queues.popAt

def slotOf (queues : QueueSet α) (id : QueueId) : Option (QueueSlot α) :=
  (queues.indexOf id).bind fun index => queues.slots[index]?

/-- A change of the slot of a queue, if there is one. -/
def onSlot (queues : QueueSet α) (id : QueueId)
    (change : QueueSlot α → QueueSlot α)
    (h : ∀ slot, (change slot).id = slot.id) : QueueSet α :=
  match queues.indexOf id with
  | none => queues
  | some index => queues.update index change h

def pushFront (queues : QueueSet α) (id : QueueId) (entry : α) :
    QueueSet α :=
  queues.onSlot id (QueueSlot.pushFront entry) (QueueSlot.id_pushFront entry)

def finishEntry (queues : QueueSet α) (id : QueueId) : QueueSet α :=
  queues.onSlot id QueueSlot.finishEntry QueueSlot.id_finishEntry

def tryPush (queues : QueueSet α) (id : QueueId) (entry : α) :
    Except QueuePushError (QueueSet α) :=
  match queues.slotOf id with
  | none => .error (.unknown id)
  | some slot =>
      if queues.runnerClosed then .error .closed
      else if slot.permitsClosed then .error .closed
      else if slot.permits = 0 then .error .full
      else
        .ok (queues.onSlot id (QueueSlot.pushBack entry)
          (QueueSlot.id_pushBack entry))

def setPriority (queues : QueueSet α) (id : QueueId)
    (priority : QueuePriority) : QueueSet α :=
  queues.onSlot id (QueueSlot.setPriority priority)
    (QueueSlot.id_setPriority priority)

def closeInput (queues : QueueSet α) : QueueSet α :=
  { queues with inputClosed := true }

def closeRunner (queues : QueueSet α) : QueueSet α :=
  if queues.runnerClosed then queues
  else
    { queues with
      runnerClosed := true
      slots := queues.slots.map QueueSlot.close
      nodup := by
        rw [List.map_map]
        exact queues.nodup }

/-! ## Scheduling -/

def readyRank (queues : QueueSet α) : Option UInt16 :=
  (queues.slots.filterMap fun slot =>
    match slot.priority with
    | .strict rank => if slot.queued > 0 then some rank else none
    | .weighted _ => none).max?

def popStrict (queues : QueueSet α) (cursor : QueueCursor) :
    Option (Popped α × QueueCursor) :=
  match queues.readyRank with
  | none => none
  | some rank =>
      (List.range queues.slots.length).findSome? fun offset =>
        let index := (cursor.strictIndex + (offset + 1)) % queues.slots.length
        if (queues.slots[index]?.map QueueSlot.priority) =
            some (.strict rank) then
          (queues.popAt index).map fun popped =>
            (popped, { cursor with strictIndex := index })
        else none

def normalizeCursor (queues : QueueSet α) (cursor : QueueCursor) :
    QueueCursor :=
  if cursor.weightedIndex ≥ queues.slots.length then
    { cursor with weightedIndex := 0, weightedUsed := 0 }
  else cursor

def weightAt (queues : QueueSet α) (index : Nat) : Option UInt16 :=
  queues.slots[index]?.bind fun slot => slot.priority.weight

def saturatingSucc16 (value : UInt16) : UInt16 :=
  if value = 65535 then 65535 else value + 1

def popCurrent (queues : QueueSet α) (cursor : QueueCursor) :
    Option (Popped α × QueueCursor) :=
  match queues.weightAt cursor.weightedIndex with
  | none => none
  | some weight =>
      if cursor.weightedUsed < weight then
        (queues.popAt cursor.weightedIndex).map fun popped =>
          (popped, { cursor with
            weightedUsed := saturatingSucc16 cursor.weightedUsed })
      else none

def popOther (queues : QueueSet α) (cursor : QueueCursor) :
    Option (Popped α × QueueCursor) :=
  (List.range (queues.slots.length - 1)).findSome? fun offset =>
    let index := (cursor.weightedIndex + (offset + 1)) % queues.slots.length
    if (queues.weightAt index).isSome then
      (queues.popAt index).map fun popped =>
        (popped, { cursor with weightedIndex := index, weightedUsed := 1 })
    else none

def popAgain (queues : QueueSet α) (cursor : QueueCursor) :
    Option (Popped α × QueueCursor) :=
  match queues.weightAt cursor.weightedIndex with
  | none => none
  | some weight =>
      (queues.popAt cursor.weightedIndex).map fun popped =>
        (popped, { cursor with weightedUsed := weight })

def popWeighted (queues : QueueSet α) (cursor : QueueCursor) :
    Option (Popped α) × QueueCursor :=
  if queues.slots.isEmpty then (none, cursor)
  else
    let cursor := queues.normalizeCursor cursor
    match queues.popCurrent cursor with
    | some (popped, cursor) => (some popped, cursor)
    | none =>
        match queues.popOther cursor with
        | some (popped, cursor) => (some popped, cursor)
        | none =>
            match queues.popAgain cursor with
            | some (popped, cursor) => (some popped, cursor)
            | none => (none, cursor)

def popScheduled (queues : QueueSet α) (cursor : QueueCursor) :
    Option (Popped α) × QueueCursor :=
  match queues.popStrict cursor with
  | some (popped, cursor) => (some popped, cursor)
  | none => queues.popWeighted cursor

/-! ## Where entries go -/

theorem entries_update {queues : QueueSet α} {index : Nat}
    {slot : QueueSlot α} (hslot : queues.slots[index]? = some slot)
    (change : QueueSlot α → QueueSlot α)
    (h : ∀ slot, (change slot).id = slot.id) :
    ∃ others, queues.entries.Perm (slot.placed ++ others) ∧
      (queues.update index change h).entries.Perm
        ((change slot).placed ++ others) := by
  obtain ⟨hindex, hget⟩ := List.getElem?_eq_some_iff.mp hslot
  refine ⟨(queues.slots.take index).flatMap QueueSlot.placed ++
    (queues.slots.drop (index + 1)).flatMap QueueSlot.placed, ?_, ?_⟩
  · have hsplit : queues.slots = queues.slots.take index ++
        slot :: queues.slots.drop (index + 1) := by
      rw [← hget, List.getElem_cons_drop, List.take_append_drop]
    have hentries : queues.entries =
        (queues.slots.take index).flatMap QueueSlot.placed ++
          (slot.placed ++
            (queues.slots.drop (index + 1)).flatMap QueueSlot.placed) := by
      conv_lhs => rw [entries, hsplit]
      simp
    rw [hentries]
    exact List.perm_append_comm_assoc _ _ _
  · have hentries : (queues.update index change h).entries =
        (queues.slots.take index).flatMap QueueSlot.placed ++
          ((change slot).placed ++
            (queues.slots.drop (index + 1)).flatMap QueueSlot.placed) := by
      rw [entries, slots_update, List.modify_eq_take_cons_drop hindex, hget]
      simp
    rw [hentries]
    exact List.perm_append_comm_assoc _ _ _

theorem ids_update (queues : QueueSet α) (index : Nat)
    (change : QueueSlot α → QueueSlot α)
    (h : ∀ slot, (change slot).id = slot.id) :
    (queues.update index change h).ids = queues.ids :=
  map_id_modify _ _ h

theorem exists_slot_of_mem {queues : QueueSet α} {id : QueueId}
    (h : id ∈ queues.ids) :
    ∃ index slot, queues.indexOf id = some index ∧
      queues.slots[index]? = some slot ∧ slot.id = id := by
  obtain ⟨slot, hmem, hid⟩ := List.mem_map.mp h
  cases hindex : queues.indexOf id with
  | none =>
      have hnone := List.findIdx?_eq_none_iff.mp hindex slot hmem
      simp [hid] at hnone
  | some index =>
      obtain ⟨hlt, hfound, -⟩ := List.findIdx?_eq_some_iff_getElem.mp hindex
      exact ⟨index, queues.slots[index], rfl,
        List.getElem?_eq_getElem hlt, by simpa using hfound⟩

theorem mem_ids_of_mem_entries {queues : QueueSet α} {place : QueueId × α}
    (h : place ∈ queues.entries) : place.1 ∈ queues.ids := by
  obtain ⟨slot, hslot, hmem⟩ := List.mem_flatMap.mp h
  obtain ⟨entry, -, rfl⟩ := List.mem_map.mp hmem
  exact List.mem_map.mpr ⟨slot, hslot, rfl⟩

theorem id_of_indexOf {queues : QueueSet α} {id : QueueId} {index : Nat}
    {slot : QueueSlot α} (h : queues.indexOf id = some index)
    (hslot : queues.slots[index]? = some slot) : slot.id = id := by
  obtain ⟨hlt, hfound, -⟩ := List.findIdx?_eq_some_iff_getElem.mp h
  rw [List.getElem?_eq_getElem hlt] at hslot
  injection hslot with hslot
  subst hslot
  simpa using hfound

/-- The queues differ in their entries and counts only. -/
structure SameShape (queues other : QueueSet α) : Prop where
  ids : other.ids = queues.ids
  inputClosed : other.inputClosed = queues.inputClosed
  runnerClosed : other.runnerClosed = queues.runnerClosed

theorem sameShape_update (queues : QueueSet α) (index : Nat)
    (change : QueueSlot α → QueueSlot α)
    (h : ∀ slot, (change slot).id = slot.id) :
    queues.SameShape (queues.update index change h) :=
  ⟨ids_update queues index change h, rfl, rfl⟩

/-- The popped entry left the queues, and everything else stayed. -/
structure Gives (queues : QueueSet α) (popped : Popped α) : Prop where
  entries : queues.entries.Perm
    ((popped.queue, popped.entry) :: popped.queues.entries)
  queue : popped.queue ∈ queues.ids
  shape : queues.SameShape popped.queues

theorem gives_popAt {queues : QueueSet α} {index : Nat} {popped : Popped α}
    (h : queues.popAt index = some popped) : queues.Gives popped := by
  unfold popAt at h
  split at h
  · contradiction
  next slot hslot =>
    split at h
    · contradiction
    next entry rest hentries =>
      injection h with h
      subst h
      obtain ⟨others, hbefore, hafter⟩ := entries_update hslot
        QueueSlot.dropFront QueueSlot.id_dropFront
      refine ⟨?_, ?_, sameShape_update _ _ _ QueueSlot.id_dropFront⟩
      · simp only [QueueSlot.placed, QueueSlot.dropFront, hentries,
          List.map_cons, List.tail_cons, List.cons_append] at hbefore hafter
        exact hbefore.trans (hafter.symm.cons (slot.id, entry))
      · exact List.mem_map.mpr ⟨slot, List.mem_of_getElem? hslot, rfl⟩

theorem queue_popAt {queues : QueueSet α} {index : Nat} {popped : Popped α}
    (h : queues.popAt index = some popped) :
    ∃ slot, queues.slots[index]? = some slot ∧ popped.queue = slot.id := by
  unfold popAt at h
  split at h
  · contradiction
  next slot hslot =>
    split at h
    · contradiction
    · injection h with h
      subst h
      exact ⟨slot, hslot, rfl⟩

theorem gives_popFrom {queues : QueueSet α} {id : QueueId}
    {popped : Popped α} (h : queues.popFrom id = some popped) :
    queues.Gives popped ∧ popped.queue = id := by
  obtain ⟨index, hfound, hindex⟩ := Option.bind_eq_some_iff.mp h
  obtain ⟨slot, hslot, hqueue⟩ := queue_popAt hindex
  refine ⟨gives_popAt hindex, hqueue.trans ?_⟩
  exact id_of_indexOf hfound hslot

theorem popFrom_none {queues : QueueSet α} {id : QueueId}
    (h : queues.popFrom id = none) :
    ∀ place ∈ queues.entries, place.1 ≠ id := by
  intro place hplace hid
  obtain ⟨slot, hslot, hmem⟩ := List.mem_flatMap.mp hplace
  obtain ⟨entry, hentry, rfl⟩ := List.mem_map.mp hmem
  obtain ⟨index, found, hfound, hget, hfoundId⟩ :=
    exists_slot_of_mem (List.mem_map.mpr ⟨slot, hslot, hid⟩)
  -- no identifier stands twice, so the slot found is the one of the entry
  have hsame : found = slot :=
    List.inj_on_of_nodup_map queues.nodup (List.mem_of_getElem? hget) hslot
      (hfoundId.trans hid.symm)
  subst hsame
  simp only [popFrom, hfound, Option.bind_some, popAt, hget] at h
  cases hentries : found.entries with
  | nil => simp [hentries] at hentry
  | cons first rest => simp [hentries] at h

theorem gives_popStrict {queues : QueueSet α} {cursor next : QueueCursor}
    {popped : Popped α} (h : queues.popStrict cursor = some (popped, next)) :
    queues.Gives popped := by
  unfold popStrict at h
  split at h
  · contradiction
  obtain ⟨offset, -, hoffset⟩ := List.exists_of_findSome?_eq_some h
  dsimp only at hoffset
  split_ifs at hoffset
  obtain ⟨found, hfound, heq⟩ := Option.map_eq_some_iff.mp hoffset
  injection heq with heq
  rw [← heq]
  exact gives_popAt hfound

theorem gives_popWeighted {queues : QueueSet α} {cursor next : QueueCursor}
    {popped : Popped α}
    (h : queues.popWeighted cursor = (some popped, next)) :
    queues.Gives popped := by
  unfold popWeighted at h
  split_ifs at h
  · simp at h
  dsimp only at h
  split at h
  next found foundCursor hcurrent =>
    simp only [Prod.mk.injEq, Option.some.injEq] at h
    rw [← h.1]
    unfold popCurrent at hcurrent
    split at hcurrent
    · contradiction
    split_ifs at hcurrent
    obtain ⟨inner, hinner, heq⟩ := Option.map_eq_some_iff.mp hcurrent
    injection heq with heq
    rw [← heq]
    exact gives_popAt hinner
  split at h
  next found foundCursor hother =>
    simp only [Prod.mk.injEq, Option.some.injEq] at h
    rw [← h.1]
    obtain ⟨offset, -, hoffset⟩ := List.exists_of_findSome?_eq_some hother
    dsimp only at hoffset
    split_ifs at hoffset
    obtain ⟨inner, hinner, heq⟩ := Option.map_eq_some_iff.mp hoffset
    injection heq with heq
    rw [← heq]
    exact gives_popAt hinner
  split at h
  next found foundCursor hagain =>
    simp only [Prod.mk.injEq, Option.some.injEq] at h
    rw [← h.1]
    unfold popAgain at hagain
    split at hagain
    · contradiction
    obtain ⟨inner, hinner, heq⟩ := Option.map_eq_some_iff.mp hagain
    injection heq with heq
    rw [← heq]
    exact gives_popAt hinner
  · simp at h

theorem gives_popScheduled {queues : QueueSet α} {cursor next : QueueCursor}
    {popped : Popped α}
    (h : queues.popScheduled cursor = (some popped, next)) :
    queues.Gives popped := by
  unfold popScheduled at h
  split at h
  next found foundCursor hstrict =>
    simp only [Prod.mk.injEq, Option.some.injEq] at h
    rw [← h.1]
    exact gives_popStrict hstrict
  · exact gives_popWeighted h

theorem sameShape_onSlot (queues : QueueSet α) (id : QueueId)
    (change : QueueSlot α → QueueSlot α)
    (h : ∀ slot, (change slot).id = slot.id) :
    queues.SameShape (queues.onSlot id change h) := by
  unfold onSlot
  split
  · exact ⟨rfl, rfl, rfl⟩
  · exact sameShape_update _ _ _ _

theorem entries_onSlot (queues : QueueSet α) (id : QueueId)
    (change : QueueSlot α → QueueSlot α)
    (h : ∀ slot, (change slot).id = slot.id)
    (hplaced : ∀ slot, (change slot).placed = slot.placed) :
    (queues.onSlot id change h).entries.Perm queues.entries := by
  unfold onSlot
  split
  · exact .refl _
  next index hindex =>
    cases hslot : queues.slots[index]? with
    | none =>
        have hlength := List.getElem?_eq_none_iff.mp hslot
        rw [entries, slots_update, List.modify_eq_self hlength]
        exact .refl _
    | some slot =>
        obtain ⟨others, hbefore, hafter⟩ := entries_update hslot change h
        rw [hplaced] at hafter
        exact hafter.trans hbefore.symm

theorem entries_onSlot_add {queues : QueueSet α} {id : QueueId}
    (hid : id ∈ queues.ids) {entry : α} {change : QueueSlot α → QueueSlot α}
    (h : ∀ slot, (change slot).id = slot.id)
    (hplaced : ∀ slot, (change slot).placed.Perm
      ((slot.id, entry) :: slot.placed)) :
    (queues.onSlot id change h).entries.Perm ((id, entry) :: queues.entries) := by
  obtain ⟨index, slot, hindex, hslot, rfl⟩ := exists_slot_of_mem hid
  obtain ⟨others, hbefore, hafter⟩ := entries_update hslot change h
  simp only [onSlot, hindex]
  exact hafter.trans (((hplaced slot).append_right others).trans
    (hbefore.symm.cons (slot.id, entry)))

theorem entries_pushFront {queues : QueueSet α} {id : QueueId}
    (h : id ∈ queues.ids) (entry : α) :
    (queues.pushFront id entry).entries.Perm
        ((id, entry) :: queues.entries) ∧
      queues.SameShape (queues.pushFront id entry) :=
  ⟨entries_onSlot_add h _ fun _ => .refl _, sameShape_onSlot _ _ _ _⟩

theorem entries_finishEntry (queues : QueueSet α) (id : QueueId) :
    (queues.finishEntry id).entries.Perm queues.entries ∧
      queues.SameShape (queues.finishEntry id) :=
  ⟨entries_onSlot _ _ _ _ fun _ => rfl, sameShape_onSlot _ _ _ _⟩

theorem entries_setPriority (queues : QueueSet α) (id : QueueId)
    (priority : QueuePriority) :
    (queues.setPriority id priority).entries.Perm queues.entries ∧
      queues.SameShape (queues.setPriority id priority) :=
  ⟨entries_onSlot _ _ _ _ fun _ => rfl, sameShape_onSlot _ _ _ _⟩

theorem entries_new (definitions : List QueueConfig)
    (h : (definitions.map QueueConfig.id).Nodup) :
    (new definitions h : QueueSet α).entries = [] := by
  simp [entries, new, QueueSlot.placed, QueueSlot.new]

theorem ids_closeRunner (queues : QueueSet α) :
    queues.closeRunner.ids = queues.ids := by
  unfold closeRunner
  split_ifs
  · rfl
  · simp only [ids, List.map_map]
    rfl

theorem entries_closeRunner (queues : QueueSet α) :
    queues.closeRunner.entries = queues.entries := by
  unfold closeRunner
  split_ifs
  · rfl
  · simp only [entries, List.flatMap_map]
    rfl

theorem runnerClosed_closeRunner (queues : QueueSet α) :
    queues.closeRunner.runnerClosed = true := by
  unfold closeRunner
  split_ifs with hclosed
  · exact hclosed
  · rfl

theorem mem_ids_of_slotOf {queues : QueueSet α} {id : QueueId}
    {slot : QueueSlot α} (h : queues.slotOf id = some slot) :
    id ∈ queues.ids := by
  obtain ⟨index, hindex, hslot⟩ := Option.bind_eq_some_iff.mp h
  rw [← id_of_indexOf hindex hslot]
  exact List.mem_map.mpr ⟨slot, List.mem_of_getElem? hslot, rfl⟩

theorem placed_append (slot : QueueSlot α) (entry : α) :
    ((slot.entries ++ [entry]).map (slot.id, ·)).Perm
      ((slot.id, entry) :: slot.placed) := by
  simp only [QueueSlot.placed, List.map_append, List.map_cons, List.map_nil]
  exact List.perm_append_singleton _ _

theorem entries_tryPush {queues next : QueueSet α} {id : QueueId} {entry : α}
    (h : queues.tryPush id entry = .ok next) :
    next.entries.Perm ((id, entry) :: queues.entries) ∧ id ∈ queues.ids ∧
      queues.SameShape next ∧ queues.runnerClosed = false := by
  unfold tryPush at h
  split at h
  · contradiction
  next slot hslot =>
    split_ifs at h with hclosed hpermits hfull
    injection h with h
    subst h
    have hid := mem_ids_of_slotOf hslot
    exact ⟨entries_onSlot_add hid _ fun slot => placed_append slot entry, hid,
      sameShape_onSlot _ _ _ _, by simpa using hclosed⟩

/-! ## Changes of one slot -/

theorem indexOf_eq (queues : QueueSet α) (id : QueueId) :
    queues.indexOf id = queues.ids.findIdx? (· = id) := by
  simp [indexOf, ids, List.findIdx?_map, Function.comp_def]

theorem indexOf_onSlot (queues : QueueSet α) (id other : QueueId)
    (change : QueueSlot α → QueueSlot α)
    (h : ∀ slot, (change slot).id = slot.id) :
    (queues.onSlot id change h).indexOf other = queues.indexOf other := by
  rw [indexOf_eq, indexOf_eq, (sameShape_onSlot queues id change h).ids]

theorem slots_onSlot {queues : QueueSet α} {id : QueueId} {index : Nat}
    (hindex : queues.indexOf id = some index)
    (change : QueueSlot α → QueueSlot α)
    (h : ∀ slot, (change slot).id = slot.id) :
    (queues.onSlot id change h).slots = queues.slots.modify index change := by
  simp only [onSlot, hindex]
  rfl

theorem slotOf_onSlot (queues : QueueSet α) (id : QueueId)
    (change : QueueSlot α → QueueSlot α)
    (h : ∀ slot, (change slot).id = slot.id) :
    (queues.onSlot id change h).slotOf id =
      (queues.slotOf id).map change := by
  rw [slotOf, indexOf_onSlot, slotOf]
  cases hindex : queues.indexOf id with
  | none => rfl
  | some index => simp [slots_onSlot hindex]

theorem onSlot_onSlot (queues : QueueSet α) (id : QueueId)
    (first second : QueueSlot α → QueueSlot α)
    (hfirst : ∀ slot, (first slot).id = slot.id)
    (hsecond : ∀ slot, (second slot).id = slot.id) :
    (queues.onSlot id first hfirst).onSlot id second hsecond =
      queues.onSlot id (second ∘ first)
        fun slot => (hsecond (first slot)).trans (hfirst slot) := by
  cases hindex : queues.indexOf id with
  | none => simp only [onSlot, hindex]
  | some index =>
      have hsome := (queues.indexOf_onSlot id id first hfirst).trans hindex
      have hshape := sameShape_onSlot queues id (second ∘ first)
        fun slot => (hsecond (first slot)).trans (hfirst slot)
      have hlater := sameShape_onSlot (queues.onSlot id first hfirst) id second
        hsecond
      have hearlier := sameShape_onSlot queues id first hfirst
      ext1
      · rw [slots_onSlot hsome, slots_onSlot hindex, slots_onSlot hindex,
          List.modify_modify_eq]
      · rw [hlater.inputClosed, hearlier.inputClosed, hshape.inputClosed]
      · rw [hlater.runnerClosed, hearlier.runnerClosed, hshape.runnerClosed]

end QueueSet

end HartLink.Service
