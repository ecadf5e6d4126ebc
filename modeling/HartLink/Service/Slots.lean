import HartLink.Service.QueueSet

/-!
# What an operation does to the slots

Every operation on the queues replaces one slot and leaves the others as they
are.  `Replaces` says so; from it follow what a queue set keeps, its
configuration, and how permits, counts and entries of a queue add up.
-/

namespace HartLink.Service

namespace QueueSlot

variable {α : Type*}

def config (slot : QueueSlot α) : QueueConfig :=
  ⟨slot.id, slot.capacity, slot.priority⟩

end QueueSlot

namespace QueueSet

variable {α : Type*}

def configs (queues : QueueSet α) : List QueueConfig :=
  queues.slots.map QueueSlot.config

/-! ## Replacing one slot -/

/-- One slot is another one, all others are the same. -/
structure Replaces (queues next : QueueSet α)
    (before after : QueueSlot α) : Prop where
  slots : ∃ index, queues.slots[index]? = some before ∧
    next.slots = queues.slots.set index after
  id : after.id = before.id
  inputClosed : next.inputClosed = queues.inputClosed
  runnerClosed : next.runnerClosed = queues.runnerClosed

section Replaces

variable {queues next : QueueSet α} {before after : QueueSlot α}

theorem Replaces.before_mem (h : queues.Replaces next before after) :
    before ∈ queues.slots := by
  obtain ⟨index, hindex, -⟩ := h.slots
  exact List.mem_of_getElem? hindex

theorem Replaces.after_mem (h : queues.Replaces next before after) :
    after ∈ next.slots := by
  obtain ⟨index, hindex, hslots⟩ := h.slots
  rw [hslots]
  exact List.mem_set (List.getElem?_eq_some_iff.mp hindex).1 after

theorem Replaces.map {β : Type*} (h : queues.Replaces next before after)
    {f : QueueSlot α → β} (hsame : f after = f before) :
    next.slots.map f = queues.slots.map f := by
  obtain ⟨index, hindex, hslots⟩ := h.slots
  obtain ⟨hlt, hget⟩ := List.getElem?_eq_some_iff.mp hindex
  have hlength : index < (queues.slots.map f).length := by
    simpa using hlt
  have hold : f before = (queues.slots.map f).get ⟨index, hlength⟩ := by
    simp [hget]
  rw [hslots, List.map_set, hsame, hold]
  exact List.set_getElem_self hlength

theorem Replaces.mem_of_ne (h : queues.Replaces next before after)
    {slot : QueueSlot α} (hslot : slot ∈ next.slots)
    (hne : slot ≠ after) : slot ∈ queues.slots ∧ slot.id ≠ before.id := by
  obtain ⟨index, hindex, hslots⟩ := h.slots
  obtain ⟨other, hother⟩ := List.mem_iff_getElem?.mp hslot
  rw [hslots, List.getElem?_set] at hother
  split_ifs at hother with heq hlt
  · injection hother with hother
    exact absurd hother.symm hne
  · refine ⟨List.mem_of_getElem? hother, ?_⟩
    intro hid
    -- the identifiers tell the slots apart
    have hother' := congrArg (Option.map QueueSlot.id) hother
    have hindex' := congrArg (Option.map QueueSlot.id) hindex
    rw [← List.getElem?_map] at hother' hindex'
    have hlt : index < (queues.slots.map QueueSlot.id).length := by
      rw [List.length_map]
      exact (List.getElem?_eq_some_iff.mp hindex).1
    refine heq ((List.getElem?_inj hlt queues.nodup).mp ?_)
    rw [hindex', hother', Option.map_some, Option.map_some, hid]

theorem Replaces.forall_slots {p q : QueueSlot α → Prop}
    (hreplaces : queues.Replaces next before after)
    (h : ∀ slot ∈ queues.slots, p slot)
    (hkept : ∀ slot : QueueSlot α, slot.id ≠ before.id → p slot → q slot)
    (hafter : q after) : ∀ slot ∈ next.slots, q slot := by
  intro slot hslot
  by_cases heq : slot = after
  · rw [heq]
    exact hafter
  · obtain ⟨hold, hne⟩ := hreplaces.mem_of_ne hslot heq
    exact hkept slot hne (h slot hold)

end Replaces

theorem replaces_popAt {queues : QueueSet α} {index : Nat}
    {popped : Popped α} (h : queues.popAt index = some popped) :
    ∃ slot rest, queues.slots[index]? = some slot ∧
      slot.entries = popped.entry :: rest ∧ popped.queue = slot.id ∧
      queues.Replaces popped.queues slot { slot with entries := rest } := by
  unfold popAt at h
  split at h
  · contradiction
  next slot hslot =>
    split at h
    · contradiction
    next entry rest hentries =>
      injection h with h
      subst h
      refine ⟨slot, rest, hslot, hentries, rfl, ⟨index, hslot, ?_⟩, rfl, rfl,
        rfl⟩
      rw [slots_update, List.modify_eq_set_getElem?, hslot]
      simp [QueueSlot.dropFront, hentries]

theorem replaces_onSlot {queues : QueueSet α} {id : QueueId}
    (hid : id ∈ queues.ids) (change : QueueSlot α → QueueSlot α)
    (h : ∀ slot, (change slot).id = slot.id) :
    ∃ slot, queues.slotOf id = some slot ∧ slot.id = id ∧
      queues.Replaces (queues.onSlot id change h) slot (change slot) := by
  obtain ⟨index, slot, hindex, hslot, hslotId⟩ := exists_slot_of_mem hid
  have hshape := sameShape_onSlot queues id change h
  refine ⟨slot, by simp [slotOf, hindex, hslot], hslotId,
    ⟨index, hslot, ?_⟩, h slot, hshape.inputClosed, hshape.runnerClosed⟩
  rw [slots_onSlot hindex, List.modify_eq_set_getElem?, hslot]
  rfl

theorem onSlot_of_not_mem {queues : QueueSet α} {id : QueueId}
    (hid : id ∉ queues.ids) (change : QueueSlot α → QueueSlot α)
    (h : ∀ slot, (change slot).id = slot.id) :
    queues.onSlot id change h = queues := by
  have hindex : queues.indexOf id = none := by
    refine List.findIdx?_eq_none_iff.mpr ?_
    intro slot hslot
    rw [decide_eq_false_iff_not]
    intro hslotId
    exact hid (List.mem_map.mpr ⟨slot, hslot, hslotId⟩)
  simp only [onSlot, hindex]

theorem replaces_tryPush {queues next : QueueSet α} {id : QueueId}
    {entry : α} (h : queues.tryPush id entry = .ok next) :
    ∃ slot, queues.slotOf id = some slot ∧ slot.id = id ∧
      0 < slot.permits ∧
      queues.Replaces next slot (slot.pushBack entry) := by
  unfold tryPush at h
  split at h
  · contradiction
  next slot hslot =>
    split_ifs at h with hclosed hpermits hfull
    injection h with h
    subst h
    obtain ⟨found, hfound, hid, hreplaces⟩ := replaces_onSlot
      (mem_ids_of_slotOf hslot) (QueueSlot.pushBack entry)
      (QueueSlot.id_pushBack entry)
    rw [hslot] at hfound
    injection hfound with hfound
    subst hfound
    exact ⟨slot, hslot, hid, Nat.pos_of_ne_zero hfull, hreplaces⟩

/-! ## Permits, counts and entries -/

/--
The permits of every queue belong to its free places, its entries and the entries
that the runner holds, given by their queues; the last two are counted.
-/
def Occupied (queues : QueueSet α) (held : List QueueId) : Prop :=
  ∀ slot ∈ queues.slots,
    slot.permits + slot.entries.length + held.count slot.id = slot.capacity ∧
      slot.queued =
        UInt64.ofNat (slot.entries.length + held.count slot.id)

section Occupied

variable {queues next : QueueSet α} {held : List QueueId}
  {before after : QueueSlot α}

theorem occupied_new (definitions : List QueueConfig)
    (h : (definitions.map QueueConfig.id).Nodup) :
    (new definitions h : QueueSet α).Occupied [] := by
  intro slot hslot
  obtain ⟨config, -, rfl⟩ := List.mem_map.mp hslot
  exact ⟨by simp [QueueSlot.new], by simp [QueueSlot.new]⟩

theorem Occupied.perm (h : queues.Occupied held) {other : List QueueId}
    (hperm : held.Perm other) : queues.Occupied other := by
  intro slot hslot
  rw [← hperm.count_eq]
  exact h slot hslot

theorem Occupied.replace (h : queues.Occupied held)
    (hreplaces : queues.Replaces next before after)
    {other : List QueueId}
    (hsame : ∀ id ≠ before.id, other.count id = held.count id)
    (hafter : after.permits + after.entries.length + other.count before.id =
        after.capacity ∧
      after.queued = UInt64.ofNat
        (after.entries.length + other.count before.id)) :
    next.Occupied other := by
  refine hreplaces.forall_slots h ?_ (by rwa [hreplaces.id])
  intro slot hne hold
  rwa [hsame slot.id hne]

theorem Occupied.popAt {index : Nat} {popped : Popped α}
    (h : queues.Occupied held) (hpop : queues.popAt index = some popped) :
    popped.queues.Occupied (popped.queue :: held) := by
  obtain ⟨slot, rest, -, hentries, hqueue, hreplaces⟩ := replaces_popAt hpop
  obtain ⟨hpermits, hqueued⟩ := h slot hreplaces.before_mem
  rw [hentries, List.length_cons] at hpermits hqueued
  refine h.replace hreplaces ?_ ?_
  · intro id hid
    rw [hqueue, List.count_cons_of_ne (Ne.symm hid)]
  · rw [hqueue, List.count_cons_self]
    refine ⟨by simp only; omega, ?_⟩
    simp only [hqueued]
    congr 1
    omega

theorem Occupied.finishEntry {id : QueueId}
    (h : queues.Occupied (id :: held)) :
    (queues.finishEntry id).Occupied held := by
  by_cases hid : id ∈ queues.ids
  · obtain ⟨slot, -, hslotId, hreplaces⟩ := replaces_onSlot hid
      QueueSlot.finishEntry QueueSlot.id_finishEntry
    obtain ⟨hpermits, hqueued⟩ := h slot hreplaces.before_mem
    rw [hslotId, List.count_cons_self] at hpermits hqueued
    refine h.replace hreplaces ?_ ?_
    · intro other hother
      rw [List.count_cons_of_ne (hslotId ▸ Ne.symm hother)]
    · rw [hslotId]
      refine ⟨by simp only [QueueSlot.finishEntry]; omega, ?_⟩
      simp only [QueueSlot.finishEntry, hqueued, ← Nat.add_assoc,
        UInt64.ofNat_add]
      exact UInt64.add_sub_cancel _ _
  · rw [QueueSet.finishEntry, onSlot_of_not_mem hid]
    intro slot hslot
    have hne : id ≠ slot.id := by
      intro heq
      exact hid (heq ▸ List.mem_map.mpr ⟨slot, hslot, rfl⟩)
    rw [← List.count_cons_of_ne hne]
    exact h slot hslot

theorem Occupied.pushFront {id : QueueId} (hid : id ∈ queues.ids)
    (h : queues.Occupied (id :: held)) (entry : α) :
    (queues.pushFront id entry).Occupied held := by
  obtain ⟨slot, -, hslotId, hreplaces⟩ := replaces_onSlot hid
    (QueueSlot.pushFront entry) (QueueSlot.id_pushFront entry)
  obtain ⟨hpermits, hqueued⟩ := h slot hreplaces.before_mem
  rw [hslotId, List.count_cons_self] at hpermits hqueued
  refine h.replace hreplaces ?_ ?_
  · intro other hother
    rw [List.count_cons_of_ne (hslotId ▸ Ne.symm hother)]
  · rw [hslotId]
    refine ⟨by simp only [QueueSlot.pushFront, List.length_cons]; omega, ?_⟩
    simp only [QueueSlot.pushFront, hqueued, List.length_cons]
    congr 1
    omega

theorem Occupied.tryPush {id : QueueId} {entry : α}
    (h : queues.Occupied held) (hpush : queues.tryPush id entry = .ok next) :
    next.Occupied held := by
  obtain ⟨slot, -, -, hfree, hreplaces⟩ := replaces_tryPush hpush
  obtain ⟨hpermits, hqueued⟩ := h slot hreplaces.before_mem
  refine h.replace hreplaces (fun _ _ => rfl) ⟨?_, ?_⟩
  · simp only [QueueSlot.pushBack, List.length_append, List.length_singleton]
    omega
  · simp only [QueueSlot.pushBack, List.length_append, List.length_singleton,
      hqueued, Nat.add_right_comm, UInt64.ofNat_add]
    rfl

theorem Occupied.setPriority (h : queues.Occupied held) (id : QueueId)
    (priority : QueuePriority) :
    (queues.setPriority id priority).Occupied held := by
  by_cases hid : id ∈ queues.ids
  · obtain ⟨slot, -, -, hreplaces⟩ := replaces_onSlot hid
      (QueueSlot.setPriority priority) (QueueSlot.id_setPriority priority)
    exact h.replace hreplaces (fun _ _ => rfl) (h slot hreplaces.before_mem)
  · rw [QueueSet.setPriority, onSlot_of_not_mem hid]
    exact h

theorem Occupied.closeRunner (h : queues.Occupied held) :
    queues.closeRunner.Occupied held := by
  unfold QueueSet.closeRunner
  split_ifs
  · exact h
  · intro slot hslot
    obtain ⟨old, hold, rfl⟩ := List.mem_map.mp hslot
    exact h old hold

end Occupied

/-! ## Configurations -/

section Configs

variable {queues next : QueueSet α}

def capacities (queues : QueueSet α) : List (QueueId × Nat) :=
  queues.slots.map fun slot => (slot.id, slot.capacity)

theorem capacities_of_configs (h : next.configs = queues.configs) :
    next.capacities = queues.capacities := by
  have hmap := congrArg (List.map fun config : QueueConfig =>
    (config.id, config.capacity)) h
  simp only [configs, List.map_map] at hmap
  exact hmap

theorem configs_popAt {index : Nat} {popped : Popped α}
    (h : queues.popAt index = some popped) :
    popped.queues.configs = queues.configs := by
  obtain ⟨slot, rest, -, -, -, hreplaces⟩ := replaces_popAt h
  exact hreplaces.map rfl

theorem configs_onSlot (queues : QueueSet α) (id : QueueId)
    {change : QueueSlot α → QueueSlot α}
    (h : ∀ slot, (change slot).id = slot.id)
    (hconfig : ∀ slot, (change slot).config = slot.config) :
    (queues.onSlot id change h).configs = queues.configs := by
  by_cases hid : id ∈ queues.ids
  · obtain ⟨slot, -, -, hreplaces⟩ := replaces_onSlot hid change h
    exact hreplaces.map (hconfig slot)
  · rw [onSlot_of_not_mem hid]

theorem configs_tryPush {id : QueueId} {entry : α}
    (h : queues.tryPush id entry = .ok next) :
    next.configs = queues.configs := by
  obtain ⟨slot, -, -, -, hreplaces⟩ := replaces_tryPush h
  exact hreplaces.map rfl

theorem configs_closeRunner (queues : QueueSet α) :
    queues.closeRunner.configs = queues.configs := by
  unfold closeRunner
  split_ifs
  · rfl
  · simp only [configs, List.map_map]
    rfl

theorem capacities_onSlot (queues : QueueSet α) (id : QueueId)
    {change : QueueSlot α → QueueSlot α}
    (h : ∀ slot, (change slot).id = slot.id)
    (hcapacity : ∀ slot, (change slot).capacity = slot.capacity) :
    (queues.onSlot id change h).capacities = queues.capacities := by
  by_cases hid : id ∈ queues.ids
  · obtain ⟨slot, -, -, hreplaces⟩ := replaces_onSlot hid change h
    refine hreplaces.map ?_
    rw [h, hcapacity]
  · rw [onSlot_of_not_mem hid]

theorem capacities_setPriority (queues : QueueSet α) (id : QueueId)
    (priority : QueuePriority) :
    (queues.setPriority id priority).capacities = queues.capacities :=
  capacities_onSlot queues id _ fun _ => rfl

end Configs

/-! ## The entries of one queue -/

section EntriesOf

variable {queues next : QueueSet α} {before after : QueueSlot α}

def entriesOf (queues : QueueSet α) (id : QueueId) : List α :=
  (queues.slotOf id).elim [] QueueSlot.entries

theorem slotOf_of_mem {slot : QueueSlot α} (h : slot ∈ queues.slots) :
    queues.slotOf slot.id = some slot := by
  obtain ⟨index, found, hindex, hfound, hid⟩ :=
    exists_slot_of_mem (List.mem_map.mpr ⟨slot, h, rfl⟩)
  have hsame := List.inj_on_of_nodup_map queues.nodup
    (List.mem_of_getElem? hfound) h hid
  rw [slotOf, hindex, Option.bind_some, hfound, hsame]

theorem entriesOf_of_mem {slot : QueueSlot α} (h : slot ∈ queues.slots) :
    queues.entriesOf slot.id = slot.entries := by
  rw [entriesOf, slotOf_of_mem h]
  rfl

theorem slotOf_of_not_mem {id : QueueId} (h : id ∉ queues.ids) :
    queues.slotOf id = none := by
  cases hslot : queues.slotOf id with
  | none => rfl
  | some slot => exact absurd (mem_ids_of_slotOf hslot) h

theorem ids_of_replaces (h : queues.Replaces next before after) :
    next.ids = queues.ids :=
  h.map h.id

theorem Replaces.entriesOf (h : queues.Replaces next before after)
    (id : QueueId) :
    next.entriesOf id =
      if id = before.id then after.entries else queues.entriesOf id := by
  split_ifs with hid
  · rw [hid, ← h.id]
    exact entriesOf_of_mem h.after_mem
  · by_cases hknown : id ∈ next.ids
    · obtain ⟨slot, hslot, rfl⟩ := List.mem_map.mp hknown
      have hne : slot ≠ after := by
        rintro rfl
        exact hid h.id
      rw [entriesOf_of_mem hslot, entriesOf_of_mem (h.mem_of_ne hslot hne).1]
    · have hold : id ∉ queues.ids := ids_of_replaces h ▸ hknown
      rw [QueueSet.entriesOf, QueueSet.entriesOf, slotOf_of_not_mem hknown,
        slotOf_of_not_mem hold]

theorem entriesOf_popAt {index : Nat} {popped : Popped α}
    (h : queues.popAt index = some popped) (id : QueueId) :
    queues.entriesOf id =
      if id = popped.queue then popped.entry :: popped.queues.entriesOf id
      else popped.queues.entriesOf id := by
  obtain ⟨slot, rest, -, hentries, hqueue, hreplaces⟩ := replaces_popAt h
  rw [hreplaces.entriesOf, hqueue]
  split_ifs with hid
  · rw [hid, entriesOf_of_mem hreplaces.before_mem, hentries]
  · rfl

theorem entriesOf_pushFront {id : QueueId} (hid : id ∈ queues.ids)
    (entry : α) (other : QueueId) :
    (queues.pushFront id entry).entriesOf other =
      if other = id then entry :: queues.entriesOf other
      else queues.entriesOf other := by
  obtain ⟨slot, -, hslotId, hreplaces⟩ := replaces_onSlot hid
    (QueueSlot.pushFront entry) (QueueSlot.id_pushFront entry)
  rw [pushFront, hreplaces.entriesOf, hslotId]
  split_ifs with heq
  · rw [heq, ← hslotId, entriesOf_of_mem hreplaces.before_mem]
    rfl
  · rfl

theorem entriesOf_tryPush {id : QueueId} {entry : α}
    (h : queues.tryPush id entry = .ok next) (other : QueueId) :
    next.entriesOf other =
      if other = id then queues.entriesOf other ++ [entry]
      else queues.entriesOf other := by
  obtain ⟨slot, -, hslotId, -, hreplaces⟩ := replaces_tryPush h
  rw [hreplaces.entriesOf, hslotId]
  split_ifs with heq
  · rw [heq, ← hslotId, entriesOf_of_mem hreplaces.before_mem]
    rfl
  · rfl

theorem entriesOf_onSlot (queues : QueueSet α) (id : QueueId)
    {change : QueueSlot α → QueueSlot α}
    (h : ∀ slot, (change slot).id = slot.id)
    (hentries : ∀ slot, (change slot).entries = slot.entries)
    (other : QueueId) :
    (queues.onSlot id change h).entriesOf other = queues.entriesOf other := by
  by_cases hid : id ∈ queues.ids
  · obtain ⟨slot, -, -, hreplaces⟩ := replaces_onSlot hid change h
    rw [hreplaces.entriesOf]
    split_ifs with heq
    · rw [heq, entriesOf_of_mem hreplaces.before_mem, hentries]
    · rfl
  · rw [onSlot_of_not_mem hid]

theorem entriesOf_closeRunner (queues : QueueSet α) (id : QueueId) :
    queues.closeRunner.entriesOf id = queues.entriesOf id := by
  by_cases hid : id ∈ queues.closeRunner.ids
  · obtain ⟨slot, hslot, rfl⟩ := List.mem_map.mp hid
    have hold : ∃ old ∈ queues.slots, old.id = slot.id ∧
        old.entries = slot.entries := by
      unfold closeRunner at hslot
      split_ifs at hslot
      · exact ⟨slot, hslot, rfl, rfl⟩
      · obtain ⟨old, hold, rfl⟩ := List.mem_map.mp hslot
        exact ⟨old, hold, rfl, rfl⟩
    obtain ⟨old, hold, holdId, holdEntries⟩ := hold
    rw [entriesOf_of_mem hslot, ← holdId, entriesOf_of_mem hold, holdEntries]
  · have hold : id ∉ queues.ids := ids_closeRunner queues ▸ hid
    rw [entriesOf, entriesOf, slotOf_of_not_mem hid, slotOf_of_not_mem hold]

end EntriesOf

end QueueSet

end HartLink.Service
