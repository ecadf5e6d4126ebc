import HartLink.Mesh.Topology

/-!
# The schedule over whole runs

The cells stand in the order of the superframe, and no two of them in one
timeslot share a channel or a device.  `insert` accepts exactly the cells that
leave it so, and the binary search puts them in their place.
-/

namespace HartLink.Mesh

open HartLink.Foundation

namespace Cell

def Valid (superframeSize : UInt16) (cell : Cell) : Prop :=
  cell.timeslot < superframeSize ∧ cell.channelOffset ≤ 15 ∧
    cell.source ≠ cell.destination

/-- Two cells that may stand in one timeslot: two channels, four devices. -/
def Compatible (cell other : Cell) : Prop :=
  cell.channelOffset ≠ other.channelOffset ∧
    [cell.source, cell.destination, other.source, other.destination].Nodup

theorem before_iff (cell other : Cell) :
    cell.before other = true ↔ cell.timeslot < other.timeslot ∨
      cell.timeslot = other.timeslot ∧
        cell.channelOffset < other.channelOffset := by
  unfold before
  rw [decide_eq_true_eq]

theorem compareKey_eq_lt_iff (cell other : Cell) :
    cell.compareKey other = .lt ↔ cell.before other = true := by
  rw [compareKey, before_iff, Ordering.then_eq_lt, Std.compare_eq_lt,
    Std.compare_eq_iff_eq, Std.compare_eq_lt]

theorem compareKey_eq_gt_iff (cell other : Cell) :
    cell.compareKey other = .gt ↔ other.before cell = true := by
  rw [compareKey, before_iff, Ordering.then_eq_gt, Std.compare_eq_gt,
    Std.compare_eq_iff_eq, Std.compare_eq_gt, eq_comm]

theorem before_trans {first second third : Cell}
    (hfirst : first.before second = true)
    (hsecond : second.before third = true) :
    first.before third = true := by
  simp only [before_iff, UInt16.lt_iff_toNat_lt, UInt8.lt_iff_toNat_lt,
    ← UInt16.toNat_inj] at hfirst hsecond ⊢
  omega

theorem not_before_self (cell : Cell) : ¬ cell.before cell = true := by
  simp [before_iff]

/-- Cells with different keys stand in one order or the other. -/
theorem before_or_before {cell other : Cell}
    (h : ¬ (cell.timeslot = other.timeslot ∧
      cell.channelOffset = other.channelOffset)) :
    cell.before other = true ∨ other.before cell = true := by
  simp only [before_iff, UInt16.lt_iff_toNat_lt, UInt8.lt_iff_toNat_lt,
    ← UInt16.toNat_inj, ← UInt8.toNat_inj] at h ⊢
  omega

theorem Compatible.symm {cell other : Cell} (h : cell.Compatible other) :
    other.Compatible cell := by
  refine ⟨h.1.symm, ?_⟩
  have hnodup := h.2
  simp only [List.nodup_cons, List.mem_cons, List.not_mem_nil, or_false,
    not_or, List.nodup_nil, not_false_eq_true, and_true] at hnodup ⊢
  tauto

/-- A cell without a common device fits, if the channels differ. -/
theorem compatible_iff {cell other : Cell}
    (hcell : cell.source ≠ cell.destination)
    (hother : other.source ≠ other.destination) :
    cell.Compatible other ↔ cell.channelOffset ≠ other.channelOffset ∧
      ¬ (cell.involves other.source = true ∨
        cell.involves other.destination = true) := by
  unfold Compatible involves
  simp only [List.nodup_cons, List.mem_cons, List.not_mem_nil, or_false,
    not_or, List.nodup_nil, not_false_eq_true, and_true, decide_eq_true_eq]
  tauto

end Cell

namespace Schedule

/-! ## Runs -/

inductive ScheduleEdit where
  | insert (cell : Cell)
  | removeDevice (device : DeviceId)
  deriving DecidableEq, Repr

def edit (schedule : Schedule) : ScheduleEdit → Schedule
  | .insert cell => (schedule.insert cell).2
  | .removeDevice device => schedule.removeDevice device

/-! ## Orderly schedules -/

structure Orderly (schedule : Schedule) : Prop where
  sorted : schedule.cells.Pairwise fun cell other => cell.before other = true
  valid : ∀ cell ∈ schedule.cells, cell.Valid schedule.superframeSize
  compatible : ∀ cell ∈ schedule.cells, ∀ other ∈ schedule.cells,
    cell ≠ other → cell.timeslot = other.timeslot → cell.Compatible other

variable {schedule : Schedule} {cell : Cell}

def withCells (schedule : Schedule) (cells : List Cell) : Schedule :=
  { schedule with cells }

structure Accepts (schedule : Schedule) (cell : Cell) : Prop where
  valid : cell.Valid schedule.superframeSize
  apart : ∀ existing ∈ schedule.cells, existing.timeslot = cell.timeslot →
    existing.channelOffset ≠ cell.channelOffset ∧
      ¬ (existing.involves cell.source = true ∨
        existing.involves cell.destination = true)

theorem insert_of_accepts (h : schedule.Accepts cell) :
    schedule.insert cell = (.ok (), schedule.withCells
      (schedule.cells.insertIdx (schedule.insertionIndex cell) cell)) := by
  obtain ⟨⟨htimeslot, hchannel, hloop⟩, hapart⟩ := h
  unfold insert
  rw [if_neg (UInt16.not_le.mpr htimeslot), if_neg (UInt8.not_lt.mpr hchannel),
    if_neg hloop, if_neg, if_neg]
  · rfl
  · simp only [List.any_eq_true, decide_eq_true_eq, not_exists, not_and]
    exact fun existing hmem hslot => (hapart existing hmem hslot).1
  · simp only [List.any_eq_true, decide_eq_true_eq, not_exists, not_and]
    exact fun existing hmem hslot => (hapart existing hmem hslot).2

theorem insert_of_not_accepts (h : ¬ schedule.Accepts cell) :
    ∃ error, schedule.insert cell = (.error error, schedule) := by
  unfold insert
  split_ifs with htimeslot hchannel hloop hconflict hradio
  · exact ⟨_, rfl⟩
  · exact ⟨_, rfl⟩
  · exact ⟨_, rfl⟩
  · exact ⟨_, rfl⟩
  · exact ⟨_, rfl⟩
  · refine absurd ⟨⟨UInt16.not_le.mp htimeslot, UInt8.not_lt.mp hchannel,
      hloop⟩, ?_⟩ h
    simp only [List.any_eq_true, decide_eq_true_eq, not_exists, not_and]
      at hconflict hradio
    exact fun existing hmem hslot =>
      ⟨hradio existing hmem hslot, hconflict existing hmem hslot⟩

/-- Among sorted cells the binary search finds the place of a new key. -/
theorem insertIdx_insertionIndex (h : schedule.Orderly)
    (hkey : ∀ existing ∈ schedule.cells,
      ¬ (existing.timeslot = cell.timeslot ∧
        existing.channelOffset = cell.channelOffset)) :
    ∃ before after, schedule.cells = before ++ after ∧
      schedule.cells.insertIdx (schedule.insertionIndex cell) cell =
        before ++ cell :: after ∧
      (∀ existing ∈ before, existing.before cell = true) ∧
      ∀ existing ∈ after, cell.before existing = true := by
  obtain ⟨before, after, hsplit, hbefore, hrest⟩ :=
    exists_sides h.sorted fun first second hfirst hsecond =>
      (Cell.before_trans hfirst hsecond : first.before cell = true)
  have hafter : ∀ existing ∈ after, cell.before existing = true := by
    intro existing hmem
    have hold : existing ∈ schedule.cells := by
      rw [hsplit]
      exact List.mem_append_right _ hmem
    exact (Cell.before_or_before (hkey existing hold)).resolve_left
      (hrest existing hmem)
  have hindex : schedule.insertionIndex cell = before.length := by
    unfold insertionIndex
    rw [hsplit, binarySearchBy_absent
      (fun existing hmem => (Cell.compareKey_eq_lt_iff ..).mpr
        (hbefore existing hmem))
      (fun existing hmem => (Cell.compareKey_eq_gt_iff ..).mpr
        (hafter existing hmem))]
  refine ⟨before, after, hsplit, ?_, hbefore, hafter⟩
  rw [hindex, hsplit, insertIdx_length_append]

theorem insert_accepted (h : schedule.Orderly)
    (haccepts : schedule.Accepts cell) :
    ∃ before after, schedule.cells = before ++ after ∧
      schedule.insert cell =
        (.ok (), schedule.withCells (before ++ cell :: after)) ∧
      (schedule.withCells (before ++ cell :: after)).Orderly := by
  obtain ⟨before, after, hsplit, hinsert, hbefore, hafter⟩ :=
    @insertIdx_insertionIndex schedule cell h fun existing hmem hkey =>
      (haccepts.apart existing hmem hkey.1).1 hkey.2
  have hmem : ∀ other ∈ before ++ cell :: after,
      other = cell ∨ other ∈ schedule.cells := by
    intro other hother
    rw [hsplit]
    exact List.mem_cons.mp (List.perm_middle.subset hother)
  refine ⟨before, after, hsplit, ?_, ?_, ?_, ?_⟩
  · rw [insert_of_accepts haccepts, hinsert]
  · have hsorted := h.sorted
    rw [hsplit, List.pairwise_append] at hsorted
    obtain ⟨hsortedBefore, hsortedAfter, hacross⟩ := hsorted
    refine List.pairwise_append.mpr ⟨hsortedBefore,
      List.pairwise_cons.mpr ⟨hafter, hsortedAfter⟩, ?_⟩
    intro first hfirst second hsecond
    rcases List.mem_cons.mp hsecond with rfl | hsecond
    · exact hbefore first hfirst
    · exact hacross first hfirst second hsecond
  · intro other hother
    rcases hmem other hother with rfl | hother
    · exact haccepts.valid
    · exact h.valid other hother
  · have hnew : ∀ other ∈ schedule.cells, other.timeslot = cell.timeslot →
        other.Compatible cell := fun other hother hslot =>
      (Cell.compatible_iff (h.valid other hother).2.2
        haccepts.valid.2.2).mpr (haccepts.apart other hother hslot)
    intro first hfirst second hsecond hne hslot
    rcases hmem first hfirst with rfl | hfirstOld
    · rcases hmem second hsecond with rfl | hsecondOld
      · exact absurd rfl hne
      · exact (hnew second hsecondOld hslot.symm).symm
    · rcases hmem second hsecond with rfl | hsecondOld
      · exact hnew first hfirstOld hslot
      · exact h.compatible first hfirstOld second hsecondOld hne hslot

/-- A cell is accepted exactly when the schedule stays orderly with it. -/
theorem accepts_iff (h : schedule.Orderly) :
    schedule.Accepts cell ↔
      ∃ cells, cells.Perm (cell :: schedule.cells) ∧
        (schedule.withCells cells).Orderly := by
  constructor
  · intro haccepts
    obtain ⟨before, after, hsplit, -, horderly⟩ := insert_accepted h haccepts
    refine ⟨before ++ cell :: after, ?_, horderly⟩
    rw [hsplit]
    exact List.perm_middle
  · rintro ⟨cells, hperm, horderly⟩
    have hcell : cell ∈ cells := hperm.symm.subset List.mem_cons_self
    have hnodup : (cell :: schedule.cells).Nodup := by
      refine hperm.nodup_iff.mp (horderly.sorted.imp ?_)
      rintro first _ hbefore rfl
      exact Cell.not_before_self first hbefore
    refine ⟨horderly.valid cell hcell, fun existing hmem hslot => ?_⟩
    have hexisting : existing ∈ cells :=
      hperm.symm.subset (List.mem_cons_of_mem _ hmem)
    have hne : existing ≠ cell := by
      rintro rfl
      exact (List.nodup_cons.mp hnodup).1 hmem
    exact (Cell.compatible_iff (h.valid existing hmem).2.2
      (horderly.valid cell hcell).2.2).mp
        (horderly.compatible existing hexisting cell hcell hne hslot)

theorem Orderly.removeDevice (h : schedule.Orderly) (device : DeviceId) :
    (schedule.removeDevice device).Orderly :=
  ⟨h.sorted.sublist List.filter_sublist,
    fun cell hcell => h.valid cell (List.mem_of_mem_filter hcell),
    fun cell hcell other hother => h.compatible cell
      (List.mem_of_mem_filter hcell) other (List.mem_of_mem_filter hother)⟩

theorem Orderly.edit (h : schedule.Orderly) (edit : ScheduleEdit) :
    (schedule.edit edit).Orderly := by
  cases edit with
  | removeDevice device => exact h.removeDevice device
  | insert cell =>
      simp only [Schedule.edit]
      by_cases haccepts : schedule.Accepts cell
      · obtain ⟨before, after, -, hinsert, horderly⟩ :=
          insert_accepted h haccepts
        rw [hinsert]
        exact horderly
      · obtain ⟨error, hinsert⟩ := insert_of_not_accepts haccepts
        rw [hinsert]
        exact h

theorem Orderly.edits (h : schedule.Orderly) (edits : List ScheduleEdit) :
    (edits.foldl Schedule.edit schedule).Orderly := by
  induction edits generalizing schedule with
  | nil => exact h
  | cons edit edits ih => exact ih (h.edit edit)

theorem orderly_new {superframeSize : UInt16}
    (h : new superframeSize = .ok schedule) : schedule.Orderly := by
  unfold new at h
  split_ifs at h
  injection h with h
  subst h
  exact ⟨List.Pairwise.nil, by simp, by simp⟩

/--
Every schedule that can be made from a new one is strictly sorted, holds only
valid cells and no conflict; `insert` accepts exactly the cells that keep it so,
adds just the cell, and leaves the schedule alone otherwise.
-/
theorem schedule_stays_orderly (superframeSize : UInt16)
    (fresh : Schedule) (hnew : new superframeSize = .ok fresh)
    (edits : List ScheduleEdit) (cell : Cell) :
    let schedule := edits.foldl edit fresh
    schedule.Orderly ∧
    ((schedule.insert cell).1 = .ok () ↔
      ∃ cells, cells.Perm (cell :: schedule.cells) ∧
        (schedule.withCells cells).Orderly) ∧
    ((schedule.insert cell).1 = .ok () →
      ∃ before after, schedule.cells = before ++ after ∧
        (schedule.insert cell).2 =
          schedule.withCells (before ++ cell :: after)) ∧
    ∀ error, (schedule.insert cell).1 = .error error →
      (schedule.insert cell).2 = schedule := by
  intro schedule
  have h : schedule.Orderly := (orderly_new hnew).edits edits
  rw [← accepts_iff h]
  by_cases haccepts : schedule.Accepts cell
  · obtain ⟨before, after, hsplit, hinsert, -⟩ := insert_accepted h haccepts
    rw [hinsert]
    exact ⟨h, iff_of_true rfl haccepts, fun _ => ⟨before, after, hsplit, rfl⟩,
      by simp⟩
  · obtain ⟨error, hinsert⟩ := insert_of_not_accepts haccepts
    rw [hinsert]
    exact ⟨h, iff_of_false (by simp) haccepts, by simp, fun _ _ => rfl⟩

def uplink : Cell := ⟨4, 3, ⟨1⟩, ⟨2⟩, .transmit⟩

/-- A cell in an earlier slot comes first, another one of the device is out. -/
theorem schedule_stays_orderly_uplink :
    new 10 = .ok ⟨10, []⟩ ∧
      [ScheduleEdit.insert uplink, .insert { uplink with timeslot := 1 },
        .insert { uplink with channelOffset := 5 }].foldl edit ⟨10, []⟩ =
        ⟨10, [{ uplink with timeslot := 1 }, uplink]⟩ ∧
      Orderly ⟨10, [{ uplink with timeslot := 1 }, uplink]⟩ := by
  have h := (schedule_stays_orderly 10 ⟨10, []⟩ rfl
    [.insert uplink, .insert { uplink with timeslot := 1 },
      .insert { uplink with channelOffset := 5 }] uplink).1
  have hrun : [ScheduleEdit.insert uplink,
      .insert { uplink with timeslot := 1 },
      .insert { uplink with channelOffset := 5 }].foldl edit ⟨10, []⟩ =
        ⟨10, [{ uplink with timeslot := 1 }, uplink]⟩ := by
    decide +kernel
  rw [hrun] at h
  exact ⟨rfl, hrun, h⟩

end Schedule

end HartLink.Mesh
