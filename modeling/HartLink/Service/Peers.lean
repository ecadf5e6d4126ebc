import HartLink.Service.Rotation

/-!
# Strict queues of equal rank

All ranks share one rotation: the search for a queue of the largest rank starts
behind the last strict queue that was served, whatever its rank.  Two queues of
one rank take turns as long as no ready queue of a larger rank stands on the way
from the second to the first; such a queue carries the rotation past the second.
-/

namespace HartLink.Service

open HartLink.Foundation
open HartLink.Wire
open HartLink.Operation

def QueuePriority.outranks (priority : QueuePriority) (rank : UInt16) : Bool :=
  match priority with
  | .strict larger => rank < larger
  | .weighted _ => false

namespace QueueSet

variable {α : Type*}

/-- On the way between two positions a queue of a larger rank has an entry. -/
def Interposed (queues : QueueSet α) (rank : UInt16) (start target : Nat) :
    Prop :=
  ∃ index < queues.slots.length,
    ahead queues.slots.length start index <
        ahead queues.slots.length start target ∧
      queues.slots[index]?.any fun slot =>
        slot.priority.outranks rank && !slot.entries.isEmpty

instance decidableInterposed (queues : QueueSet α) (rank : UInt16)
    (start target : Nat) : Decidable (queues.Interposed rank start target) :=
  inferInstanceAs (Decidable (∃ index < queues.slots.length, _))

/-- The rotation comes to the second position before the first. -/
def Faces (queues : QueueSet α) (cursor : QueueCursor) (second first : Nat) :
    Prop :=
  ahead queues.slots.length (cursor.strictIndex % queues.slots.length) second <
    ahead queues.slots.length (cursor.strictIndex % queues.slots.length) first

instance decidableFaces (queues : QueueSet α) (cursor : QueueCursor)
    (second first : Nat) : Decidable (queues.Faces cursor second first) :=
  inferInstanceAs (Decidable (_ < _))

section Turn

variable {queues : QueueSet α} {cursor next : QueueCursor} {popped : Popped α}
  {rank best : UInt16} {first second index : Nat}

theorem interposed_of_popAt {target : Nat}
    (hpriority : queues.priorityAt index = some (.strict best))
    (hlarger : rank < best) (hpop : queues.popAt index = some popped)
    (hahead : ahead queues.slots.length second index <
      ahead queues.slots.length second target) :
    queues.Interposed rank second target := by
  obtain ⟨slot, rest, hslot, hentries, -, -⟩ := replaces_popAt hpop
  refine ⟨index, lt_length_of_popAt hpop, hahead, ?_⟩
  have hslotPriority : slot.priority = .strict best := by
    simpa [priorityAt, hslot] using hpriority
  simp [hslot, hslotPriority, hentries, QueuePriority.outranks, hlarger]

theorem rank_le_of_waits (hcounted : queues.Counted)
    (hpriority : queues.priorityAt second = some (.strict rank))
    (hready : queues.popAt second ≠ none)
    (hbest : queues.readyRank = some best) : rank ≤ best := by
  obtain ⟨slot, hslot, hrank⟩ := Option.map_eq_some_iff.mp hpriority
  have hmem := List.mem_of_getElem? hslot
  have hentries : slot.entries ≠ [] := by
    intro hnil
    refine hready ((popAt_eq_none_iff _ _).mpr ?_)
    intro other hother
    rw [hslot] at hother
    injection hother with hother
    exact hother ▸ hnil
  obtain ⟨found, hfound, hle⟩ :=
    mem_readyRanks hmem hrank ((hcounted slot hmem).mpr hentries)
  rw [hbest] at hfound
  injection hfound with hfound
  exact hfound ▸ hle

theorem faces_of_index (hne : first ≠ second)
    (hsecond : second < queues.slots.length) :
    ahead queues.slots.length first second <
      ahead queues.slots.length first first := by
  rw [ahead_self]
  have hle := (ahead_le_pred_iff hsecond).mpr (Ne.symm hne)
  omega

theorem faces_strictChoice (hcounted : queues.Counted)
    (hfirst : first < queues.slots.length)
    (hfirstRank : queues.priorityAt first = some (.strict rank))
    (hsecondRank : queues.priorityAt second = some (.strict rank))
    (hready : queues.popAt second ≠ none)
    (hclear : ¬ queues.Interposed rank second first)
    (hfaces : queues.Faces cursor second first) (hother : index ≠ second)
    (h : queues.StrictChoice cursor popped next best index) :
    index ≠ first ∧ ahead queues.slots.length index second <
      ahead queues.slots.length index first := by
  have hindex := lt_length_of_popAt h.pop
  have hlength : 0 < queues.slots.length := Nat.zero_lt_of_lt hindex
  have hsecond : second < queues.slots.length := by
    obtain ⟨slot, hslot, -⟩ := Option.map_eq_some_iff.mp hsecondRank
    exact (List.getElem?_eq_some_iff.mp hslot).1
  have hrank := rank_le_of_waits hcounted hsecondRank hready h.ready
  by_cases hsame : best = rank
  · subst hsame
    refine ahead_lt_of_between (Nat.mod_lt _ hlength) hindex hsecond hfirst
      (Nat.le_of_not_lt ?_) hother hfaces
    intro hless
    exact hready (h.nearest second hsecond hless hsecondRank)
  · have hlarger : rank < best := by
      rw [UInt16.lt_iff_toNat_lt]
      rw [UInt16.le_iff_toNat_le] at hrank
      rcases Nat.lt_or_eq_of_le hrank with hlt | heq
      · exact hlt
      · exact absurd (UInt16.toNat_inj.mp heq.symm) hsame
    have hnotFirst : index ≠ first := by
      rintro rfl
      have hpriority := h.priority
      rw [hfirstRank] at hpriority
      injection hpriority with hpriority
      injection hpriority with hpriority
      exact hsame hpriority.symm
    refine ⟨hnotFirst, ?_⟩
    rw [ahead_lt_ahead_iff hfirst hsecond hindex hother.symm
      hnotFirst.symm]
    refine Nat.lt_of_le_of_ne (Nat.le_of_not_lt ?_) ?_
    · intro hless
      exact hclear (interposed_of_popAt h.priority hlarger h.pop hless)
    · intro heq
      exact hnotFirst (ahead_inj hsecond hfirst hindex heq).symm

end Turn

end QueueSet

/-- Two strict queues of one rank with their positions in the layout. -/
structure Peers (configs : List QueueConfig) (rank : UInt16)
    (first second : QueueConfig) (firstAt secondAt : Nat) : Prop where
  first_mem : configs[firstAt]? = some first
  second_mem : configs[secondAt]? = some second
  first_rank : first.priority = .strict rank
  second_rank : second.priority = .strict rank
  ne : firstAt ≠ secondAt

namespace LinkState

/--
Whenever the runner decides, the second queue has an entry, and where the
rotation would come to it before the first, no ready queue of a larger rank
stands on the way from the second to the first; priorities stay.
-/
def KeepsTurns (rank : UInt16) (second : QueueId) (firstAt secondAt : Nat)
    (state : LinkState) (action : LinkAction) : Prop :=
  action.keepsPriorities ∧
    (action.polls → state.queues.Waits second ∧
      (state.queues.Faces state.cursor secondAt firstAt →
        ¬ state.queues.Interposed rank secondAt firstAt))

instance decidableKeepsTurns (rank : UInt16) (second : QueueId)
    (firstAt secondAt : Nat) (state : LinkState) (action : LinkAction) :
    Decidable (KeepsTurns rank second firstAt secondAt state action) :=
  inferInstanceAs (Decidable (_ ∧ (_ → _ ∧ (_ → _))))

/-- The queues have alternated, and the rotation faces the one that is due. -/
structure TakesTurns (build : LinkBuild) (setup : LinkSetup)
    (configs : List QueueConfig) (first second : QueueConfig)
    (firstAt secondAt : Nat) (seen : List QueueId) (state : LinkState) :
    Prop where
  reached : build.Reaches setup state
  configs : state.queues.configs = configs
  alternates : Alternates first.id second.id seen
  faces : Outstanding first.id second.id seen →
    state.queues.Faces state.cursor secondAt firstAt

section Turns

variable {setup : LinkSetup} {build : LinkBuild} {state next : LinkState}
  {action : LinkAction} {configs : List QueueConfig} {rank : UInt16}
  {first second : QueueConfig} {firstAt secondAt : Nat}

theorem priorityAt_of_config {config : QueueConfig} {index : Nat}
    (h : state.queues.configs[index]? = some config) :
    state.queues.priorityAt index = some config.priority := by
  rw [QueueSet.configs, List.getElem?_map] at h
  obtain ⟨slot, hslot, rfl⟩ := Option.map_eq_some_iff.mp h
  simp [QueueSet.priorityAt, hslot, QueueSlot.config]

theorem index_eq_iff_queue {config : QueueConfig} {index target : Nat}
    {popped : Popped Job}
    (hconfig : state.queues.configs[target]? = some config)
    (hpop : state.queues.popAt index = some popped) :
    index = target ↔ popped.queue = config.id := by
  obtain ⟨found, hfound, hid⟩ := QueueSet.config_of_popAt hpop
  constructor
  · rintro rfl
    rw [hconfig] at hfound
    injection hfound with hfound
    rw [hfound, hid]
  · intro hqueue
    exact QueueSet.index_unique hfound hconfig (hid.trans hqueue)

theorem takesTurns_step {seen : List QueueId}
    (hpeers : Peers configs rank first second firstAt secondAt)
    (h : state.step setup action = some next)
    (hallowed : state.KeepsTurns rank second.id firstAt secondAt action)
    (hturns : TakesTurns build setup configs first second firstAt secondAt seen
      state) :
    TakesTurns build setup configs first second firstAt secondAt
      (seen ++ state.decision action) next := by
  obtain ⟨hreached, rfl, halternates, hfaces⟩ := hturns
  have hconfigs := configs_step h (LinkAction.ne_of_keepsPriorities hallowed.1)
  have hlength := congrArg List.length hconfigs
  rw [QueueSet.length_configs, QueueSet.length_configs] at hlength
  cases decided_step h with
  | elsewhere hseen hcursor =>
      rw [hseen, List.append_nil]
      refine ⟨hreached.step h, hconfigs, halternates, ?_⟩
      simpa only [QueueSet.Faces, hlength, hcursor] using hfaces
  | nothing hphase hpoll hpop =>
      subst hpoll
      obtain ⟨slot, hslot, -, hentries⟩ := (hallowed.2 rfl).1
      obtain ⟨actions, hrun⟩ := hreached
      exact absurd (QueueSet.empty_of_popScheduled_none
        (counted_run hrun (by rw [hphase]; rfl)) hpop hslot) hentries
  | weighted hphase hpoll popped hseen hstrict hchoice =>
      subst hpoll
      obtain ⟨slot, hslot, hid, hentries⟩ := (hallowed.2 rfl).1
      obtain ⟨actions, hrun⟩ := hreached
      obtain ⟨index, hindex⟩ := List.mem_iff_getElem?.mp hslot
      have hslotConfig : state.queues.configs[index]? = some slot.config := by
        simp [QueueSet.configs, hindex]
      have hsame := QueueSet.index_unique hslotConfig hpeers.second_mem hid
      rw [hsame, hpeers.second_mem] at hslotConfig
      injection hslotConfig with hslotConfig
      have hrank : slot.priority = .strict rank := by
        rw [← hpeers.second_rank, hslotConfig]
        rfl
      exact absurd (QueueSet.empty_of_popStrict_none
        (counted_run hrun (by rw [hphase]; rfl)) hstrict hslot hrank) hentries
  | strict hphase hpoll popped best index hseen hchoice =>
      subst hpoll
      obtain ⟨found, hfound⟩ :=
        QueueSet.popAt_of_waits hpeers.second_mem (hallowed.2 rfl).1
      have hcounted : state.queues.Counted := by
        obtain ⟨actions, hrun⟩ := hreached
        exact counted_run hrun (by rw [hphase]; rfl)
      have hfirstAt : firstAt < state.queues.slots.length := by
        rw [← QueueSet.length_configs]
        exact (List.getElem?_eq_some_iff.mp hpeers.first_mem).1
      have hindex := QueueSet.lt_length_of_popAt hchoice.pop
      have hkept : Outstanding first.id second.id seen → index ≠ secondAt →
          index ≠ firstAt ∧ ahead state.queues.slots.length index secondAt <
            ahead state.queues.slots.length index firstAt := by
        intro hopen hother
        exact QueueSet.faces_strictChoice hcounted hfirstAt
          (hpeers.first_rank ▸ priorityAt_of_config hpeers.first_mem)
          (hpeers.second_rank ▸ priorityAt_of_config hpeers.second_mem)
          (by simp [hfound]) ((hallowed.2 rfl).2 (hfaces hopen)) (hfaces hopen)
          hother hchoice
      have hfirst := index_eq_iff_queue hpeers.first_mem hchoice.pop
      have hsecond := index_eq_iff_queue hpeers.second_mem hchoice.pop
      rw [hseen]
      refine ⟨hreached.step h, hconfigs, ?_, ?_⟩
      · refine alternates_concat halternates ?_
        intro hlast hopen
        have hat := hfirst.mpr hlast
        exact (hkept hopen (hat ▸ hpeers.ne)).1 hat
      · intro hopen
        simp only [QueueSet.Faces, hlength, hchoice.next,
          Nat.mod_eq_of_lt hindex]
        rcases hopen.of_concat with hlast | ⟨hbefore, hlast⟩
        · rw [hfirst.mpr hlast]
          exact QueueSet.faces_of_index hpeers.ne
            (QueueSet.lt_length_of_popAt hfound)
        · exact (hkept hbefore fun heq => hlast (hsecond.mp heq)).2

/--
Two strict queues of one rank: while the second has an entry at every decision
and no ready queue of a larger rank carries the rotation past it, between two
entries of the first one of the second is taken.
-/
theorem run_alternates_peers (setup : LinkSetup) (build : LinkBuild)
    (earlier actions : List LinkAction) (state final : LinkState)
    (rank : UInt16) (first second : QueueConfig) (firstAt secondAt : Nat)
    (hreached : build.initial.run setup earlier = some state)
    (hrun : state.run setup actions = some final)
    (hpeers : Peers state.queues.configs rank first second firstAt secondAt)
    (hkeeps : Along (step setup) (KeepsTurns rank second.id firstAt secondAt)
      state actions) :
    Alternates first.id second.id (state.decisions setup actions) := by
  have hstart : TakesTurns build setup state.queues.configs first second
      firstAt secondAt [] state :=
    ⟨⟨earlier, hreached⟩, rfl, alternates_nil,
      fun hopen => absurd hopen not_outstanding_nil⟩
  have hfinal := runSteps_observe_along (takesTurns_step hpeers) hrun hkeeps hstart
  exact hfinal.alternates

def ranksBuild : LinkBuild :=
  { layout := [⟨⟨0⟩, 4, .strict 1⟩, ⟨⟨1⟩, 4, .strict 0⟩, ⟨⟨2⟩, 4, .strict 0⟩]
    default := ⟨0⟩
    limits := ⟨4096, 2, .strict⟩
    readBufferSize := 512
    burstHub := true
    valid := by decide }

def ranksActions : List LinkAction :=
  List.replicate 3 (startIn ⟨1⟩) ++ List.replicate 2 (startIn ⟨2⟩) ++
    expire ++ expire ++ [startIn ⟨0⟩] ++ expire ++ expire ++ expire

theorem isSome_ranksRun :
    (ranksBuild.initial.run plainSetup ranksActions).isSome := by
  decide +kernel

example : ranksBuild.initial.decisions plainSetup ranksActions =
    [⟨1⟩, ⟨2⟩, ⟨0⟩, ⟨1⟩, ⟨2⟩] := by
  decide +kernel

/-- From the queue in the middle to the last one nothing is on the way. -/
theorem run_alternates_peers_ranks :
    Alternates ⟨2⟩ ⟨1⟩
      (ranksBuild.initial.decisions plainSetup ranksActions) :=
  run_alternates_peers plainSetup ranksBuild [] ranksActions _ _ 0
    ⟨⟨2⟩, 4, .strict 0⟩ ⟨⟨1⟩, 4, .strict 0⟩ 2 1 rfl
    (Option.some_get isSome_ranksRun).symm
    ⟨by decide +kernel, by decide +kernel, rfl, rfl, by decide⟩
    (by decide +kernel)

def overtakenActions : List LinkAction :=
  List.replicate 2 (startIn ⟨1⟩) ++ [startIn ⟨2⟩] ++ expire ++
    [startIn ⟨0⟩] ++ expire ++ expire

/-- The first queue stands between the last one and the first of the peers. -/
theorem overtaken_peer :
    (ranksBuild.initial.run plainSetup overtakenActions).isSome ∧
      Peers ranksBuild.initial.queues.configs 0 ⟨⟨1⟩, 4, .strict 0⟩
        ⟨⟨2⟩, 4, .strict 0⟩ 1 2 ∧
      Along (step plainSetup) (KeepsWaiting ⟨2⟩) ranksBuild.initial
        overtakenActions ∧
      ¬ Alternates ⟨1⟩ ⟨2⟩
        (ranksBuild.initial.decisions plainSetup overtakenActions) := by
  refine ⟨by decide +kernel,
    ⟨by decide +kernel, by decide +kernel, rfl, rfl, by decide⟩,
    by decide +kernel, ?_⟩
  intro h
  have hbetween : (⟨2⟩ : QueueId) ∈ [⟨0⟩] :=
    h [] [⟨0⟩] [] (by decide +kernel)
  contradiction

end Turns

end LinkState

end HartLink.Service
