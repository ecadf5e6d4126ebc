import HartLink.Service.Occupancy

/-!
# Turns of the weighted queues

The weighted rotation goes round the queues and gives each as many turns as its
weight.  `lead` bounds the turns that others take before a waiting queue has its
own; while all weighted queues wait, the decisions follow the list of turns from
where the cursor stands.
-/

namespace HartLink.Service

open HartLink.Foundation
open HartLink.Wire
open HartLink.Operation

def QueuePriority.share : QueuePriority → Nat
  | .weighted weight => weight.val.toNat
  | .strict _ => 0

def QueueConfig.share (config : QueueConfig) : Nat := config.priority.share

def sharesOf (configs : List QueueConfig) : List (QueueId × Nat) :=
  configs.map fun config => (config.id, config.share)

def weightsOf (configs : List QueueConfig) : List Nat :=
  configs.map QueueConfig.share

theorem weightsOf_eq (configs : List QueueConfig) :
    weightsOf configs = (sharesOf configs).map Prod.snd := by
  simp [weightsOf, sharesOf]

def weightedIds (configs : List QueueConfig) : List QueueId :=
  (configs.filter fun config => 0 < config.share).map QueueConfig.id

def othersShare (configs : List QueueConfig) (queue : QueueId) : Nat :=
  weightsOf (configs.filter fun config => config.id ≠ queue) |>.sum

theorem othersShare_add {configs : List QueueConfig}
    (hnodup : (configs.map QueueConfig.id).Nodup) {target : Nat}
    {config : QueueConfig} (hconfig : configs[target]? = some config) :
    othersShare configs config.id + config.share =
      (weightsOf configs).sum := by
  induction configs generalizing target with
  | nil => contradiction
  | cons first configs ih =>
      rw [List.map_cons, List.nodup_cons] at hnodup
      cases target with
      | zero =>
          injection hconfig with hconfig
          subst hconfig
          have hall : configs.filter (fun other => other.id ≠ first.id) =
              configs := by
            refine List.filter_eq_self.mpr ?_
            intro other hother
            rw [decide_eq_true_iff]
            intro heq
            exact hnodup.1 (List.mem_map.mpr ⟨other, hother, heq⟩)
          rw [othersShare, List.filter_cons_of_neg (by simp), hall]
          exact Nat.add_comm _ _
      | succ target =>
          have hne : first.id ≠ config.id := by
            intro heq
            exact hnodup.1 (List.mem_map.mpr
              ⟨config, List.mem_of_getElem? hconfig, heq.symm⟩)
          have hrest := ih hnodup.2 hconfig
          rw [othersShare, List.filter_cons_of_pos (by simpa using hne)]
          simp only [weightsOf, List.map_cons, List.sum_cons]
            at hrest ⊢
          rw [Nat.add_assoc]
          exact congrArg (first.share + ·) hrest

namespace QueueSet

variable {α : Type*} {queues : QueueSet α}

def Waits (queues : QueueSet α) (queue : QueueId) : Prop :=
  ∃ slot ∈ queues.slots, slot.id = queue ∧ slot.entries ≠ []

instance decidableWaits [DecidableEq α] (queues : QueueSet α)
    (queue : QueueId) : Decidable (queues.Waits queue) :=
  inferInstanceAs (Decidable (∃ slot ∈ queues.slots, _ ∧ _))

theorem nodup_configs (queues : QueueSet α) :
    (queues.configs.map QueueConfig.id).Nodup := by
  rw [configs, List.map_map]
  exact queues.nodup

/-- Positions and identifiers name the same queues. -/
theorem index_unique {first second : Nat} {config other : QueueConfig}
    (hfirst : queues.configs[first]? = some config)
    (hsecond : queues.configs[second]? = some other)
    (hid : config.id = other.id) : first = second := by
  have hlt : first < (queues.configs.map QueueConfig.id).length := by
    rw [List.length_map]
    exact (List.getElem?_eq_some_iff.mp hfirst).1
  refine (List.getElem?_inj hlt queues.nodup_configs).mp ?_
  rw [List.getElem?_map, List.getElem?_map, hfirst, hsecond,
    Option.map_some, Option.map_some, hid]

theorem config_of_popAt {index : Nat} {popped : Popped α}
    (h : queues.popAt index = some popped) :
    ∃ config, queues.configs[index]? = some config ∧
      config.id = popped.queue := by
  obtain ⟨slot, hslot, hqueue⟩ := queue_popAt h
  exact ⟨slot.config, by simp [configs, hslot], hqueue.symm⟩

theorem popAt_of_waits {config : QueueConfig} {target : Nat}
    (hconfig : queues.configs[target]? = some config)
    (h : queues.Waits config.id) :
    ∃ found, queues.popAt target = some found := by
  obtain ⟨slot, hslot, hid, hentries⟩ := h
  obtain ⟨index, hindex⟩ := List.mem_iff_getElem?.mp hslot
  have hslotConfig : queues.configs[index]? = some slot.config := by
    simp [configs, hindex]
  have hsame := index_unique hslotConfig hconfig hid
  subst hsame
  cases hpop : queues.popAt index with
  | none =>
      exact absurd ((popAt_eq_none_iff _ _).mp hpop slot hindex) hentries
  | some found => exact ⟨found, rfl⟩

theorem length_configs (queues : QueueSet α) :
    queues.configs.length = queues.slots.length := by
  simp [configs]

theorem weightAt_eq_some {index : Nat} {weight : UInt16}
    (h : queues.weightAt index = some weight) :
    ∃ slot, queues.slots[index]? = some slot ∧
      slot.config.share = weight.toNat ∧ 0 < weight.toNat := by
  obtain ⟨slot, hslot, hweight⟩ := Option.bind_eq_some_iff.mp h
  refine ⟨slot, hslot, ?_⟩
  simp only [QueueSlot.config, QueueConfig.share]
  cases hpriority : slot.priority with
  | strict rank => simp [QueuePriority.weight, hpriority] at hweight
  | weighted found =>
      simp only [QueuePriority.weight, hpriority, Option.some.injEq] at hweight
      subst hweight
      refine ⟨rfl, Nat.pos_of_ne_zero ?_⟩
      intro hzero
      exact found.2 (UInt16.toNat_inj.mp hzero)

theorem getD_weightsOf {index : Nat} {slot : QueueSlot α}
    (h : queues.slots[index]? = some slot) :
    (weightsOf queues.configs).getD index 0 = slot.config.share := by
  simp [weightsOf, configs, List.getD, h]

theorem weight_of_weightAt {index : Nat} {weight : UInt16}
    (h : queues.weightAt index = some weight) :
    (weightsOf queues.configs).getD index 0 = weight.toNat := by
  obtain ⟨slot, hslot, hshare, -⟩ := weightAt_eq_some h
  rw [getD_weightsOf hslot, hshare]

theorem weight_pos_iff {index : Nat} :
    0 < (weightsOf queues.configs).getD index 0 ↔
      (queues.weightAt index).isSome := by
  constructor
  · intro hpos
    cases hslot : queues.slots[index]? with
    | none => simp [weightsOf, configs, List.getD, hslot] at hpos
    | some slot =>
        rw [getD_weightsOf hslot] at hpos
        cases hpriority : slot.priority with
        | strict rank =>
            simp [QueueSlot.config, QueueConfig.share, hpriority,
              QueuePriority.share] at hpos
        | weighted weight =>
            simp [weightAt, hslot, hpriority, QueuePriority.weight]
  · intro hsome
    obtain ⟨weight, hweight⟩ := Option.isSome_iff_exists.mp hsome
    obtain ⟨slot, hslot, hshare, hpos⟩ := weightAt_eq_some hweight
    rw [getD_weightsOf hslot, hshare]
    exact hpos

theorem weightAt_isSome_of_config {config : QueueConfig} {target : Nat}
    (hconfig : queues.configs[target]? = some config)
    (hshare : 0 < config.share) : (queues.weightAt target).isSome := by
  rw [← weight_pos_iff]
  simpa [weightsOf, List.getD, hconfig] using hshare

theorem toNat_saturatingSucc16 {used weight : UInt16} (h : used < weight) :
    (saturatingSucc16 used).toNat = used.toNat + 1 := by
  have hlt := UInt16.lt_iff_toNat_lt.mp h
  have hweight := weight.toNat_lt
  unfold saturatingSucc16
  split_ifs with hmax
  · subst hmax
    simp at hlt
    omega
  · rw [UInt16.toNat_add]
    simp
    omega

/-! ## The way to a waiting queue -/

/-- The turns that others may still take before the queue at the target. -/
def distance (weights : List Nat) (target : Nat) (cursor : QueueCursor) :
    Nat :=
  if cursor.weightedIndex = target ∧
      cursor.weightedUsed.toNat < weights.getD target 0 then 0
  else lead weights target cursor.weightedIndex cursor.weightedUsed.toNat

theorem distance_le (weights : List Nat) (target : Nat)
    (cursor : QueueCursor) :
    distance weights target cursor ≤
      weights.sum - weights.getD target 0 := by
  unfold distance
  split_ifs with hown
  · exact Nat.zero_le _
  · refine lead_le ?_
    intro heq
    exact Nat.le_of_not_lt fun hlt => hown ⟨heq, hlt⟩

theorem distance_weightedChoice {cursor next : QueueCursor}
    {popped found : Popped α} {target : Nat}
    (hcursor : cursor.weightedIndex < queues.slots.length)
    (hweight : (queues.weightAt target).isSome)
    (hready : queues.popAt target = some found)
    (hother : queues.popAt target ≠ some popped)
    (h : queues.WeightedChoice cursor popped next) :
    distance (weightsOf queues.configs) target next + 1 ≤
      distance (weightsOf queues.configs) target cursor := by
  have htarget := lt_length_of_popAt hready
  cases h with
  | current weight weightAt used pop =>
      have hne : cursor.weightedIndex ≠ target := by
        rintro rfl
        exact hother pop
      have hused := UInt16.lt_iff_toNat_lt.mp used
      rw [← weight_of_weightAt weightAt] at hused
      simp only [distance, hne, false_and, if_false,
        toNat_saturatingSucc16 used]
      exact lead_current hused
  | other index ne weightAt pop left nearest =>
      have hne : index ≠ target := by
        rintro rfl
        exact hother pop
      have hindex := lt_length_of_popAt pop
      have hbetween : ahead queues.slots.length cursor.weightedIndex index <
          ahead queues.slots.length cursor.weightedIndex target := by
        rcases Nat.lt_trichotomy
          (ahead queues.slots.length cursor.weightedIndex index)
          (ahead queues.slots.length cursor.weightedIndex target)
          with hlt | heq | hgt
        · exact hlt
        · exact absurd (ahead_inj hcursor hindex htarget heq) hne
        · rw [nearest target htarget hgt hweight] at hready
          contradiction
      have hleft : ¬ (cursor.weightedIndex = target ∧
          cursor.weightedUsed.toNat <
            (weightsOf queues.configs).getD target 0) := by
        rintro ⟨rfl, hlt⟩
        obtain ⟨weight, hsome⟩ := Option.isSome_iff_exists.mp hweight
        rw [weight_of_weightAt hsome, ← UInt16.lt_iff_toNat_lt] at hlt
        rw [left weight hsome hlt] at hready
        contradiction
      simp only [distance, hne, false_and, if_false, if_neg hleft]
      exact lead_other hcursor htarget hbetween (weight_pos_iff.mpr weightAt)
  | again weight weightAt used pop alone =>
      have hne : target ≠ cursor.weightedIndex := by
        rintro rfl
        exact hother pop
      rw [alone target htarget hne hweight] at hready
      contradiction

/-! ## The turns to come -/

def turnOf (configs : List QueueConfig) (cursor : QueueCursor) : Nat :=
  ((weightsOf configs).take cursor.weightedIndex).sum +
    min cursor.weightedUsed.toNat
      ((weightsOf configs).getD cursor.weightedIndex 0)

/-- One round of turns from where a cursor stands. -/
def upcoming (configs : List QueueConfig) (cursor : QueueCursor) :
    List QueueId :=
  (turns (sharesOf configs)).rotate (turnOf configs cursor)

def AllWait (queues : QueueSet α) : Prop :=
  ∀ queue ∈ weightedIds queues.configs, queues.Waits queue

instance decidableAllWait [DecidableEq α] (queues : QueueSet α) :
    Decidable queues.AllWait :=
  inferInstanceAs (Decidable (∀ queue ∈ weightedIds queues.configs, _))

theorem popAt_of_allWait (h : queues.AllWait) {index : Nat}
    (hweight : (queues.weightAt index).isSome) :
    ∃ found, queues.popAt index = some found := by
  obtain ⟨weight, hsome⟩ := Option.isSome_iff_exists.mp hweight
  obtain ⟨slot, hslot, hshare, hpos⟩ := weightAt_eq_some hsome
  have hconfig : queues.configs[index]? = some slot.config := by
    simp [configs, hslot]
  refine popAt_of_waits hconfig (h slot.config.id ?_)
  refine List.mem_map.mpr ⟨slot.config, List.mem_filter.mpr
    ⟨List.mem_of_getElem? hconfig, ?_⟩, rfl⟩
  simpa [hshare] using hpos

theorem getElem?_turns_of_popAt {index used : Nat} {popped : Popped α}
    (hpop : queues.popAt index = some popped)
    (hused : used < (weightsOf queues.configs).getD index 0) :
    (turns (sharesOf queues.configs))[
        ((weightsOf queues.configs).take index).sum + used]? =
      some popped.queue := by
  obtain ⟨config, hconfig, hid⟩ := config_of_popAt hpop
  have hitem : (sharesOf queues.configs)[index]? =
      some (config.id, config.share) := by
    simp [sharesOf, hconfig]
  have hshare : (weightsOf queues.configs).getD index 0 = config.share := by
    simp [weightsOf, List.getD, hconfig]
  rw [hshare] at hused
  rw [weightsOf_eq, ← hid]
  exact getElem?_turns hitem hused

theorem head?_rotate_of_getElem? {β : Type*} {items : List β} {count : Nat}
    {item : β} (h : items[count]? = some item) :
    (items.rotate count).head? = some item := by
  rw [List.head?_rotate (List.getElem?_eq_some_iff.mp h).1]
  exact h

theorem turns_of_alone (h : queues.AllWait) {index : Nat} {popped : Popped α}
    (hpop : queues.popAt index = some popped)
    (halone : ∀ other < queues.slots.length, other ≠ index →
      (queues.weightAt other).isSome → queues.popAt other = none) :
    turns (sharesOf queues.configs) =
      List.replicate (turns (sharesOf queues.configs)).length popped.queue := by
  refine List.eq_replicate_iff.mpr ⟨rfl, ?_⟩
  intro queue hqueue
  obtain ⟨item, hitem, hcopy⟩ := List.mem_flatMap.mp hqueue
  obtain ⟨hne, rfl⟩ := List.mem_replicate.mp hcopy
  obtain ⟨config, hconfig, rfl⟩ := List.mem_map.mp hitem
  obtain ⟨other, hother⟩ := List.mem_iff_getElem?.mp hconfig
  obtain ⟨found, hfound, hid⟩ := config_of_popAt hpop
  by_cases hsame : other = index
  · subst hsame
    rw [hother] at hfound
    injection hfound with hfound
    rw [hfound, hid]
  · have hweight := weightAt_isSome_of_config hother (Nat.pos_of_ne_zero hne)
    obtain ⟨taken, htaken⟩ := popAt_of_allWait h hweight
    rw [halone other (lt_length_of_popAt htaken) hsame hweight] at htaken
    contradiction

theorem upcoming_weightedChoice {cursor next : QueueCursor}
    {popped : Popped α} (hwait : queues.AllWait)
    (hcursor : cursor.weightedIndex < queues.slots.length)
    (h : queues.WeightedChoice cursor popped next) :
    (upcoming queues.configs cursor).head? = some popped.queue ∧
      upcoming queues.configs next =
        (upcoming queues.configs cursor).rotate 1 := by
  have hlength : (weightsOf queues.configs).length = queues.slots.length := by
    simp [weightsOf, length_configs]
  have hturns : (turns (sharesOf queues.configs)).length =
      (weightsOf queues.configs).sum := by
    rw [length_turns, weightsOf_eq]
  unfold upcoming
  cases h with
  | current weight weightAt used pop =>
      have hused := UInt16.lt_iff_toNat_lt.mp used
      rw [← weight_of_weightAt weightAt] at hused
      constructor
      · refine head?_rotate_of_getElem? ?_
        rw [turnOf, Nat.min_eq_left hused.le]
        exact getElem?_turns_of_popAt pop hused
      · rw [List.rotate_rotate]
        simp only [turnOf, toNat_saturatingSucc16 used]
        congr 1
        omega
  | other index ne weightAt pop left nearest =>
      have hindex := lt_length_of_popAt pop
      -- the turns of the position where the cursor stands are used up
      have hplace : turnOf queues.configs cursor =
          ((weightsOf queues.configs).take cursor.weightedIndex).sum +
            (weightsOf queues.configs).getD cursor.weightedIndex 0 := by
        refine congrArg (_ + ·) (Nat.min_eq_right (Nat.le_of_not_lt ?_))
        intro hlt
        have hsome := weight_pos_iff.mp (Nat.zero_lt_of_lt hlt)
        obtain ⟨weight, hweight⟩ := Option.isSome_iff_exists.mp hsome
        obtain ⟨taken, htaken⟩ := popAt_of_allWait hwait hsome
        rw [weight_of_weightAt hweight, ← UInt16.lt_iff_toNat_lt] at hlt
        rw [left weight hweight hlt] at htaken
        contradiction
      have hturn : turnOf queues.configs cursor %
            (turns (sharesOf queues.configs)).length =
          ((weightsOf queues.configs).take index).sum %
            (turns (sharesOf queues.configs)).length := by
        rw [hplace, hturns]
        refine next_turn (hlength ▸ hcursor) (hlength ▸ hindex) ?_
        intro other hother hless
        rw [hlength] at hother hless
        by_contra hpos
        have hsome := weight_pos_iff.mp (Nat.pos_of_ne_zero hpos)
        obtain ⟨taken, htaken⟩ := popAt_of_allWait hwait hsome
        rw [nearest other hother hless hsome] at htaken
        contradiction
      have hrotate : (turns (sharesOf queues.configs)).rotate
            (turnOf queues.configs cursor) =
          (turns (sharesOf queues.configs)).rotate
            ((weightsOf queues.configs).take index).sum := by
        rw [← List.rotate_mod, hturn, List.rotate_mod]
      have hfirst := weight_pos_iff.mpr weightAt
      rw [hrotate]
      constructor
      · exact head?_rotate_of_getElem? (getElem?_turns_of_popAt pop hfirst)
      · rw [List.rotate_rotate]
        simp only [turnOf]
        congr 2
        exact Nat.min_eq_left hfirst
  | again weight weightAt used pop alone =>
      have hall := turns_of_alone hwait pop alone
      have hpos : 0 < (weightsOf queues.configs).sum :=
        lt_of_lt_of_le
          (weight_pos_iff.mpr (Option.isSome_iff_exists.mpr ⟨_, weightAt⟩))
          (Nat.le_trans (Nat.le_add_left _ _) (sum_take_add_le _ _))
      rw [hall, List.rotate_replicate, List.rotate_replicate,
        List.rotate_replicate]
      refine ⟨?_, rfl⟩
      rw [List.head?_replicate, if_neg (by omega)]

end QueueSet

/-! ## The decisions of a run -/

namespace LinkAction

def keepsPriorities : LinkAction → Bool
  | .client (.setPriority _ _) => false
  | _ => true

def polls : LinkAction → Bool
  | .runner .poll => true
  | _ => false

theorem ne_of_keepsPriorities {action : LinkAction}
    (h : action.keepsPriorities) (queue : QueueId)
    (priority : QueuePriority) :
    action ≠ .client (.setPriority queue priority) := by
  rintro rfl
  contradiction

end LinkAction

namespace LinkState

/-- The queue whose entry a step of the runner takes as its next job. -/
def decision (state : LinkState) : LinkAction → List QueueId
  | .runner .poll =>
      if state.phase = .polling then
        (state.queues.popScheduled state.cursor).1.toList.map Popped.queue
      else []
  | _ => []

def decisions (setup : LinkSetup) (state : LinkState)
    (actions : List LinkAction) : List QueueId :=
  observe (step setup) decision state actions

inductive Decided (state next : LinkState) (action : LinkAction) : Prop
  | elsewhere (seen : state.decision action = [])
      (cursor : next.cursor = state.cursor)
  | nothing (phase : state.phase = .polling) (poll : action = .runner .poll)
      (pop : state.queues.popScheduled state.cursor = (none, next.cursor))
  | strict (phase : state.phase = .polling) (poll : action = .runner .poll)
      (popped : Popped Job) (rank : UInt16) (index : Nat)
      (seen : state.decision action = [popped.queue])
      (choice : state.queues.StrictChoice state.cursor popped next.cursor rank
        index)
  | weighted (phase : state.phase = .polling) (poll : action = .runner .poll)
      (popped : Popped Job) (seen : state.decision action = [popped.queue])
      (strict : state.queues.popStrict state.cursor = none)
      (choice : state.queues.WeightedChoice
        (state.queues.normalizeCursor state.cursor) popped next.cursor)

section Decided

variable {setup : LinkSetup} {state next : LinkState}

@[simp] theorem cursor_conclude (state : LinkState) (queue : QueueId)
    (id : UInt64) (reply : Option ReplyId)
    (result : Except ExchangeError DeviceReply) :
    (state.conclude queue id reply result).cursor = state.cursor := by
  rw [conclude_eq]

theorem cursor_start (setup : LinkSetup) (state : LinkState)
    (request : Request) (transmitPrefix : Bytes) (requested : QueueId)
    (policy : RetryPolicy) (checkedAt acceptedAt : Nat) :
    (state.start setup request transmitPrefix requested policy checkedAt
      acceptedAt).cursor = state.cursor := by
  unfold start
  split
  · rfl
  · dsimp only
    split
    · rfl
    · split <;> rfl

theorem cursor_clientStep {action : ClientAction}
    (h : state.clientStep setup action = some next) :
    next.cursor = state.cursor := by
  cases action with
  | start request transmitPrefix queue policy checkedAt acceptedAt =>
      simp only [clientStep] at h
      split_ifs at h
      injection h with h
      subst h
      exact cursor_start ..
  | dropReply reply =>
      injection h with h
      subst h
      rfl
  | setPriority queue priority =>
      simp only [clientStep] at h
      split_ifs at h
      injection h with h
      subst h
      rfl
  | dropClients =>
      simp only [clientStep] at h
      split_ifs at h
      injection h with h
      subst h
      rfl

theorem cursor_gather (queue : QueueId) (job : Job) (reply : ReplyId)
    (followers : List Job) :
    (state.gather setup queue job reply followers).cursor = state.cursor := by
  unfold gather
  split_ifs
  · rfl
  split
  · rfl
  · split_ifs <;> rfl

theorem cursor_fail (remaining : List QueueId) :
    (state.fail remaining).cursor = state.cursor := by
  unfold fail
  split
  · rfl
  · split
    · rfl
    · exact cursor_conclude ..

/-- Only a decision of the scheduler moves the cursor. -/
theorem cursor_runnerStep {action : RunnerAction}
    (h : state.runnerStep setup action = some next) (hne : action ≠ .poll) :
    next.cursor = state.cursor := by
  unfold runnerStep at h
  split at h
  all_goals first | contradiction | injection h with h; subst h
  · rfl
  · rfl
  · rfl
  next hphase =>
    unfold begin
    dsimp only
    split
    · exact cursor_conclude ..
    · split_ifs
      · exact cursor_conclude ..
      · rfl
  next hphase => exact cursor_gather ..
  · rfl
  · exact cursor_conclude ..
  next hphase =>
    unfold complete
    split
    · rfl
    · exact cursor_conclude ..
  next hphase =>
    unfold requeue
    split
    · rfl
    · exact cursor_conclude ..
  · rfl
  · rfl
  · rfl
  next hphase => exact cursor_fail ..

theorem decided_poll (hphase : state.phase = .polling) :
    state.Decided state.poll (.runner .poll) := by
  cases hpop : state.queues.popScheduled state.cursor with
  | mk result cursor =>
      have hcursor : state.poll.cursor = cursor := by
        unfold poll
        rw [hpop]
        cases result <;> rfl
      cases result with
      | none => exact .nothing hphase rfl (hcursor ▸ hpop)
      | some popped =>
          have hseen : state.decision (.runner .poll) = [popped.queue] := by
            simp [decision, hphase, hpop]
          cases hstrict : state.queues.popStrict state.cursor with
          | none =>
              simp only [QueueSet.popScheduled, hstrict] at hpop
              exact .weighted hphase rfl popped hseen hstrict
                (hcursor ▸ QueueSet.popWeighted_some hpop)
          | some found =>
              simp only [QueueSet.popScheduled, hstrict, Prod.mk.injEq,
                Option.some.injEq] at hpop
              obtain ⟨rank, index, hchoice⟩ := QueueSet.popStrict_some hstrict
              rw [hpop.1, hpop.2, ← hcursor] at hchoice
              exact .strict hphase rfl popped rank index hseen hchoice

theorem decided_step {action : LinkAction}
    (h : state.step setup action = some next) :
    state.Decided next action := by
  cases action with
  | client action => exact .elsewhere rfl (cursor_clientStep h)
  | runner action =>
      by_cases hpoll : action = .poll
      · subst hpoll
        simp only [step, runnerStep] at h
        split at h
        next hphase _ =>
          injection h with h
          subst h
          exact decided_poll hphase
        all_goals contradiction
      · refine .elsewhere ?_ (cursor_runnerStep h hpoll)
        cases action <;> first | rfl | contradiction

end Decided

/-! ## No weighted queue starves -/

section Bound

variable {setup : LinkSetup} {state next : LinkState} {action : LinkAction}

theorem not_weighted_of_strictChoice {queues : QueueSet Job}
    {cursor after : QueueCursor} {popped : Popped Job} {rank : UInt16}
    {index : Nat} (h : queues.StrictChoice cursor popped after rank index) :
    popped.queue ∉ weightedIds queues.configs := by
  intro hmem
  obtain ⟨config, hconfig, hid⟩ := List.mem_map.mp hmem
  obtain ⟨hconfig, hshare⟩ := List.mem_filter.mp hconfig
  obtain ⟨other, hother⟩ := List.mem_iff_getElem?.mp hconfig
  obtain ⟨found, hfound, hqueue⟩ := QueueSet.config_of_popAt h.pop
  have hsame := QueueSet.index_unique hother hfound (hid.trans hqueue.symm)
  subst hsame
  obtain ⟨slot, hslot, hpriority⟩ := Option.map_eq_some_iff.mp h.priority
  simp only [QueueSet.configs, List.getElem?_map, hslot, Option.map_some,
    Option.some.injEq] at hother
  subst hother
  simp [QueueSlot.config, QueueConfig.share, hpriority,
    QueuePriority.share] at hshare

def standing (state : LinkState) : QueueCursor :=
  state.queues.normalizeCursor state.cursor

theorem standing_of_cursor (hconfigs : next.queues.configs =
      state.queues.configs) (hcursor : next.cursor = state.cursor) :
    next.standing = state.standing := by
  have hlength := congrArg List.length hconfigs
  rw [QueueSet.length_configs, QueueSet.length_configs] at hlength
  simp only [standing, QueueSet.normalizeCursor, hlength, hcursor]

theorem weightedIndex_lt {queues : QueueSet Job} {cursor after : QueueCursor}
    {popped : Popped Job} (h : queues.WeightedChoice cursor popped after) :
    after.weightedIndex < queues.slots.length := by
  cases h with
  | current weight weightAt used pop => exact QueueSet.lt_length_of_popAt pop
  | other index ne weightAt pop left nearest =>
      exact QueueSet.lt_length_of_popAt pop
  | again weight weightAt used pop alone =>
      exact QueueSet.lt_length_of_popAt pop

theorem standing_of_weightedChoice {popped : Popped Job}
    (hconfigs : next.queues.configs = state.queues.configs)
    (h : state.queues.WeightedChoice state.standing popped next.cursor) :
    next.standing = next.cursor := by
  have hlength := congrArg List.length hconfigs
  rw [QueueSet.length_configs, QueueSet.length_configs] at hlength
  have hlt := weightedIndex_lt h
  rw [standing, QueueSet.normalizeCursor, if_neg (by omega)]

theorem standing_lt_of_popAt {index : Nat} {popped : Popped Job}
    (h : state.queues.popAt index = some popped) :
    state.standing.weightedIndex < state.queues.slots.length :=
  QueueSet.normalizeCursor_lt
    (Nat.zero_lt_of_lt (QueueSet.lt_length_of_popAt h))

theorem distance_standing_of_strict (weights : List Nat) (target : Nat)
    {index : Nat} (hconfigs : next.queues.configs = state.queues.configs)
    (hcursor : next.cursor = { state.cursor with strictIndex := index }) :
    QueueSet.distance weights target next.standing =
      QueueSet.distance weights target state.standing := by
  have hlength := congrArg List.length hconfigs
  rw [QueueSet.length_configs, QueueSet.length_configs] at hlength
  simp only [standing, QueueSet.normalizeCursor, hlength, hcursor]
  split_ifs <;> rfl

/--
Up to its next decision a queue has seen at most as many decisions of others as
the rotation has come nearer to it.
-/
def Nearer (configs : List QueueConfig) (target : Nat) (config : QueueConfig)
    (seen : List QueueId) (state : LinkState) : Prop :=
  state.queues.configs = configs ∧
    (config.id ∉ seen →
      seen.countP (· ∈ weightedIds configs) +
          QueueSet.distance (weightsOf configs) target state.standing ≤
        othersShare configs config.id)

/-- The queue has an entry whenever the runner decides; priorities stay. -/
def KeepsWaiting (queue : QueueId) (state : LinkState) (action : LinkAction) :
    Prop :=
  action.keepsPriorities ∧ (action.polls → state.queues.Waits queue)

instance decidableKeepsWaiting (queue : QueueId) (state : LinkState)
    (action : LinkAction) : Decidable (KeepsWaiting queue state action) :=
  inferInstanceAs (Decidable (_ ∧ (_ → _)))

theorem nearer_step {configs : List QueueConfig} {target : Nat}
    {config : QueueConfig} {seen : List QueueId}
    (hconfig : configs[target]? = some config) (hshare : 0 < config.share)
    (h : state.step setup action = some next)
    (hallowed : state.KeepsWaiting config.id action)
    (hnearer : Nearer configs target config seen state) :
    Nearer configs target config (seen ++ state.decision action) next := by
  obtain ⟨rfl, hbound⟩ := hnearer
  have hconfigs := configs_step h (LinkAction.ne_of_keepsPriorities hallowed.1)
  refine ⟨hconfigs, ?_⟩
  intro hpending
  simp only [List.mem_append, not_or] at hpending
  have hbefore := hbound hpending.1
  cases decided_step h with
  | elsewhere hseen hcursor =>
      rw [hseen, List.append_nil, standing_of_cursor hconfigs hcursor]
      exact hbefore
  | nothing hphase hpoll hpop =>
      subst hpoll
      obtain ⟨found, hfound⟩ :=
        QueueSet.popAt_of_waits hconfig (hallowed.2 rfl)
      unfold QueueSet.popScheduled at hpop
      split at hpop
      · simp at hpop
      · rw [QueueSet.popWeighted_none hpop
          (QueueSet.weightAt_isSome_of_config hconfig hshare)] at hfound
        contradiction
  | strict hphase hpoll popped rank index hseen hchoice =>
      have hout := not_weighted_of_strictChoice hchoice
      rw [hseen, List.countP_append,
        distance_standing_of_strict _ _ hconfigs hchoice.next]
      simpa [hout] using hbefore
  | weighted hphase hpoll popped hseen hstrict hchoice =>
      subst hpoll
      obtain ⟨found, hfound⟩ :=
        QueueSet.popAt_of_waits hconfig (hallowed.2 rfl)
      have hother : state.queues.popAt target ≠ some popped := by
        intro hpop
        obtain ⟨known, hknown, hqueue⟩ := QueueSet.config_of_popAt hpop
        rw [hconfig] at hknown
        injection hknown with hknown
        refine hpending.2 ?_
        rw [hseen, hknown, hqueue]
        exact List.mem_singleton_self _
      have hdistance := QueueSet.distance_weightedChoice
        (standing_lt_of_popAt hfound)
        (QueueSet.weightAt_isSome_of_config hconfig hshare) hfound hother
        hchoice
      have hone : [popped.queue].countP
          (· ∈ weightedIds state.queues.configs) ≤ 1 :=
        List.countP_le_length
      rw [hseen, List.countP_append,
        standing_of_weightedChoice hconfigs hchoice]
      change _ ≤ QueueSet.distance _ _ state.standing at hdistance
      omega

/--
While a weighted queue waits with unchanged priorities, the entries of other
weighted queues that are taken before its next one are at most as many as these
queues have turns; from any state, whatever is pushed and whatever the strict
queues take in between.
-/
theorem run_bounds_wait (setup : LinkSetup) (state final : LinkState)
    (actions : List LinkAction) (queue : QueueId)
    (hrun : state.run setup actions = some final)
    (hqueue : queue ∈ weightedIds state.queues.configs)
    (hwaits : Along (step setup) (KeepsWaiting queue) state actions)
    (hpending : queue ∉ state.decisions setup actions) :
    (state.decisions setup actions).countP
        (· ∈ weightedIds state.queues.configs) ≤
      othersShare state.queues.configs queue := by
  obtain ⟨config, hconfig, rfl⟩ := List.mem_map.mp hqueue
  obtain ⟨hconfig, hshare⟩ := List.mem_filter.mp hconfig
  obtain ⟨target, htarget⟩ := List.mem_iff_getElem?.mp hconfig
  have hshare : 0 < config.share := by simpa using hshare
  have hstart : Nearer state.queues.configs target config [] state := by
    refine ⟨rfl, fun _ => ?_⟩
    have htotal := othersShare_add state.queues.nodup_configs htarget
    have hle := QueueSet.distance_le (weightsOf state.queues.configs) target
      state.standing
    have hown : (weightsOf state.queues.configs).getD target 0 =
        config.share := by
      simp [weightsOf, List.getD, htarget]
    rw [hown] at hle
    rw [List.countP_nil]
    omega
  have hfinal := runSteps_observe_along (nearer_step htarget hshare) hrun hwaits
    hstart
  have hbound := hfinal.2 hpending
  exact (Nat.le_add_right _ _).trans hbound

def shareBuild : LinkBuild :=
  { layout := [⟨⟨0⟩, 8, .default⟩, ⟨⟨1⟩, 8, .weighted ⟨3, by decide⟩⟩,
      ⟨⟨2⟩, 8, .strict 0⟩]
    default := ⟨0⟩
    limits := ⟨4096, 2, .strict⟩
    readBufferSize := 512
    burstHub := true
    valid := by decide }

/-- A decision for a job whose deadline has passed. -/
def expire : List LinkAction := [.runner .poll, .runner (.begin (2 ^ 64))]

theorem isSome_shareStart :
    (shareBuild.initial.run plainSetup (startIn ⟨0⟩ :: expire)).isSome := by
  decide +kernel

def shareStart : LinkState :=
  (shareBuild.initial.run plainSetup (startIn ⟨0⟩ :: expire)).get
    isSome_shareStart

def shareActions : List LinkAction :=
  [startIn ⟨0⟩, startIn ⟨1⟩, startIn ⟨1⟩] ++ expire ++ [startIn ⟨2⟩] ++
    expire ++ expire

theorem isSome_shareRun : (shareStart.run plainSetup shareActions).isSome := by
  decide +kernel

theorem run_bounds_wait_share :
    (shareStart.decisions plainSetup shareActions).countP
        (· ∈ weightedIds shareStart.queues.configs) ≤
      othersShare shareStart.queues.configs ⟨0⟩ :=
  run_bounds_wait plainSetup shareStart _ shareActions ⟨0⟩
    (Option.some_get isSome_shareRun).symm (by decide +kernel)
    (by decide +kernel) (by decide +kernel)

example : shareStart.decisions plainSetup shareActions = [⟨1⟩, ⟨2⟩, ⟨1⟩] := by
  decide +kernel

end Bound

/-! ## Every weighted queue has its share -/

section Shares

variable {setup : LinkSetup} {state next : LinkState} {action : LinkAction}

/--
Whenever the runner decides, no strict queue is ready and every weighted queue
holds an entry; priorities stay.
-/
def KeepsRound (state : LinkState) (action : LinkAction) : Prop :=
  action.keepsPriorities ∧
    (action.polls → state.queues.readyRank = none ∧ state.queues.AllWait)

instance decidableKeepsRound (state : LinkState) (action : LinkAction) :
    Decidable (KeepsRound state action) :=
  inferInstanceAs (Decidable (_ ∧ (_ → _ ∧ _)))

/-- The decisions so far were the first turns of the round. -/
def Rounds (configs : List QueueConfig) (start seen : List QueueId)
    (state : LinkState) : Prop :=
  state.queues.configs = configs ∧
    QueueSet.upcoming configs state.standing = start.rotate seen.length ∧
    (seen.length ≤ start.length → seen = start.take seen.length)

/-- Where no weighted queue exists, nothing is to come. -/
theorem upcoming_of_pop_none (hwait : state.queues.AllWait)
    {cursor : QueueCursor}
    (hpop : state.queues.popScheduled state.cursor = (none, cursor))
    (standing : QueueCursor) :
    QueueSet.upcoming state.queues.configs standing = [] := by
  have hturns : turns (sharesOf state.queues.configs) = [] := by
    refine List.eq_nil_iff_forall_not_mem.mpr ?_
    intro queue hqueue
    obtain ⟨item, hitem, hcopy⟩ := List.mem_flatMap.mp hqueue
    obtain ⟨hne, rfl⟩ := List.mem_replicate.mp hcopy
    obtain ⟨config, hconfig, rfl⟩ := List.mem_map.mp hitem
    obtain ⟨index, hindex⟩ := List.mem_iff_getElem?.mp hconfig
    have hweight := QueueSet.weightAt_isSome_of_config hindex
      (Nat.pos_of_ne_zero hne)
    obtain ⟨found, hfound⟩ := QueueSet.popAt_of_allWait hwait hweight
    unfold QueueSet.popScheduled at hpop
    split at hpop
    · simp at hpop
    · rw [QueueSet.popWeighted_none hpop hweight] at hfound
      contradiction
  rw [QueueSet.upcoming, hturns, List.rotate_nil]

theorem rounds_step {configs : List QueueConfig} {start seen : List QueueId}
    (h : state.step setup action = some next)
    (hallowed : state.KeepsRound action)
    (hrounds : Rounds configs start seen state) :
    Rounds configs start (seen ++ state.decision action) next := by
  obtain ⟨rfl, hupcoming, hseen⟩ := hrounds
  have hconfigs := configs_step h (LinkAction.ne_of_keepsPriorities hallowed.1)
  refine ⟨hconfigs, ?_⟩
  cases decided_step h with
  | elsewhere hnone hcursor =>
      rw [hnone, List.append_nil, standing_of_cursor hconfigs hcursor]
      exact ⟨hupcoming, hseen⟩
  | nothing hphase hpoll hpop =>
      subst hpoll
      have hnone : state.decision (.runner .poll) = [] := by
        simp [decision, hphase, hpop]
      have hempty := upcoming_of_pop_none (hallowed.2 rfl).2 hpop
      rw [hempty] at hupcoming
      rw [hnone, List.append_nil, hempty]
      exact ⟨hupcoming, hseen⟩
  | strict hphase hpoll popped rank index hone hchoice =>
      subst hpoll
      have hready := hchoice.ready
      rw [(hallowed.2 rfl).1] at hready
      contradiction
  | weighted hphase hpoll popped hone hstrict hchoice =>
      subst hpoll
      obtain ⟨index, hpop⟩ := hchoice.exists_popAt
      obtain ⟨hhead, hnext⟩ := QueueSet.upcoming_weightedChoice
        (hallowed.2 rfl).2 (standing_lt_of_popAt hpop) hchoice
      change (QueueSet.upcoming _ state.standing).head? = _ at hhead
      change _ = (QueueSet.upcoming _ state.standing).rotate 1 at hnext
      rw [hupcoming] at hhead hnext
      rw [hone, standing_of_weightedChoice hconfigs hchoice, hnext,
        List.rotate_rotate, List.length_append, List.length_singleton]
      refine ⟨rfl, ?_⟩
      intro hlength
      rw [List.head?_rotate hlength] at hhead
      rw [List.take_add_one, hhead, ← hseen (Nat.le_of_succ_le hlength)]
      rfl

/--
While all weighted queues wait and no strict one is ready, with unchanged
priorities, every queue is taken exactly as often as its weight says in as many
decisions as the weights add up to; from any state and any cursor.
-/
theorem run_shares (setup : LinkSetup) (state final : LinkState)
    (actions : List LinkAction) (config : QueueConfig)
    (hrun : state.run setup actions = some final)
    (hkeeps : Along (step setup) KeepsRound state actions)
    (hround : (state.decisions setup actions).length =
      (weightsOf state.queues.configs).sum)
    (hconfig : config ∈ state.queues.configs) :
    (state.decisions setup actions).count config.id = config.share := by
  have hlength : (turns (sharesOf state.queues.configs)).length =
      (weightsOf state.queues.configs).sum := by
    rw [length_turns, weightsOf_eq]
  have hstart : Rounds state.queues.configs
      (QueueSet.upcoming state.queues.configs state.standing) [] state :=
    ⟨rfl, by simp, by simp⟩
  have hfinal := runSteps_observe_along rounds_step hrun hkeeps hstart
  rw [List.nil_append] at hfinal
  change Rounds _ _ (state.decisions setup actions) _ at hfinal
  have hsame : (QueueSet.upcoming state.queues.configs
      state.standing).length = (state.decisions setup actions).length := by
    rw [QueueSet.upcoming, List.length_rotate, hlength, hround]
  have hdecisions := hfinal.2.2 hsame.ge
  rw [← hsame, List.take_length] at hdecisions
  rw [hdecisions, QueueSet.upcoming, (List.rotate_perm _ _).count_eq]
  have hnodup : ((sharesOf state.queues.configs).map Prod.fst).Nodup := by
    rw [sharesOf, List.map_map]
    exact state.queues.nodup_configs
  exact count_turns hnodup (List.mem_map.mpr ⟨config, hconfig, rfl⟩)

def roundActions : List LinkAction :=
  List.replicate 3 (startIn ⟨0⟩) ++ List.replicate 6 (startIn ⟨1⟩) ++
    expire ++ expire ++ expire ++ expire

theorem isSome_roundRun :
    (shareStart.run plainSetup roundActions).isSome := by
  decide +kernel

theorem run_shares_round :
    (shareStart.decisions plainSetup roundActions).count ⟨1⟩ = 3 :=
  run_shares plainSetup shareStart _ roundActions
    ⟨⟨1⟩, 8, .weighted ⟨3, by decide⟩⟩
    (Option.some_get isSome_roundRun).symm (by decide +kernel)
    (by decide +kernel) (by decide +kernel)

end Shares

end LinkState

end HartLink.Service
