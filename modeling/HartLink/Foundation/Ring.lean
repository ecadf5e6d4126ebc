import Mathlib.Algebra.Ring.Nat
import Mathlib.Order.Lattice

/-!
# Positions on a ring

`ahead size start index` is the number of steps from `start` forward to `index`,
at least one and at most `size`.  A search over the steps finds what lies
nearest ahead.
-/

namespace HartLink.Foundation

def ahead (size start index : Nat) : Nat :=
  if start < index then index - start else index + size - start

section Ahead

variable {size start index : Nat}

theorem ahead_pos (hstart : start < size) (index : Nat) :
    0 < ahead size start index := by
  unfold ahead
  split_ifs <;> omega

theorem ahead_le (hstart : start < size) (hindex : index < size) :
    ahead size start index ≤ size := by
  unfold ahead
  split_ifs <;> omega

/-- The steps of the search reach every position but its start. -/
theorem ahead_le_pred_iff (hindex : index < size) :
    ahead size start index ≤ size - 1 ↔ index ≠ start := by
  unfold ahead
  split_ifs <;> omega

theorem ahead_self (size start : Nat) : ahead size start start = size := by
  simp [ahead]

theorem ahead_inj (hstart : start < size) {other : Nat}
    (hindex : index < size) (hother : other < size)
    (h : ahead size start index = ahead size start other) : index = other := by
  unfold ahead at h
  split_ifs at h <;> omega

theorem add_ahead_mod (hstart : start < size) (hindex : index < size) :
    (start + ahead size start index) % size = index := by
  unfold ahead
  split_ifs with hlt
  · rw [Nat.add_sub_cancel' hlt.le, Nat.mod_eq_of_lt hindex]
  · rw [Nat.add_sub_cancel' (by omega), Nat.add_mod_right,
      Nat.mod_eq_of_lt hindex]

theorem ahead_add_mod (hstart : start < size) {steps : Nat}
    (hsteps : 0 < steps) (hle : steps ≤ size) :
    ahead size start ((start + steps) % size) = steps := by
  by_cases hwrap : start + steps < size
  · rw [Nat.mod_eq_of_lt hwrap]
    unfold ahead
    split_ifs <;> omega
  · rw [Nat.mod_eq_sub_mod (by omega), Nat.mod_eq_of_lt (by omega)]
    unfold ahead
    split_ifs <;> omega

/-- Going from either of two positions, the other two come in the same turn. -/
theorem ahead_lt_ahead_iff {first second third : Nat} (hfirst : first < size)
    (hsecond : second < size) (hthird : third < size)
    (hne : second ≠ third) (hne' : first ≠ third) :
    ahead size third second < ahead size third first ↔
      ahead size second first < ahead size second third := by
  unfold ahead
  split_ifs <;> omega

/-- What is met on the way to a position comes before it from there as well. -/
theorem ahead_lt_of_between {found first second : Nat} (hstart : start < size)
    (hfound : found < size) (hfirst : first < size) (hsecond : second < size)
    (hle : ahead size start found ≤ ahead size start first)
    (hne : found ≠ first)
    (hlt : ahead size start first < ahead size start second) :
    found ≠ second ∧ ahead size found first < ahead size found second := by
  unfold ahead at *
  split_ifs at * <;> omega

end Ahead

/-! ## Searching forward -/

section Search

variable {β : Type*} {size start count : Nat} {f : Nat → Option β}

theorem findSome?_range_eq_some_iff {result : β} :
    (List.range count).findSome? f = some result ↔
      ∃ step < count, f step = some result ∧ ∀ earlier < step,
        f earlier = none := by
  induction count with
  | zero => simp
  | succ count ih =>
      rw [List.range_succ, List.findSome?_append]
      cases hfound : (List.range count).findSome? f with
      | some found =>
          rw [hfound] at ih
          simp only [Option.some_or, ih]
          constructor
          · rintro ⟨step, hstep, hresult, hearlier⟩
            exact ⟨step, by omega, hresult, hearlier⟩
          · rintro ⟨step, hstep, hresult, hearlier⟩
            refine ⟨step, ?_, hresult, hearlier⟩
            by_contra hlast
            have hnone : (List.range count).findSome? f = none := by
              refine List.findSome?_eq_none_iff.mpr ?_
              intro earlier hmem
              exact hearlier earlier (by
                have := List.mem_range.mp hmem
                omega)
            rw [hfound] at hnone
            contradiction
      | none =>
          rw [Option.none_or]
          have hnone := List.findSome?_eq_none_iff.mp hfound
          constructor
          · intro hlast
            refine ⟨count, Nat.lt_succ_self _, by simpa using hlast, ?_⟩
            intro earlier hearlier
            exact hnone earlier (List.mem_range.mpr hearlier)
          · rintro ⟨step, hstep, hresult, -⟩
            have hlast : step = count := by
              by_contra hne
              rw [hnone step (List.mem_range.mpr (by omega))] at hresult
              contradiction
            subst hlast
            simpa using hresult

theorem findSome?_ahead_eq_some_iff (hstart : start < size)
    (hcount : count ≤ size) {result : β} :
    (List.range count).findSome?
        (fun offset => f ((start + (offset + 1)) % size)) = some result ↔
      ∃ index < size, ahead size start index ≤ count ∧
        f index = some result ∧ ∀ other < size,
          ahead size start other < ahead size start index →
            f other = none := by
  rw [findSome?_range_eq_some_iff]
  constructor
  · rintro ⟨step, hstep, hresult, hearlier⟩
    have hahead := ahead_add_mod hstart (Nat.succ_pos step)
      (Nat.succ_le_of_lt (lt_of_lt_of_le hstep hcount))
    refine ⟨_, Nat.mod_lt _ (by omega), ?_, hresult, ?_⟩
    · rw [hahead]
      omega
    · intro other hother hlt
      rw [hahead] at hlt
      have hpos := ahead_pos hstart other
      have hbefore := hearlier (ahead size start other - 1) (by omega)
      rw [Nat.sub_add_cancel hpos, add_ahead_mod hstart hother] at hbefore
      exact hbefore
  · rintro ⟨index, hindex, hle, hresult, hearlier⟩
    have hpos := ahead_pos hstart index
    refine ⟨ahead size start index - 1, by omega, ?_, ?_⟩
    · rw [Nat.sub_add_cancel hpos, add_ahead_mod hstart hindex]
      exact hresult
    · intro earlier hlt
      refine hearlier _ (Nat.mod_lt _ (by omega)) ?_
      rw [ahead_add_mod hstart (Nat.succ_pos earlier) (by omega)]
      omega

theorem findSome?_ahead_eq_none_iff (hstart : start < size)
    (hcount : count ≤ size) :
    (List.range count).findSome?
        (fun offset => f ((start + (offset + 1)) % size)) = none ↔
      ∀ index < size, ahead size start index ≤ count → f index = none := by
  rw [List.findSome?_eq_none_iff]
  constructor
  · intro hnone index hindex hle
    have hpos := ahead_pos hstart index
    have hstep := hnone (ahead size start index - 1)
      (List.mem_range.mpr (by omega))
    rw [Nat.sub_add_cancel hpos, add_ahead_mod hstart hindex] at hstep
    exact hstep
  · intro hnone step hstep
    have hlt := List.mem_range.mp hstep
    refine hnone _ (Nat.mod_lt _ (by omega)) ?_
    rw [ahead_add_mod hstart (Nat.succ_pos step) (by omega)]
    omega

end Search

/-! ## Turns of a weighted rotation -/

section Turns

variable {β : Type*}

/-- Every item in order, as often as its weight says. -/
def turns (items : List (β × Nat)) : List β :=
  items.flatMap fun item => List.replicate item.2 item.1

theorem length_turns (items : List (β × Nat)) :
    (turns items).length = (items.map Prod.snd).sum := by
  simp [turns]

theorem count_turns [DecidableEq β] {items : List (β × Nat)}
    (hitems : (items.map Prod.fst).Nodup) {item : β × Nat}
    (h : item ∈ items) : (turns items).count item.1 = item.2 := by
  induction items with
  | nil => contradiction
  | cons first items ih =>
      rw [List.map_cons, List.nodup_cons] at hitems
      rw [turns, List.flatMap_cons, List.count_append, List.count_replicate]
      rcases List.mem_cons.mp h with rfl | hrest
      · have hnone : (turns items).count item.1 = 0 := by
          refine List.count_eq_zero.mpr ?_
          intro hmem
          obtain ⟨other, hother, hcopy⟩ := List.mem_flatMap.mp hmem
          rw [List.eq_of_mem_replicate hcopy] at hitems
          exact hitems.1 (List.mem_map.mpr ⟨other, hother, rfl⟩)
        rw [if_pos (by simp)]
        exact (congrArg (item.2 + ·) hnone).trans (Nat.add_zero _)
      · have hne : first.1 ≠ item.1 := by
          intro heq
          exact hitems.1 (heq ▸ List.mem_map.mpr ⟨item, hrest, rfl⟩)
        rw [if_neg (by simpa using hne), Nat.zero_add]
        exact ih hitems.2 hrest

theorem getElem?_turns {items : List (β × Nat)} {index used : Nat}
    {item : β × Nat} (h : items[index]? = some item)
    (hused : used < item.2) :
    (turns items)[((items.map Prod.snd).take index).sum + used]? =
      some item.1 := by
  induction items generalizing index with
  | nil => contradiction
  | cons first items ih =>
      rw [turns, List.flatMap_cons]
      cases index with
      | zero =>
          injection h with h
          subst h
          rw [List.take_zero, List.sum_nil, Nat.zero_add,
            List.getElem?_append_left (by simpa using hused)]
          simp [hused]
      | succ index =>
          rw [List.map_cons, List.take_succ_cons, List.sum_cons,
            Nat.add_assoc, List.getElem?_append_right (by simp),
            List.length_replicate, Nat.add_sub_cancel_left]
          exact ih h

end Turns

/-! ## How far a weighted rotation is from a position -/

section Lead

variable {weights : List Nat} {target current used index : Nat}

theorem sum_take_add_le_take {first second : Nat} (h : first < second) :
    (weights.take first).sum + weights.getD first 0 ≤
      (weights.take second).sum := by
  induction weights generalizing first second with
  | nil => simp
  | cons weight weights ih =>
      cases second with
      | zero => omega
      | succ second =>
          cases first with
          | zero => simp
          | succ first =>
              have hrest := ih (Nat.lt_of_succ_lt_succ h)
              simp only [List.take_succ_cons, List.sum_cons,
                List.getD_cons_succ]
              omega

theorem sum_take_add_le (weights : List Nat) (index : Nat) :
    (weights.take index).sum + weights.getD index 0 ≤ weights.sum := by
  induction weights generalizing index with
  | nil => simp
  | cons weight weights ih =>
      cases index with
      | zero => simp
      | succ index =>
          have hrest := ih index
          simp only [List.take_succ_cons, List.sum_cons, List.getD_cons_succ]
          omega

/--
The turns that a rotation may still give to others before it reaches the target:
it stands on a position that has used some of its turns.
-/
def lead (weights : List Nat) (target current used : Nat) : Nat :=
  (if current < target then (weights.take target).sum
    else weights.sum + (weights.take target).sum) -
    ((weights.take current).sum + min used (weights.getD current 0))

theorem lead_le (h : current = target → weights.getD target 0 ≤ used) :
    lead weights target current used ≤
      weights.sum - weights.getD target 0 := by
  have htotal := sum_take_add_le weights target
  unfold lead
  split_ifs with hlt
  · omega
  · rcases Nat.eq_or_lt_of_le (Nat.le_of_not_lt hlt) with heq | hgt
    · have hused := h heq.symm
      subst heq
      omega
    · have hbefore := @sum_take_add_le_take weights _ _ hgt
      omega

/-- A turn of the position itself. -/
theorem lead_current (hused : used < weights.getD current 0) :
    lead weights target current (used + 1) + 1 ≤
      lead weights target current used := by
  have htotal := sum_take_add_le weights current
  unfold lead
  split_ifs with hlt
  · have hbefore := @sum_take_add_le_take weights _ _ hlt
    omega
  · omega

/-- The first turn of a position on the way to the target. -/
theorem lead_other {size : Nat} (hcurrent : current < size)
    (htarget : target < size)
    (hbetween : ahead size current index < ahead size current target)
    (hweight : 0 < weights.getD index 0) :
    lead weights target index 1 + 1 ≤ lead weights target current used := by
  have htotal := sum_take_add_le weights current
  have htotal' := sum_take_add_le weights index
  have hbefore : ∀ {first second}, first < second →
      (weights.take first).sum + weights.getD first 0 ≤
        (weights.take second).sum := fun h => sum_take_add_le_take h
  have hcases : (current < index ∧ index < target) ∨
      (index < target ∧ target ≤ current) ∨
      (target ≤ current ∧ current < index) := by
    unfold ahead at hbetween
    split_ifs at hbetween <;> omega
  unfold lead
  rcases hcases with ⟨hfirst, hsecond⟩ | ⟨hfirst, hsecond⟩ |
      ⟨hfirst, hsecond⟩
  · rw [if_pos hsecond, if_pos (hfirst.trans hsecond)]
    have := hbefore hfirst
    have := hbefore hsecond
    omega
  · rw [if_pos hfirst, if_neg (Nat.not_lt.mpr hsecond)]
    have := hbefore hfirst
    omega
  · rw [if_neg (by omega), if_neg (Nat.not_lt.mpr hfirst)]
    have := hbefore hsecond
    omega

end Lead

/-! ## From one position to the next one with turns -/

section Next

variable {weights : List Nat}

theorem sum_take_eq_of_zeros {first second : Nat} (h : first ≤ second)
    (hzero : ∀ index, first ≤ index → index < second →
      weights.getD index 0 = 0) :
    (weights.take second).sum = (weights.take first).sum := by
  induction second, h using Nat.le_induction with
  | base => rfl
  | succ second hle ih =>
      have hlast := hzero second hle (Nat.lt_succ_self _)
      rw [List.take_add_one, List.sum_append, ih (by
        intro index hfirst hsecond
        exact hzero index hfirst (Nat.lt_succ_of_lt hsecond))]
      cases hget : weights[second]? with
      | none => simp
      | some weight =>
          rw [List.getD, hget] at hlast
          simpa using hlast

theorem sum_take_succ (weights : List Nat) (index : Nat) :
    (weights.take (index + 1)).sum =
      (weights.take index).sum + weights.getD index 0 := by
  rw [List.take_add_one, List.sum_append, List.getD]
  cases weights[index]? <;> simp

/--
Behind the turns of a position come those of the nearest position ahead that has
any, after the last position from the first one on.
-/
theorem next_turn {current index : Nat} (hcurrent : current < weights.length)
    (hindex : index < weights.length)
    (hzero : ∀ other < weights.length,
      ahead weights.length current other < ahead weights.length current index →
        weights.getD other 0 = 0) :
    ((weights.take current).sum + weights.getD current 0) % weights.sum =
      (weights.take index).sum % weights.sum := by
  rw [← sum_take_succ]
  by_cases hlt : current < index
  · refine congrArg (· % weights.sum) (sum_take_eq_of_zeros hlt ?_).symm
    intro other hfirst hsecond
    refine hzero other (hsecond.trans hindex) ?_
    unfold ahead
    split_ifs <;> omega
  · have hlast : (weights.take (current + 1)).sum = weights.sum := by
      conv_rhs => rw [← List.take_length (l := weights)]
      refine (sum_take_eq_of_zeros hcurrent ?_).symm
      intro other hfirst hsecond
      refine hzero other hsecond ?_
      unfold ahead
      split_ifs <;> omega
    have hfirst : (weights.take index).sum = (weights.take 0).sum := by
      refine sum_take_eq_of_zeros (Nat.zero_le _) ?_
      intro other _ hother
      refine hzero other (hother.trans hindex) ?_
      unfold ahead
      split_ifs <;> omega
    rw [hlast, hfirst, List.take_zero, List.sum_nil, Nat.mod_self,
      Nat.zero_mod]

end Next

/-! ## Taking turns -/

section Alternation

variable {β : Type*} {first second last : β} {seen : List β}

/-- Between any two occurrences of the first the second occurs. -/
def Alternates (first second : β) (seen : List β) : Prop :=
  ∀ before between after,
    seen = before ++ first :: (between ++ first :: after) → second ∈ between

/-- The first has occurred, and the second not since. -/
def Outstanding (first second : β) (seen : List β) : Prop :=
  ∃ before since, seen = before ++ first :: since ∧ second ∉ since

theorem alternates_nil : Alternates first second [] := by
  intro before between after h
  simp at h

theorem not_outstanding_nil : ¬ Outstanding first second [] := by
  rintro ⟨before, since, h, -⟩
  simp at h

theorem alternates_concat (h : Alternates first second seen)
    (hlast : last = first → ¬ Outstanding first second seen) :
    Alternates first second (seen ++ [last]) := by
  intro before between after heq
  rcases List.eq_nil_or_concat after with rfl | ⟨rest, final, rfl⟩
  · rw [← List.cons_append, ← List.append_assoc] at heq
    obtain ⟨rfl, hsame⟩ := List.append_inj' heq rfl
    injection hsame with hsame
    by_contra hout
    exact hlast hsame ⟨before, between, rfl, hout⟩
  · rw [List.concat_eq_append, ← List.cons_append, ← List.append_assoc,
      ← List.cons_append, ← List.append_assoc] at heq
    obtain ⟨rfl, -⟩ := List.append_inj' heq rfl
    exact h before between rest (by simp)

theorem Outstanding.of_concat
    (h : Outstanding first second (seen ++ [last])) :
    last = first ∨ Outstanding first second seen ∧ last ≠ second := by
  obtain ⟨before, since, heq, hout⟩ := h
  rcases List.eq_nil_or_concat since with rfl | ⟨rest, final, rfl⟩
  · obtain ⟨-, hsame⟩ := List.append_inj' heq rfl
    injection hsame with hsame
    exact .inl hsame
  · rw [List.concat_eq_append, ← List.cons_append, ← List.append_assoc] at heq
    obtain ⟨rfl, hsame⟩ := List.append_inj' heq rfl
    injection hsame with hsame
    simp only [List.concat_eq_append, List.mem_append, List.mem_singleton,
      not_or] at hout
    refine .inr ⟨⟨before, rest, rfl, hout.1⟩, ?_⟩
    rw [hsame]
    exact Ne.symm hout.2

end Alternation

end HartLink.Foundation
