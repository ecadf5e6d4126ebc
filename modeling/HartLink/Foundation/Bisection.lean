import Mathlib.Data.List.Basic
import Mathlib.Tactic

/-!
# Binary search in a sorted list

`binarySearchBy` looks for an element that compares as equal.  The comparison
tells for every element on which side of the searched place it stands.  In a
sorted list without an equal element the search returns the place between the
two sides.
-/

namespace HartLink.Foundation

variable {α : Type*}

/--
The part of `size` elements from `base` on is halved until one is left.  The
place is never before `base`, unless it is the start of the list.
-/
def bisect (order : Nat → Ordering) (base size : Nat) : Nat :=
  if size ≤ 1 then base
  else
    let half := size / 2
    let mid := base + half
    bisect order (if order mid = .gt then base else mid) (size - half)
termination_by size

/-- The index of an equal element, or the index to insert one at as an error. -/
def binarySearchBy (order : α → Ordering) (list : List α) : Except Nat Nat :=
  let orderAt (index : Nat) : Ordering := (list[index]?.map order).getD .gt
  if list = [] then .error 0
  else
    let base := bisect orderAt 0 list.length
    match orderAt base with
    | .eq => .ok base
    | .lt => .error (base + 1)
    | .gt => .error base

/-- All indices below a place compare as less, all others as greater. -/
def Separates (order : Nat → Ordering) (place : Nat) : Prop :=
  ∀ index, order index = if index < place then .lt else .gt

theorem bisect_separates {order : Nat → Ordering} {place : Nat}
    (h : Separates order place) {base size : Nat} (hsize : 1 ≤ size)
    (hbase : base = 0 ∨ base < place) (hplace : place ≤ base + size) :
    bisect order base size = place - 1 := by
  induction size using Nat.strong_induction_on generalizing base with
  | h size ih =>
      rw [bisect]
      split_ifs with hone
      · omega
      · have hmid := h (base + size / 2)
        apply ih
        · omega
        · omega
        · split_ifs with hgreater
          · exact hbase
          · right
            by_contra hbeyond
            rw [hmid, if_neg hbeyond] at hgreater
            exact hgreater rfl
        · split_ifs with hgreater
          · rw [hmid] at hgreater
            split_ifs at hgreater with hbelow
            omega
          · omega

/-- Where no element is equal, the search finds the place between both sides. -/
theorem binarySearchBy_absent {order : α → Ordering} {before after : List α}
    (hbefore : ∀ element ∈ before, order element = .lt)
    (hafter : ∀ element ∈ after, order element = .gt) :
    binarySearchBy order (before ++ after) = .error before.length := by
  unfold binarySearchBy
  dsimp only
  split_ifs with hempty
  · simp [List.append_eq_nil_iff.mp hempty]
  have hseparates : Separates (fun index =>
      (((before ++ after)[index]?).map order).getD .gt) before.length := by
    intro index
    dsimp only
    split_ifs with hindex
    · rw [List.getElem?_append_left hindex, List.getElem?_eq_getElem hindex]
      exact hbefore _ (List.getElem_mem hindex)
    · rw [List.getElem?_append_right (Nat.not_lt.mp hindex)]
      cases helement : after[index - before.length]? with
      | none => rfl
      | some element => exact hafter element (List.mem_of_getElem? helement)
  have hlength : 1 ≤ (before ++ after).length :=
    List.length_pos_iff.mpr hempty
  have hfits : before.length ≤ 0 + (before ++ after).length := by
    simp
  have hbase := bisect_separates hseparates hlength (.inl rfl) hfits
  have hat := hseparates (before.length - 1)
  dsimp only at hat
  rw [hbase, hat]
  by_cases hzero : before.length = 0
  · simp [hzero]
  · rw [if_pos (by omega)]
    exact congrArg Except.error (by omega)

theorem exists_sides {R : α → α → Prop} {left : α → Prop} {list : List α}
    (hsorted : list.Pairwise R)
    (hleft : ∀ first second, R first second → left second → left first) :
    ∃ before after, list = before ++ after ∧
      (∀ element ∈ before, left element) ∧
      ∀ element ∈ after, ¬ left element := by
  induction list with
  | nil => exact ⟨[], [], rfl, by simp, by simp⟩
  | cons first rest ih =>
      obtain ⟨hfirst, hrest⟩ := List.pairwise_cons.mp hsorted
      by_cases h : left first
      · obtain ⟨before, after, rfl, hbefore, hafter⟩ := ih hrest
        refine ⟨first :: before, after, rfl, ?_, hafter⟩
        exact List.forall_mem_cons.mpr ⟨h, hbefore⟩
      · refine ⟨[], first :: rest, rfl, by simp, ?_⟩
        refine List.forall_mem_cons.mpr ⟨h, fun element helement hother => ?_⟩
        exact h (hleft first element (hfirst element helement) hother)

theorem insertIdx_length_append (before after : List α) (element : α) :
    (before ++ after).insertIdx before.length element =
      before ++ element :: after := by
  induction before with
  | nil => simp
  | cons first before ih => simp [ih]

end HartLink.Foundation
