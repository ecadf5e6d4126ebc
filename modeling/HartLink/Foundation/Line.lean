import Mathlib.Data.List.Basic

/-!
# A line of accepted items

Items join a line at its end in the order in which they are accepted.  They leave
it at its front, and some of these are served; anywhere in the line an item may
be struck.  So the line is what was accepted behind some point, less the items
struck there.
-/

namespace HartLink.Foundation

variable {Item : Type*} [DecidableEq Item]

/-- The line after everything that was served, without the struck items. -/
def Lined (accepted served line struck : List Item) : Prop :=
  ∃ gone tail, accepted = gone ++ tail ∧ served.Sublist gone ∧
    line = tail.filter (· ∉ struck)

section Lined

variable {accepted served line struck : List Item} {item other : Item}
  {rest : List Item}

theorem lined_nil : Lined ([] : List Item) [] [] [] :=
  ⟨[], [], rfl, .refl _, rfl⟩

theorem Lined.sublist (h : Lined accepted served line struck) :
    (served ++ line).Sublist accepted := by
  obtain ⟨gone, tail, rfl, hserved, rfl⟩ := h
  exact hserved.append List.filter_sublist

theorem Lined.join (h : Lined accepted served line struck)
    (hstruck : item ∉ struck) :
    Lined (accepted ++ [item]) served (line ++ [item]) struck := by
  obtain ⟨gone, tail, rfl, hserved, rfl⟩ := h
  refine ⟨gone, tail ++ [item], List.append_assoc _ _ _, hserved, ?_⟩
  rw [List.filter_append]
  simp [hstruck]

/-- What was accepted up to the front of the line is gone with it. -/
theorem exists_of_filter_eq_cons {tail : List Item}
    (h : item :: rest = tail.filter (· ∉ struck)) :
    ∃ before after, tail = before ++ item :: after ∧
      (∀ other ∈ before, other ∈ struck) ∧
      rest = after.filter (· ∉ struck) := by
  obtain ⟨before, after, rfl, hbefore, hitem, hafter⟩ :=
    List.filter_eq_cons_iff.mp h.symm
  refine ⟨before, after, rfl, ?_, hafter.symm⟩
  intro other hother
  simpa using hbefore other hother

theorem Lined.serve (h : Lined accepted served (item :: rest) struck) :
    Lined accepted (served ++ [item]) rest struck := by
  obtain ⟨gone, tail, rfl, hserved, hline⟩ := h
  obtain ⟨before, after, rfl, -, hrest⟩ := exists_of_filter_eq_cons hline
  refine ⟨gone ++ (before ++ [item]), after, by simp, ?_, hrest⟩
  exact hserved.append (List.sublist_append_right before [item])

theorem Lined.leave (h : Lined accepted served (item :: rest) struck) :
    Lined accepted served rest struck := by
  obtain ⟨gone, tail, heq, hserved, hline⟩ := h.serve
  exact ⟨gone, tail, heq, (List.sublist_append_left _ _).trans hserved, hline⟩

theorem Lined.strike (h : Lined accepted served line struck) (item : Item) :
    Lined accepted served (line.filter (· ≠ item)) (struck ++ [item]) := by
  obtain ⟨gone, tail, rfl, hserved, rfl⟩ := h
  refine ⟨gone, tail, rfl, hserved, ?_⟩
  rw [List.filter_filter]
  refine List.filter_congr ?_
  intro other _
  simp only [List.mem_append, List.mem_singleton, not_or, Bool.decide_and]
  exact Bool.and_comm _ _

theorem Lined.nodup (h : Lined accepted served line struck)
    (haccepted : accepted.Nodup) : line.Nodup :=
  ((List.sublist_append_right served line).trans h.sublist).nodup haccepted

theorem Lined.not_mem_of_served (h : Lined accepted served line struck)
    (haccepted : accepted.Nodup) (hitem : item ∈ served) : item ∉ line := by
  intro hline
  exact (List.nodup_append.mp (h.sublist.nodup haccepted)).2.2 item hitem item
    hline rfl

theorem Lined.strike_of_not_mem (h : Lined accepted served line struck)
    (hitem : item ∉ line) :
    Lined accepted served line (struck ++ [item]) := by
  have hfilter : line.filter (· ≠ item) = line := by
    refine List.filter_eq_self.mpr ?_
    intro other hother
    rw [decide_eq_true_iff]
    rintro rfl
    exact hitem hother
  have hstruck := h.strike item
  rwa [hfilter] at hstruck

theorem Lined.strike_of_mem {before : List Item}
    (h : Lined accepted served (before ++ item :: rest) struck)
    (haccepted : accepted.Nodup) :
    Lined accepted served (before ++ rest) (struck ++ [item]) := by
  have hnodup := h.nodup haccepted
  have hfilter : (before ++ item :: rest).filter (· ≠ item) =
      before ++ rest := by
    have hout := List.perm_middle.nodup_iff.mp hnodup
    rw [List.nodup_cons, List.mem_append, not_or] at hout
    rw [List.filter_append, List.filter_cons_of_neg (by simp)]
    congr 1
    · refine List.filter_eq_self.mpr ?_
      intro other hother
      rw [decide_eq_true_iff]
      rintro rfl
      exact hout.1.1 hother
    · refine List.filter_eq_self.mpr ?_
      intro other hother
      rw [decide_eq_true_iff]
      rintro rfl
      exact hout.1.2 hother
  have hstruck := h.strike item
  rwa [hfilter] at hstruck

theorem Lined.between {middle : List Item}
    (h : Lined accepted served (item :: (middle ++ other :: rest)) struck) :
    ∃ before gap after, accepted = before ++ item :: (gap ++ other :: after) ∧
      ∀ found ∈ gap, found ∈ middle ∨ found ∈ struck := by
  obtain ⟨gone, tail, rfl, -, hline⟩ := h
  obtain ⟨before, after, rfl, -, hrest⟩ := exists_of_filter_eq_cons hline
  obtain ⟨first, second, rfl, hfirst, hsecond⟩ :=
    List.filter_eq_append_iff.mp hrest.symm
  obtain ⟨skipped, final, rfl, hskipped, -⟩ :=
    exists_of_filter_eq_cons hsecond.symm
  refine ⟨gone ++ before, first ++ skipped, final, by simp, ?_⟩
  intro found hfound
  rcases List.mem_append.mp hfound with hin | hin
  · by_cases hstruck : found ∈ struck
    · exact .inr hstruck
    · refine .inl ?_
      rw [← hfirst]
      exact List.mem_filter.mpr ⟨hin, by simpa using hstruck⟩
  · exact .inr (hskipped found hin)

end Lined

end HartLink.Foundation
