import Mathlib.Data.List.Perm.Basic
import Mathlib.Data.List.Nodup

/-!
# A ledger of accepted items

Items are accepted once, are live until they end, and end with an outcome.  The
order of the live items says nothing: a move may rearrange them.
-/

namespace HartLink.Foundation

variable {Item Outcome : Type*}

structure Ledger (Item Outcome : Type*) where
  accepted : List Item
  live : List Item
  ended : List (Item × Outcome)

namespace Ledger

inductive Move (ledger next : Ledger Item Outcome) : Prop
  | keep (accepted : next.accepted = ledger.accepted)
      (live : ledger.live.Perm next.live) (ended : next.ended = ledger.ended)
  | accept (item : Item) (fresh : item ∉ ledger.accepted)
      (accepted : next.accepted = ledger.accepted ++ [item])
      (live : next.live.Perm (item :: ledger.live))
      (ended : next.ended = ledger.ended)
  | conclude (item : Item) (outcome : Outcome)
      (accepted : next.accepted = ledger.accepted)
      (live : ledger.live.Perm (item :: next.live))
      (ended : next.ended = ledger.ended ++ [(item, outcome)])

/-- Every accepted item is live or ended, and only once. -/
structure Balanced (ledger : Ledger Item Outcome) : Prop where
  nodup : ledger.accepted.Nodup
  perm : ledger.accepted.Perm (ledger.live ++ ledger.ended.map Prod.fst)

theorem balanced_move {ledger next : Ledger Item Outcome}
    (h : ledger.Move next) (hbalanced : ledger.Balanced) : next.Balanced := by
  obtain ⟨hnodup, hperm⟩ := hbalanced
  cases h with
  | keep accepted live ended =>
      constructor
      · rw [accepted]
        exact hnodup
      · rw [accepted, ended]
        exact hperm.trans (live.append_right _)
  | accept item fresh accepted live ended =>
      constructor
      · rw [accepted, List.nodup_append_comm, List.singleton_append,
          List.nodup_cons]
        exact ⟨fresh, hnodup⟩
      · rw [accepted, ended]
        calc (ledger.accepted ++ [item]).Perm (item :: ledger.accepted) :=
              List.perm_append_singleton item _
          _ |>.Perm ((item :: ledger.live) ++ ledger.ended.map Prod.fst) :=
              hperm.cons item
          _ |>.Perm (next.live ++ ledger.ended.map Prod.fst) :=
              (live.symm.append_right _)
  | conclude item outcome accepted live ended =>
      constructor
      · rw [accepted]
        exact hnodup
      · rw [accepted, ended, List.map_append]
        refine hperm.trans ((live.append_right _).trans ?_)
        simp only [List.map_cons, List.map_nil, List.cons_append]
        rw [← List.append_assoc]
        exact (List.perm_append_singleton item _).symm

theorem Balanced.length_of_settled {ledger : Ledger Item Outcome}
    (h : ledger.Balanced) (hlive : ledger.live = []) :
    ledger.accepted.length = ledger.ended.length := by
  rw [h.perm.length_eq, hlive, List.nil_append, List.length_map]

theorem Balanced.count_eq_one [BEq Item] [LawfulBEq Item]
    {ledger : Ledger Item Outcome} (h : ledger.Balanced) {item : Item}
    (hitem : item ∈ ledger.accepted) :
    ledger.live.count item + (ledger.ended.map Prod.fst).count item = 1 := by
  have hcount := h.perm.count_eq item
  rw [List.count_append, List.count_eq_one_of_mem h.nodup hitem] at hcount
  exact hcount.symm

end Ledger

end HartLink.Foundation
