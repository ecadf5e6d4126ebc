import Mathlib.Data.List.Basic

/-!
# Queues trimmed at the front

A bounded queue makes room by letting its oldest entries go.  Whatever fits, the
entries that remain are the longest suffix that does.
-/

namespace HartLink.Foundation

variable {Entry : Type*}

/-- The oldest entries give way until the others fit. -/
def trimFront (Fits : List Entry → Prop) [DecidablePred Fits] :
    List Entry → List Entry
  | [] => []
  | entry :: queue =>
      if Fits (entry :: queue) then entry :: queue
      else trimFront Fits queue

structure IsLongestSuffix (Fits : List Entry → Prop)
    (queue kept : List Entry) : Prop where
  isSuffix : kept <:+ queue
  fits : Fits kept
  longest : ∀ other, other <:+ queue → Fits other → other <:+ kept

theorem trimFront_spec {Fits : List Entry → Prop} [DecidablePred Fits]
    (hempty : Fits []) (queue : List Entry) :
    IsLongestSuffix Fits queue (trimFront Fits queue) := by
  induction queue with
  | nil => exact ⟨List.suffix_rfl, hempty, fun _ hsuffix _ => hsuffix⟩
  | cons entry queue ih =>
      rw [trimFront]
      split_ifs with hfits
      · exact ⟨List.suffix_rfl, hfits, fun _ hsuffix _ => hsuffix⟩
      · refine ⟨ih.isSuffix.trans (List.suffix_cons entry queue), ih.fits, ?_⟩
        intro other hsuffix hother
        rcases List.suffix_cons_iff.mp hsuffix with rfl | hsuffix
        · exact absurd hother hfits
        · exact ih.longest other hsuffix hother

/--
A loop over a queue and a state that evicts the oldest entry while the queue does
not fit.  `left queue kept state` is the result when `kept` is left of `queue`; it
does not matter whether an entry is evicted first and counted, or counted with
the others.
-/
theorem trimFront_loop {State Result : Type*} {Fits : List Entry → Prop}
    [DecidablePred Fits] (loop : List Entry → State → Result)
    (left : List Entry → List Entry → State → Result)
    (Holds : List Entry → State → Prop) (hempty : Fits [])
    (hnil : ∀ state, Holds [] state → loop [] state = left [] [] state)
    (hkeep : ∀ entry queue state, Holds (entry :: queue) state →
      Fits (entry :: queue) →
        loop (entry :: queue) state =
          left (entry :: queue) (entry :: queue) state)
    (hevict : ∀ entry queue state, Holds (entry :: queue) state →
      ¬ Fits (entry :: queue) →
        ∃ next, Holds queue next ∧
          loop (entry :: queue) state = loop queue next ∧
          ∀ kept, kept <:+ queue →
            left queue kept next = left (entry :: queue) kept state)
    (queue : List Entry) (state : State) (h : Holds queue state) :
    loop queue state = left queue (trimFront Fits queue) state := by
  induction queue generalizing state with
  | nil => exact hnil state h
  | cons entry queue ih =>
      rw [trimFront]
      split_ifs with hfits
      · exact hkeep entry queue state h hfits
      · obtain ⟨next, hnext, hloop, hleft⟩ := hevict entry queue state h hfits
        rw [hloop, ih next hnext]
        exact hleft _ (trimFront_spec hempty queue).isSuffix

/-- What gave way earlier does not fit later, when less fits than before. -/
theorem IsLongestSuffix.stricter {Fits Stricter : List Entry → Prop}
    {queue middle kept : List Entry}
    (hstricter : ∀ rest, Stricter rest → Fits rest)
    (hmiddle : IsLongestSuffix Fits queue middle)
    (hkept : IsLongestSuffix Stricter middle kept) :
    IsLongestSuffix Stricter queue kept := by
  refine ⟨hkept.isSuffix.trans hmiddle.isSuffix, hkept.fits, ?_⟩
  intro other hsuffix hother
  exact hkept.longest other
    (hmiddle.longest other hsuffix (hstricter other hother)) hother

theorem IsLongestSuffix.concat {Fits : List Entry → Prop}
    {queue kept : List Entry} {entry : Entry}
    (h : IsLongestSuffix (fun rest => Fits (rest ++ [entry])) queue kept) :
    IsLongestSuffix Fits (queue ++ [entry]) (kept ++ [entry]) := by
  obtain ⟨before, hbefore⟩ := h.isSuffix
  refine ⟨⟨before, by rw [← List.append_assoc, hbefore]⟩, h.fits, ?_⟩
  intro other hsuffix hother
  rcases List.suffix_concat_iff.mp hsuffix with rfl | ⟨rest, rfl, hrest⟩
  · exact List.nil_suffix
  · obtain ⟨earlier, hearlier⟩ := h.longest rest hrest hother
    exact ⟨earlier, by rw [← List.append_assoc, hearlier]⟩

end HartLink.Foundation
