import Mathlib.Data.List.Basic

/-!
# Pipes

A pipe carries fragments from its writers to one reader.  At most as many as its
capacity wait at a time; the reader takes the oldest and hands it out in pieces.
Whatever the order of the calls, the pieces are what the pipe has accepted.
-/

namespace HartLink.Foundation

/--
`accepted` is everything that was written, with its writer, and `pieces` is what
the reader has handed out.
-/
structure Pipe (Writer Symbol : Type*) where
  capacity : Nat
  waiting : List (List Symbol) := []
  remainder : List Symbol := []
  accepted : List (Writer × List Symbol) := []
  pieces : List (List Symbol) := []
  deriving DecidableEq, Repr

namespace Pipe

variable {Writer Symbol : Type*}

def write (pipe : Pipe Writer Symbol) (writer : Writer)
    (fragment : List Symbol) : Option (Pipe Writer Symbol) :=
  if pipe.waiting.length < pipe.capacity then
    some { pipe with
      waiting := pipe.waiting ++ [fragment]
      accepted := pipe.accepted ++ [(writer, fragment)] }
  else none

/-- The reader takes a fragment when it has nothing left of the last one. -/
def pull (pipe : Pipe Writer Symbol) : Option (Pipe Writer Symbol) :=
  match pipe.remainder, pipe.waiting with
  | [], fragment :: waiting =>
      some { pipe with waiting, remainder := fragment }
  | _, _ => none

def read (pipe : Pipe Writer Symbol) (size : Nat) :
    Option (Pipe Writer Symbol) :=
  if size = 0 ∨ pipe.remainder.length = 0 then none
  else
    some { pipe with
      remainder := pipe.remainder.drop size
      pieces := pipe.pieces ++ [pipe.remainder.take size] }

def written (pipe : Pipe Writer Symbol) : List Symbol :=
  (pipe.accepted.map Prod.snd).flatten

def writtenBy [DecidableEq Writer] (pipe : Pipe Writer Symbol)
    (writer : Writer) : List (List Symbol) :=
  (pipe.accepted.filter fun entry => entry.1 = writer).map Prod.snd

/-- Nothing is lost, repeated or reordered, and no piece is empty. -/
structure Sound (pipe : Pipe Writer Symbol) : Prop where
  balance : pipe.pieces.flatten ++ pipe.remainder ++ pipe.waiting.flatten =
    pipe.written
  bounded : pipe.waiting.length ≤ pipe.capacity
  nonempty : ∀ piece ∈ pipe.pieces, piece ≠ []

theorem written_eq [DecidableEq Writer] {pipe : Pipe Writer Symbol}
    (writer : Writer)
    (h : ∀ other, other ≠ writer → pipe.writtenBy other = []) :
    pipe.written = (pipe.writtenBy writer).flatten := by
  rw [written, writtenBy, List.filter_eq_self.mpr]
  intro entry hentry
  rw [decide_eq_true_iff]
  by_contra hother
  have hnone := h entry.1 hother
  rw [writtenBy, List.map_eq_nil_iff, List.filter_eq_nil_iff] at hnone
  exact hnone entry hentry (decide_eq_true rfl)

/-! ## What the operations do -/

theorem write_eq {pipe next : Pipe Writer Symbol} {writer : Writer}
    {fragment : List Symbol} (h : pipe.write writer fragment = some next) :
    pipe.waiting.length < pipe.capacity ∧
      next = { pipe with
        waiting := pipe.waiting ++ [fragment]
        accepted := pipe.accepted ++ [(writer, fragment)] } := by
  unfold write at h
  split_ifs at h with hroom
  injection h with h
  exact ⟨hroom, h.symm⟩

theorem pull_eq {pipe next : Pipe Writer Symbol} (h : pipe.pull = some next) :
    ∃ fragment waiting, pipe.remainder = [] ∧
      pipe.waiting = fragment :: waiting ∧
      next = { pipe with waiting, remainder := fragment } := by
  unfold pull at h
  split at h
  next fragment waiting hremainder hwaiting =>
    injection h with h
    exact ⟨fragment, waiting, hremainder, hwaiting, h.symm⟩
  · contradiction

theorem read_eq {pipe next : Pipe Writer Symbol} {size : Nat}
    (h : pipe.read size = some next) :
    0 < size ∧ pipe.remainder ≠ [] ∧
      next = { pipe with
        remainder := pipe.remainder.drop size
        pieces := pipe.pieces ++ [pipe.remainder.take size] } := by
  unfold read at h
  split_ifs at h with hempty
  injection h with h
  refine ⟨by omega, ?_, h.symm⟩
  intro hnil
  rw [hnil] at hempty
  simp at hempty

/-! ## Soundness -/

theorem sound_new (capacity : Nat) :
    (({ capacity } : Pipe Writer Symbol)).Sound :=
  ⟨rfl, Nat.zero_le _, by simp⟩

theorem Sound.write {pipe next : Pipe Writer Symbol} (hsound : pipe.Sound)
    {writer : Writer} {fragment : List Symbol}
    (h : pipe.write writer fragment = some next) : next.Sound := by
  obtain ⟨hroom, rfl⟩ := write_eq h
  refine ⟨?_, by simpa using Nat.succ_le_of_lt hroom, hsound.nonempty⟩
  have hbalance := hsound.balance
  simp only [written, List.map_append, List.flatten_append] at hbalance ⊢
  rw [← List.append_assoc, hbalance]
  rfl

theorem Sound.pull {pipe next : Pipe Writer Symbol} (hsound : pipe.Sound)
    (h : pipe.pull = some next) : next.Sound := by
  obtain ⟨fragment, waiting, hremainder, hwaiting, rfl⟩ := pull_eq h
  have hbalance := hsound.balance
  have hbounded := hsound.bounded
  rw [hwaiting, List.length_cons] at hbounded
  refine ⟨?_, by simp only; omega, hsound.nonempty⟩
  rw [hremainder, hwaiting, List.append_nil, List.flatten_cons] at hbalance
  rw [List.append_assoc]
  exact hbalance

theorem Sound.read {pipe next : Pipe Writer Symbol} (hsound : pipe.Sound)
    {size : Nat} (h : pipe.read size = some next) : next.Sound := by
  obtain ⟨hsize, hremainder, rfl⟩ := read_eq h
  refine ⟨?_, hsound.bounded, ?_⟩
  · have hbalance := hsound.balance
    rw [← List.take_append_drop size pipe.remainder] at hbalance
    simpa [written] using hbalance
  · intro piece hpiece
    rcases List.mem_append.mp hpiece with hold | hnew
    · exact hsound.nonempty piece hold
    · rw [List.mem_singleton] at hnew
      rw [hnew, ne_eq, List.take_eq_nil_iff]
      rintro (hzero | hnil)
      · omega
      · exact hremainder hnil

/-- A pipe whose reader has taken everything has handed out all of it. -/
theorem Sound.drained {pipe : Pipe Writer Symbol} (hsound : pipe.Sound)
    (hremainder : pipe.remainder = []) (hwaiting : pipe.waiting = []) :
    pipe.pieces.flatten = pipe.written := by
  rw [← hsound.balance, hremainder, hwaiting]
  simp

end Pipe

end HartLink.Foundation
