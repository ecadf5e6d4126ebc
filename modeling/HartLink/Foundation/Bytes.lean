import Mathlib.Data.List.Basic
import Mathlib.Tactic

/-!
# Byte strings, trailing runs and saturating counters

A byte string is a plain list.  The two searches below walk a list from its
end: `rposition` returns the last position whose element satisfies a predicate,
and `trailingCount` the length of the longest suffix that satisfies it.  The
counters saturate at the largest 64-bit value instead of wrapping.
-/

namespace HartLink.Foundation

abbrev Bytes := List UInt8

theorem forall_byte {P : UInt8 → Prop} (h : ∀ i : Fin 256, P (UInt8.ofFin i))
    (byte : UInt8) : P byte :=
  h byte.toFin

variable {α : Type*}

/-! ## Searching from the end -/

def rposition (p : α → Bool) : List α → Option Nat
  | [] => none
  | a :: rest =>
      match rposition p rest with
      | some index => some (index + 1)
      | none => if p a then some 0 else none

def trailingCount (p : α → Bool) (l : List α) : Nat :=
  (l.reverse.takeWhile p).length

@[simp] theorem trailingCount_nil (p : α → Bool) :
    trailingCount p [] = 0 := rfl

theorem trailingCount_le_length (p : α → Bool) (l : List α) :
    trailingCount p l ≤ l.length := by
  have h := (List.takeWhile_sublist (l := l.reverse) p).length_le
  simpa [trailingCount] using h

theorem trailingCount_concat (p : α → Bool) (l : List α) (a : α) :
    trailingCount p (l ++ [a]) =
      if p a then trailingCount p l + 1 else 0 := by
  by_cases h : p a <;> simp [trailingCount, h]

theorem trailingCount_append (p : α → Bool) (l m : List α) :
    trailingCount p (l ++ m) =
      if trailingCount p m = m.length then trailingCount p l + m.length
      else trailingCount p m := by
  induction m using List.reverseRecOn with
  | nil => simp
  | append_singleton m a ih =>
      rw [← List.append_assoc, trailingCount_concat, trailingCount_concat, ih]
      by_cases ha : p a
      · by_cases hm : trailingCount p m = m.length
        · simp [ha, hm]
          omega
        · simp [ha, hm]
      · simp [ha]

theorem trailingCount_drop (p : α → Bool) (l : List α) (n : Nat) :
    trailingCount p (l.drop n) = min (trailingCount p l) (l.length - n) := by
  have hsplit := trailingCount_append p (l.take n) (l.drop n)
  rw [List.take_append_drop] at hsplit
  have hle := trailingCount_le_length p (l.drop n)
  rw [List.length_drop] at hsplit hle
  by_cases h : trailingCount p (l.drop n) = l.length - n
  · rw [if_pos h] at hsplit
    omega
  · rw [if_neg h] at hsplit
    omega

theorem trailingCount_replicate (p : α → Bool) (n : Nat) (a : α)
    (ha : p a = true) :
    trailingCount p (List.replicate n a) = n := by
  simp [trailingCount, ha]

theorem trailingCount_eq_length_iff (p : α → Bool) (l : List α) :
    trailingCount p l = l.length ↔ ∀ a ∈ l, p a = true := by
  induction l using List.reverseRecOn with
  | nil => simp
  | append_singleton l a ih =>
      have hle := trailingCount_le_length p l
      rw [trailingCount_concat]
      by_cases ha : p a
      · simp [ha, ih]
        grind
      · simp [ha]

theorem getElem?_of_trailingCount (p : α → Bool) (l : List α) (i : Nat)
    (hlow : l.length - trailingCount p l ≤ i) (a : α)
    (ha : l[i]? = some a) : p a = true := by
  have hall : trailingCount p (l.drop (l.length - trailingCount p l)) =
      (l.drop (l.length - trailingCount p l)).length := by
    rw [trailingCount_drop, List.length_drop]
    have := trailingCount_le_length p l
    omega
  have hmem : a ∈ l.drop (l.length - trailingCount p l) := by
    apply List.mem_of_getElem? (i := i - (l.length - trailingCount p l))
    rw [List.getElem?_drop, Nat.add_sub_cancel' hlow]
    exact ha
  exact (trailingCount_eq_length_iff p _).mp hall a hmem

/-! ## Counting from the front -/

def leadingCount (p : α → Bool) (l : List α) : Nat :=
  (l.takeWhile p).length

theorem leadingCount_le_length (p : α → Bool) (l : List α) :
    leadingCount p l ≤ l.length :=
  (List.takeWhile_sublist p).length_le

theorem leadingCount_le_append (p : α → Bool) (l m : List α) :
    leadingCount p l ≤ leadingCount p (l ++ m) := by
  induction l with
  | nil => exact Nat.zero_le _
  | cons a l ih =>
      unfold leadingCount at ih ⊢
      by_cases ha : p a
      · simpa [ha] using ih
      · simp [ha]

theorem leadingCount_drop (p : α → Bool) {l : List α} {n : Nat}
    (h : n ≤ leadingCount p l) :
    leadingCount p (l.drop n) = leadingCount p l - n := by
  induction l generalizing n with
  | nil => simp [leadingCount]
  | cons a l ih =>
      cases n with
      | zero => rfl
      | succ n =>
          unfold leadingCount at ih h ⊢
          by_cases ha : p a
          · simp only [List.takeWhile_cons_of_pos ha, List.length_cons] at h ⊢
            rw [List.drop_succ_cons, ih (by omega)]
            omega
          · simp [ha] at h

theorem getElem?_of_leadingCount (p : α → Bool) (l : List α) (i : Nat)
    (h : i < leadingCount p l) (a : α) (ha : l[i]? = some a) :
    p a = true := by
  induction l generalizing i with
  | nil => simp [leadingCount] at h
  | cons b l ih =>
      unfold leadingCount at ih h
      by_cases hb : p b
      · simp only [List.takeWhile_cons_of_pos hb, List.length_cons] at h
        cases i with
        | zero =>
            simp only [List.getElem?_cons_zero, Option.some.injEq] at ha
            exact ha ▸ hb
        | succ i => exact ih i (by omega) (by simpa using ha)
      · simp [hb] at h

/-- A front and an end that overlap leave nothing out. -/
theorem trailingCount_eq_length_of_overlap (p : α → Bool) (l : List α)
    (h : l.length ≤ leadingCount p l + trailingCount p l) :
    trailingCount p l = l.length := by
  rw [trailingCount_eq_length_iff]
  intro a ha
  obtain ⟨i, hi, rfl⟩ := List.getElem_of_mem ha
  have hget := List.getElem?_eq_getElem hi
  by_cases hfront : i < leadingCount p l
  · exact getElem?_of_leadingCount p l i hfront _ hget
  · exact getElem?_of_trailingCount p l i (by omega) _ hget

theorem leadingCount_eq_length (p : α → Bool) {l : List α}
    (h : trailingCount p l = l.length) : leadingCount p l = l.length := by
  have hall := (trailingCount_eq_length_iff p l).mp h
  have htake := @List.takeWhile_append_of_pos _ p l [] hall
  rw [List.append_nil, List.takeWhile_nil, List.append_nil] at htake
  rw [leadingCount, htake]

theorem le_leadingCount (p : α → Bool) {l : List α} {n : Nat}
    (hlength : n ≤ l.length) (h : trailingCount p (l.take n) = n) :
    n ≤ leadingCount p l := by
  have htake : (l.take n).length = n := List.length_take_of_le hlength
  have hfront := leadingCount_eq_length p (h.trans htake.symm)
  have hwhole := leadingCount_le_append p (l.take n) (l.drop n)
  rw [List.take_append_drop] at hwhole
  omega

/-! ## Positions -/

theorem rposition_not (p : α → Bool) (l : List α) :
    (rposition (fun a => !p a) l).elim 0 (· + 1) =
      l.length - trailingCount p l := by
  induction l with
  | nil => rfl
  | cons a rest ih =>
      have hle := trailingCount_le_length p rest
      have hone : trailingCount p [a] = if p a then 1 else 0 := by
        simpa using trailingCount_concat p [] a
      have hcons := trailingCount_append p [a] rest
      rw [List.singleton_append] at hcons
      simp only [rposition, List.length_cons]
      cases hr : rposition (fun a => !p a) rest with
      | some index =>
          simp only [hr, Option.elim_some] at ih ⊢
          rw [hcons, if_neg (by omega)]
          omega
      | none =>
          simp only [hr, Option.elim_none] at ih ⊢
          have hrun : trailingCount p rest = rest.length := by omega
          rw [hcons, if_pos hrun, hone]
          by_cases ha : p a
          · simp [ha, Nat.add_comm]
          · simp [ha]

/-! ## Indexed searches -/

theorem findSome?_zipIdx_eq_none_iff {β : Type*} (f : Nat → α → Option β)
    (l : List α) :
    l.zipIdx.findSome? (fun entry => f entry.2 entry.1) = none ↔
      ∀ i a, l[i]? = some a → f i a = none := by
  simp only [List.findSome?_eq_none_iff, Prod.forall,
    List.mem_zipIdx_iff_getElem?]
  exact ⟨fun h i a ha => h a i ha, fun h a i ha => h i a ha⟩

theorem findSome?_zipIdx_eq_some_iff {β : Type*} (f : Nat → α → Option β)
    (l : List α) (b : β) :
    l.zipIdx.findSome? (fun entry => f entry.2 entry.1) = some b ↔
      ∃ i a, l[i]? = some a ∧ f i a = some b ∧
        ∀ j < i, ∀ c, l[j]? = some c → f j c = none := by
  rw [List.findSome?_eq_some_iff]
  constructor
  · rintro ⟨before, ⟨a, i⟩, after, hsplit, hf, hbefore⟩
    obtain ⟨xs, ys, rfl, hxs, hys⟩ := List.zipIdx_eq_append_iff.mp hsplit
    cases ys with
    | nil => simp at hys
    | cons y ys =>
        simp only [List.zipIdx_cons, Nat.zero_add, List.cons.injEq,
          Prod.mk.injEq] at hys
        obtain ⟨⟨rfl, rfl⟩, -⟩ := hys
        refine ⟨xs.length, a, by simp, hf, ?_⟩
        intro j hj c hc
        apply hbefore (c, j)
        rw [hxs, List.mem_zipIdx_iff_getElem?]
        rwa [List.getElem?_append_left hj] at hc
  · rintro ⟨i, a, ha, hf, hbefore⟩
    have hlt := (List.getElem?_eq_some_iff.mp ha).1
    refine ⟨(l.take i).zipIdx, (a, i), (l.drop (i + 1)).zipIdx (i + 1),
      ?_, hf, ?_⟩
    · conv_lhs => rw [← List.take_append_drop i l]
      rw [List.zipIdx_append, List.length_take, Nat.min_eq_left hlt.le,
        Nat.zero_add, List.drop_eq_getElem_cons hlt, List.zipIdx_cons]
      rw [List.getElem?_eq_getElem hlt, Option.some.injEq] at ha
      rw [ha]
    · rintro ⟨c, j⟩ hmem
      rw [List.mem_zipIdx_iff_getElem?] at hmem
      have hj : j < i := by
        have := (List.getElem?_eq_some_iff.mp hmem).1
        rw [List.length_take] at this
        omega
      rw [List.getElem?_take_of_lt hj] at hmem
      exact hbefore j hj c hmem

/-! ## Saturating 64-bit counters -/

def saturatingAdd (counter : UInt64) (amount : Nat) : UInt64 :=
  UInt64.ofNat (min (counter.toNat + amount) (2 ^ 64 - 1))

@[simp] theorem saturatingAdd_toNat (counter : UInt64) (amount : Nat) :
    (saturatingAdd counter amount).toNat =
      min (counter.toNat + amount) (2 ^ 64 - 1) := by
  rw [saturatingAdd, UInt64.toNat_ofNat']
  apply Nat.mod_eq_of_lt
  omega

@[simp] theorem saturatingAdd_zero (counter : UInt64) :
    saturatingAdd counter 0 = counter := by
  apply UInt64.toNat_inj.mp
  have := counter.toNat_lt
  rw [saturatingAdd_toNat]
  omega

theorem saturatingAdd_saturatingAdd (counter : UInt64) (a b : Nat) :
    saturatingAdd (saturatingAdd counter a) b =
      saturatingAdd counter (a + b) := by
  apply UInt64.toNat_inj.mp
  simp only [saturatingAdd_toNat]
  omega

/-! ## Lengths -/

/-- The largest length of a vector or slice, `isize::MAX`. -/
def maximumLength : Nat := 2 ^ 63 - 1

/-- `usize::saturating_add`. -/
def saturatingLength (first second : Nat) : Nat :=
  min (first + second) (2 ^ 64 - 1)

theorem saturatingLength_eq {first second : Nat}
    (h : first + second < 2 ^ 64) :
    saturatingLength first second = first + second := by
  unfold saturatingLength
  omega

end HartLink.Foundation
