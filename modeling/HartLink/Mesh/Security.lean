import Mathlib.Data.BitVec
import Mathlib.Tactic

/-!
# Keys and replay protection

A replay window keeps the largest accepted counter and, in one word, which of
the 64 counters up to it were accepted.  `replay_window_judges_as_set` compares
it with the set of all accepted counters.
-/

namespace HartLink.Mesh

structure KeyMaterial where
  bytes : Vector UInt8 16
  deriving DecidableEq, Repr

inductive SecurityError where
  | replay (counter : UInt32)
  | tooOld (counter : UInt32)
  deriving DecidableEq, Repr

structure ReplayWindow where
  highest : UInt32 := 0
  seen : BitVec 64 := 0
  initialized : Bool := false
  deriving DecidableEq, Repr

namespace ReplayWindow

def accept (window : ReplayWindow) (counter : UInt32) :
    Except SecurityError Unit × ReplayWindow :=
  if ¬ window.initialized then (.ok (), ⟨counter, 1, true⟩)
  else if counter > window.highest then
    let shift := (counter - window.highest).toNat
    (.ok (), { window with
      seen := if shift ≥ 64 then 1 else window.seen <<< shift ||| 1
      highest := counter })
  else
    let age := (window.highest - counter).toNat
    if age ≥ 64 then (.error (.tooOld counter), window)
    else
      let mask := 1#64 <<< age
      if window.seen &&& mask ≠ 0 then (.error (.replay counter), window)
      else (.ok (), { window with seen := window.seen ||| mask })

/-- A rejected counter leaves the window alone; a fresh window rejects none. -/
theorem accept_error {window : ReplayWindow} {counter : UInt32}
    {error : SecurityError} (h : (window.accept counter).1 = .error error) :
    (window.accept counter).2 = window ∧ window.initialized = true := by
  unfold accept at h ⊢
  split_ifs at h ⊢ with hinitialized
  dsimp only at h ⊢
  split_ifs at h ⊢ with hold hmask
  · exact ⟨rfl, hinitialized⟩
  · exact ⟨rfl, hinitialized⟩

/-! ## The window as a set of counters -/

theorem getLsbD_mask {age : Nat} (h : age < 64) (index : Nat) :
    (1#64 <<< age).getLsbD index = decide (index = age) := by
  rw [BitVec.getLsbD_shiftLeft, BitVec.getLsbD_one]
  by_cases hindex : index = age
  · simp [hindex, h]
  · simp only [hindex, decide_false]
    rw [Bool.and_eq_false_iff, Bool.and_eq_false_iff]
    simp only [decide_eq_false_iff_not]
    by_cases hbelow : index < age
    · simp [hbelow]
    · right
      simp only [Bool.and_eq_false_iff, decide_eq_false_iff_not]
      omega

theorem and_mask_ne_zero_iff (seen : BitVec 64) {age : Nat} (h : age < 64) :
    seen &&& 1#64 <<< age ≠ 0 ↔ seen.getLsbD age = true := by
  constructor
  · intro hne
    by_contra hbit
    apply hne
    apply BitVec.eq_of_getLsbD_eq
    intro index hindex
    rw [BitVec.getLsbD_and, getLsbD_mask h]
    by_cases heq : index = age
    · subst heq
      simp [hbit]
    · simp [heq]
  · intro hbit hzero
    have hand := congrArg (BitVec.getLsbD · age) hzero
    simp [BitVec.getLsbD_and, getLsbD_mask h, hbit] at hand

theorem accept_fresh {window : ReplayWindow} (counter : UInt32)
    (h : window.initialized = false) :
    window.accept counter = (.ok (), ⟨counter, 1, true⟩) := by
  rw [accept, h]
  rfl

theorem accept_ahead {window : ReplayWindow} {counter : UInt32}
    (hinitialized : window.initialized = true)
    (hahead : window.highest.toNat < counter.toNat) :
    window.accept counter = (.ok (), { window with
      seen :=
        if counter.toNat - window.highest.toNat ≥ 64 then 1
        else window.seen <<< (counter.toNat - window.highest.toNat) ||| 1
      highest := counter }) := by
  have hshift : (counter - window.highest).toNat =
      counter.toNat - window.highest.toNat :=
    UInt32.toNat_sub_of_le _ _ (UInt32.le_iff_toNat_le.mpr hahead.le)
  rw [accept, if_neg (not_not.mpr hinitialized),
    if_pos (UInt32.lt_iff_toNat_lt.mpr hahead)]
  dsimp only
  rw [hshift]

theorem accept_behind {window : ReplayWindow} {counter : UInt32}
    (hinitialized : window.initialized = true)
    (hbehind : counter.toNat ≤ window.highest.toNat) :
    window.accept counter =
      if 64 ≤ window.highest.toNat - counter.toNat then
        (.error (.tooOld counter), window)
      else if window.seen.getLsbD
          (window.highest.toNat - counter.toNat) = true then
        (.error (.replay counter), window)
      else (.ok (), { window with
        seen := window.seen |||
          1#64 <<< (window.highest.toNat - counter.toNat) }) := by
  have hage : (window.highest - counter).toNat =
      window.highest.toNat - counter.toNat :=
    UInt32.toNat_sub_of_le _ _ (UInt32.le_iff_toNat_le.mpr hbehind)
  have hahead : ¬ counter > window.highest :=
    UInt32.not_lt.mpr (UInt32.le_iff_toNat_le.mpr hbehind)
  rw [accept, if_neg (not_not.mpr hinitialized), if_neg hahead]
  dsimp only
  rw [hage]
  by_cases hold : 64 ≤ window.highest.toNat - counter.toNat
  · rw [if_pos hold, if_pos hold]
  · rw [if_neg hold, if_neg hold]
    simp only [and_mask_ne_zero_iff window.seen (Nat.not_le.mp hold)]

/-- The window remembers the accepted counters from the largest one down. -/
structure Records (accepted : UInt32 → Prop) (window : ReplayWindow) :
    Prop where
  initialized : (∃ counter, accepted counter) → window.initialized = true
  highest : window.initialized = true → accepted window.highest
  bound : ∀ counter, accepted counter →
    counter.toNat ≤ window.highest.toNat
  seen : window.initialized = true → ∀ counter : UInt32,
    counter.toNat ≤ window.highest.toNat →
    window.highest.toNat - counter.toNat < 64 →
    (window.seen.getLsbD (window.highest.toNat - counter.toNat) = true ↔
      accepted counter)

theorem records_default : Records (fun _ => False) {} :=
  ⟨by simp, by simp, by simp, by simp⟩

variable {accepted : UInt32 → Prop} {window : ReplayWindow}

theorem records_first (counter : UInt32) (h : Records accepted window)
    (hfresh : window.initialized = false) :
    Records (fun other => other = counter ∨ accepted other)
      ⟨counter, 1, true⟩ := by
  have hnone : ∀ other, ¬ accepted other := by
    intro other hother
    rw [h.initialized ⟨other, hother⟩] at hfresh
    contradiction
  refine ⟨fun _ => rfl, fun _ => .inl rfl, ?_, ?_⟩
  · rintro other (rfl | hother)
    · exact le_refl _
    · exact absurd hother (hnone other)
  · intro _ other hle hage
    simp only [hnone, or_false]
    rw [show (1 : BitVec 64) = 1#64 from rfl, BitVec.getLsbD_one]
    rw [← UInt32.toNat_inj]
    simp only [Bool.and_eq_true, decide_eq_true_eq]
    dsimp only at hle
    omega

theorem records_ahead {counter : UInt32} (h : Records accepted window)
    (hinitialized : window.initialized = true)
    (hahead : window.highest.toNat < counter.toNat) :
    Records (fun other => other = counter ∨ accepted other)
      { window with
        seen :=
          if counter.toNat - window.highest.toNat ≥ 64 then 1
          else window.seen <<< (counter.toNat - window.highest.toNat) ||| 1
        highest := counter } := by
  refine ⟨fun _ => hinitialized, fun _ => .inl rfl, ?_, ?_⟩
  · rintro other (rfl | hother)
    · exact le_refl _
    · exact (h.bound other hother).trans (Nat.le_of_lt hahead)
  · intro _ other hle hage
    dsimp only at hle hage ⊢
    -- A counter between the old and the new largest one was never accepted.
    have hbetween : window.highest.toNat < other.toNat → ¬ accepted other := by
      intro hgap hother
      have := h.bound other hother
      omega
    have hsame : other = counter ↔ counter.toNat - other.toNat = 0 := by
      rw [← UInt32.toNat_inj]
      omega
    rw [hsame, show (1 : BitVec 64) = 1#64 from rfl]
    split_ifs with hfar
    · have hnew : ¬ accepted other := hbetween (by omega)
      rw [BitVec.getLsbD_one]
      simp [hnew]
    · rw [BitVec.getLsbD_or, BitVec.getLsbD_one, BitVec.getLsbD_shiftLeft]
      by_cases hold : other.toNat ≤ window.highest.toNat
      · have hseen := h.seen hinitialized other hold (by omega)
        have hindex : counter.toNat - other.toNat -
            (counter.toNat - window.highest.toNat) =
              window.highest.toNat - other.toNat := by
          omega
        have hshift : ¬ counter.toNat - other.toNat <
            counter.toNat - window.highest.toNat := by
          omega
        have hne : counter.toNat - other.toNat ≠ 0 := by omega
        simp [hindex, hshift, hage, hne, hseen]
      · have hnew : ¬ accepted other := hbetween (by omega)
        have hshift : counter.toNat - other.toNat <
            counter.toNat - window.highest.toNat := by
          omega
        simp [hnew, hshift]

theorem records_behind {counter : UInt32} (h : Records accepted window)
    (hinitialized : window.initialized = true)
    (hbehind : counter.toNat ≤ window.highest.toNat)
    (hage : window.highest.toNat - counter.toNat < 64) :
    Records (fun other => other = counter ∨ accepted other)
      { window with
        seen := window.seen |||
          1#64 <<< (window.highest.toNat - counter.toNat) } := by
  refine ⟨fun _ => hinitialized, fun _ => .inr (h.highest hinitialized), ?_,
    ?_⟩
  · rintro other (rfl | hother)
    · exact hbehind
    · exact h.bound other hother
  · intro _ other hle hother
    have hseen := h.seen hinitialized other hle hother
    have hsame : other = counter ↔ window.highest.toNat - other.toNat =
        window.highest.toNat - counter.toNat := by
      rw [← UInt32.toNat_inj]
      dsimp only at hle
      omega
    rw [BitVec.getLsbD_or, getLsbD_mask hage, Bool.or_eq_true, hseen, hsame]
    simp only [decide_eq_true_eq]
    exact or_comm

/-- A counter is accepted once: it is recorded, and a recorded one is not. -/
theorem accept_cases (h : Records accepted window) (counter : UInt32) :
    ((window.accept counter).1 = .ok () ∧ ¬ accepted counter ∧
      Records (fun other => other = counter ∨ accepted other)
        (window.accept counter).2) ∨
    (window.initialized = true ∧
      ∃ error, window.accept counter = (.error error, window)) := by
  cases hinitialized : window.initialized with
  | false =>
      left
      rw [accept_fresh counter hinitialized]
      refine ⟨rfl, ?_, records_first counter h hinitialized⟩
      intro haccepted
      rw [h.initialized ⟨counter, haccepted⟩] at hinitialized
      contradiction
  | true =>
      rcases Nat.lt_or_ge window.highest.toNat counter.toNat with
        hahead | hbehind
      · left
        rw [accept_ahead hinitialized hahead]
        refine ⟨rfl, ?_, records_ahead h hinitialized hahead⟩
        intro haccepted
        have := h.bound counter haccepted
        omega
      rw [accept_behind hinitialized hbehind]
      split_ifs with hold hseen
      · exact .inr ⟨rfl, _, rfl⟩
      · exact .inr ⟨rfl, _, rfl⟩
      · left
        rw [h.seen hinitialized counter hbehind (Nat.not_le.mp hold)] at hseen
        exact ⟨rfl, hseen,
          records_behind h hinitialized hbehind (Nat.not_le.mp hold)⟩

/-! ## Whole sequences of counters -/

def greatest (window : ReplayWindow) : Option UInt32 :=
  if window.initialized then some window.highest else none

def offer (window : ReplayWindow) : List UInt32 → ReplayWindow
  | [] => window
  | counter :: counters => (window.accept counter).2.offer counters

def acceptedOf (window : ReplayWindow) : List UInt32 → List UInt32
  | [] => []
  | counter :: counters =>
      let (result, next) := window.accept counter
      match result with
      | .ok _ => counter :: next.acceptedOf counters
      | .error _ => next.acceptedOf counters

theorem Records.congr {other : UInt32 → Prop} (h : Records accepted window)
    (heq : ∀ counter, other counter ↔ accepted counter) :
    Records other window := by
  have hsame : other = accepted := funext fun counter => propext (heq counter)
  rwa [hsame]

theorem records_offer {seen : List UInt32} {window : ReplayWindow}
    (h : Records (· ∈ seen) window) (counters : List UInt32) :
    Records (· ∈ seen ++ window.acceptedOf counters)
      (window.offer counters) := by
  induction counters generalizing seen window with
  | nil => simpa [acceptedOf, offer] using h
  | cons counter counters ih =>
      rw [acceptedOf, offer]
      rcases accept_cases h counter with
        ⟨hok, -, hrecords⟩ | ⟨-, error, herror⟩
      · have hnext : Records (· ∈ seen ++ [counter])
            (window.accept counter).2 :=
          hrecords.congr fun other => by simp [or_comm]
        simpa [hok] using ih hnext
      · simpa [herror] using ih h

theorem records_offer_fresh (counters : List UInt32) :
    Records (· ∈ acceptedOf {} counters) (offer {} counters) := by
  have hfresh : Records (· ∈ ([] : List UInt32)) {} :=
    records_default.congr (by simp)
  simpa using records_offer hfresh counters

def IsGreatestOf (counters : List UInt32) (counter : UInt32) : Prop :=
  counter ∈ counters ∧ ∀ other ∈ counters, other ≤ counter

theorem greatest_eq_some_iff {seen : List UInt32}
    (h : Records (· ∈ seen) window) (counter : UInt32) :
    window.greatest = some counter ↔ IsGreatestOf seen counter := by
  unfold greatest
  constructor
  · intro hgreatest
    split_ifs at hgreatest with hinitialized
    injection hgreatest with hgreatest
    subst hgreatest
    refine ⟨h.highest hinitialized, fun other hother => ?_⟩
    exact UInt32.le_iff_toNat_le.mpr (h.bound other hother)
  · rintro ⟨hmem, hbound⟩
    have hinitialized := h.initialized ⟨counter, hmem⟩
    rw [if_pos hinitialized]
    have hle := UInt32.le_iff_toNat_le.mp
      (hbound window.highest (h.highest hinitialized))
    have hge := h.bound counter hmem
    exact congrArg some (UInt32.toNat_inj.mp (Nat.le_antisymm hle hge))

theorem greatest_eq_none_iff {seen : List UInt32}
    (h : Records (· ∈ seen) window) : window.greatest = none ↔ seen = [] := by
  unfold greatest
  cases hinitialized : window.initialized with
  | false =>
      refine iff_of_true rfl (List.eq_nil_iff_forall_not_mem.mpr ?_)
      intro counter hmem
      rw [h.initialized ⟨counter, hmem⟩] at hinitialized
      contradiction
  | true =>
      refine iff_of_false (by simp) ?_
      exact List.ne_nil_of_mem (h.highest hinitialized)

theorem accept_result {seen : List UInt32} (h : Records (· ∈ seen) window)
    (counter : UInt32) :
    (window.accept counter).1 =
      match window.greatest with
      | none => .ok ()
      | some greatest =>
          if greatest < counter then .ok ()
          else if 64 ≤ greatest.toNat - counter.toNat then
            .error (.tooOld counter)
          else if counter ∈ seen then .error (.replay counter)
          else .ok () := by
  unfold greatest
  cases hinitialized : window.initialized with
  | false =>
      rw [accept_fresh counter hinitialized]
      rfl
  | true =>
      simp only [if_true]
      rcases Nat.lt_or_ge window.highest.toNat counter.toNat with
        hahead | hbehind
      · rw [accept_ahead hinitialized hahead,
          if_pos (UInt32.lt_iff_toNat_lt.mpr hahead)]
      · rw [accept_behind hinitialized hbehind,
          if_neg (UInt32.not_lt.mpr (UInt32.le_iff_toNat_le.mpr hbehind))]
        by_cases hold : 64 ≤ window.highest.toNat - counter.toNat
        · rw [if_pos hold, if_pos hold]
        · rw [if_neg hold, if_neg hold]
          simp only [h.seen hinitialized counter hbehind
            (Nat.not_le.mp hold)]
          split_ifs <;> rfl

/--
A window judges counters as the set of all it has accepted would: up to 64 of
them from the greatest one down are told apart, and those before are too old.
-/
theorem replay_window_judges_as_set (counters : List UInt32)
    (counter : UInt32) :
    (∀ greatest, (offer {} counters).greatest = some greatest ↔
      IsGreatestOf (acceptedOf {} counters) greatest) ∧
    ((offer {} counters).greatest = none ↔ acceptedOf {} counters = []) ∧
    (((offer {} counters).accept counter).1 = .ok () ↔
      acceptedOf {} counters = [] ∨
      ∃ greatest, IsGreatestOf (acceptedOf {} counters) greatest ∧
        (greatest < counter ∨ counter ≤ greatest ∧
          greatest.toNat - counter.toNat < 64 ∧
          counter ∉ acceptedOf {} counters)) ∧
    (((offer {} counters).accept counter).1 = .error (.replay counter) ↔
      ∃ greatest, IsGreatestOf (acceptedOf {} counters) greatest ∧
        counter ≤ greatest ∧ greatest.toNat - counter.toNat < 64 ∧
        counter ∈ acceptedOf {} counters) ∧
    (((offer {} counters).accept counter).1 = .error (.tooOld counter) ↔
      ∃ greatest, IsGreatestOf (acceptedOf {} counters) greatest ∧
        counter ≤ greatest ∧ 64 ≤ greatest.toNat - counter.toNat) ∧
    ∀ error, ((offer {} counters).accept counter).1 = .error error →
      (error = .replay counter ∨ error = .tooOld counter) ∧
      ((offer {} counters).accept counter).2 = offer {} counters := by
  have h := records_offer_fresh counters
  have hsome := greatest_eq_some_iff h
  have hnone := greatest_eq_none_iff h
  have hresult := accept_result h counter
  have hunchanged := @accept_error (offer {} counters) counter
  refine ⟨hsome, hnone, ?_⟩
  generalize acceptedOf {} counters = accepted at hsome hnone hresult ⊢
  generalize offer {} counters = window at hsome hnone hresult hunchanged ⊢
  cases hgreatest : window.greatest with
  | none =>
      rw [hgreatest] at hsome hnone hresult
      have hempty := hnone.mp rfl
      subst hempty
      simp [hresult, IsGreatestOf]
  | some greatest =>
      rw [hgreatest] at hsome hnone hresult
      have hunique : ∀ other, IsGreatestOf accepted other ↔ other = greatest :=
        fun other => (hsome other).symm.trans (by simp [eq_comm])
      have hnonempty : accepted ≠ [] := fun hempty => by simp [hempty] at hnone
      have hle := @UInt32.not_lt greatest counter
      simp only [hunique, exists_eq_left, hnonempty, false_or, ← hle, hresult]
      refine ⟨?_, ?_, ?_, fun error herror => ⟨?_, ?_⟩⟩
      · split_ifs with hahead hold hseen
        · simp [hahead]
        · simp [hahead, Nat.not_lt.mpr hold]
        · simp [hahead, hseen]
        · simp [hahead, hseen, Nat.not_le.mp hold]
      · split_ifs with hahead hold hseen
        · simp [hahead]
        · simp [Nat.not_lt.mpr hold]
        · simp [hahead, hseen, Nat.not_le.mp hold]
        · simp [hseen]
      · split_ifs with hahead hold hseen
        · simp [hahead]
        · simp [hahead, hold]
        · simp [hold]
        · simp [hold]
      · split_ifs at herror with hahead hold hseen
        · injection herror with herror
          exact .inr herror.symm
        · injection herror with herror
          exact .inl herror.symm
      · exact (hunchanged (hresult.trans herror)).1

end ReplayWindow

end HartLink.Mesh
