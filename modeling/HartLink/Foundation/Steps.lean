import Mathlib.Data.List.Basic

/-!
# Runs of a partial step function

A system takes one action at a time; an action its state does not allow ends
the run.  An invariant may depend on a condition that every action of the run
meets in the state where it is taken.
-/

namespace HartLink.Foundation

variable {State Action : Type*} (step : State → Action → Option State)

def runSteps (state : State) : List Action → Option State
  | [] => some state
  | action :: actions =>
      match step state action with
      | none => none
      | some next => runSteps next actions

theorem runSteps_cons {state final : State} {action : Action}
    {actions : List Action}
    (h : runSteps step state (action :: actions) = some final) :
    ∃ next, step state action = some next ∧
      runSteps step next actions = some final := by
  rw [runSteps] at h
  split at h
  · contradiction
  next next hnext => exact ⟨next, hnext, h⟩

theorem runSteps_concat {state middle final : State} {actions : List Action}
    {action : Action} (hrun : runSteps step state actions = some middle)
    (hstep : step middle action = some final) :
    runSteps step state (actions ++ [action]) = some final := by
  induction actions generalizing state with
  | nil =>
      injection hrun with hrun
      subst hrun
      simp [runSteps, hstep]
  | cons first actions ih =>
      obtain ⟨next, hnext, hrest⟩ := runSteps_cons step hrun
      rw [List.cons_append, runSteps, hnext]
      exact ih hrest

theorem runSteps_append {state middle final : State}
    {first second : List Action}
    (hfirst : runSteps step state first = some middle)
    (hsecond : runSteps step middle second = some final) :
    runSteps step state (first ++ second) = some final := by
  induction first generalizing state with
  | nil =>
      injection hfirst with hfirst
      subst hfirst
      exact hsecond
  | cons action first ih =>
      obtain ⟨next, hnext, hrest⟩ := runSteps_cons step hfirst
      rw [List.cons_append, runSteps, hnext]
      exact ih hrest

/-- Every action of the run meets the condition where it is taken. -/
def Along (Allowed : State → Action → Prop) (state : State) :
    List Action → Prop
  | [] => True
  | action :: actions =>
      Allowed state action ∧
        ∀ next, step state action = some next → Along Allowed next actions

variable {step}

instance decidableAlong {Allowed : State → Action → Prop}
    [∀ state action, Decidable (Allowed state action)] (state : State) :
    (actions : List Action) → Decidable (Along step Allowed state actions)
  | [] => isTrue trivial
  | action :: actions =>
      match h : step state action with
      | none =>
          decidable_of_iff (Allowed state action)
            ⟨fun hallowed => ⟨hallowed, by simp [h]⟩, And.left⟩
      | some next =>
          have : Decidable (Along step Allowed next actions) :=
            decidableAlong next actions
          decidable_of_iff
            (Allowed state action ∧ Along step Allowed next actions)
            (and_congr_right' (by simp [h]))

theorem along_of_forall {Allowed : State → Action → Prop}
    (h : ∀ state action, Allowed state action) {state : State}
    {actions : List Action} : Along step Allowed state actions := by
  induction actions generalizing state with
  | nil => trivial
  | cons action actions ih => exact ⟨h state action, fun next _ => ih⟩

theorem along_of_mem {Allowed : Action → Prop} {state : State}
    {actions : List Action} (h : ∀ action ∈ actions, Allowed action) :
    Along step (fun _ => Allowed) state actions := by
  induction actions generalizing state with
  | nil => trivial
  | cons action actions ih =>
      exact ⟨h action List.mem_cons_self, fun next _ =>
        ih fun other hother => h other (List.mem_cons_of_mem _ hother)⟩

theorem Along.and {First Second : State → Action → Prop} {state : State}
    {actions : List Action} (hfirst : Along step First state actions)
    (hsecond : Along step Second state actions) :
    Along step (fun state action => First state action ∧ Second state action)
      state actions := by
  induction actions generalizing state with
  | nil => trivial
  | cons action actions ih =>
      exact ⟨⟨hfirst.1, hsecond.1⟩, fun next hnext =>
        ih (hfirst.2 next hnext) (hsecond.2 next hnext)⟩

theorem runSteps_invariant_along {Allowed : State → Action → Prop}
    {Invariant : State → Prop}
    (hstep : ∀ {state next action}, step state action = some next →
      Allowed state action → Invariant state → Invariant next)
    {state final : State} {actions : List Action}
    (hrun : runSteps step state actions = some final)
    (halong : Along step Allowed state actions) (h : Invariant state) :
    Invariant final := by
  induction actions generalizing state with
  | nil =>
      injection hrun with hrun
      exact hrun ▸ h
  | cons action actions ih =>
      obtain ⟨next, hnext, hrest⟩ := runSteps_cons step hrun
      exact ih hrest (halong.2 next hnext) (hstep hnext halong.1 h)

theorem runSteps_invariant {Invariant : State → Prop}
    (hstep : ∀ {state next action}, step state action = some next →
      Invariant state → Invariant next)
    {state final : State} {actions : List Action}
    (hrun : runSteps step state actions = some final) (h : Invariant state) :
    Invariant final := by
  have halong : Along step (fun _ _ => True) state actions :=
    along_of_forall fun _ _ => trivial
  exact runSteps_invariant_along (fun hnext _ => hstep hnext) hrun halong h

/--
A property that every step keeps exactly when the step is allowed holds at the
end of a run exactly when it holds at first and every step is allowed.
-/
theorem runSteps_iff_along {Allowed : State → Action → Prop}
    {Invariant Kept : State → Prop}
    (hinvariant : ∀ {state next action}, step state action = some next →
      Invariant state → Invariant next)
    (hkept : ∀ {state next action}, step state action = some next →
      Invariant state → (Kept next ↔ Kept state ∧ Allowed state action))
    {state final : State} {actions : List Action}
    (hrun : runSteps step state actions = some final) (h : Invariant state) :
    Kept final ↔ Kept state ∧ Along step Allowed state actions := by
  induction actions generalizing state with
  | nil =>
      injection hrun with hrun
      subst hrun
      simp [Along]
  | cons action actions ih =>
      obtain ⟨next, hnext, hrest⟩ := runSteps_cons step hrun
      rw [ih hrest (hinvariant hnext h), hkept hnext h, and_assoc]
      refine and_congr_right' (and_congr_right' ?_)
      constructor
      · intro halong other hother
        rw [hnext] at hother
        injection hother with hother
        exact hother ▸ halong
      · intro halong
        exact halong next hnext

/--
A property holds in every state of a run exactly when every step is allowed, if
allowed steps keep an invariant that implies it and other steps break it.
-/
theorem forall_prefix_iff_along {Allowed : State → Action → Prop}
    {Invariant Good : State → Prop}
    (hgood : ∀ {state}, Invariant state → Good state)
    (hstep : ∀ {state next action}, step state action = some next →
      Invariant state → Allowed state action → Invariant next)
    (hback : ∀ {state next action}, step state action = some next →
      Good next → Allowed state action)
    {state final : State} {actions : List Action}
    (hrun : runSteps step state actions = some final) (h : Invariant state) :
    (∀ done, done <+: actions → ∀ reached,
        runSteps step state done = some reached → Good reached) ↔
      Along step Allowed state actions := by
  induction actions generalizing state with
  | nil =>
      refine iff_of_true ?_ trivial
      intro done hdone reached hreached
      rw [List.prefix_nil.mp hdone] at hreached
      injection hreached with hreached
      exact hreached ▸ hgood h
  | cons action actions ih =>
      obtain ⟨next, hnext, hrest⟩ := runSteps_cons step hrun
      have hcons : ∀ done, runSteps step state (action :: done) =
          runSteps step next done := fun done => by rw [runSteps, hnext]
      constructor
      · intro hall
        have hone : Good next := by
          refine hall [action] (List.prefix_append [action] actions) next ?_
          rw [hcons]
          rfl
        have hallowed := hback hnext hone
        refine ⟨hallowed, fun other hother => ?_⟩
        rw [hnext] at hother
        injection hother with hother
        rw [← hother]
        refine (ih hrest (hstep hnext h hallowed)).mp ?_
        intro done hdone reached hreached
        refine hall (action :: done)
          (List.cons_prefix_cons.mpr ⟨rfl, hdone⟩) reached ?_
        rw [hcons, hreached]
      · rintro ⟨hallowed, hlater⟩ done hdone reached hreached
        cases done with
        | nil =>
            injection hreached with hreached
            exact hreached ▸ hgood h
        | cons first done =>
            obtain ⟨rfl, hmore⟩ := List.cons_prefix_cons.mp hdone
            rw [hcons] at hreached
            exact (ih hrest (hstep hnext h hallowed)).mpr
              (hlater next hnext) done hmore reached hreached

theorem runSteps_countP {Invariant : State → Prop} {measure : State → Nat}
    {counts : Action → Bool}
    (hinvariant : ∀ {state next action}, step state action = some next →
      Invariant state → Invariant next)
    (hmeasure : ∀ {state next action}, step state action = some next →
      Invariant state →
        measure next + (if counts action then 1 else 0) ≤ measure state)
    {state final : State} {actions : List Action}
    (hrun : runSteps step state actions = some final) (h : Invariant state) :
    measure final + actions.countP counts ≤ measure state := by
  induction actions generalizing state with
  | nil =>
      injection hrun with hrun
      simp [hrun]
  | cons action actions ih =>
      obtain ⟨next, hnext, hrest⟩ := runSteps_cons step hrun
      have hfirst := hmeasure hnext h
      have hlater := ih hrest (hinvariant hnext h)
      rw [List.countP_cons]
      omega

/-! ## What a run shows -/

section Observations

variable {Seen : Type*} (step) (look : State → Action → List Seen)

/-- Everything that is seen where an action is taken, in order. -/
def observe (state : State) : List Action → List Seen
  | [] => []
  | action :: actions =>
      look state action ++
        match step state action with
        | none => []
        | some next => observe next actions

variable {step look}

variable (step look) in
/-- Every action meets the condition given what has been seen before it. -/
def AlongSeen (Allowed : List Seen → State → Action → Prop)
    (seen : List Seen) (state : State) : List Action → Prop
  | [] => True
  | action :: actions =>
      Allowed seen state action ∧
        ∀ next, step state action = some next →
          AlongSeen Allowed (seen ++ look state action) next actions

instance decidableAlongSeen {Allowed : List Seen → State → Action → Prop}
    [∀ seen state action, Decidable (Allowed seen state action)]
    (seen : List Seen) (state : State) : (actions : List Action) →
      Decidable (AlongSeen step look Allowed seen state actions)
  | [] => isTrue trivial
  | action :: actions =>
      match h : step state action with
      | none =>
          decidable_of_iff (Allowed seen state action)
            ⟨fun hallowed => ⟨hallowed, by simp [h]⟩, And.left⟩
      | some next =>
          have : Decidable (AlongSeen step look Allowed
              (seen ++ look state action) next actions) :=
            decidableAlongSeen (seen ++ look state action) next actions
          decidable_of_iff
            (Allowed seen state action ∧ AlongSeen step look Allowed
              (seen ++ look state action) next actions)
            (and_congr_right' (by simp [h]))

theorem runSteps_observe_alongSeen
    {Allowed : List Seen → State → Action → Prop}
    {Invariant : List Seen → State → Prop}
    (hstep : ∀ {seen state next action}, step state action = some next →
      Allowed seen state action → Invariant seen state →
        Invariant (seen ++ look state action) next)
    {seen : List Seen} {state final : State} {actions : List Action}
    (hrun : runSteps step state actions = some final)
    (halong : AlongSeen step look Allowed seen state actions)
    (h : Invariant seen state) :
    Invariant (seen ++ observe step look state actions) final := by
  induction actions generalizing seen state with
  | nil =>
      injection hrun with hrun
      subst hrun
      simpa [observe] using h
  | cons action actions ih =>
      obtain ⟨next, hnext, hrest⟩ := runSteps_cons step hrun
      rw [observe, hnext, ← List.append_assoc]
      exact ih hrest (halong.2 next hnext) (hstep hnext halong.1 h)

theorem Along.seen {Allowed : State → Action → Prop} {seen : List Seen}
    {state : State} {actions : List Action}
    (h : Along step Allowed state actions) :
    AlongSeen step look (fun _ => Allowed) seen state actions := by
  induction actions generalizing seen state with
  | nil => trivial
  | cons action actions ih => exact ⟨h.1, fun next hnext => ih (h.2 next hnext)⟩

theorem runSteps_observe_along {Allowed : State → Action → Prop}
    {Invariant : List Seen → State → Prop}
    (hstep : ∀ {seen state next action}, step state action = some next →
      Allowed state action → Invariant seen state →
        Invariant (seen ++ look state action) next)
    {seen : List Seen} {state final : State} {actions : List Action}
    (hrun : runSteps step state actions = some final)
    (halong : Along step Allowed state actions) (h : Invariant seen state) :
    Invariant (seen ++ observe step look state actions) final :=
  runSteps_observe_alongSeen hstep hrun halong.seen h

theorem runSteps_observe {Invariant : List Seen → State → Prop}
    (hstep : ∀ {seen state next action}, step state action = some next →
      Invariant seen state → Invariant (seen ++ look state action) next)
    {seen : List Seen} {state final : State} {actions : List Action}
    (hrun : runSteps step state actions = some final)
    (h : Invariant seen state) :
    Invariant (seen ++ observe step look state actions) final := by
  have halong : Along step (fun _ _ => True) state actions :=
    along_of_forall fun _ _ => trivial
  exact runSteps_observe_along (fun hnext _ => hstep hnext) hrun halong h

/-- What is said of everything that a run shows is said where it is shown. -/
theorem along_of_observe {Good : Seen → Prop} {state : State}
    {actions : List Action}
    (h : ∀ seen ∈ observe step look state actions, Good seen) :
    Along step (fun state action => ∀ seen ∈ look state action, Good seen)
      state actions := by
  induction actions generalizing state with
  | nil => trivial
  | cons action actions ih =>
      refine ⟨fun seen hseen => h seen (List.mem_append_left _ hseen), ?_⟩
      intro next hnext
      refine ih fun seen hseen => h seen (List.mem_append_right _ ?_)
      rw [hnext]
      exact hseen

end Observations

end HartLink.Foundation
