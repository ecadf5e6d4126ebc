import Mathlib.Data.List.Forall2

/-!
# Grammars of readers

A grammar says which strings stand for a value.  A reader that moves over a tape
parses a grammar when it returns a value exactly where one of the strings of the
value comes next, and moves behind it.  Readers compose as their grammars do.
-/

namespace HartLink.Foundation

/-- The strings that stand for a value. -/
abbrev Grammar (Symbol Value : Type) := Value → List Symbol → Prop

namespace Grammar

variable {Symbol Value Other : Type}

def nothing (value : Value) : Grammar Symbol Value :=
  fun found string => found = value ∧ string = []

def encoded (encode : Value → List Symbol) : Grammar Symbol Value :=
  fun value string => string = encode value

/-- What follows may depend on the value in front of it. -/
def followed (first : Grammar Symbol Value)
    (second : Value → Grammar Symbol Other) : Grammar Symbol Other :=
  fun other string => ∃ value front back, string = front ++ back ∧
    first value front ∧ second value other back

def repeated (grammar : Grammar Symbol Value) : Grammar Symbol (List Value) :=
  fun values string => ∃ parts, string = parts.flatten ∧
    List.Forall₂ grammar values parts

theorem repeated_nil {grammar : Grammar Symbol Value} {string : List Symbol} :
    grammar.repeated [] string ↔ string = [] := by
  constructor
  · rintro ⟨parts, rfl, hparts⟩
    rw [List.forall₂_nil_left_iff.mp hparts]
    rfl
  · rintro rfl
    exact ⟨[], rfl, .nil⟩

theorem repeated_cons {grammar : Grammar Symbol Value} {value : Value}
    {values : List Value} {string : List Symbol} :
    grammar.repeated (value :: values) string ↔
      ∃ front back, string = front ++ back ∧ grammar value front ∧
        grammar.repeated values back := by
  constructor
  · rintro ⟨parts, rfl, hparts⟩
    obtain ⟨front, others, hfront, hothers, rfl⟩ :=
      List.forall₂_cons_left_iff.mp hparts
    exact ⟨front, others.flatten, rfl, hfront, others, rfl, hothers⟩
  · rintro ⟨front, back, rfl, hfront, parts, rfl, hparts⟩
    exact ⟨front :: parts, rfl, .cons hfront hparts⟩

theorem length_repeated {grammar : Grammar Symbol Value} {width : Nat}
    (hwidth : ∀ value string, grammar value string → string.length = width)
    {values : List Value} {string : List Symbol}
    (h : grammar.repeated values string) :
    string.length = values.length * width := by
  induction values generalizing string with
  | nil =>
      rw [repeated_nil.mp h]
      simp
  | cons value values ih =>
      obtain ⟨front, back, rfl, hfront, hback⟩ := repeated_cons.mp h
      rw [List.length_append, hwidth value front hfront, ih hback,
        List.length_cons, Nat.succ_mul, Nat.add_comm]

theorem repeated_encoded {encode : Value → List Symbol} {values : List Value}
    {string : List Symbol} :
    (encoded encode).repeated values string ↔ string = values.flatMap encode := by
  induction values generalizing string with
  | nil => exact repeated_nil
  | cons value values ih =>
      rw [repeated_cons, List.flatMap_cons]
      constructor
      · rintro ⟨front, back, rfl, rfl, hback⟩
        rw [ih.mp hback]
      · rintro rfl
        exact ⟨_, _, rfl, rfl, ih.mpr rfl⟩

end Grammar

/-! ## Readers -/

/-- A state with the symbols in front of it, which can be passed over. -/
structure Tape (State Symbol : Type) where
  view : State → List Symbol
  advance : State → Nat → State
  view_advance : ∀ state count, view (advance state count) =
    (view state).drop count
  advance_zero : ∀ state, advance state 0 = state
  advance_add : ∀ state first second,
    advance (advance state first) second = advance state (first + second)

namespace Tape

variable {State Symbol Error Value Other : Type} (tape : Tape State Symbol)

/-- The reader returns a value exactly where a string of the value is next. -/
def Parses (read : State → Except Error (Value × State))
    (grammar : Grammar Symbol Value) : Prop :=
  ∀ state value next, read state = .ok (value, next) ↔
    ∃ string, grammar value string ∧ string <+: tape.view state ∧
      next = tape.advance state string.length

variable {tape}

theorem Parses.of_iff {read : State → Except Error (Value × State)}
    {grammar other : Grammar Symbol Value} (h : tape.Parses read grammar)
    (hiff : ∀ value string, grammar value string ↔ other value string) :
    tape.Parses read other := by
  intro state value next
  rw [h state value next]
  simp only [hiff]

theorem parses_pure (value : Value) :
    tape.Parses (fun state => (.ok (value, state) : Except Error _))
      (Grammar.nothing value) := by
  intro state found next
  constructor
  · intro h
    cases h
    exact ⟨[], ⟨rfl, rfl⟩, List.nil_prefix, (tape.advance_zero state).symm⟩
  · rintro ⟨string, ⟨rfl, rfl⟩, -, rfl⟩
    rw [List.length_nil, tape.advance_zero]

theorem Parses.bind {first : State → Except Error (Value × State)}
    {second : Value → State → Except Error (Other × State)}
    {front : Grammar Symbol Value} {back : Value → Grammar Symbol Other}
    (hfirst : tape.Parses first front)
    (hsecond : ∀ value, tape.Parses (second value) (back value)) :
    tape.Parses (fun state => first state >>= fun taken =>
      second taken.1 taken.2) (front.followed back) := by
  intro state other next
  change (first state >>= fun taken => second taken.1 taken.2) = _ ↔ _
  constructor
  · intro h
    cases hread : first state with
    | error error =>
        rw [hread] at h
        contradiction
    | ok taken =>
        rw [hread] at h
        obtain ⟨before, hbefore, hprefix, hmiddle⟩ :=
          (hfirst state taken.1 taken.2).mp hread
        obtain ⟨after, hafter, hrest, rfl⟩ :=
          (hsecond taken.1 taken.2 other next).mp h
        rw [hmiddle, tape.view_advance] at hrest
        refine ⟨before ++ after, ⟨taken.1, before, after, rfl, hbefore,
          hafter⟩, ?_, ?_⟩
        · obtain ⟨rest, hview⟩ := hprefix
          rw [← hview, List.drop_left] at hrest
          rw [← hview]
          exact (List.prefix_append_right_inj before).mpr hrest
        · rw [hmiddle, tape.advance_add, List.length_append]
  · rintro ⟨string, ⟨value, before, after, rfl, hbefore, hafter⟩, hprefix,
      rfl⟩
    obtain ⟨rest, hview⟩ := hprefix
    rw [List.append_assoc] at hview
    have hread := (hfirst state value (tape.advance state before.length)).mpr
      ⟨before, hbefore, ⟨after ++ rest, hview⟩, rfl⟩
    have hnext := (hsecond value (tape.advance state before.length) other
      (tape.advance state (before ++ after).length)).mpr
      ⟨after, hafter, by
        rw [tape.view_advance, ← hview, List.drop_left]
        exact List.prefix_append after rest,
        by rw [tape.advance_add, List.length_append]⟩
    rw [hread]
    exact hnext

/-! ## Whole tapes -/

variable (tape) in
def ReadsWhole (read : State → Except Error (Value × State))
    (grammar : Grammar Symbol Value) : Prop :=
  ∀ state value, (∃ next, read state = .ok (value, next) ∧
    tape.view next = []) ↔ grammar value (tape.view state)

theorem Parses.readsWhole {read : State → Except Error (Value × State)}
    {grammar : Grammar Symbol Value} (h : tape.Parses read grammar) :
    tape.ReadsWhole read grammar := by
  intro state value
  constructor
  · rintro ⟨next, hread, hnext⟩
    obtain ⟨string, hstring, ⟨rest, hview⟩, rfl⟩ := (h state value next).mp hread
    rw [tape.view_advance, ← hview, List.drop_left] at hnext
    rwa [← hview, hnext, List.append_nil]
  · intro hgrammar
    refine ⟨tape.advance state (tape.view state).length,
      (h _ _ _).mpr ⟨_, hgrammar, List.prefix_rfl, rfl⟩, ?_⟩
    rw [tape.view_advance, List.drop_length]

theorem ReadsWhole.of_iff {read : State → Except Error (Value × State)}
    {grammar other : Grammar Symbol Value} (h : tape.ReadsWhole read grammar)
    (hiff : ∀ value string, grammar value string ↔ other value string) :
    tape.ReadsWhole read other :=
  fun state value => (h state value).trans (hiff value _)

theorem Parses.bind_whole {first : State → Except Error (Value × State)}
    {second : Value → State → Except Error (Other × State)}
    {front : Grammar Symbol Value} {back : Value → Grammar Symbol Other}
    (hfirst : tape.Parses first front)
    (hsecond : ∀ value, tape.ReadsWhole (second value) (back value)) :
    tape.ReadsWhole (fun state => first state >>= fun taken =>
      second taken.1 taken.2) (front.followed back) := by
  intro state other
  change (∃ next, (first state >>= fun taken =>
    second taken.1 taken.2) = _ ∧ _) ↔ _
  constructor
  · rintro ⟨next, hread, hnext⟩
    cases hone : first state with
    | error error =>
        rw [hone] at hread
        contradiction
    | ok taken =>
        rw [hone] at hread
        obtain ⟨before, hbefore, ⟨rest, hview⟩, hmiddle⟩ :=
          (hfirst state taken.1 taken.2).mp hone
        have hafter := (hsecond taken.1 taken.2 other).mp ⟨next, hread, hnext⟩
        rw [hmiddle, tape.view_advance, ← hview, List.drop_left] at hafter
        exact ⟨taken.1, before, rest, hview.symm, hbefore, hafter⟩
  · rintro ⟨value, before, rest, hview, hbefore, hafter⟩
    have hone := (hfirst state value (tape.advance state before.length)).mpr
      ⟨before, hbefore, ⟨rest, hview.symm⟩, rfl⟩
    have hrest : tape.view (tape.advance state before.length) = rest := by
      rw [tape.view_advance, hview, List.drop_left]
    obtain ⟨next, hread, hnext⟩ := (hsecond value _ other).mpr (hrest ▸ hafter)
    refine ⟨next, ?_, hnext⟩
    rw [hone]
    exact hread

theorem readsWhole_pure (value : Value) :
    tape.ReadsWhole (fun state => (.ok (value, state) : Except Error _))
      (Grammar.nothing value) :=
  (parses_pure value).readsWhole

theorem ReadsWhole.map {read : State → Except Error (Value × State)}
    {grammar : Grammar Symbol Value} (h : tape.ReadsWhole read grammar)
    (change : Value → Other) :
    tape.ReadsWhole (fun state => read state >>= fun taken =>
        .ok (change taken.1, taken.2))
      fun other string => ∃ value, other = change value ∧
        grammar value string := by
  intro state other
  constructor
  · rintro ⟨next, hread, hnext⟩
    cases hone : read state with
    | error error =>
        simp only [hone, bind, Except.bind] at hread
        contradiction
    | ok taken =>
        simp only [hone, bind, Except.bind] at hread
        cases hread
        exact ⟨taken.1, rfl, (h state taken.1).mp ⟨taken.2, hone, hnext⟩⟩
  · rintro ⟨value, rfl, hgrammar⟩
    obtain ⟨next, hone, hnext⟩ := (h state value).mpr hgrammar
    refine ⟨next, ?_, hnext⟩
    simp only [hone, bind, Except.bind]

theorem readsWhole_unlessEnd {ended : State → Prop} [DecidablePred ended]
    (hended : ∀ state, ended state ↔ tape.view state = []) (absent : Value)
    {read : State → Except Error (Value × State)}
    {grammar : Grammar Symbol Value} (h : tape.ReadsWhole read grammar)
    (hempty : ∀ value, ¬ grammar value []) :
    tape.ReadsWhole
      (fun state => if ended state then .ok (absent, state) else read state)
      fun value string =>
        Grammar.nothing absent value string ∨ grammar value string := by
  intro state value
  change (∃ next, (if ended state then _ else _) = _ ∧ _) ↔ _
  split_ifs with hend
  · have hview := (hended state).mp hend
    rw [hview]
    refine (readsWhole_pure absent state value).trans ?_
    rw [hview]
    exact (or_iff_left (hempty value)).symm
  · refine (h state value).trans (or_iff_right ?_).symm
    rintro ⟨-, hview⟩
    exact hend ((hended state).mpr hview)

/-! ## Loops -/

variable (tape) in
def readWhile (width : Nat) (read : State → Except Error (Value × State)) :
    Nat → State → Except Error (List Value × State)
  | 0, state => .ok ([], state)
  | room + 1, state =>
      if (tape.view state).length < width then .ok ([], state)
      else
        read state >>= fun taken =>
          readWhile width read room taken.2 >>= fun others =>
            .ok (taken.1 :: others.1, others.2)

theorem readsWhole_readWhile {width : Nat} (hpositive : 0 < width)
    {read : State → Except Error (Value × State)}
    {grammar : Grammar Symbol Value} (h : tape.Parses read grammar)
    (hwidth : ∀ value string, grammar value string → string.length = width)
    (room : Nat) :
    tape.ReadsWhole (tape.readWhile width read room) fun values string =>
      values.length ≤ room ∧ grammar.repeated values string := by
  intro state values
  induction room generalizing state values with
  | zero =>
      constructor
      · rintro ⟨next, hread, hnext⟩
        cases hread
        exact ⟨Nat.le_refl _, Grammar.repeated_nil.mpr hnext⟩
      · rintro ⟨hlength, hgrammar⟩
        obtain rfl := List.length_eq_zero_iff.mp (Nat.le_zero.mp hlength)
        exact ⟨state, rfl, Grammar.repeated_nil.mp hgrammar⟩
  | succ room ih =>
      rw [readWhile]
      split_ifs with hshort
      · -- No value fits any more, so there is none.
        constructor
        · rintro ⟨next, hread, hnext⟩
          cases hread
          exact ⟨Nat.zero_le _, Grammar.repeated_nil.mpr hnext⟩
        · rintro ⟨-, hgrammar⟩
          have hlength := Grammar.length_repeated hwidth hgrammar
          have hnone : values.length = 0 := by
            by_contra hsome
            have := Nat.le_mul_of_pos_left width (Nat.pos_of_ne_zero hsome)
            omega
          obtain rfl := List.length_eq_zero_iff.mp hnone
          exact ⟨state, rfl, Grammar.repeated_nil.mp hgrammar⟩
      · constructor
        · rintro ⟨next, hread, hnext⟩
          cases hfirst : read state with
          | error error =>
              rw [hfirst] at hread
              contradiction
          | ok taken =>
              cases hothers : tape.readWhile width read room taken.2 with
              | error error =>
                  simp only [hfirst, hothers, bind, Except.bind] at hread
                  contradiction
              | ok others =>
                  simp only [hfirst, hothers, bind, Except.bind] at hread
                  cases hread
                  obtain ⟨front, hfront, ⟨back, hview⟩, hmiddle⟩ :=
                    (h state taken.1 taken.2).mp hfirst
                  obtain ⟨hlength, hback⟩ :=
                    (ih taken.2 others.1).mp ⟨others.2, hothers, hnext⟩
                  rw [hmiddle, tape.view_advance, ← hview, List.drop_left]
                    at hback
                  exact ⟨Nat.succ_le_succ hlength, Grammar.repeated_cons.mpr
                    ⟨front, back, hview.symm, hfront, hback⟩⟩
        · rintro ⟨hlength, hgrammar⟩
          cases values with
          | nil =>
              rw [Grammar.repeated_nil.mp hgrammar, List.length_nil] at hshort
              omega
          | cons value values =>
              obtain ⟨front, back, hview, hfront, hback⟩ :=
                Grammar.repeated_cons.mp hgrammar
              have hfirst := (h state value _).mpr
                ⟨front, hfront, ⟨back, hview.symm⟩, rfl⟩
              have hrest : tape.view (tape.advance state front.length) =
                  back := by
                rw [tape.view_advance, hview, List.drop_left]
              obtain ⟨next, hothers, hnext⟩ :=
                (ih (tape.advance state front.length) values).mpr
                  ⟨Nat.le_of_succ_le_succ hlength, hrest ▸ hback⟩
              refine ⟨next, ?_, hnext⟩
              rw [hfirst]
              simp only [bind, Except.bind, hothers]

end Tape

end HartLink.Foundation
