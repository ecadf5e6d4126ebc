import HartLink.Foundation.Bytes

/-!
# Online scanners

A scanner looks at the front of a buffer and decides to wait for more input, to
skip some leading elements, or to emit an event that consumes some of them.
Decisions are *stable*: input that arrives later never revises an event, and it
can only lengthen a skip.  The scanner is driven until it waits, while an
observer folds over what it skips and emits.

The main result, `scan_append`, says that a stable scanner cannot see how its
input was cut: scanning a prefix, keeping the unconsumed rest and scanning the
rest together with the remaining input gives the same final state as scanning
everything at once.
-/

namespace HartLink.Foundation

inductive Verdict (ε : Type*) where
  | wait
  | skip (count : Nat)
  | emit (event : ε) (count : Nat)
  deriving DecidableEq, Repr

structure Scanner (β ε : Type*) where
  judge : List β → Verdict ε
  skip_bounds : ∀ {buffer count}, judge buffer = .skip count →
    0 < count ∧ count ≤ buffer.length
  emit_bounds : ∀ {buffer event count}, judge buffer = .emit event count →
    0 < count ∧ count ≤ buffer.length
  emit_append : ∀ {buffer event count} (more : List β),
    judge buffer = .emit event count →
      judge (buffer ++ more) = .emit event count
  skip_append : ∀ {buffer count} (more : List β),
    judge buffer = .skip count →
      ∃ extra, judge (buffer ++ more) = .skip (count + extra) ∧
        (extra = 0 ∨ judge (buffer.drop count ++ more) = .skip extra)

/-- A fold over skips and events that cannot tell two adjacent skips from one. -/
structure Observer (ε σ : Type*) where
  onSkip : Nat → σ → σ
  onEmit : ε → Nat → σ → σ
  onSkip_onSkip : ∀ a b s, onSkip b (onSkip a s) = onSkip (a + b) s

namespace Scanner

variable {β ε σ τ : Type*} (S : Scanner β ε) (O : Observer ε σ)

def drive : Nat → List β → σ → List β × σ
  | 0, buffer, s => (buffer, s)
  | fuel + 1, buffer, s =>
      match S.judge buffer with
      | .wait => (buffer, s)
      | .skip count => drive fuel (buffer.drop count) (O.onSkip count s)
      | .emit event count =>
          drive fuel (buffer.drop count) (O.onEmit event count s)

/-- Every decision but `wait` consumes an element, so the length is fuel enough. -/
def scan (buffer : List β) (s : σ) : List β × σ :=
  S.drive O buffer.length buffer s

theorem judge_nil : S.judge [] = .wait := by
  cases h : S.judge [] with
  | wait => rfl
  | skip count =>
      have := S.skip_bounds h
      simp at this
      omega
  | emit event count =>
      have := S.emit_bounds h
      simp at this
      omega

theorem judge_wait_of_longer {buffer more : List β} {event : ε} {count : Nat}
    (h : S.judge (buffer ++ more) = .emit event count)
    (hlonger : buffer.length < count) : S.judge buffer = .wait := by
  cases hjudge : S.judge buffer with
  | wait => rfl
  | skip skipped =>
      obtain ⟨extra, hskip, -⟩ := S.skip_append more hjudge
      rw [h] at hskip
      contradiction
  | emit found consumed =>
      have hbounds := S.emit_bounds hjudge
      have hemit := S.emit_append more hjudge
      rw [h] at hemit
      injection hemit with _ hcount
      omega

theorem drive_of_length_le {fuel₁ : Nat} (fuel₂ : Nat) {buffer : List β}
    {s : σ} (h₁ : buffer.length ≤ fuel₁) (h₂ : buffer.length ≤ fuel₂) :
    S.drive O fuel₁ buffer s = S.drive O fuel₂ buffer s := by
  induction fuel₁ generalizing fuel₂ buffer s with
  | zero =>
      obtain rfl : buffer = [] := List.eq_nil_of_length_eq_zero (by omega)
      cases fuel₂ <;> simp [drive, judge_nil]
  | succ fuel₁ ih =>
      cases fuel₂ with
      | zero =>
          obtain rfl : buffer = [] := List.eq_nil_of_length_eq_zero (by omega)
          simp [drive, judge_nil]
      | succ fuel₂ =>
          simp only [drive]
          cases h : S.judge buffer with
          | wait => rfl
          | skip count =>
              have hb := S.skip_bounds h
              apply ih <;> rw [List.length_drop] <;> omega
          | emit event count =>
              have hb := S.emit_bounds h
              apply ih <;> rw [List.length_drop] <;> omega

/-! ## Unfolding one decision -/

theorem scan_wait {buffer : List β} (s : σ) (h : S.judge buffer = .wait) :
    S.scan O buffer s = (buffer, s) := by
  unfold scan
  cases hlength : buffer.length with
  | zero => rfl
  | succ fuel => simp [drive, h]

theorem scan_skip {buffer : List β} (s : σ) {count : Nat}
    (h : S.judge buffer = .skip count) :
    S.scan O buffer s = S.scan O (buffer.drop count) (O.onSkip count s) := by
  have hb := S.skip_bounds h
  unfold scan
  rw [S.drive_of_length_le O (buffer.length + 1) le_rfl (by omega)]
  simp only [drive, h]
  apply S.drive_of_length_le O <;> rw [List.length_drop]
  omega

theorem scan_emit {buffer : List β} (s : σ) {event : ε} {count : Nat}
    (h : S.judge buffer = .emit event count) :
    S.scan O buffer s =
      S.scan O (buffer.drop count) (O.onEmit event count s) := by
  have hb := S.emit_bounds h
  unfold scan
  rw [S.drive_of_length_le O (buffer.length + 1) le_rfl (by omega)]
  simp only [drive, h]
  apply S.drive_of_length_le O <;> rw [List.length_drop]
  omega

/--
Induction along the decisions of a scanner: a property of every buffer follows
from the waiting buffers and one step of each consuming decision.
-/
theorem scan_induction {motive : List β → Prop}
    (wait : ∀ buffer, S.judge buffer = .wait → motive buffer)
    (skip : ∀ buffer count, S.judge buffer = .skip count →
      motive (buffer.drop count) → motive buffer)
    (emit : ∀ buffer event count, S.judge buffer = .emit event count →
      motive (buffer.drop count) → motive buffer)
    (buffer : List β) : motive buffer := by
  induction hlength : buffer.length using Nat.strong_induction_on
    generalizing buffer with
  | _ n ih =>
      subst hlength
      cases h : S.judge buffer with
      | wait => exact wait buffer h
      | skip count =>
          have hb := S.skip_bounds h
          refine skip buffer count h (ih _ ?_ _ rfl)
          rw [List.length_drop]
          omega
      | emit event count =>
          have hb := S.emit_bounds h
          refine emit buffer event count h (ih _ ?_ _ rfl)
          rw [List.length_drop]
          omega

/-! ## Results about whole scans -/

theorem judge_scan_fst (buffer : List β) (s : σ) :
    S.judge (S.scan O buffer s).1 = .wait := by
  induction buffer using S.scan_induction generalizing s with
  | wait buffer h => rw [S.scan_wait O s h, h]
  | skip buffer count h ih => rw [S.scan_skip O s h, ih]
  | emit buffer event count h ih => rw [S.scan_emit O s h, ih]

theorem scan_fst_suffix (buffer : List β) (s : σ) :
    (S.scan O buffer s).1 <:+ buffer := by
  induction buffer using S.scan_induction generalizing s with
  | wait buffer h => simp [S.scan_wait O s h]
  | skip buffer count h ih =>
      rw [S.scan_skip O s h]
      exact (ih _).trans (List.drop_suffix _ _)
  | emit buffer event count h ih =>
      rw [S.scan_emit O s h]
      exact (ih _).trans (List.drop_suffix _ _)

theorem scan_append (buffer more : List β) (s : σ) :
    S.scan O (buffer ++ more) s =
      S.scan O ((S.scan O buffer s).1 ++ more) (S.scan O buffer s).2 := by
  induction buffer using S.scan_induction generalizing s with
  | wait buffer h => rw [S.scan_wait O s h]
  | emit buffer event count h ih =>
      have hb := S.emit_bounds h
      rw [S.scan_emit O s (S.emit_append more h), S.scan_emit O s h, ← ih,
        List.drop_append_of_le_length hb.2]
  | skip buffer count h ih =>
      have hb := S.skip_bounds h
      rw [S.scan_skip O s h, ← ih]
      -- Later input may turn this skip and the next one into a single skip.
      obtain ⟨extra, hlong, hextra⟩ := S.skip_append more h
      rw [S.scan_skip O s hlong, ← O.onSkip_onSkip, ← List.drop_drop,
        List.drop_append_of_le_length hb.2]
      rcases hextra with rfl | hextra
      · have hzero : O.onSkip 0 (O.onSkip count s) = O.onSkip count s := by
          rw [O.onSkip_onSkip, Nat.add_zero]
        rw [hzero, List.drop_zero]
      · rw [S.scan_skip O _ hextra]

theorem scan_map (P : Observer ε τ) (f : σ → τ)
    (hskip : ∀ count s, f (O.onSkip count s) = P.onSkip count (f s))
    (hemit : ∀ event count s,
      f (O.onEmit event count s) = P.onEmit event count (f s))
    (buffer : List β) (s : σ) :
    S.scan P buffer (f s) =
      ((S.scan O buffer s).1, f (S.scan O buffer s).2) := by
  induction buffer using S.scan_induction generalizing s with
  | wait buffer h => rw [S.scan_wait O s h, S.scan_wait P _ h]
  | skip buffer count h ih =>
      rw [S.scan_skip O s h, S.scan_skip P _ h, ← hskip, ih]
  | emit buffer event count h ih =>
      rw [S.scan_emit O s h, S.scan_emit P _ h, ← hemit, ih]

end Scanner

end HartLink.Foundation
