import HartLink.Foundation.Bytes

/-!
# A byte stream with interrupted transfers

A task reads from and writes to a stream.  Every transfer is an await point:
there the stream may report an error, one of two nested timers may run out, or
the task may be dropped, each time after some of the bytes have moved.  What
happens at the awaits is given in advance; the log tells where it happened.
-/

namespace HartLink.Foundation

inductive StreamError where
  | unexpectedEof
  | timedOut
  | other
  deriving DecidableEq, Repr

inductive Interruption where
  | innerTimer
  | outerTimer
  | dropped
  deriving DecidableEq, Repr

inductive Await where
  | ready
  | failed (error : StreamError) (moved : Nat)
  | interrupted (interruption : Interruption) (moved : Nat)
  deriving DecidableEq, Repr

/--
`input` is everything that the peer sends from here on before it closes, and
`awaits` what happens at the next awaits; the later ones complete.
-/
structure Duplex (Point : Type*) where
  input : Bytes
  consumed : Bytes := []
  written : Bytes := []
  awaits : List Await := []
  log : List (Point × Await) := []
  deriving DecidableEq, Repr

inductive Outcome (α : Type*) where
  | done (value : α)
  | failed (error : StreamError)
  | interrupted (interruption : Interruption)
  deriving DecidableEq, Repr

namespace Duplex

variable {Point : Type*}

def under (awaits : List Await) (stream : Duplex Point) : Duplex Point :=
  { stream with awaits }

def upcoming (stream : Duplex Point) : Await := stream.awaits.headD .ready

/-- An await ends after a number of bytes have been read. -/
def consume (point : Point) (await : Await) (count : Nat)
    (stream : Duplex Point) : Duplex Point :=
  { stream with
    input := stream.input.drop count
    consumed := stream.consumed ++ stream.input.take count
    awaits := stream.awaits.tail
    log := stream.log ++ [(point, await)] }

def produce (point : Point) (await : Await) (bytes : Bytes)
    (stream : Duplex Point) : Duplex Point :=
  { stream with
    written := stream.written ++ bytes
    awaits := stream.awaits.tail
    log := stream.log ++ [(point, await)] }

/-- Fills a buffer; an empty one is full without an await. -/
def readExact (point : Point) (count : Nat) (stream : Duplex Point) :
    Duplex Point × Outcome Bytes :=
  if count = 0 then (stream, .done [])
  else
    match stream.upcoming with
    | .ready =>
        if count ≤ stream.input.length then
          (stream.consume point .ready count, .done (stream.input.take count))
        else
          (stream.consume point (.failed .unexpectedEof stream.input.length)
            stream.input.length, .failed .unexpectedEof)
    | .failed error moved =>
        let moved := min moved (min (count - 1) stream.input.length)
        (stream.consume point (.failed error moved) moved, .failed error)
    | .interrupted interruption moved =>
        let moved := min moved (min (count - 1) stream.input.length)
        (stream.consume point (.interrupted interruption moved) moved,
          .interrupted interruption)

/-- Reads and forgets bytes in chunks; the first number bounds the chunks. -/
def discardLoop (point : Point) (chunk : Nat) :
    Nat → Nat → Duplex Point → Duplex Point × Outcome Unit
  | 0, _, stream => (stream, .done ())
  | bound + 1, remaining, stream =>
      if remaining = 0 then (stream, .done ())
      else
        match stream.readExact point (min remaining chunk) with
        | (stream, .done _) =>
            discardLoop point chunk bound (remaining - min remaining chunk)
              stream
        | (stream, .failed error) => (stream, .failed error)
        | (stream, .interrupted interruption) =>
            (stream, .interrupted interruption)

def discardExact (point : Point) (chunk remaining : Nat)
    (stream : Duplex Point) : Duplex Point × Outcome Unit :=
  discardLoop point chunk remaining remaining stream

def writeAll (point : Point) (bytes : Bytes) (stream : Duplex Point) :
    Duplex Point × Outcome Unit :=
  if bytes = [] then (stream, .done ())
  else
    match stream.upcoming with
    | .ready => (stream.produce point .ready bytes, .done ())
    | .failed error moved =>
        let moved := min moved (bytes.length - 1)
        (stream.produce point (.failed error moved) (bytes.take moved),
          .failed error)
    | .interrupted interruption moved =>
        let moved := min moved (bytes.length - 1)
        (stream.produce point (.interrupted interruption moved)
          (bytes.take moved), .interrupted interruption)

def flush (point : Point) (stream : Duplex Point) :
    Duplex Point × Outcome Unit :=
  match stream.upcoming with
  | .ready => (stream.produce point .ready [], .done ())
  | .failed error _ =>
      (stream.produce point (.failed error 0) [], .failed error)
  | .interrupted interruption _ =>
      (stream.produce point (.interrupted interruption 0) [],
        .interrupted interruption)

/-! ## What a transfer does -/

/-- Bytes go from the input to what has been consumed. -/
structure Reads (bytes : Bytes) (stream next : Duplex Point) : Prop where
  input : stream.input = bytes ++ next.input
  consumed : next.consumed = stream.consumed ++ bytes
  written : next.written = stream.written

theorem Reads.refl (stream : Duplex Point) : Reads [] stream stream :=
  ⟨rfl, (List.append_nil _).symm, rfl⟩

theorem Reads.trans {first second : Bytes} {stream middle next : Duplex Point}
    (h : Reads first stream middle) (h' : Reads second middle next) :
    Reads (first ++ second) stream next :=
  ⟨by rw [h.input, h'.input, List.append_assoc],
    by rw [h'.consumed, h.consumed, List.append_assoc],
    h'.written.trans h.written⟩

theorem reads_consume (point : Point) (await : Await) (count : Nat)
    (stream : Duplex Point) :
    Reads (stream.input.take count) stream (stream.consume point await count) :=
  ⟨(List.take_append_drop count stream.input).symm, rfl, rfl⟩

/-- The awaits that the log gained, none of them interrupted. -/
def Undisturbed (stream next : Duplex Point) : Prop :=
  ∃ entries, next.log = stream.log ++ entries ∧
    ∀ entry ∈ entries, ∀ interruption moved,
      entry.2 ≠ .interrupted interruption moved

def Disturbed (point : Point) (interruption : Interruption) (moved : Nat)
    (stream next : Duplex Point) : Prop :=
  ∃ middle : Duplex Point, Undisturbed stream middle ∧
    next.log = middle.log ++ [(point, .interrupted interruption moved)]

theorem undisturbed_refl (stream : Duplex Point) :
    Undisturbed stream stream :=
  ⟨[], (List.append_nil _).symm, by simp⟩

theorem Undisturbed.trans {stream middle next : Duplex Point}
    (h : Undisturbed stream middle) (h' : Undisturbed middle next) :
    Undisturbed stream next := by
  obtain ⟨first, hfirst, hfirstClear⟩ := h
  obtain ⟨second, hsecond, hsecondClear⟩ := h'
  refine ⟨first ++ second, by rw [hsecond, hfirst, List.append_assoc], ?_⟩
  intro entry hentry
  rcases List.mem_append.mp hentry with hmem | hmem
  · exact hfirstClear entry hmem
  · exact hsecondClear entry hmem

theorem Undisturbed.disturbed {point : Point} {interruption : Interruption}
    {moved : Nat} {stream middle next : Duplex Point}
    (h : Undisturbed stream middle)
    (h' : Disturbed point interruption moved middle next) :
    Disturbed point interruption moved stream next := by
  obtain ⟨other, hother, hlog⟩ := h'
  exact ⟨other, h.trans hother, hlog⟩

theorem undisturbed_single {point : Point} {await : Await}
    {stream next : Duplex Point}
    (hlog : next.log = stream.log ++ [(point, await)])
    (hclear : ∀ interruption moved,
      await ≠ .interrupted interruption moved) :
    Undisturbed stream next :=
  ⟨[(point, await)], hlog, by simpa using hclear⟩

/-- How filling a buffer ends; an interrupted read leaves what has moved. -/
inductive Fills (point : Point) (count : Nat) (stream : Duplex Point) :
    Duplex Point → Outcome Bytes → Prop
  | done {next : Duplex Point} {bytes : Bytes} (reads : Reads bytes stream next)
      (log : Undisturbed stream next) (length : bytes.length = count) :
      Fills point count stream next (.done bytes)
  | failed {next : Duplex Point} {bytes : Bytes} {error : StreamError}
      (reads : Reads bytes stream next) (log : Undisturbed stream next) :
      Fills point count stream next (.failed error)
  | interrupted {next : Duplex Point} {bytes : Bytes}
      {interruption : Interruption} (reads : Reads bytes stream next)
      (log : Disturbed point interruption bytes.length stream next)
      (length : bytes.length < count) :
      Fills point count stream next (.interrupted interruption)

theorem fills_readExact (point : Point) (count : Nat) (stream : Duplex Point) :
    Fills point count stream (stream.readExact point count).1
      (stream.readExact point count).2 := by
  unfold readExact
  by_cases hcount : count = 0
  · rw [if_pos hcount]
    exact .done (.refl stream) (undisturbed_refl stream) hcount.symm
  rw [if_neg hcount]
  cases stream.upcoming with
  | ready =>
      dsimp only
      split_ifs with hlength
      · refine .done (reads_consume ..) (undisturbed_single rfl (by simp)) ?_
        rw [List.length_take]
        omega
      · exact .failed (reads_consume ..) (undisturbed_single rfl (by simp))
  | failed error moved =>
      exact .failed (reads_consume ..) (undisturbed_single rfl (by simp))
  | interrupted interruption moved =>
      have hlength : (stream.input.take
          (min moved (min (count - 1) stream.input.length))).length =
            min moved (min (count - 1) stream.input.length) := by
        rw [List.length_take]
        omega
      refine .interrupted (reads_consume ..) ?_ (by omega)
      rw [hlength]
      exact ⟨stream, undisturbed_refl stream, rfl⟩

/-- How forgetting bytes ends. -/
inductive Skips (point : Point) (count : Nat) (stream : Duplex Point) :
    Duplex Point → Outcome Unit → Prop
  | done {next : Duplex Point} {bytes : Bytes} (reads : Reads bytes stream next)
      (log : Undisturbed stream next) (length : bytes.length = count) :
      Skips point count stream next (.done ())
  | failed {next : Duplex Point} {bytes : Bytes} {error : StreamError}
      (reads : Reads bytes stream next) (log : Undisturbed stream next) :
      Skips point count stream next (.failed error)
  | interrupted {next : Duplex Point} {bytes : Bytes}
      {interruption : Interruption} {moved : Nat}
      (reads : Reads bytes stream next)
      (log : Disturbed point interruption moved stream next)
      (length : bytes.length < count) :
      Skips point count stream next (.interrupted interruption)

theorem skips_discardLoop (point : Point) {chunk : Nat} (hchunk : 0 < chunk)
    {bound remaining : Nat} (hbound : remaining ≤ bound)
    (stream : Duplex Point) :
    Skips point remaining stream
      (discardLoop point chunk bound remaining stream).1
      (discardLoop point chunk bound remaining stream).2 := by
  induction bound generalizing remaining stream with
  | zero =>
      have hzero : remaining = 0 := by omega
      exact .done (.refl stream) (undisturbed_refl stream) hzero.symm
  | succ bound ih =>
      unfold discardLoop
      split_ifs with hzero
      · exact .done (.refl stream) (undisturbed_refl stream) hzero.symm
      have hfills := stream.fills_readExact point (min remaining chunk)
      generalize stream.readExact point (min remaining chunk) = read
        at hfills ⊢
      obtain ⟨middle, outcome⟩ := read
      cases hfills with
      | failed reads log => exact .failed reads log
      | interrupted reads log length =>
          exact .interrupted reads log (by omega)
      | done reads log length =>
          dsimp only
          have hleft : remaining - min remaining chunk ≤ bound := by omega
          have hrest := ih hleft middle
          generalize discardLoop point chunk bound
            (remaining - min remaining chunk) middle = rest at hrest ⊢
          obtain ⟨next, outcome⟩ := rest
          cases hrest with
          | done reads' log' length' =>
              refine .done (reads.trans reads') (log.trans log') ?_
              rw [List.length_append]
              omega
          | failed reads' log' =>
              exact .failed (reads.trans reads') (log.trans log')
          | interrupted reads' log' length' =>
              refine .interrupted (reads.trans reads') (log.disturbed log') ?_
              rw [List.length_append]
              omega

theorem skips_discardExact (point : Point) {chunk : Nat} (hchunk : 0 < chunk)
    (remaining : Nat) (stream : Duplex Point) :
    Skips point remaining stream
      (stream.discardExact point chunk remaining).1
      (stream.discardExact point chunk remaining).2 :=
  skips_discardLoop point hchunk (le_refl remaining) stream

structure Writes (bytes : Bytes) (stream next : Duplex Point) : Prop where
  input : next.input = stream.input
  consumed : next.consumed = stream.consumed
  written : next.written = stream.written ++ bytes

theorem Writes.trans {first second : Bytes} {stream middle next : Duplex Point}
    (h : Writes first stream middle) (h' : Writes second middle next) :
    Writes (first ++ second) stream next :=
  ⟨h'.input.trans h.input, h'.consumed.trans h.consumed,
    by rw [h'.written, h.written, List.append_assoc]⟩

inductive Sends (point : Point) (bytes : Bytes) (stream : Duplex Point) :
    Duplex Point → Outcome Unit → Prop
  | done {next : Duplex Point} (writes : Writes bytes stream next)
      (log : Undisturbed stream next) : Sends point bytes stream next (.done ())
  | failed {next : Duplex Point} {error : StreamError} {moved : Nat}
      (writes : Writes (bytes.take moved) stream next)
      (log : Undisturbed stream next) :
      Sends point bytes stream next (.failed error)
  | interrupted {next : Duplex Point} {interruption : Interruption}
      {moved : Nat} (writes : Writes (bytes.take moved) stream next)
      (log : Disturbed point interruption moved stream next)
      (length : moved < bytes.length ∨ moved = 0) :
      Sends point bytes stream next (.interrupted interruption)

theorem sends_writeAll (point : Point) (bytes : Bytes)
    (stream : Duplex Point) :
    Sends point bytes stream (stream.writeAll point bytes).1
      (stream.writeAll point bytes).2 := by
  unfold writeAll
  by_cases hempty : bytes = []
  · rw [if_pos hempty, hempty]
    exact .done ⟨rfl, rfl, (List.append_nil _).symm⟩ (undisturbed_refl stream)
  rw [if_neg hempty]
  have hpos := List.length_pos_iff.mpr hempty
  cases stream.upcoming with
  | ready => exact .done ⟨rfl, rfl, rfl⟩ (undisturbed_single rfl (by simp))
  | failed error moved =>
      exact .failed ⟨rfl, rfl, rfl⟩ (undisturbed_single rfl (by simp))
  | interrupted interruption moved =>
      exact .interrupted ⟨rfl, rfl, rfl⟩
        ⟨stream, undisturbed_refl stream, rfl⟩ (by omega)

theorem sends_flush (point : Point) (stream : Duplex Point) :
    Sends point [] stream (stream.flush point).1 (stream.flush point).2 := by
  unfold flush
  cases stream.upcoming with
  | ready => exact .done ⟨rfl, rfl, rfl⟩ (undisturbed_single rfl (by simp))
  | failed error moved =>
      have hwrites : Writes ([].take 0) stream
          (stream.produce point (.failed error 0) []) := ⟨rfl, rfl, rfl⟩
      exact .failed hwrites (undisturbed_single rfl (by simp))
  | interrupted interruption moved =>
      have hwrites : Writes ([].take 0) stream
          (stream.produce point (.interrupted interruption 0) []) :=
        ⟨rfl, rfl, rfl⟩
      exact .interrupted hwrites ⟨stream, undisturbed_refl stream, rfl⟩
        (.inr rfl)

/-! ## Interruptions that are not to come -/

/-- None of the next awaits is interrupted in this way. -/
def Excludes (interruption : Interruption) (stream : Duplex Point) : Prop :=
  ∀ moved, .interrupted interruption moved ∉ stream.awaits

theorem Excludes.tail {interruption : Interruption}
    {stream next : Duplex Point} (h : Excludes interruption stream)
    (hawaits : next.awaits = stream.awaits.tail) :
    Excludes interruption next := by
  intro moved hmem
  rw [hawaits] at hmem
  exact h moved (List.mem_of_mem_tail hmem)

theorem Excludes.upcoming {interruption other : Interruption}
    {stream : Duplex Point} (h : Excludes interruption stream) {moved : Nat}
    (hupcoming : stream.upcoming = .interrupted other moved) :
    other ≠ interruption := by
  rintro rfl
  unfold Duplex.upcoming at hupcoming
  cases hawaits : stream.awaits with
  | nil =>
      rw [hawaits] at hupcoming
      cases hupcoming
  | cons await awaits =>
      rw [hawaits, List.headD_cons] at hupcoming
      apply h moved
      rw [hawaits, hupcoming]
      exact List.mem_cons_self

theorem Excludes.readExact {interruption : Interruption}
    {stream : Duplex Point} (h : Excludes interruption stream)
    (point : Point) (count : Nat) :
    Excludes interruption (stream.readExact point count).1 ∧
      (stream.readExact point count).2 ≠ .interrupted interruption := by
  unfold Duplex.readExact
  by_cases hcount : count = 0
  · rw [if_pos hcount]
    exact ⟨h, by simp⟩
  rw [if_neg hcount]
  cases hupcoming : stream.upcoming with
  | ready =>
      dsimp only
      split_ifs
      · exact ⟨h.tail rfl, by simp⟩
      · exact ⟨h.tail rfl, by simp⟩
  | failed error moved => exact ⟨h.tail rfl, by simp⟩
  | interrupted other moved =>
      exact ⟨h.tail rfl, by simpa using h.upcoming hupcoming⟩

theorem Excludes.discardLoop {interruption : Interruption}
    {stream : Duplex Point} (h : Excludes interruption stream)
    (point : Point) (chunk bound remaining : Nat) :
    Excludes interruption
        (discardLoop point chunk bound remaining stream).1 ∧
      (discardLoop point chunk bound remaining stream).2 ≠
        .interrupted interruption := by
  induction bound generalizing remaining stream with
  | zero => exact ⟨h, by simp [Duplex.discardLoop]⟩
  | succ bound ih =>
      unfold Duplex.discardLoop
      split_ifs
      · exact ⟨h, by simp⟩
      have hread := h.readExact point (min remaining chunk)
      generalize stream.readExact point (min remaining chunk) = read
        at hread ⊢
      obtain ⟨middle, value | error | other⟩ := read
      · exact ih hread.1 _
      · exact ⟨hread.1, by simp⟩
      · exact ⟨hread.1, by simpa using hread.2⟩

theorem Excludes.writeAll {interruption : Interruption}
    {stream : Duplex Point} (h : Excludes interruption stream)
    (point : Point) (bytes : Bytes) :
    Excludes interruption (stream.writeAll point bytes).1 ∧
      (stream.writeAll point bytes).2 ≠ .interrupted interruption := by
  unfold Duplex.writeAll
  split_ifs
  · exact ⟨h, by simp⟩
  cases hupcoming : stream.upcoming with
  | ready => exact ⟨h.tail rfl, by simp⟩
  | failed error moved => exact ⟨h.tail rfl, by simp⟩
  | interrupted other moved =>
      exact ⟨h.tail rfl, by simpa using h.upcoming hupcoming⟩

theorem Excludes.flush {interruption : Interruption}
    {stream : Duplex Point} (h : Excludes interruption stream)
    (point : Point) :
    (stream.flush point).2 ≠ .interrupted interruption := by
  unfold Duplex.flush
  cases hupcoming : stream.upcoming with
  | ready => simp
  | failed error moved => simp
  | interrupted other moved => simpa using h.upcoming hupcoming

/-! ## Without interruptions -/

theorem readExact_ready {stream : Duplex Point} (h : stream.awaits = [])
    (point : Point) {count : Nat} (hlength : count ≤ stream.input.length) :
    (stream.readExact point count).2 = .done (stream.input.take count) ∧
      Reads (stream.input.take count) stream
        (stream.readExact point count).1 ∧
      (stream.readExact point count).1.awaits = [] := by
  have hupcoming : stream.upcoming = .ready := by rw [upcoming, h]; rfl
  by_cases hcount : count = 0
  · subst hcount
    exact ⟨rfl, .refl stream, h⟩
  · simp only [readExact, hcount, hupcoming, hlength, if_true, if_false]
    refine ⟨trivial, reads_consume .., ?_⟩
    rw [consume, h]
    rfl

theorem readExact_eof {stream : Duplex Point} (h : stream.awaits = [])
    (point : Point) {count : Nat} (hlength : stream.input.length < count) :
    (stream.readExact point count).2 = .failed .unexpectedEof := by
  have hupcoming : stream.upcoming = .ready := by rw [upcoming, h]; rfl
  have hcount : count ≠ 0 := by omega
  simp only [readExact, hcount, hupcoming, Nat.not_le.mpr hlength, if_false]

theorem discardLoop_ready (point : Point) {chunk : Nat} (hchunk : 0 < chunk)
    {bound remaining : Nat} (hbound : remaining ≤ bound)
    {stream : Duplex Point} (h : stream.awaits = [])
    (hlength : remaining ≤ stream.input.length) :
    (discardLoop point chunk bound remaining stream).2 = .done () ∧
      Reads (stream.input.take remaining) stream
        (discardLoop point chunk bound remaining stream).1 ∧
      (discardLoop point chunk bound remaining stream).1.awaits = [] := by
  induction bound generalizing remaining stream with
  | zero =>
      have hzero : remaining = 0 := by omega
      subst hzero
      exact ⟨rfl, .refl stream, h⟩
  | succ bound ih =>
      unfold discardLoop
      by_cases hzero : remaining = 0
      · subst hzero
        exact ⟨rfl, .refl stream, h⟩
      rw [if_neg hzero]
      have hpart : min remaining chunk ≤ stream.input.length := by omega
      obtain ⟨houtcome, hreads, hawaits⟩ := readExact_ready h point hpart
      generalize stream.readExact point (min remaining chunk) = read
        at houtcome hreads hawaits ⊢
      obtain ⟨middle, outcome⟩ := read
      subst houtcome
      have hinput : middle.input = stream.input.drop (min remaining chunk) :=
        List.append_cancel_left
          (hreads.input.symm.trans (List.take_append_drop _ _).symm)
      have hrest : remaining - min remaining chunk ≤ middle.input.length := by
        rw [hinput, List.length_drop]
        omega
      obtain ⟨hdone, hmore, hend⟩ := ih (by omega) hawaits hrest
      refine ⟨hdone, ?_, hend⟩
      have hsum : remaining =
          min remaining chunk + (remaining - min remaining chunk) := by omega
      rw [hsum, List.take_add, ← hinput, ← hsum]
      exact hreads.trans hmore

theorem discardLoop_eof (point : Point) {chunk : Nat} (hchunk : 0 < chunk)
    {bound remaining : Nat} (hbound : remaining ≤ bound)
    {stream : Duplex Point} (h : stream.awaits = [])
    (hlength : stream.input.length < remaining) :
    (discardLoop point chunk bound remaining stream).2 =
      .failed .unexpectedEof := by
  induction bound generalizing remaining stream with
  | zero => omega
  | succ bound ih =>
      unfold discardLoop
      have hzero : remaining ≠ 0 := by omega
      rw [if_neg hzero]
      by_cases hpart : min remaining chunk ≤ stream.input.length
      · obtain ⟨houtcome, hreads, hawaits⟩ := readExact_ready h point hpart
        generalize stream.readExact point (min remaining chunk) = read
          at houtcome hreads hawaits ⊢
        obtain ⟨middle, outcome⟩ := read
        subst houtcome
        have hinput : stream.input.length =
            min remaining chunk + middle.input.length := by
          rw [hreads.input, List.length_append, List.length_take,
            Nat.min_eq_left hpart]
        exact ih (by omega) hawaits (by omega)
      · have hfailed := readExact_eof h point (Nat.lt_of_not_le hpart)
        generalize stream.readExact point (min remaining chunk) = read
          at hfailed ⊢
        obtain ⟨middle, outcome⟩ := read
        subst hfailed
        rfl

theorem discardExact_ready (point : Point) {chunk : Nat} (hchunk : 0 < chunk)
    {stream : Duplex Point} (h : stream.awaits = []) {remaining : Nat}
    (hlength : remaining ≤ stream.input.length) :
    (stream.discardExact point chunk remaining).2 = .done () ∧
      Reads (stream.input.take remaining) stream
        (stream.discardExact point chunk remaining).1 ∧
      (stream.discardExact point chunk remaining).1.awaits = [] :=
  discardLoop_ready point hchunk (le_refl remaining) h hlength

theorem discardExact_eof (point : Point) {chunk : Nat} (hchunk : 0 < chunk)
    {stream : Duplex Point} (h : stream.awaits = []) {remaining : Nat}
    (hlength : stream.input.length < remaining) :
    (stream.discardExact point chunk remaining).2 = .failed .unexpectedEof :=
  discardLoop_eof point hchunk (le_refl remaining) h hlength

theorem writeAll_ready {stream : Duplex Point} (h : stream.awaits = [])
    (point : Point) (bytes : Bytes) :
    (stream.writeAll point bytes).2 = .done () ∧
      Writes bytes stream (stream.writeAll point bytes).1 ∧
      (stream.writeAll point bytes).1.awaits = [] := by
  have hupcoming : stream.upcoming = .ready := by rw [upcoming, h]; rfl
  by_cases hempty : bytes = []
  · subst hempty
    exact ⟨rfl, ⟨rfl, rfl, (List.append_nil _).symm⟩, h⟩
  · simp only [writeAll, hempty, hupcoming, if_false]
    refine ⟨trivial, ⟨rfl, rfl, rfl⟩, ?_⟩
    rw [produce, h]
    rfl

theorem flush_ready {stream : Duplex Point} (h : stream.awaits = [])
    (point : Point) :
    (stream.flush point).2 = .done () ∧
      Writes [] stream (stream.flush point).1 ∧
      (stream.flush point).1.awaits = [] := by
  have hupcoming : stream.upcoming = .ready := by rw [upcoming, h]; rfl
  simp only [flush, hupcoming]
  refine ⟨trivial, ⟨rfl, rfl, rfl⟩, ?_⟩
  rw [produce, h]
  rfl

end Duplex

end HartLink.Foundation
