import HartLink.Foundation.Bytes
import HartLink.Foundation.Steps
import Mathlib.Algebra.Order.Floor.Div

/-!
# Block transfer

A sender cuts a byte string into numbered blocks and a receiver puts them
together again.  Block numbers have 16 bits, so a transfer has at most 65,536
blocks; both sides meet that bound at the last block number.
-/

namespace HartLink.Service

open HartLink.Foundation

/-- The largest transfer that 65,536 blocks of the largest size carry. -/
def maximumTransferBytes : Nat := 65536 * 251

structure TransferBlock where
  sequence : UInt16
  last : Bool
  data : Bytes
  deriving DecidableEq, Repr

structure TransferProgress where
  nextSequence : UInt16
  transferredBytes : Nat
  complete : Bool
  deriving DecidableEq, Repr

inductive TransferError where
  | blockSize (size : Nat)
  | blockDataSize (size : Nat)
  | emptyIntermediateBlock
  | outOfOrder (expected actual : UInt16)
  | limit
  | alreadyComplete
  | incomplete
  | sequenceSpace
  deriving DecidableEq, Repr

/-- The number after a block number, `u16::checked_add(1)`. -/
def nextNumber (sequence : UInt16) : Option UInt16 :=
  if sequence = 65535 then none else some (sequence + 1)

theorem nextNumber_ofNat {n : Nat} (h : n < 65535) :
    nextNumber (UInt16.ofNat n) = some (UInt16.ofNat (n + 1)) := by
  have hne : UInt16.ofNat n ≠ 65535 := by
    intro heq
    have hnat := congrArg UInt16.toNat heq
    rw [UInt16.toNat_ofNat'] at hnat
    have hlast : (65535 : UInt16).toNat = 65535 := rfl
    omega
  rw [nextNumber, if_neg hne, UInt16.ofNat_add]
  rfl

theorem nextNumber_of_ne {sequence : UInt16} (h : sequence ≠ 65535) :
    ∃ next, nextNumber sequence = some next ∧
      next.toNat = sequence.toNat + 1 := by
  have hlt := sequence.toNat_lt
  have hnat : sequence.toNat ≠ 65535 := by
    intro heq
    exact h (UInt16.toNat_inj.mp heq)
  refine ⟨sequence + 1, by rw [nextNumber, if_neg h], ?_⟩
  rw [UInt16.toNat_add, show (1 : UInt16).toNat = 1 from rfl]
  omega

/-! ## The sender -/

structure BlockSender where
  source : Bytes
  blockSize : Nat
  offset : Nat
  sequence : UInt16
  complete : Bool
  deriving DecidableEq, Repr

/-- An empty source needs one block too. -/
def requiredBlocks (source : Bytes) (blockSize : Nat) : Nat :=
  max source.length 1 ⌈/⌉ blockSize

namespace BlockSender

def new (source : Bytes) (blockSize : Nat) :
    Except TransferError BlockSender :=
  if ¬ (1 ≤ blockSize ∧ blockSize ≤ 251) then .error (.blockSize blockSize)
  else if source.length > maximumTransferBytes then .error .limit
  else if requiredBlocks source blockSize > 65535 + 1 then
    .error .sequenceSpace
  else .ok ⟨source, blockSize, 0, 0, false⟩

/--
The next block and the sender after it.  A saturated sum of offset and size
would exceed the length of any source, as the plain sum does.
-/
def nextBlock (sender : BlockSender) :
    Except TransferError (Option TransferBlock) × BlockSender :=
  if sender.complete then (.ok none, sender)
  else
    let stop := min (sender.offset + sender.blockSize) sender.source.length
    let last : Bool := stop = sender.source.length
    let block : TransferBlock :=
      { sequence := sender.sequence, last
        data := (sender.source.take stop).drop sender.offset }
    let sender := { sender with offset := stop, complete := last }
    if last then (.ok (some block), sender)
    else
      match nextNumber sender.sequence with
      | none => (.error .sequenceSpace, sender)
      | some sequence => (.ok (some block), { sender with sequence })

/-- The sender after a number of calls of `nextBlock`. -/
def afterCalls (sender : BlockSender) : Nat → BlockSender
  | 0 => sender
  | calls + 1 => (sender.afterCalls calls).nextBlock.2

end BlockSender

/-! ## The receiver -/

structure BlockReceiver where
  bytes : Bytes
  maximumBytes : Nat
  nextSequence : UInt16
  complete : Bool
  deriving DecidableEq, Repr

namespace BlockReceiver

def new (maximumBytes : Nat) : BlockReceiver :=
  ⟨[], min maximumBytes maximumTransferBytes, 0, false⟩

def tryNew (maximumBytes : Nat) : Except TransferError BlockReceiver :=
  if maximumBytes > maximumTransferBytes then .error .limit
  else .ok (new maximumBytes)

def progress (receiver : BlockReceiver) : TransferProgress :=
  ⟨receiver.nextSequence, receiver.bytes.length, receiver.complete⟩

/--
The verdict on a block and the receiver after it.  A length sum that does not
fit a machine word exceeds the limit of every receiver.
-/
def accept (receiver : BlockReceiver) (block : TransferBlock) :
    Except TransferError TransferProgress × BlockReceiver :=
  if receiver.complete then (.error .alreadyComplete, receiver)
  else if block.data.length > 251 then
    (.error (.blockDataSize block.data.length), receiver)
  else if block.data = [] ∧ ¬ block.last then
    (.error .emptyIntermediateBlock, receiver)
  else if block.sequence ≠ receiver.nextSequence then
    (.error (.outOfOrder receiver.nextSequence block.sequence), receiver)
  else if receiver.bytes.length + block.data.length > receiver.maximumBytes then
    (.error .limit, receiver)
  else
    let receiver := { receiver with
      bytes := receiver.bytes ++ block.data, complete := block.last }
    if block.last then (.ok receiver.progress, receiver)
    else
      match nextNumber receiver.nextSequence with
      | none => (.error .sequenceSpace, receiver)
      | some nextSequence =>
          let receiver := { receiver with nextSequence }
          (.ok receiver.progress, receiver)

def finish (receiver : BlockReceiver) : Except TransferError Bytes :=
  if receiver.complete then .ok receiver.bytes else .error .incomplete

/-- A call of `accept` always returns, so every list of blocks is a run. -/
def step (receiver : BlockReceiver) (block : TransferBlock) :
    Option BlockReceiver :=
  some (receiver.accept block).2

def acceptedBlock (receiver : BlockReceiver) (block : TransferBlock) :
    List TransferBlock :=
  match (receiver.accept block).1 with
  | .ok _ => [block]
  | .error _ => []

def run (receiver : BlockReceiver) (blocks : List TransferBlock) :
    Option BlockReceiver :=
  runSteps step receiver blocks

def accepted (receiver : BlockReceiver) (blocks : List TransferBlock) :
    List TransferBlock :=
  observe step acceptedBlock receiver blocks

end BlockReceiver

/-! ## What the sender produces -/

theorem lt_requiredBlocks_iff (source : Bytes) {blockSize : Nat}
    (h : 0 < blockSize) (n : Nat) :
    n < requiredBlocks source blockSize ↔
      n * blockSize < max source.length 1 := by
  rw [← not_le, requiredBlocks, ceilDiv_le_iff_le_mul h, not_le,
    Nat.mul_comm]

theorem requiredBlocks_pos (source : Bytes) {blockSize : Nat}
    (h : 0 < blockSize) : 0 < requiredBlocks source blockSize := by
  rw [lt_requiredBlocks_iff source h]
  omega

theorem requiredBlocks_eq_succ_iff {source : Bytes} {blockSize n : Nat}
    (h : 0 < blockSize) (hn : n < requiredBlocks source blockSize) :
    n + 1 = requiredBlocks source blockSize ↔
      source.length ≤ n * blockSize + blockSize := by
  have hnext := lt_requiredBlocks_iff source h (n + 1)
  rw [Nat.succ_mul] at hnext
  omega

def blockAt (source : Bytes) (blockSize n : Nat) : TransferBlock :=
  { sequence := UInt16.ofNat n
    last := n + 1 = requiredBlocks source blockSize
    data := (source.drop (n * blockSize)).take blockSize }

def blockAt? (source : Bytes) (blockSize n : Nat) : Option TransferBlock :=
  if n < requiredBlocks source blockSize then
    some (blockAt source blockSize n)
  else none

def transferBlocks (source : Bytes) (blockSize : Nat) : List TransferBlock :=
  (List.range (requiredBlocks source blockSize)).map (blockAt source blockSize)

theorem getElem?_transferBlocks (source : Bytes) (blockSize n : Nat) :
    (transferBlocks source blockSize)[n]? = blockAt? source blockSize n := by
  unfold transferBlocks blockAt?
  split_ifs with hn
  · rw [List.getElem?_map, List.getElem?_range hn]
    rfl
  · rw [List.getElem?_eq_none]
    simpa using hn

namespace BlockSender

def stage (source : Bytes) (blockSize n : Nat) : BlockSender :=
  if n < requiredBlocks source blockSize then
    ⟨source, blockSize, n * blockSize, UInt16.ofNat n, false⟩
  else
    ⟨source, blockSize, source.length,
      UInt16.ofNat (requiredBlocks source blockSize - 1), true⟩

variable {source : Bytes} {blockSize : Nat}

theorem nextBlock_stage (hsize : 0 < blockSize)
    (hspace : requiredBlocks source blockSize ≤ 65536) (n : Nat) :
    (stage source blockSize n).nextBlock =
      (.ok (blockAt? source blockSize n), stage source blockSize (n + 1)) := by
  by_cases hn : n < requiredBlocks source blockSize
  · have hoffset := (lt_requiredBlocks_iff source hsize n).mp hn
    have hend := requiredBlocks_eq_succ_iff hsize hn
    have hlt := lt_requiredBlocks_iff source hsize (n + 1)
    rw [Nat.succ_mul] at hlt
    by_cases hlast : n + 1 = requiredBlocks source blockSize
    · have hlong := hend.mp hlast
      have hdata : source.drop (n * blockSize) =
          (source.drop (n * blockSize)).take blockSize := by
        rw [List.take_of_length_le]
        rw [List.length_drop]
        omega
      simp only [stage, blockAt?, blockAt, hn, hlast, if_true, lt_irrefl, if_false,
        nextBlock, Bool.false_eq_true, Nat.min_eq_right hlong,
        List.take_length, decide_true]
      rw [← hdata, ← hlast, Nat.add_sub_cancel]
    · have hmore : n * blockSize + blockSize < source.length := by omega
      have hnext : n + 1 < requiredBlocks source blockSize := by omega
      have hdata : (source.take (n * blockSize + blockSize)).drop
          (n * blockSize) = (source.drop (n * blockSize)).take blockSize := by
        rw [List.drop_take, Nat.add_sub_cancel_left]
      have hne : n * blockSize + blockSize ≠ source.length := by omega
      simp only [stage, blockAt?, blockAt, hn, hnext, hlast, if_true, if_false,
        nextBlock, Bool.false_eq_true, Nat.min_eq_left (Nat.le_of_lt hmore),
        hne, decide_false, nextNumber_ofNat (show n < 65535 by omega),
        Nat.succ_mul]
      rw [hdata]
  · have hnext : ¬ n + 1 < requiredBlocks source blockSize := by omega
    simp only [stage, blockAt?, hn, hnext, if_false, nextBlock, if_true]

theorem afterCalls_stage (hsize : 0 < blockSize)
    (hspace : requiredBlocks source blockSize ≤ 65536) (calls : Nat) :
    (stage source blockSize 0).afterCalls calls =
      stage source blockSize calls := by
  induction calls with
  | zero => rfl
  | succ calls ih =>
      rw [afterCalls, ih, nextBlock_stage hsize hspace]

theorem new_error_iff (source : Bytes) (blockSize : Nat) :
    (∃ error, new source blockSize = .error error) ↔
      ¬ (1 ≤ blockSize ∧ blockSize ≤ 251) ∨
        maximumTransferBytes < source.length ∨
        65536 < requiredBlocks source blockSize := by
  unfold new
  split_ifs with hsize hlength hspace
  · exact iff_of_true ⟨_, rfl⟩ (.inr (.inl hlength))
  · exact iff_of_true ⟨_, rfl⟩ (.inr (.inr hspace))
  · refine iff_of_false ?_ ?_
    · rintro ⟨error, herror⟩
      contradiction
    · rintro (hsize' | hlength' | hspace')
      · exact hsize' hsize
      · exact hlength hlength'
      · exact hspace hspace'
  · exact iff_of_true ⟨_, rfl⟩ (.inl hsize)

theorem new_ok {sender : BlockSender}
    (h : new source blockSize = .ok sender) :
    (1 ≤ blockSize ∧ blockSize ≤ 251) ∧
      source.length ≤ maximumTransferBytes ∧
      requiredBlocks source blockSize ≤ 65536 ∧
      sender = stage source blockSize 0 := by
  unfold new at h
  split_ifs at h with hsize hlength hspace
  injection h with h
  subst h
  have hpos := requiredBlocks_pos source hsize.1
  refine ⟨hsize, by omega, by omega, ?_⟩
  simp only [stage, hpos, if_true, Nat.zero_mul]
  rfl

end BlockSender

/-! ## What the receiver does with a block -/

namespace BlockReceiver

/--
A block that passes every check of a receiver that expects the last number, but
is not the last block.
-/
def Overruns (receiver : BlockReceiver) (block : TransferBlock) : Prop :=
  receiver.complete = false ∧ receiver.nextSequence = 65535 ∧
    block.sequence = 65535 ∧ block.last = false ∧ block.data ≠ [] ∧
    block.data.length ≤ 251 ∧
    receiver.bytes.length + block.data.length ≤ receiver.maximumBytes

instance (receiver : BlockReceiver) (block : TransferBlock) :
    Decidable (receiver.Overruns block) :=
  inferInstanceAs (Decidable (_ ∧ _))

/-- The three ways a call of `accept` ends. -/
inductive Accepts (receiver : BlockReceiver) (block : TransferBlock) : Prop
  | rejected (error : TransferError) (fits : ¬ receiver.Overruns block)
      (eq : receiver.accept block = (.error error, receiver))
  | overrun (overruns : receiver.Overruns block)
      (eq : receiver.accept block = (.error .sequenceSpace,
        { receiver with bytes := receiver.bytes ++ block.data }))
  | accepted (next : BlockReceiver) (fits : ¬ receiver.Overruns block)
      (eq : receiver.accept block = (.ok next.progress, next))
      (incomplete : receiver.complete = false)
      (sequence : block.sequence = receiver.nextSequence)
      (bytes : next.bytes = receiver.bytes ++ block.data)
      (complete : next.complete = block.last)
      (nextSequence : block.last = false →
        next.nextSequence.toNat = receiver.nextSequence.toNat + 1)

theorem accepts (receiver : BlockReceiver) (block : TransferBlock) :
    receiver.Accepts block := by
  by_cases hcomplete : receiver.complete = true
  · refine .rejected .alreadyComplete ?_ (by simp [accept, hcomplete])
    simp [Overruns, hcomplete]
  by_cases hsize : block.data.length > 251
  · refine .rejected (.blockDataSize block.data.length) ?_
      (by simp [accept, hcomplete, hsize])
    simp [Overruns, Nat.not_le.mpr hsize]
  by_cases hempty : block.data = [] ∧ ¬ block.last
  · refine .rejected .emptyIntermediateBlock ?_
      (by simp [accept, hcomplete, hempty])
    simp [Overruns, hempty.1]
  by_cases horder : block.sequence = receiver.nextSequence
  swap
  · refine .rejected (.outOfOrder receiver.nextSequence block.sequence) ?_ ?_
    · rintro ⟨-, hnext, hsequence, -⟩
      exact horder (hsequence.trans hnext.symm)
    · simp only [accept, hcomplete, hsize, hempty, if_false, ne_eq, horder,
        not_false_eq_true, if_true, Bool.false_eq_true]
  by_cases hlimit : receiver.bytes.length + block.data.length >
      receiver.maximumBytes
  · refine .rejected .limit ?_ ?_
    · rintro ⟨-, -, -, -, -, -, hfits⟩
      omega
    · simp only [accept, hcomplete, hsize, hempty, if_false, ne_eq, horder,
        not_true_eq_false, hlimit, if_true, Bool.false_eq_true]
  -- Every check is passed; what is left is the number of the next block.
  cases hlast : block.last with
  | true =>
      refine .accepted { receiver with
        bytes := receiver.bytes ++ block.data, complete := true } ?_ ?_
        (by simpa using hcomplete) horder rfl hlast.symm (by simp [hlast])
      · simp [Overruns, hlast]
      · simp [accept, hcomplete, hsize, horder, hlimit, hlast]
  | false =>
      have hdata : block.data ≠ [] := by
        intro hnil
        exact hempty ⟨hnil, by simp [hlast]⟩
      by_cases hspace : receiver.nextSequence = 65535
      · refine .overrun ⟨by simpa using hcomplete, hspace,
          horder.trans hspace, hlast, hdata, by omega, by omega⟩ ?_
        simp only [accept, hcomplete, hsize, hdata, hlast, if_false, ne_eq,
          horder, not_true_eq_false, hlimit, false_and, nextNumber, hspace,
          if_true, Bool.false_eq_true]
      · obtain ⟨next, hnext, hnat⟩ := nextNumber_of_ne hspace
        refine .accepted { receiver with
          bytes := receiver.bytes ++ block.data, complete := false
          nextSequence := next } ?_ ?_ (by simpa using hcomplete) horder rfl
          hlast.symm (fun _ => hnat)
        · simp [Overruns, hspace]
        · simp [accept, hcomplete, hsize, hdata, horder, hlimit, hlast, hnext]

/-- An error leaves the receiver as it was. -/
def RejectsAtomically (receiver : BlockReceiver) (block : TransferBlock) :
    Prop :=
  ∀ error, (receiver.accept block).1 = .error error →
    (receiver.accept block).2 = receiver

theorem rejectsAtomically_iff (receiver : BlockReceiver)
    (block : TransferBlock) :
    receiver.RejectsAtomically block ↔ ¬ receiver.Overruns block := by
  cases receiver.accepts block with
  | rejected error fits eq =>
      refine iff_of_true ?_ fits
      intro error _
      rw [eq]
  | overrun overruns eq =>
      refine iff_of_false ?_ (not_not.mpr overruns)
      intro hatomic
      have hsame := hatomic .sequenceSpace (by rw [eq])
      rw [eq] at hsame
      have hbytes := congrArg BlockReceiver.bytes hsame
      exact overruns.2.2.2.2.1 (by simpa using hbytes)
  | accepted next fits eq =>
      refine iff_of_true ?_ fits
      intro error herror
      rw [eq] at herror
      contradiction

/-- The receiver holds the data of the accepted blocks, numbered from zero. -/
structure Assembled (seen : List TransferBlock) (receiver : BlockReceiver) :
    Prop where
  bytes : receiver.bytes = seen.flatMap TransferBlock.data
  numbered : ∀ (n : Nat) (block : TransferBlock),
    seen[n]? = some block → block.sequence.toNat = n
  count : receiver.complete = false →
    seen.length = receiver.nextSequence.toNat

theorem assembled_step {seen : List TransferBlock}
    {receiver next : BlockReceiver} {block : TransferBlock}
    (hstep : receiver.step block = some next)
    (hfits : ¬ receiver.Overruns block) (h : Assembled seen receiver) :
    Assembled (seen ++ receiver.acceptedBlock block) next := by
  injection hstep with hstep
  subst hstep
  cases receiver.accepts block with
  | rejected error fits eq =>
      rw [acceptedBlock, eq]
      simpa using h
  | overrun overruns eq => exact absurd overruns hfits
  | accepted next fits eq incomplete sequence bytes complete nextSequence =>
      have hcount := h.count incomplete
      rw [acceptedBlock, eq]
      refine ⟨?_, ?_, ?_⟩
      · rw [bytes, h.bytes]
        simp
      · intro n other hget
        by_cases hold : n < seen.length
        · rw [List.getElem?_append_left hold] at hget
          exact h.numbered n other hget
        · rw [List.getElem?_append_right (Nat.le_of_not_lt hold)] at hget
          have hlast : n - seen.length = 0 := by
            have hbound := (List.getElem?_eq_some_iff.mp hget).1
            simpa using hbound
          rw [hlast] at hget
          injection hget with hget
          rw [← hget, sequence]
          omega
      · intro hincomplete
        rw [complete] at hincomplete
        rw [nextSequence hincomplete, ← hcount]
        simp

/--
A receiver rejects atomically and returns exactly the accepted data as long as
no block overruns the numbers; a block that does is rejected with its data kept.
-/
theorem run_atomic_iff (maximumBytes : Nat) (blocks : List TransferBlock) :
    (Along step RejectsAtomically (new maximumBytes) blocks ∧
      ∀ (final : BlockReceiver) (bytes : Bytes),
        (new maximumBytes).run blocks = some final →
        final.finish = .ok bytes →
        bytes = ((new maximumBytes).accepted blocks).flatMap
            TransferBlock.data ∧
          ∀ (n : Nat) (block : TransferBlock),
            ((new maximumBytes).accepted blocks)[n]? = some block →
              block.sequence.toNat = n) ↔
      Along step (fun receiver block => ¬ receiver.Overruns block)
        (new maximumBytes) blocks := by
  have hatomic : Along step RejectsAtomically (new maximumBytes) blocks ↔
      Along step (fun receiver block => ¬ receiver.Overruns block)
        (new maximumBytes) blocks := by
    rw [show RejectsAtomically =
      fun receiver block => ¬ receiver.Overruns block from
        funext fun receiver => funext fun block =>
          propext (receiver.rejectsAtomically_iff block)]
  rw [hatomic]
  refine ⟨And.left, fun hfits => ⟨hfits, ?_⟩⟩
  intro final bytes hrun hfinish
  have hinitial : Assembled [] (new maximumBytes) :=
    ⟨rfl, by simp, fun _ => rfl⟩
  have hfinal := runSteps_observe_along assembled_step hrun hfits hinitial
  rw [List.nil_append] at hfinal
  unfold finish at hfinish
  split_ifs at hfinish
  injection hfinish with hfinish
  rw [← hfinish]
  exact ⟨hfinal.bytes, hfinal.numbered⟩

/-! ## A transfer that runs out of numbers -/

def plainBlocks (count : Nat) : List TransferBlock :=
  (List.range count).map fun n => ⟨UInt16.ofNat n, false, [0]⟩

theorem run_plainBlocks {count : Nat} (h : count ≤ 65535) :
    (new maximumTransferBytes).run (plainBlocks count) =
      some ⟨List.replicate count 0, maximumTransferBytes, UInt16.ofNat count,
        false⟩ := by
  induction count with
  | zero => rfl
  | succ count ih =>
      have hblocks : plainBlocks (count + 1) =
          plainBlocks count ++ [⟨UInt16.ofNat count, false, [0]⟩] := by
        simp [plainBlocks, List.range_succ]
      have hfits : ¬ count + 1 > maximumTransferBytes := by
        unfold maximumTransferBytes
        omega
      rw [hblocks]
      refine runSteps_concat step (ih (by omega)) ?_
      simp [step, accept, hfits, nextNumber_ofNat (show count < 65535 by omega),
        List.replicate_succ']

/--
After 65,535 blocks a block that is not the last one is rejected, its data
stays, and the transfer is completed with it.
-/
theorem run_keeps_rejected_block :
    ∃ receiver : BlockReceiver,
      (new maximumTransferBytes).run (plainBlocks 65535) = some receiver ∧
      (receiver.accept ⟨65535, false, [1]⟩).1 = .error .sequenceSpace ∧
      (receiver.accept ⟨65535, false, [1]⟩).2.bytes ≠ receiver.bytes ∧
      ∃ final, (new maximumTransferBytes).run (plainBlocks 65535 ++
          [⟨65535, false, [1]⟩, ⟨65535, true, [2]⟩]) = some final ∧
        final.finish = .ok (List.replicate 65535 0 ++ [1, 2]) := by
  have hrun := run_plainBlocks (le_refl 65535)
  have hfits : 65535 + 1 ≤ maximumTransferBytes := by decide
  have hfits' : 65535 + 1 + 1 ≤ maximumTransferBytes := by decide
  generalize hzeros : List.replicate 65535 (0 : UInt8) = zeros at hrun ⊢
  have hlength : zeros.length = 65535 := by
    rw [← hzeros, List.length_replicate]
  have hfirst : accept ⟨zeros, maximumTransferBytes, 65535, false⟩
      ⟨65535, false, [1]⟩ = (.error .sequenceSpace,
        ⟨zeros ++ [1], maximumTransferBytes, 65535, false⟩) := by
    simp [accept, hlength, Nat.not_lt.mpr hfits, nextNumber]
  have hsecond : (accept ⟨zeros ++ [1], maximumTransferBytes, 65535, false⟩
      ⟨65535, true, [2]⟩).2 =
        ⟨zeros ++ [1] ++ [2], maximumTransferBytes, 65535, true⟩ := by
    simp [accept, hlength, Nat.not_lt.mpr hfits']
  refine ⟨_, hrun, congrArg Prod.fst hfirst, ?_,
    ⟨zeros ++ [1] ++ [2], maximumTransferBytes, 65535, true⟩, ?_, ?_⟩
  · rw [show UInt16.ofNat 65535 = 65535 from rfl, hfirst]
    simp
  · rw [show [(⟨65535, false, [1]⟩ : TransferBlock), ⟨65535, true, [2]⟩] =
      [⟨65535, false, [1]⟩] ++ [⟨65535, true, [2]⟩] from rfl,
      ← List.append_assoc]
    refine runSteps_concat step (runSteps_concat step hrun ?_)
      (congrArg some hsecond)
    exact congrArg (some ∘ Prod.snd) hfirst
  · simp [finish]

/-! ## The blocks of a sender -/

def stage (limit : Nat) (source : Bytes) (blockSize n : Nat) :
    BlockReceiver :=
  if n < requiredBlocks source blockSize then
    ⟨source.take (n * blockSize), limit, UInt16.ofNat n, false⟩
  else
    ⟨source, limit, UInt16.ofNat (requiredBlocks source blockSize - 1), true⟩

variable {limit : Nat} {source : Bytes} {blockSize n : Nat}

theorem accept_stage (hsize : 1 ≤ blockSize ∧ blockSize ≤ 251)
    (hspace : requiredBlocks source blockSize ≤ 65536)
    (hlimit : source.length ≤ limit) {block : TransferBlock}
    (hblock : blockAt? source blockSize n = some block) :
    ((stage limit source blockSize n).accept block).2 =
        stage limit source blockSize (n + 1) ∧
      (stage limit source blockSize n).acceptedBlock block = [block] := by
  unfold blockAt? at hblock
  split_ifs at hblock with hn
  injection hblock with hblock
  subst hblock
  have hoffset := (lt_requiredBlocks_iff source hsize.1 n).mp hn
  have hend := requiredBlocks_eq_succ_iff hsize.1 hn
  unfold blockAt
  have hshort : ((source.drop (n * blockSize)).take blockSize).length ≤ 251 :=
    (List.length_take_le _ _).trans hsize.2
  have htogether : (source.take (n * blockSize)).length +
      ((source.drop (n * blockSize)).take blockSize).length ≤ limit := by
    rw [List.length_take, List.length_take, List.length_drop]
    omega
  by_cases hlast : n + 1 = requiredBlocks source blockSize
  · have hlong := hend.mp hlast
    have hdata : (source.drop (n * blockSize)).take blockSize =
        source.drop (n * blockSize) := by
      rw [List.take_of_length_le]
      rw [List.length_drop]
      omega
    have hnext : ¬ n + 1 < requiredBlocks source blockSize := by omega
    have hindex : requiredBlocks source blockSize - 1 = n := by omega
    rw [hdata] at hshort htogether
    simp only [stage, hn, hlast, lt_irrefl, acceptedBlock, accept, hdata,
      Nat.not_lt.mpr hshort, Nat.not_lt.mpr htogether, hindex, if_true,
      if_false, Bool.false_eq_true, decide_true, not_true_eq_false, and_false,
      ne_eq, List.take_append_drop, and_self]
  · have hmore : n * blockSize + blockSize < source.length := by omega
    have hnext : n + 1 < requiredBlocks source blockSize := by omega
    have hdata : (source.drop (n * blockSize)).take blockSize ≠ [] := by
      intro hnil
      have hlength := congrArg List.length hnil
      rw [List.length_take, List.length_drop, List.length_nil] at hlength
      omega
    have htake : source.take (n * blockSize) ++
        (source.drop (n * blockSize)).take blockSize =
          source.take ((n + 1) * blockSize) := by
      rw [Nat.succ_mul, List.take_add]
    simp only [stage, hn, hnext, hlast, acceptedBlock, accept, hdata,
      Nat.not_lt.mpr hshort, Nat.not_lt.mpr htogether, if_true, if_false,
      nextNumber_ofNat (show n < 65535 by omega), htake, Bool.false_eq_true,
      decide_false, false_and, ne_eq, not_true_eq_false, and_self]

theorem run_stage (hsize : 1 ≤ blockSize ∧ blockSize ≤ 251)
    (hspace : requiredBlocks source blockSize ≤ 65536)
    (hlimit : source.length ≤ limit) {blocks : List TransferBlock}
    (hblocks : ∀ i, blocks[i]? = blockAt? source blockSize (n + i)) :
    (stage limit source blockSize n).run blocks =
        some (stage limit source blockSize (n + blocks.length)) ∧
      (stage limit source blockSize n).accepted blocks = blocks := by
  induction blocks generalizing n with
  | nil => exact ⟨rfl, rfl⟩
  | cons block blocks ih =>
      have hfirst : blockAt? source blockSize n = some block :=
        (hblocks 0).symm
      obtain ⟨hnext, haccepted⟩ := accept_stage hsize hspace hlimit hfirst
      have hrest : ∀ i, blocks[i]? = blockAt? source blockSize (n + 1 + i) := by
        intro i
        rw [Nat.add_assoc, Nat.add_comm 1]
        exact hblocks (i + 1)
      obtain ⟨hrun, hseen⟩ := ih hrest
      have hlength : n + (block :: blocks).length = n + 1 + blocks.length := by
        rw [List.length_cons]
        omega
      constructor
      · rw [run, runSteps, step, hnext, hlength]
        exact hrun
      · rw [accepted, observe, haccepted, step, hnext]
        exact congrArg (block :: ·) hseen

end BlockReceiver

/--
The sender numbers its blocks from zero, marks exactly the final one and then
has no more; a receiver with room for the source takes every block and returns
the source.
-/
theorem transfer_round_trip (source : Bytes) (blockSize : Nat) :
    ((∃ error, BlockSender.new source blockSize = .error error) ↔
      ¬ (1 ≤ blockSize ∧ blockSize ≤ 251) ∨
        maximumTransferBytes < source.length ∨
        65536 < max source.length 1 ⌈/⌉ blockSize) ∧
    ∀ sender, BlockSender.new source blockSize = .ok sender →
      ∃ blocks : List TransferBlock,
        blocks.length = max source.length 1 ⌈/⌉ blockSize ∧
        (∀ calls, (sender.afterCalls calls).nextBlock.1 =
          .ok blocks[calls]?) ∧
        (∀ (n : Nat) (block : TransferBlock), blocks[n]? = some block →
          block.sequence.toNat = n ∧ block.data.length ≤ blockSize ∧
            (block.last = true ↔ n + 1 = blocks.length)) ∧
        ∀ maximumBytes, source.length ≤ maximumBytes →
          (BlockReceiver.new maximumBytes).accepted blocks = blocks ∧
          ∃ final, (BlockReceiver.new maximumBytes).run blocks = some final ∧
            final.finish = .ok source := by
  refine ⟨BlockSender.new_error_iff source blockSize, ?_⟩
  intro sender hnew
  obtain ⟨hsize, hlength, hspace, rfl⟩ := BlockSender.new_ok hnew
  have hpos := requiredBlocks_pos source hsize.1
  have hget := getElem?_transferBlocks source blockSize
  have hcount : (transferBlocks source blockSize).length =
      requiredBlocks source blockSize := by
    simp [transferBlocks]
  refine ⟨transferBlocks source blockSize, hcount, ?_, ?_, ?_⟩
  · intro calls
    rw [BlockSender.afterCalls_stage hsize.1 hspace,
      BlockSender.nextBlock_stage hsize.1 hspace, hget]
  · intro n block hblock
    rw [hget, blockAt?] at hblock
    split_ifs at hblock with hn
    injection hblock with hblock
    subst hblock
    refine ⟨?_, List.length_take_le _ _, ?_⟩
    · have hsmall : n < 65536 := by omega
      simp only [blockAt, UInt16.toNat_ofNat']
      omega
    · rw [hcount]
      simp [blockAt]
  · intro maximumBytes hroom
    have hlimit : source.length ≤ min maximumBytes maximumTransferBytes := by
      omega
    have hinitial : BlockReceiver.new maximumBytes =
        BlockReceiver.stage (min maximumBytes maximumTransferBytes) source
          blockSize 0 := by
      simp only [BlockReceiver.stage, hpos, if_true, Nat.zero_mul]
      rfl
    have hblocks : ∀ i, (transferBlocks source blockSize)[i]? =
        blockAt? source blockSize (0 + i) := by
      intro i
      rw [hget, Nat.zero_add]
    obtain ⟨hrun, haccepted⟩ := BlockReceiver.run_stage hsize hspace hlimit
      hblocks
    rw [hinitial]
    refine ⟨haccepted, _, hrun, ?_⟩
    rw [hcount]
    simp [BlockReceiver.stage, BlockReceiver.finish]

theorem transfer_round_trip_three :
    ∃ blocks : List TransferBlock, blocks.length = 2 ∧
      (BlockReceiver.new 3).accepted blocks = blocks ∧
      ∃ final, (BlockReceiver.new 3).run blocks = some final ∧
        final.finish = .ok [1, 2, 3] := by
  obtain ⟨blocks, hlength, -, -, hreceive⟩ :=
    (transfer_round_trip [1, 2, 3] 2).2 ⟨[1, 2, 3], 2, 0, 0, false⟩ rfl
  exact ⟨blocks, hlength, hreceive 3 (by decide)⟩

end HartLink.Service
