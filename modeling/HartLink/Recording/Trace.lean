import HartLink.Foundation.Bytes
import HartLink.Foundation.Trimming

/-!
# Recording exchanges

A recorder keeps the most recent chunks of an exchange under a limit of records
and one of payload bytes, and counts what it lets go.  Whatever is pushed, the
records that remain are the longest recent part that both limits allow.
-/

namespace HartLink.Recording

open HartLink.Foundation

/-! ## Limits -/

def maximumTraceBytes : Nat := 256 * 1024 * 1024

def maximumTraceRecords : Nat := 1048576

structure TraceLimits where
  maximumRecords : Nat
  maximumBytes : Nat
  deriving DecidableEq, Repr

inductive TraceLimitsError where
  | zeroLimit
  | recordLimit (records : Nat)
  | byteLimit (bytes : Nat)
  deriving DecidableEq, Repr

namespace TraceLimits

def validate (limits : TraceLimits) : Except TraceLimitsError Unit :=
  if limits.maximumRecords = 0 ∨ limits.maximumBytes = 0 then
    .error .zeroLimit
  else if limits.maximumRecords > maximumTraceRecords then
    .error (.recordLimit limits.maximumRecords)
  else if limits.maximumBytes > maximumTraceBytes then
    .error (.byteLimit limits.maximumBytes)
  else .ok ()

def clamped (limits : TraceLimits) : TraceLimits where
  maximumRecords := max 1 (min limits.maximumRecords maximumTraceRecords)
  maximumBytes := max 1 (min limits.maximumBytes maximumTraceBytes)

end TraceLimits

/-! ## Records -/

inductive TraceDirection where
  | outbound
  | inbound
  deriving DecidableEq, Repr

/-- The timestamp is in nanoseconds from the epoch, before it negative. -/
structure TraceRecord where
  direction : TraceDirection
  timestamp : Int
  bytes : Bytes
  deriving DecidableEq, Repr

structure Trace where
  records : List TraceRecord
  limits : TraceLimits
  retainedBytes : Nat
  droppedRecords : UInt64
  droppedBytes : UInt64
  deriving DecidableEq, Repr

namespace Trace

def withLimits (limits : TraceLimits) : Trace where
  records := []
  limits := limits.clamped
  retainedBytes := 0
  droppedRecords := 0
  droppedBytes := 0

def tryWithLimits (limits : TraceLimits) : Except TraceLimitsError Trace := do
  limits.validate
  return withLimits limits

def noteDropped (trace : Trace) (bytes : Nat) : Trace :=
  { trace with
    droppedRecords := saturatingAdd trace.droppedRecords 1
    droppedBytes := saturatingAdd trace.droppedBytes bytes }

def makeRoom (recordBytes : Nat) : List TraceRecord → Trace → Trace
  | [], trace => { trace with records := [] }
  | evicted :: records, trace =>
      if (evicted :: records).length ≥ trace.limits.maximumRecords ∨
          saturatingLength trace.retainedBytes recordBytes >
            trace.limits.maximumBytes then
        makeRoom recordBytes records
          ({ trace with
              retainedBytes := trace.retainedBytes - evicted.bytes.length
            }.noteDropped evicted.bytes.length)
      else { trace with records := evicted :: records }

def push (trace : Trace) (record : TraceRecord) : Trace :=
  let recordBytes := record.bytes.length
  if recordBytes > trace.limits.maximumBytes then
    trace.noteDropped recordBytes
  else
    let trace := makeRoom recordBytes trace.records trace
    { trace with
      retainedBytes := saturatingLength trace.retainedBytes recordBytes
      records := trace.records ++ [record] }

def pushAll (trace : Trace) (records : List TraceRecord) : Trace :=
  records.foldl push trace

end Trace

/-! ## What fits -/

def payloadBytes (records : List TraceRecord) : Nat :=
  (records.map fun record => record.bytes.length).sum

@[simp] theorem payloadBytes_nil : payloadBytes [] = 0 := rfl

@[simp] theorem payloadBytes_cons (record : TraceRecord)
    (records : List TraceRecord) :
    payloadBytes (record :: records) =
      record.bytes.length + payloadBytes records :=
  List.sum_cons

@[simp] theorem payloadBytes_append (records others : List TraceRecord) :
    payloadBytes (records ++ others) =
      payloadBytes records + payloadBytes others := by
  simp [payloadBytes]

theorem payloadBytes_le {records others : List TraceRecord}
    (h : records.Sublist others) : payloadBytes records ≤ payloadBytes others := by
  induction h with
  | slnil => exact le_rfl
  | cons record _ ih =>
      rw [payloadBytes_cons]
      omega
  | cons_cons record _ ih =>
      rw [payloadBytes_cons, payloadBytes_cons]
      omega

namespace TraceLimits

def admits (limits : TraceLimits) (record : TraceRecord) : Bool :=
  record.bytes.length ≤ limits.maximumBytes

def Fits (limits : TraceLimits) (records : List TraceRecord) : Prop :=
  records.length ≤ limits.maximumRecords ∧
    payloadBytes records ≤ limits.maximumBytes

instance (limits : TraceLimits) : DecidablePred limits.Fits :=
  fun _ => inferInstanceAs (Decidable (_ ∧ _))

theorem Fits.left {limits : TraceLimits} {records others : List TraceRecord}
    (h : limits.Fits (records ++ others)) : limits.Fits records := by
  obtain ⟨hrecords, hbytes⟩ := h
  rw [List.length_append] at hrecords
  rw [payloadBytes_append] at hbytes
  exact ⟨by omega, by omega⟩

end TraceLimits

namespace Trace

/-! ## The loop -/

def evicted (trace : Trace) (queue kept : List TraceRecord) : Trace :=
  { trace with
    records := kept
    retainedBytes := payloadBytes kept
    droppedRecords :=
      saturatingAdd trace.droppedRecords (queue.length - kept.length)
    droppedBytes :=
      saturatingAdd trace.droppedBytes
        (payloadBytes queue - payloadBytes kept) }

/-- One more record is evicted before the others. -/
theorem evicted_cons (trace : Trace) (record : TraceRecord)
    {queue kept : List TraceRecord} (h : kept <:+ queue) :
    (({ trace with
        retainedBytes := payloadBytes queue
      }.noteDropped record.bytes.length).evicted queue kept) =
      trace.evicted (record :: queue) kept := by
  have hlength := h.length_le
  have hbytes := payloadBytes_le h.sublist
  unfold evicted noteDropped
  simp only [saturatingAdd_saturatingAdd, List.length_cons, payloadBytes_cons,
    Trace.mk.injEq, true_and]
  constructor
  · congr 1
    omega
  · congr 1
    omega

theorem evicted_self {trace : Trace} {queue : List TraceRecord}
    (hbytes : trace.retainedBytes = payloadBytes queue) :
    trace.evicted queue queue = { trace with records := queue } := by
  unfold evicted
  rw [Nat.sub_self, Nat.sub_self, saturatingAdd_zero, saturatingAdd_zero,
    ← hbytes]

theorem makeRoom_eq {trace : Trace} {record : TraceRecord}
    {queue : List TraceRecord}
    (hlimit : trace.limits.maximumBytes ≤ maximumTraceBytes)
    (hfits : trace.limits.Fits [record])
    (hbytes : trace.retainedBytes = payloadBytes queue) :
    makeRoom record.bytes.length queue trace =
      trace.evicted queue
        (trimFront (fun rest => trace.limits.Fits (rest ++ [record]))
          queue) := by
  generalize hlimits : trace.limits = limits at hlimit hfits ⊢
  -- The loop goes on exactly as long as the new record does not fit.
  have hroom (first : TraceRecord) (queue : List TraceRecord) :
      ((first :: queue).length ≥ limits.maximumRecords ∨
        saturatingLength (payloadBytes (first :: queue)) record.bytes.length >
          limits.maximumBytes) ↔
        ¬ limits.Fits (first :: queue ++ [record]) := by
    unfold maximumTraceBytes at hlimit
    unfold saturatingLength TraceLimits.Fits
    rw [List.length_append, payloadBytes_append, List.length_singleton,
      payloadBytes_cons record, payloadBytes_nil]
    omega
  refine trimFront_loop (makeRoom record.bytes.length)
    (fun queue kept trace => trace.evicted queue kept)
    (fun queue trace => trace.limits = limits ∧
      trace.retainedBytes = payloadBytes queue) hfits ?_ ?_ ?_ queue trace
    ⟨hlimits, hbytes⟩
  · intro trace ⟨_, hbytes⟩
    exact (evicted_self hbytes).symm
  · rintro first queue trace ⟨rfl, hbytes⟩ hfirst
    rw [evicted_self hbytes, makeRoom, hbytes,
      if_neg (mt (hroom first queue).mp (not_not.mpr hfirst)), ← hbytes]
  · rintro first queue trace ⟨rfl, hbytes⟩ hfirst
    refine ⟨({ trace with
      retainedBytes := payloadBytes queue }.noteDropped first.bytes.length),
      ⟨rfl, rfl⟩, ?_, fun kept => trace.evicted_cons first⟩
    rw [makeRoom, hbytes, if_pos ((hroom first queue).mpr hfirst),
      payloadBytes_cons, Nat.add_sub_cancel_left]

/-! ## The operations -/

def Bounded (limits : TraceLimits) : Prop :=
  1 ≤ limits.maximumRecords ∧ limits.maximumBytes ≤ maximumTraceBytes

theorem push_of_not_admits {trace : Trace} {record : TraceRecord}
    (h : trace.limits.admits record = false) :
    trace.push record = trace.noteDropped record.bytes.length := by
  simp only [TraceLimits.admits, decide_eq_false_iff_not, not_le] at h
  exact if_pos h

theorem push_of_admits {trace : Trace} {record : TraceRecord}
    (hbounded : Bounded trace.limits)
    (hbytes : trace.retainedBytes = payloadBytes trace.records)
    (h : trace.limits.admits record = true) :
    ∃ kept,
      IsLongestSuffix (fun rest => trace.limits.Fits (rest ++ [record]))
        trace.records kept ∧
      trace.push record =
        { trace.evicted trace.records kept with
          records := kept ++ [record]
          retainedBytes := payloadBytes (kept ++ [record]) } := by
  simp only [TraceLimits.admits, decide_eq_true_eq] at h
  have hfits : trace.limits.Fits [record] := by
    refine ⟨hbounded.1, ?_⟩
    rw [payloadBytes_cons, payloadBytes_nil]
    exact h
  have hkept := @trimFront_spec _
    (fun rest => trace.limits.Fits (rest ++ [record])) _ hfits trace.records
  refine ⟨_, hkept, ?_⟩
  have htotal := hkept.fits.2
  have hlimit := hbounded.2
  rw [payloadBytes_append, payloadBytes_cons, payloadBytes_nil,
    Nat.add_zero] at htotal
  unfold maximumTraceBytes at hlimit
  unfold push
  dsimp only
  rw [if_neg (not_lt.mpr h), makeRoom_eq hbounded.2 hfits hbytes]
  dsimp only [evicted]
  rw [saturatingLength_eq (by omega), payloadBytes_append, payloadBytes_cons,
    payloadBytes_nil, Nat.add_zero]

structure Recorded (limits : TraceLimits) (pushed : List TraceRecord)
    (trace : Trace) : Prop where
  sameLimits : trace.limits = limits
  kept : IsLongestSuffix limits.Fits (pushed.filter limits.admits)
    trace.records
  bytes : trace.retainedBytes = payloadBytes trace.records
  droppedRecords : trace.droppedRecords =
    saturatingAdd 0 (pushed.length - trace.records.length)
  droppedBytes : trace.droppedBytes =
    saturatingAdd 0 (payloadBytes pushed - payloadBytes trace.records)

theorem Recorded.sublist {limits : TraceLimits} {pushed : List TraceRecord}
    {trace : Trace} (h : Recorded limits pushed trace) :
    trace.records.Sublist pushed :=
  h.kept.isSuffix.sublist.trans List.filter_sublist

theorem recorded_withLimits (limits : TraceLimits) :
    Recorded limits.clamped [] (withLimits limits) :=
  ⟨rfl, ⟨List.suffix_rfl, ⟨Nat.zero_le _, Nat.zero_le _⟩,
    fun _ hsuffix _ => hsuffix⟩, rfl, (saturatingAdd_zero 0).symm,
    (saturatingAdd_zero 0).symm⟩

theorem Recorded.push {limits : TraceLimits} {pushed : List TraceRecord}
    {trace : Trace} (h : Recorded limits pushed trace)
    (hbounded : Bounded limits) (record : TraceRecord) :
    Recorded limits (pushed ++ [record]) (trace.push record) := by
  obtain ⟨rfl, hkept, hbytes, hrecords, hdropped⟩ := id h
  have hlength := h.sublist.length_le
  have hpayload := payloadBytes_le h.sublist
  cases hadmits : trace.limits.admits record with
  | false =>
      rw [push_of_not_admits hadmits]
      refine ⟨rfl, ?_, hbytes, ?_, ?_⟩
      · rw [List.filter_append, List.filter_cons_of_neg (by simp [hadmits]),
          List.filter_nil, List.append_nil]
        exact hkept
      · dsimp only [noteDropped]
        rw [hrecords, saturatingAdd_saturatingAdd, List.length_append,
          List.length_singleton]
        congr 1
        omega
      · dsimp only [noteDropped]
        rw [hdropped, saturatingAdd_saturatingAdd, payloadBytes_append,
          payloadBytes_cons, payloadBytes_nil]
        congr 1
        omega
  | true =>
      obtain ⟨kept, hlongest, hpush⟩ :=
        push_of_admits hbounded hbytes hadmits
      have hfewer := hlongest.isSuffix.length_le
      have hless := payloadBytes_le hlongest.isSuffix.sublist
      rw [hpush]
      refine ⟨rfl, ?_, rfl, ?_, ?_⟩
      · rw [List.filter_append, List.filter_cons_of_pos hadmits,
          List.filter_nil]
        -- What was evicted earlier does not fit beside the new record.
        exact (hkept.stricter (fun _ => TraceLimits.Fits.left)
          hlongest).concat
      · dsimp only [evicted]
        rw [hrecords, saturatingAdd_saturatingAdd, List.length_append,
          List.length_append, List.length_singleton]
        congr 1
        omega
      · dsimp only [evicted]
        rw [hdropped, saturatingAdd_saturatingAdd, payloadBytes_append,
          payloadBytes_append, payloadBytes_cons, payloadBytes_nil]
        congr 1
        omega

theorem Recorded.pushAll {limits : TraceLimits} {pushed : List TraceRecord}
    {trace : Trace} (h : Recorded limits pushed trace)
    (hbounded : Bounded limits) (records : List TraceRecord) :
    Recorded limits (pushed ++ records) (trace.pushAll records) := by
  induction records generalizing pushed trace with
  | nil => simpa [Trace.pushAll] using h
  | cons record records ih =>
      have hrest := ih (h.push hbounded record)
      rw [List.append_assoc, List.singleton_append] at hrest
      exact hrest

theorem bounded_clamped (limits : TraceLimits) : Bounded limits.clamped := by
  unfold Bounded TraceLimits.clamped maximumTraceBytes
  dsimp only
  omega

theorem clamped_eq_iff (limits : TraceLimits) :
    limits.clamped = limits ↔ limits.validate = .ok () := by
  obtain ⟨records, bytes⟩ := limits
  have hclamped : TraceLimits.clamped ⟨records, bytes⟩ = ⟨records, bytes⟩ ↔
      (records ≠ 0 ∧ bytes ≠ 0) ∧ records ≤ maximumTraceRecords ∧
        bytes ≤ maximumTraceBytes := by
    unfold TraceLimits.clamped maximumTraceRecords maximumTraceBytes
    simp only [TraceLimits.mk.injEq]
    omega
  rw [hclamped, TraceLimits.validate]
  dsimp only
  split_ifs with hzero hrecords hbytes
  · exact iff_of_false (fun h => by omega) nofun
  · exact iff_of_false (fun h => by omega) nofun
  · exact iff_of_false (fun h => by omega) nofun
  · exact iff_of_true (by omega) rfl

/-- Limits that are not refused are not clamped either. -/
theorem limits_tryWithLimits {limits : TraceLimits} {trace : Trace}
    (h : tryWithLimits limits = .ok trace) : trace.limits = limits := by
  unfold tryWithLimits at h
  cases hvalid : limits.validate with
  | error error =>
      rw [hvalid] at h
      contradiction
  | ok value =>
      rw [hvalid] at h
      injection h with htrace
      rw [← htrace]
      exact (clamped_eq_iff limits).mpr hvalid

theorem recorded (limits : TraceLimits) (pushed : List TraceRecord) :
    Recorded limits.clamped pushed ((withLimits limits).pushAll pushed) :=
  (recorded_withLimits limits).pushAll (bounded_clamped limits) pushed

/--
The records that remain are the longest recent part of the records that are not
too large by themselves.  Both totals are exact, and what is pushed is retained
or counted.  The limits are the given ones where these are valid.
-/
theorem trace_keeps_longest_suffix (limits : TraceLimits)
    (pushed : List TraceRecord) :
    let trace := (withLimits limits).pushAll pushed
    trace.limits = limits.clamped ∧
      (limits.clamped = limits ↔ limits.validate = .ok ()) ∧
      IsLongestSuffix limits.clamped.Fits
        (pushed.filter fun record =>
          record.bytes.length ≤ limits.clamped.maximumBytes) trace.records ∧
      trace.retainedBytes = payloadBytes trace.records ∧
      (trace.droppedRecords.toNat < 2 ^ 64 - 1 →
        pushed.length = trace.records.length + trace.droppedRecords.toNat) ∧
      (trace.droppedBytes.toNat < 2 ^ 64 - 1 →
        payloadBytes pushed =
          trace.retainedBytes + trace.droppedBytes.toNat) := by
  intro trace
  have h : Recorded limits.clamped pushed trace := recorded limits pushed
  have hlength := h.sublist.length_le
  have hpayload := payloadBytes_le h.sublist
  refine ⟨h.sameLimits, clamped_eq_iff limits, h.kept, h.bytes, ?_, ?_⟩
  · intro hcount
    rw [h.droppedRecords, saturatingAdd_toNat] at hcount ⊢
    change min (0 + _) _ < _ at hcount
    change _ = _ + min (0 + _) _
    omega
  · intro hcount
    rw [h.droppedBytes, saturatingAdd_toNat] at hcount
    rw [h.droppedBytes, saturatingAdd_toNat, h.bytes]
    change min (0 + _) _ < _ at hcount
    change _ = _ + min (0 + _) _
    omega

/-- A recorder that was given a limit of no records keeps one. -/
theorem trace_exceeds_zero_limit :
    ¬ ∀ (limits : TraceLimits) (pushed : List TraceRecord),
      IsLongestSuffix limits.Fits
        (pushed.filter fun record =>
          record.bytes.length ≤ limits.maximumBytes)
        ((withLimits limits).pushAll pushed).records := by
  intro h
  have hfits := (h ⟨0, 5⟩ [⟨.inbound, 0, [1]⟩]).fits.1
  revert hfits
  decide

end Trace

end HartLink.Recording
