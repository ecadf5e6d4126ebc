import HartLink.Operation.Identity
import HartLink.Service.Session

/-!
# Requests that the registry allows

The registry limits the length of the request data of every command it knows.
A checked operation is a raw one that keeps to this limit and takes its retry
safety from the registry.
-/

namespace HartLink.Command

open HartLink.Foundation
open HartLink.Wire
open HartLink.Operation
open HartLink.Service

inductive PayloadConstraint where
  | empty
  | exact (expected : UInt8)
  | range (minimum maximum : UInt8)
  | either (left right : UInt8)
  | unspecified
  deriving DecidableEq, Repr

def PayloadConstraint.allows : PayloadConstraint → Nat → Bool
  | .empty, length => length = 0
  | .exact expected, length => length = expected.toNat
  | .range minimum maximum, length =>
      minimum.toNat ≤ length ∧ length ≤ maximum.toNat
  | .either left right, length => length = left.toNat ∨ length = right.toNat
  | .unspecified, length => length ≤ 255

def requestConstraint (code : CommandCode) : PayloadConstraint :=
  let number := code.get
  if number ≤ 3 ∨ number = 7 ∨ number = 8 ∨ 12 ≤ number ∧ number ≤ 16 ∨
      number = 20 ∨ number = 36 ∨ number = 37 ∨ 41 ≤ number ∧ number ≤ 43 ∨
      number = 48 then
    .empty
  else if number = 6 then .either 1 2
  else if number = 9 then .range 1 8
  else if number = 11 then .exact 6
  else if number = 17 then .exact 24
  else if number = 18 then .exact 21
  else if number = 19 then .exact 3
  else if number = 21 ∨ number = 22 then .exact 32
  else if number = 33 then .range 1 4
  else if number = 34 ∨ number = 40 ∨ number = 45 ∨ number = 46 then .exact 4
  else if number = 35 then .exact 9
  else if number = 38 then .either 0 2
  else if number = 39 ∨ number = 44 ∨ number = 47 then .exact 1
  else .unspecified

/-- No command takes more data than a frame has room for. -/
theorem PayloadConstraint.le_of_allows {constraint : PayloadConstraint}
    {length : Nat} (h : constraint.allows length = true) : length ≤ 255 := by
  cases constraint with
  | empty =>
      have h := of_decide_eq_true h
      omega
  | exact expected =>
      have h := of_decide_eq_true h
      have := expected.toNat_lt
      omega
  | range minimum maximum =>
      have h := of_decide_eq_true h
      have := maximum.toNat_lt
      omega
  | either left right =>
      have h := of_decide_eq_true h
      have := left.toNat_lt
      have := right.toNat_lt
      omega
  | unspecified => exact of_decide_eq_true h

/-! ## Checked operations -/

def fitsFrame (command : CommandCode) (length : Nat) : Bool :=
  if command.isExpanded then length ≤ 255 - 2 else length ≤ 255

structure CheckedOperation where
  command : CommandCode
  data : Bytes
  retrySafety : OperationSafety
  deriving DecidableEq, Repr

namespace CheckedOperation

def new (command : CommandCode) (data : Bytes) :
    Except CodecError CheckedOperation :=
  if !fitsFrame command data.length ||
      !(requestConstraint command).allows data.length then
    .error (.requestLength command.get data.length)
  else
    .ok { command, data
          retrySafety := (commandDescriptor command).elim .action (·.safety) }

def operation (checked : CheckedOperation) : DeviceOperation DeviceReply :=
  { command := checked.command
    retrySafety := checked.retrySafety
    encodeRequest := .ok checked.data
    decodeReply := fun reply =>
      if reply.command ≠ checked.command then
        .error (.operation
          (.commandMismatch checked.command.get reply.command.get))
      else .ok reply }

end CheckedOperation

/-! ## Successful replies -/

/-- The reply answers the command and reports neither error nor warning. -/
def Succeeds (command : CommandCode) (reply : DeviceReply) : Prop :=
  reply.command = command ∧ reply.responseCode = 0

theorem requireSuccess_eq_ok_iff {command : CommandCode}
    {reply : DeviceReply} :
    reply.requireSuccess command = .ok () ↔ Succeeds command reply := by
  unfold DeviceReply.requireSuccess DeviceReply.requireCommand Succeeds
  by_cases hcommand : reply.command = command
  · by_cases hcode : reply.responseCode = 0
    · simp [hcommand, hcode, bind, Except.bind]
    · simp only [hcommand, ne_eq, not_true_eq_false, if_false, bind,
        Except.bind, hcode, not_false_eq_true, if_true, and_false, iff_false]
      split_ifs <;> simp
  · simp [hcommand, bind, Except.bind]

theorem requireSuccess_bind_eq_ok_iff {Output : Type} {command : CommandCode}
    {reply : DeviceReply} {decode : Except CodecError Output}
    {output : Output} :
    (do reply.requireSuccess command; decode) = .ok output ↔
      Succeeds command reply ∧ decode = .ok output := by
  rw [← requireSuccess_eq_ok_iff]
  cases reply.requireSuccess command with
  | error error => simp [bind, Except.bind]
  | ok value => simp [bind, Except.bind]

end HartLink.Command
