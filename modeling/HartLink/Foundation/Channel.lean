import Mathlib.Data.List.Basic

/-!
# Bounded channels

A channel holds what its receiver has not taken yet, up to its capacity.  The
messages it accepted are those taken and those still waiting, in the order in
which they were sent.
-/

namespace HartLink.Foundation

inductive TrySendError where
  | full
  | closed
  deriving DecidableEq, Repr

/-- `taken` is what the receiver has got so far. -/
structure Channel (Message : Type*) where
  capacity : Nat
  queue : List Message := []
  receiving : Bool := true
  taken : List Message := []
  deriving DecidableEq, Repr

namespace Channel

variable {Message : Type*}

def trySend (channel : Channel Message) (message : Message) :
    Except TrySendError (Channel Message) :=
  if channel.receiving = false then .error .closed
  else if channel.capacity ≤ channel.queue.length then .error .full
  else .ok { channel with queue := channel.queue ++ [message] }

/-- The receiver takes the oldest message, if there is one. -/
def tryRecv (channel : Channel Message) : Channel Message :=
  match channel.queue with
  | [] => channel
  | message :: queue =>
      { channel with queue, taken := channel.taken ++ [message] }

def close (channel : Channel Message) : Channel Message :=
  { channel with receiving := false }

def accepted (channel : Channel Message) : List Message :=
  channel.taken ++ channel.queue

/-- The channel after an attempt to send. -/
def offered (channel : Channel Message) (message : Message) :
    Channel Message :=
  (channel.trySend message).toOption.getD channel

@[simp] theorem accepted_tryRecv (channel : Channel Message) :
    channel.tryRecv.accepted = channel.accepted := by
  unfold tryRecv accepted
  split
  · rfl
  next message queue hqueue => simp [hqueue]

@[simp] theorem accepted_close (channel : Channel Message) :
    channel.close.accepted = channel.accepted :=
  rfl

theorem accepted_of_trySend {channel next : Channel Message}
    {message : Message} (h : channel.trySend message = .ok next) :
    next.accepted = channel.accepted ++ [message] := by
  unfold trySend at h
  split_ifs at h
  injection h with h
  subst h
  simp [accepted]

end Channel

end HartLink.Foundation
