import HartLink.Emulator.Device
import HartLink.Foundation.Pipe
import HartLink.Foundation.Steps
import HartLink.Service.Link

/-!
# Memory channels

Two connected endpoints in memory.  A transmission applies the fault plan of its
endpoint and then sends fragment after fragment; between two of them the other
endpoint may do anything.  An endpoint may also write into its own pipe: that is
the echo of the line.
-/

namespace HartLink.Emulator

open HartLink.Foundation
open HartLink.Wire
open HartLink.Service

def maximumEmulatorChannelCapacity : Nat := 65536
def maximumEmulatorNoisePrefix : Nat := 1024 * 1024
def maximumEmulatorTransmissionBytes : Nat := 1024 * 1024
def maximumEmulatorLatency : Nat := 24 * 60 * 60 * 10 ^ 9

/-! ## Faults -/

/-- A send goes to the other endpoint or comes back as an echo. -/
inductive Lane where
  | outgoing
  | echo
  deriving DecidableEq, Repr

/-- The latency is in nanoseconds. -/
structure FaultPlan where
  dropNext : Bool := false
  echo : Bool := false
  corruptNext : Bool := false
  noisePrefix : Bytes := []
  fragmentSize : Option Nat := none
  latency : Nat := 0
  deriving DecidableEq, Repr

namespace FaultPlan

def validate (plan : FaultPlan) : Except ChannelError Unit :=
  if plan.noisePrefix.length > maximumEmulatorNoisePrefix then
    .error (.configuration "emulator noise prefix exceeds the supported limit")
  else if plan.fragmentSize = some 0 then
    .error (.configuration "emulator fragment size must be greater than zero")
  else if plan.latency > maximumEmulatorLatency then
    .error (.configuration "emulator latency exceeds the supported limit")
  else .ok ()

def sanitize (plan : FaultPlan) : FaultPlan :=
  { plan with
    noisePrefix := plan.noisePrefix.take maximumEmulatorNoisePrefix
    fragmentSize :=
      if plan.fragmentSize = some 0 then some 1 else plan.fragmentSize
    latency := min plan.latency maximumEmulatorLatency }

def corrupt : Bytes → Bytes
  | [] => []
  | [checksum] => [checksum ^^^ 0x01]
  | byte :: bytes => byte :: corrupt bytes

/-- `slice::chunks`; the first number bounds the chunks. -/
def chunksLoop (size : Nat) : Nat → Bytes → List Bytes
  | 0, _ => []
  | bound + 1, bytes =>
      if bytes.length = 0 then []
      else bytes.take size :: chunksLoop size bound (bytes.drop size)

def chunks (size : Nat) (bytes : Bytes) : List Bytes :=
  chunksLoop size bytes.length bytes

def sends (plan : FaultPlan) (bytes : Bytes) : List (Lane × Bytes) :=
  let fragmentSize := max (plan.fragmentSize.getD (max bytes.length 1)) 1
  let output := plan.noisePrefix ++ bytes
  let output := if plan.corruptNext then corrupt output else output
  (if plan.echo then [(.echo, bytes)] else []) ++
    if plan.dropNext then []
    else (chunks fragmentSize output).map (Lane.outgoing, ·)

/-- One transmission uses up these faults, also those of a dropped one. -/
def afterSend (plan : FaultPlan) : FaultPlan :=
  { plan with dropNext := false, corruptNext := false, noisePrefix := [] }

end FaultPlan

/-! ## Endpoints -/

inductive Side where
  | left
  | right
  deriving DecidableEq, Repr

def Side.other : Side → Side
  | .left => .right
  | .right => .left

def Lane.target (lane : Lane) (side : Side) : Side :=
  match lane with
  | .outgoing => side.other
  | .echo => side

/--
`pending` is what the transmission under way has still to send, and `sent` is
everything that the endpoint has sent.
-/
structure Endpoint where
  faults : FaultPlan := {}
  pending : List (Lane × Bytes) := []
  sent : List (Lane × Bytes) := []
  alive : Bool := true
  deriving DecidableEq, Repr

/-- Each endpoint reads from its own pipe. -/
structure MemoryLink where
  endpoint : Side → Endpoint
  pipe : Side → Pipe Side UInt8

namespace MemoryLink

def pairWithCapacity (capacity : Nat) : MemoryLink where
  endpoint _ := {}
  pipe _ := { capacity }

def pair (capacity : Nat) : MemoryLink :=
  pairWithCapacity (max 1 (min capacity maximumEmulatorChannelCapacity))

def tryPair (capacity : Nat) : Except ChannelError MemoryLink :=
  if capacity = 0 then
    .error (.configuration
      "emulator channel capacity must be greater than zero")
  else if capacity > maximumEmulatorChannelCapacity then
    .error (.configuration
      "emulator channel capacity exceeds the supported limit")
  else .ok (pairWithCapacity capacity)

def setEndpoint (link : MemoryLink) (side : Side) (endpoint : Endpoint) :
    MemoryLink :=
  { link with endpoint := Function.update link.endpoint side endpoint }

def setPipe (link : MemoryLink) (side : Side) (pipe : Pipe Side UInt8) :
    MemoryLink :=
  { link with pipe := Function.update link.pipe side pipe }

def idle (link : MemoryLink) (side : Side) : Bool :=
  (link.endpoint side).alive && (link.endpoint side).pending.isEmpty

/--
What the owner of an endpoint does, cut where it can wait: `send` reads the
plan, `advance` sends one fragment or finds the receiver gone, and `abandon`
drops the call in between; `pull` and `read` are the two parts of `receive`.
-/
inductive Call where
  | setFaults (plan : FaultPlan)
  | trySetFaults (plan : FaultPlan)
  | send (bytes : Bytes)
  | advance
  | abandon
  | pull
  | read (size : Nat)
  | drop
  deriving DecidableEq, Repr

def send (link : MemoryLink) (side : Side) (bytes : Bytes) : MemoryLink :=
  let endpoint := link.endpoint side
  if bytes.length > maximumEmulatorTransmissionBytes then link
  else
    link.setEndpoint side { endpoint with
      faults := endpoint.faults.afterSend
      pending := endpoint.faults.sends bytes }

/-- A transmission whose receiver is gone ends with an error. -/
def advance (link : MemoryLink) (side : Side) : Option MemoryLink :=
  let endpoint := link.endpoint side
  match endpoint.pending with
  | [] => none
  | (lane, fragment) :: pending =>
      if (link.endpoint (lane.target side)).alive then
        ((link.pipe (lane.target side)).write side fragment).map fun pipe =>
          (link.setPipe (lane.target side) pipe).setEndpoint side
            { endpoint with
              pending
              sent := endpoint.sent ++ [(lane, fragment)] }
      else some (link.setEndpoint side { endpoint with pending := [] })

def step (link : MemoryLink) (side : Side) : Call → Option MemoryLink
  | .setFaults plan =>
      if link.idle side then
        some (link.setEndpoint side
          { link.endpoint side with faults := plan.sanitize })
      else none
  | .trySetFaults plan =>
      if link.idle side then
        match plan.validate with
        | .ok () =>
            some (link.setEndpoint side
              { link.endpoint side with faults := plan })
        | .error _ => some link
      else none
  | .send bytes => if link.idle side then some (link.send side bytes) else none
  | .advance => link.advance side
  | .abandon =>
      some (link.setEndpoint side { link.endpoint side with pending := [] })
  | .pull =>
      if link.idle side then
        (link.pipe side).pull.map (link.setPipe side)
      else none
  | .read size =>
      if link.idle side then
        ((link.pipe side).read size).map (link.setPipe side)
      else none
  | .drop =>
      some (link.setEndpoint side
        { link.endpoint side with pending := [], alive := false })

def closed (link : MemoryLink) (side : Side) : Bool :=
  (link.pipe side).remainder.isEmpty && (link.pipe side).waiting.isEmpty &&
    !(link.endpoint side.other).alive

/-! ## Updates -/

section Updates

variable (link : MemoryLink) (side other : Side)

@[simp] theorem setEndpoint_pipe (endpoint : Endpoint) :
    (link.setEndpoint side endpoint).pipe = link.pipe := rfl

@[simp] theorem setPipe_endpoint (pipe : Pipe Side UInt8) :
    (link.setPipe side pipe).endpoint = link.endpoint := rfl

theorem setEndpoint_endpoint (endpoint : Endpoint) :
    (link.setEndpoint side endpoint).endpoint other =
      if other = side then endpoint else link.endpoint other :=
  Function.update_apply ..

theorem setPipe_pipe (pipe : Pipe Side UInt8) :
    (link.setPipe side pipe).pipe other =
      if other = side then pipe else link.pipe other :=
  Function.update_apply ..

end Updates

/-! ## Every interleaving keeps the bytes -/

end MemoryLink

def Endpoint.sentTo (endpoint : Endpoint) (side target : Side) : List Bytes :=
  (endpoint.sent.filter fun send => send.1.target side = target).map Prod.snd

namespace MemoryLink

/-- The pipes are sound, and hold what the endpoints have sent. -/
structure Balanced (link : MemoryLink) : Prop where
  sound : ∀ side, (link.pipe side).Sound
  sent : ∀ writer reader, (link.pipe reader).writtenBy writer =
    (link.endpoint writer).sentTo writer reader

theorem balanced_pair (capacity : Nat) :
    (pairWithCapacity capacity).Balanced :=
  ⟨fun _ => Pipe.sound_new capacity, fun _ _ => rfl⟩

/-- Calls that leave the pipes and what was sent as they are. -/
theorem Balanced.setEndpoint {link : MemoryLink} (h : link.Balanced)
    {side : Side} {endpoint : Endpoint}
    (hsent : endpoint.sent = (link.endpoint side).sent) :
    (link.setEndpoint side endpoint).Balanced := by
  refine ⟨h.sound, ?_⟩
  intro writer reader
  rw [setEndpoint_pipe, setEndpoint_endpoint, h.sent]
  split_ifs with hside
  · rw [hside, Endpoint.sentTo, Endpoint.sentTo, hsent]
  · rfl

/-- Reading changes nothing about what was written. -/
theorem Balanced.setPipe {link : MemoryLink} (h : link.Balanced) {side : Side}
    {pipe : Pipe Side UInt8} (hsound : pipe.Sound)
    (haccepted : pipe.accepted = (link.pipe side).accepted) :
    (link.setPipe side pipe).Balanced := by
  constructor
  · intro other
    rw [setPipe_pipe]
    split_ifs
    · exact hsound
    · exact h.sound other
  · intro writer reader
    rw [setPipe_endpoint, ← h.sent, setPipe_pipe]
    split_ifs with hside
    · rw [hside, Pipe.writtenBy, Pipe.writtenBy, haccepted]
    · rfl

theorem Balanced.send {link : MemoryLink} (h : link.Balanced) (side : Side)
    (bytes : Bytes) : (link.send side bytes).Balanced := by
  unfold MemoryLink.send
  split_ifs
  · exact h
  · exact h.setEndpoint rfl

/-- A fragment is sent, or the transmission ends because its receiver is gone. -/
theorem advance_cases {link next : MemoryLink} {side : Side}
    (h : link.advance side = some next) :
    ∃ lane fragment pending,
      (link.endpoint side).pending = (lane, fragment) :: pending ∧
      ((∃ pipe, (link.endpoint (lane.target side)).alive = true ∧
          (link.pipe (lane.target side)).write side fragment = some pipe ∧
          next = (link.setPipe (lane.target side) pipe).setEndpoint side
            { link.endpoint side with
              pending
              sent := (link.endpoint side).sent ++ [(lane, fragment)] }) ∨
        (link.endpoint (lane.target side)).alive = false ∧
          next = link.setEndpoint side
            { link.endpoint side with pending := [] }) := by
  unfold MemoryLink.advance at h
  dsimp only at h
  split at h
  · contradiction
  next lane fragment pending hpending =>
    refine ⟨lane, fragment, pending, hpending, ?_⟩
    split_ifs at h with halive
    · rw [Option.map_eq_some_iff] at h
      obtain ⟨pipe, hwrite, hnext⟩ := h
      exact .inl ⟨pipe, halive, hwrite, hnext.symm⟩
    · injection h with h
      exact .inr ⟨Bool.eq_false_iff.mpr halive, h.symm⟩

theorem Balanced.advance {link next : MemoryLink} (h : link.Balanced)
    {side : Side} (hstep : link.advance side = some next) :
    next.Balanced := by
  obtain ⟨lane, fragment, pending, -, ⟨pipe, -, hwrite, rfl⟩ | ⟨-, rfl⟩⟩ :=
    advance_cases hstep
  · have hsound := (h.sound (lane.target side)).write hwrite
    obtain ⟨-, rfl⟩ := Pipe.write_eq hwrite
    constructor
    · intro other
      rw [setEndpoint_pipe, setPipe_pipe]
      split_ifs
      · exact hsound
      · exact h.sound other
    · intro writer reader
      have hsent := h.sent writer reader
      rw [setEndpoint_pipe, setPipe_pipe, setEndpoint_endpoint,
        setPipe_endpoint]
      unfold Pipe.writtenBy Endpoint.sentTo at hsent ⊢
      by_cases hreader : reader = lane.target side
      · by_cases hwriter : writer = side
        · subst hwriter hreader
          simp [hsent]
        · subst hreader
          simp [hwriter, Ne.symm hwriter, hsent]
      · by_cases hwriter : writer = side
        · subst hwriter
          simp [hreader, Ne.symm hreader, hsent]
        · simp [hreader, hwriter, hsent]
  · exact h.setEndpoint rfl

/-! ## What a call can do -/

theorem other_ne (side : Side) : side.other ≠ side := by
  cases side <;> decide

theorem pull_cases {link next : MemoryLink} {side : Side}
    (h : link.step side .pull = some next) :
    ∃ pipe, link.idle side = true ∧ (link.pipe side).pull = some pipe ∧
      next = link.setPipe side pipe := by
  rw [MemoryLink.step] at h
  split_ifs at h with hidle
  rw [Option.map_eq_some_iff] at h
  obtain ⟨pipe, hpull, hnext⟩ := h
  exact ⟨pipe, hidle, hpull, hnext.symm⟩

theorem read_cases {link next : MemoryLink} {side : Side} {size : Nat}
    (h : link.step side (.read size) = some next) :
    ∃ pipe, link.idle side = true ∧ (link.pipe side).read size = some pipe ∧
      next = link.setPipe side pipe := by
  rw [MemoryLink.step] at h
  split_ifs at h with hidle
  rw [Option.map_eq_some_iff] at h
  obtain ⟨pipe, hread, hnext⟩ := h
  exact ⟨pipe, hidle, hread, hnext.symm⟩

/-- What a call can do, up to the plan and the transmission of its endpoint. -/
inductive Effect (link : MemoryLink) (side : Side) : Call → MemoryLink → Prop
  | unchanged {call : Call} : Effect link side call link
  | endpoint {call : Call} {endpoint : Endpoint}
      (hsent : endpoint.sent = (link.endpoint side).sent) :
      Effect link side call (link.setEndpoint side endpoint)
  | sent {lane : Lane} {fragment : Bytes} {pending : List (Lane × Bytes)}
      {pipe : Pipe Side UInt8}
      (halive : (link.endpoint (lane.target side)).alive = true)
      (hwrite : (link.pipe (lane.target side)).write side fragment =
        some pipe) :
      Effect link side .advance
        ((link.setPipe (lane.target side) pipe).setEndpoint side
          { link.endpoint side with
            pending
            sent := (link.endpoint side).sent ++ [(lane, fragment)] })
  | pulled {pipe : Pipe Side UInt8} (hpull : (link.pipe side).pull = some pipe) :
      Effect link side .pull (link.setPipe side pipe)
  | read {size : Nat} {pipe : Pipe Side UInt8}
      (hread : (link.pipe side).read size = some pipe) :
      Effect link side (.read size) (link.setPipe side pipe)

theorem step_effect {link next : MemoryLink} {side : Side} {call : Call}
    (h : link.step side call = some next) : link.Effect side call next := by
  cases call with
  | setFaults plan =>
      rw [MemoryLink.step] at h
      split_ifs at h
      injection h with h
      rw [← h]
      exact .endpoint rfl
  | trySetFaults plan =>
      rw [MemoryLink.step] at h
      split_ifs at h
      split at h
      · injection h with h
        rw [← h]
        exact .endpoint rfl
      · injection h with h
        rw [← h]
        exact .unchanged
  | send bytes =>
      rw [MemoryLink.step, MemoryLink.send] at h
      split_ifs at h
      · injection h with h
        rw [← h]
        exact .unchanged
      · injection h with h
        rw [← h]
        exact .endpoint rfl
  | advance =>
      obtain ⟨lane, fragment, pending, -,
        ⟨pipe, halive, hwrite, rfl⟩ | ⟨-, rfl⟩⟩ := advance_cases h
      · exact .sent halive hwrite
      · exact .endpoint rfl
  | abandon =>
      injection h with h
      rw [← h]
      exact .endpoint rfl
  | pull =>
      obtain ⟨pipe, -, hpull, rfl⟩ := pull_cases h
      exact .pulled hpull
  | read size =>
      obtain ⟨pipe, -, hread, rfl⟩ := read_cases h
      exact .read hread
  | drop =>
      injection h with h
      rw [← h]
      exact .endpoint rfl

theorem Balanced.step {link next : MemoryLink} (h : link.Balanced)
    {side : Side} {call : Call} (hstep : link.step side call = some next) :
    next.Balanced := by
  cases step_effect hstep with
  | unchanged => exact h
  | endpoint hsent => exact h.setEndpoint hsent
  | sent => exact h.advance hstep
  | pulled hpull =>
      apply h.setPipe ((h.sound side).pull hpull)
      obtain ⟨_, _, -, -, rfl⟩ := Pipe.pull_eq hpull
      rfl
  | read hread =>
      apply h.setPipe ((h.sound side).read hread)
      obtain ⟨-, -, rfl⟩ := Pipe.read_eq hread
      rfl

/-! ## What a call leaves alone -/

theorem step_other {link next : MemoryLink} {side : Side} {call : Call}
    (h : link.step side call = some next) :
    next.endpoint side.other = link.endpoint side.other ∧
      (next.pipe side.other).pieces = (link.pipe side.other).pieces := by
  have hne := other_ne side
  cases step_effect h with
  | unchanged => exact ⟨rfl, rfl⟩
  | endpoint hsent =>
      rw [setEndpoint_endpoint, if_neg hne]
      exact ⟨rfl, rfl⟩
  | sent halive hwrite =>
      obtain ⟨-, rfl⟩ := Pipe.write_eq hwrite
      rw [setEndpoint_endpoint, if_neg hne, setPipe_endpoint, setEndpoint_pipe,
        setPipe_pipe]
      refine ⟨rfl, ?_⟩
      split_ifs with htarget
      · rw [htarget]
      · rfl
  | pulled hpull =>
      rw [setPipe_pipe, if_neg hne]
      exact ⟨rfl, rfl⟩
  | read hread =>
      rw [setPipe_pipe, if_neg hne]
      exact ⟨rfl, rfl⟩

theorem step_gone {link next : MemoryLink} {side : Side} {call : Call}
    (h : link.step side call = some next)
    (hgone : (link.endpoint side.other).alive = false) :
    next.pipe side.other = link.pipe side.other := by
  have hne := other_ne side
  cases step_effect h with
  | unchanged => rfl
  | endpoint hsent => rw [setEndpoint_pipe]
  | sent halive hwrite =>
      rw [setEndpoint_pipe, setPipe_pipe, if_neg]
      intro htarget
      rw [← htarget, hgone] at halive
      contradiction
  | pulled hpull => rw [setPipe_pipe, if_neg hne]
  | read hread => rw [setPipe_pipe, if_neg hne]

/-- A piece that is new was asked for, with room for it. -/
theorem pieces_of_step {link next : MemoryLink} {side : Side} {call : Call}
    (h : link.step side call = some next) (piece : Bytes)
    (hpiece : piece ∈ (next.pipe side).pieces) :
    piece ∈ (link.pipe side).pieces ∨
      ∃ size, call = .read size ∧ piece.length ≤ size := by
  cases step_effect h with
  | unchanged => exact .inl hpiece
  | endpoint hsent => exact .inl hpiece
  | sent halive hwrite =>
      obtain ⟨-, rfl⟩ := Pipe.write_eq hwrite
      rw [setEndpoint_pipe, setPipe_pipe] at hpiece
      split_ifs at hpiece with htarget
      · rw [htarget]
        exact .inl hpiece
      · exact .inl hpiece
  | pulled hpull =>
      obtain ⟨_, _, -, -, rfl⟩ := Pipe.pull_eq hpull
      rw [setPipe_pipe, if_pos rfl] at hpiece
      exact .inl hpiece
  | @read size _ hread =>
      obtain ⟨-, -, rfl⟩ := Pipe.read_eq hread
      rw [setPipe_pipe, if_pos rfl] at hpiece
      rcases List.mem_append.mp hpiece with hold | hnew
      · exact .inl hold
      · rw [List.mem_singleton] at hnew
        exact .inr ⟨size, rfl, hnew ▸ List.length_take_le _ _⟩

end MemoryLink

end HartLink.Emulator
