import HartLink.Foundation.Steps
import HartLink.Mesh.Security
import HartLink.Mesh.Topology

/-!
# The network manager

A device that is on the allow list and has a key may join; it is given a short
address, its nickname.  `Joins` says once what an attempt to join can do.
-/

namespace HartLink.Mesh

open HartLink.Foundation

structure NetworkId where
  get : UInt16
  deriving DecidableEq, Repr

structure JoinRequest where
  device : DeviceId
  network : NetworkId
  securityCounter : UInt32
  deriving DecidableEq, Repr

inductive JoinDecision where
  | accepted (nickname : UInt16)
  | notAllowed
  | wrongNetwork
  | authenticationFailed
  deriving DecidableEq, Repr

inductive MeshManagerError where
  | schedule (error : ScheduleError)
  | security (error : SecurityError)
  | addressSpace
  deriving DecidableEq, Repr

structure MeshManager where
  network : NetworkId
  graph : MeshGraph
  schedule : Schedule
  allowlist : Finset DeviceId
  joinKeys : Table DeviceId KeyMaterial
  replay : Table DeviceId ReplayWindow
  nextNickname : UInt16

/-- `checked_add(1)`, with zero once the addresses are used up. -/
def followingNickname (nickname : UInt16) : UInt16 :=
  if nickname = 65535 then 0 else nickname + 1

namespace MeshManager

def new (network : NetworkId) (superframeSize : UInt16) :
    Except MeshManagerError MeshManager :=
  match Schedule.new superframeSize with
  | .error error => .error (.schedule error)
  | .ok schedule => .ok ⟨network, {}, schedule, ∅, ∅, ∅, 1⟩

def allow (manager : MeshManager) (device : DeviceId)
    (joinKey : KeyMaterial) : MeshManager :=
  let allowed := { manager with
    allowlist := insert device manager.allowlist
    joinKeys := manager.joinKeys.insert device joinKey }
  if (manager.joinKeys.lookup device).isSome then
    { allowed with
      replay := manager.replay.erase device
      graph := manager.graph.removeNode device
      schedule := manager.schedule.removeDevice device }
  else allowed

def revoke (manager : MeshManager) (device : DeviceId) : MeshManager :=
  { manager with
    allowlist := manager.allowlist.erase device
    joinKeys := manager.joinKeys.erase device
    replay := manager.replay.erase device
    graph := manager.graph.removeNode device
    schedule := manager.schedule.removeDevice device }

/-- The window of a device, which begins empty, is given a counter. -/
def acceptCounter (manager : MeshManager) (device : DeviceId)
    (counter : UInt32) : Except SecurityError Unit × MeshManager :=
  let window := (manager.replay.lookup device).getD {}
  let (result, window) := window.accept counter
  (result, { manager with replay := manager.replay.insert device window })

def applyJoin (manager : MeshManager) (request : JoinRequest) :
    Except MeshManagerError JoinDecision × MeshManager :=
  if request.network ≠ manager.network then (.ok .wrongNetwork, manager)
  else if request.device ∉ manager.allowlist ∨
      (manager.joinKeys.lookup request.device).isNone then
    (.ok .notAllowed, manager)
  else
    match (manager.graph.node request.device).filter (·.active) with
    | some node =>
        match manager.acceptCounter request.device request.securityCounter with
        | (.error error, manager) => (.error (.security error), manager)
        | (.ok _, manager) => (.ok (.accepted node.nickname), manager)
    | none =>
        if manager.nextNickname = 0 then (.error .addressSpace, manager)
        else
          match manager.acceptCounter request.device
              request.securityCounter with
          | (.error error, manager) => (.error (.security error), manager)
          | (.ok _, manager) =>
              let nickname := manager.nextNickname
              (.ok (.accepted nickname), { manager with
                nextNickname := followingNickname nickname
                graph := manager.graph.upsertNode
                  ⟨request.device, nickname, true⟩ })

def joinAuthenticated (manager : MeshManager) (request : JoinRequest)
    (authenticate : JoinRequest → KeyMaterial → Bool) :
    Except MeshManagerError JoinDecision × MeshManager :=
  if request.network ≠ manager.network then (.ok .wrongNetwork, manager)
  else
    match manager.joinKeys.lookup request.device with
    | none => (.ok .notAllowed, manager)
    | some joinKey =>
        if request.device ∉ manager.allowlist then (.ok .notAllowed, manager)
        else if ¬ authenticate request joinKey then
          (.ok .authenticationFailed, manager)
        else manager.applyJoin request

/-! ## What an attempt to join can do -/

def withWindow (manager : MeshManager) (device : DeviceId)
    (window : ReplayWindow) : MeshManager :=
  { manager with replay := manager.replay.insert device window }

def withNode (manager : MeshManager) (device : DeviceId) : MeshManager :=
  { manager with
    nextNickname := followingNickname manager.nextNickname
    graph := manager.graph.upsertNode ⟨device, manager.nextNickname, true⟩ }

inductive Joins (manager : MeshManager) (request : JoinRequest) :
    Except MeshManagerError JoinDecision → MeshManager → Prop
  | refused {result : Except MeshManagerError JoinDecision}
      (refused : ∀ nickname, result ≠ .ok (.accepted nickname)) :
      Joins manager request result manager
  | rejoined {node : NodeState} {joinKey : KeyMaterial}
      {window : ReplayWindow}
      (known : manager.graph.node request.device = some node)
      (active : node.active = true)
      (allowed : request.device ∈ manager.allowlist)
      (key : manager.joinKeys.lookup request.device = some joinKey)
      (counter : ReplayWindow.accept
        ((manager.replay.lookup request.device).getD {})
        request.securityCounter = (.ok (), window)) :
      Joins manager request (.ok (.accepted node.nickname))
        (manager.withWindow request.device window)
  | joined {joinKey : KeyMaterial} {window : ReplayWindow}
      (inactive : ∀ node, manager.graph.node request.device = some node →
        node.active = false)
      (nickname : manager.nextNickname ≠ 0)
      (allowed : request.device ∈ manager.allowlist)
      (key : manager.joinKeys.lookup request.device = some joinKey)
      (counter : ReplayWindow.accept
        ((manager.replay.lookup request.device).getD {})
        request.securityCounter = (.ok (), window)) :
      Joins manager request (.ok (.accepted manager.nextNickname))
        ((manager.withWindow request.device window).withNode request.device)

theorem acceptCounter_cases (manager : MeshManager) (device : DeviceId)
    (counter : UInt32) :
    (∃ error, manager.acceptCounter device counter = (.error error, manager)) ∨
    ∃ window, ReplayWindow.accept ((manager.replay.lookup device).getD {})
        counter = (.ok (), window) ∧
      manager.acceptCounter device counter =
        (.ok (), manager.withWindow device window) := by
  unfold acceptCounter
  cases hresult : (ReplayWindow.accept
      ((manager.replay.lookup device).getD {}) counter).1 with
  | error error =>
      obtain ⟨hsame, hinitialized⟩ := ReplayWindow.accept_error hresult
      left
      -- Only a window that the table already holds rejects a counter.
      cases hlookup : manager.replay.lookup device with
      | none =>
          rw [hlookup] at hinitialized
          contradiction
      | some window =>
          rw [hlookup, Option.getD_some] at hresult hsame
          refine ⟨error, ?_⟩
          simp only [Option.getD_some, hresult, hsame,
            Table.insert_of_lookup hlookup]
  | ok value =>
      right
      exact ⟨_, Prod.ext hresult rfl, Prod.ext hresult rfl⟩

theorem joins (manager : MeshManager) (request : JoinRequest)
    (authenticate : JoinRequest → KeyMaterial → Bool) :
    Joins manager request (manager.joinAuthenticated request authenticate).1
      (manager.joinAuthenticated request authenticate).2 := by
  unfold joinAuthenticated
  by_cases hnetwork : request.network ≠ manager.network
  · rw [if_pos hnetwork]
    exact .refused (by simp)
  rw [if_neg hnetwork]
  cases hkey : manager.joinKeys.lookup request.device with
  | none => exact .refused (by simp)
  | some joinKey =>
  dsimp only
  by_cases hallowed : request.device ∈ manager.allowlist
  swap
  · rw [if_pos hallowed]
    exact .refused (by simp)
  rw [if_neg (not_not.mpr hallowed)]
  by_cases hverified : authenticate request joinKey = true
  swap
  · rw [if_pos hverified]
    exact .refused (by simp)
  rw [if_neg (not_not.mpr hverified)]
  have hcounter := manager.acceptCounter_cases request.device
    request.securityCounter
  unfold applyJoin
  rw [if_neg hnetwork, if_neg (by simp [hallowed, hkey])]
  split
  next node hnode =>
    obtain ⟨hlookup, hactive⟩ := Option.filter_eq_some_iff.mp hnode
    rcases hcounter with ⟨error, hcounter⟩ | ⟨window, haccept, hcounter⟩
    · rw [hcounter]
      exact .refused (by simp)
    · rw [hcounter]
      exact .rejoined hlookup hactive hallowed hkey haccept
  next hnode =>
    split_ifs with hspace
    · exact .refused (by simp)
    rcases hcounter with ⟨error, hcounter⟩ | ⟨window, haccept, hcounter⟩
    · rw [hcounter]
      exact .refused (by simp)
    · rw [hcounter]
      refine .joined ?_ hspace hallowed hkey haccept
      intro node hlookup
      rw [hlookup] at hnode
      simpa using hnode

end MeshManager

end HartLink.Mesh
