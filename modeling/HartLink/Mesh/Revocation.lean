import HartLink.Mesh.Admission
import HartLink.Mesh.Graph

/-!
# Revocation and replacement of a key

A manager spreads a device over its own tables, the graph and the schedule.
Both operations that end a membership clear all of them, and nothing that
belongs to the other devices.  That no link remains rests on the representation
of the graph, which every run keeps.
-/

namespace HartLink.Mesh

open HartLink.Foundation MeshGraph

/-! ## Runs -/

/-- `graph_mut` and `schedule_mut` also let a caller assign a whole value. -/
inductive ManagerAction where
  | allow (device : DeviceId) (joinKey : KeyMaterial)
  | revoke (device : DeviceId)
  | join (request : JoinRequest)
      (authenticate : JoinRequest → KeyMaterial → Bool)
  | editGraph (edit : GraphEdit)
  | assignGraph (edits : List GraphEdit)
  | insertCell (cell : Cell)
  | removeDevice (device : DeviceId)
  | assignSchedule (schedule : Schedule)

namespace MeshManager

def perform (manager : MeshManager) : ManagerAction → MeshManager
  | .allow device joinKey => manager.allow device joinKey
  | .revoke device => manager.revoke device
  | .join request authenticate =>
      (manager.joinAuthenticated request authenticate).2
  | .editGraph edit => { manager with graph := manager.graph.edit edit }
  | .assignGraph edits => { manager with graph := build edits }
  | .insertCell cell =>
      { manager with schedule := (manager.schedule.insert cell).2 }
  | .removeDevice device =>
      { manager with schedule := manager.schedule.removeDevice device }
  | .assignSchedule schedule => { manager with schedule := schedule }

def performAll (manager : MeshManager) (actions : List ManagerAction) :
    MeshManager :=
  actions.foldl perform manager

def Reachable (manager : MeshManager) : Prop :=
  ∃ network superframeSize initial actions,
    new network superframeSize = .ok initial ∧
      initial.performAll actions = manager

/-! ## Runs of admissions -/

/-- Runs of admissions edit the graph, but assign nothing and add no node. -/
def toManagerAction : MeshAction → ManagerAction
  | .allow device joinKey => .allow device joinKey
  | .revoke device => .revoke device
  | .join request authenticate => .join request authenticate
  | .updateLink left right health => .editGraph (.updateLink left right health)
  | .removeNode device => .editGraph (.removeNode device)
  | .insertCell cell => .insertCell cell
  | .removeDevice device => .removeDevice device

theorem step_eq_perform (manager : MeshManager) (action : MeshAction) :
    manager.step action = some (manager.perform (toManagerAction action)) := by
  cases action <;> rfl

theorem run_eq_performAll (manager : MeshManager)
    (actions : List MeshAction) :
    manager.run actions =
      some (manager.performAll (actions.map toManagerAction)) := by
  induction actions generalizing manager with
  | nil => rfl
  | cons action actions ih =>
      rw [run, runSteps, step_eq_perform]
      exact ih _

theorem reachable_of_run {network : NetworkId} {superframeSize : UInt16}
    {initial manager : MeshManager} {actions : List MeshAction}
    (hinitial : new network superframeSize = .ok initial)
    (hrun : initial.run actions = some manager) : manager.Reachable := by
  rw [run_eq_performAll] at hrun
  exact ⟨network, superframeSize, initial, actions.map toManagerAction,
    hinitial, Option.some.inj hrun⟩

/-! ## The graph over a run -/

theorem consistent_allow {manager : MeshManager}
    (h : manager.graph.Consistent) (device : DeviceId)
    (joinKey : KeyMaterial) :
    (manager.allow device joinKey).graph.Consistent := by
  unfold allow
  dsimp only
  split_ifs
  · exact h.removeNode device
  · exact h

theorem Joins.consistent {manager next : MeshManager}
    {request : JoinRequest} {result : Except MeshManagerError JoinDecision}
    (hjoins : Joins manager request result next)
    (h : manager.graph.Consistent) : next.graph.Consistent := by
  cases hjoins with
  | refused => exact h
  | rejoined => exact h
  | joined => exact h.upsertNode _

theorem Joins.joinKeys {manager next : MeshManager}
    {request : JoinRequest} {result : Except MeshManagerError JoinDecision}
    (hjoins : Joins manager request result next) :
    next.joinKeys = manager.joinKeys := by
  cases hjoins <;> rfl

theorem consistent_perform {manager : MeshManager}
    (h : manager.graph.Consistent) (action : ManagerAction) :
    (manager.perform action).graph.Consistent := by
  cases action with
  | allow device joinKey => exact consistent_allow h device joinKey
  | revoke device => exact h.removeNode device
  | join request authenticate =>
      exact (manager.joins request authenticate).consistent h
  | editGraph edit => exact h.edit edit
  | assignGraph edits => exact Consistent.initial.edits edits
  | insertCell cell => exact h
  | removeDevice device => exact h
  | assignSchedule schedule => exact h

theorem consistent_performAll {manager : MeshManager}
    (h : manager.graph.Consistent) (actions : List ManagerAction) :
    (manager.performAll actions).graph.Consistent := by
  induction actions generalizing manager with
  | nil => exact h
  | cons action actions ih => exact ih (consistent_perform h action)

theorem graph_new {network : NetworkId} {superframeSize : UInt16}
    {manager : MeshManager} (h : new network superframeSize = .ok manager) :
    manager.graph = {} := by
  unfold new at h
  split at h
  · contradiction
  · injection h with h
    rw [← h]

theorem Reachable.consistent {manager : MeshManager} (h : manager.Reachable) :
    manager.graph.Consistent := by
  obtain ⟨network, superframeSize, initial, actions, hinitial, rfl⟩ := h
  refine consistent_performAll ?_ actions
  rw [graph_new hinitial]
  exact Consistent.initial

/-! ## What the removal of a device leaves -/

/-- Nothing of the network's state mentions the device. -/
structure NoTrace (manager : MeshManager) (device : DeviceId) : Prop where
  nodes : device ∉ manager.graph.nodes
  adjacency : device ∉ manager.graph.adjacency
  neighbors : ∀ other neighbors,
    manager.graph.adjacency.lookup other = some neighbors → device ∉ neighbors
  links : ∀ pair ∈ manager.graph.links, pair.1 ≠ device ∧ pair.2 ≠ device
  cells : ∀ cell ∈ manager.schedule.cells,
    cell.source ≠ device ∧ cell.destination ≠ device
  replay : device ∉ manager.replay

structure SameElsewhere (manager next : MeshManager) (device : DeviceId) :
    Prop where
  network : next.network = manager.network
  nextNickname : next.nextNickname = manager.nextNickname
  superframeSize : next.schedule.superframeSize =
    manager.schedule.superframeSize
  cells : next.schedule.cells =
    manager.schedule.cells.filter fun cell => ¬ cell.involves device
  links : ∀ pair, pair.1 ≠ device → pair.2 ≠ device →
    next.graph.links.lookup pair = manager.graph.links.lookup pair
  nodes : ∀ other, other ≠ device →
    next.graph.nodes.lookup other = manager.graph.nodes.lookup other
  adjacency : ∀ other, other ≠ device →
    next.graph.adjacency.lookup other =
      (manager.graph.adjacency.lookup other).map (·.erase device)
  allowlist : ∀ other, other ≠ device →
    (other ∈ next.allowlist ↔ other ∈ manager.allowlist)
  joinKeys : ∀ other, other ≠ device →
    next.joinKeys.lookup other = manager.joinKeys.lookup other
  replay : ∀ other, other ≠ device →
    next.replay.lookup other = manager.replay.lookup other

end MeshManager

namespace MeshGraph

theorem Consistent.lookup_adjacency_removeNode_of_ne {graph : MeshGraph}
    (h : graph.Consistent) {device other : DeviceId} (hne : other ≠ device) :
    (graph.removeNode device).adjacency.lookup other =
      (graph.adjacency.lookup other).map (·.erase device) := by
  rw [lookup_adjacency_removeNode, if_neg hne]
  split_ifs with hmem
  · rfl
  · have hunlinked : device ∉ graph.adjacent other := fun hother =>
      hmem (h.symmetric hother)
    unfold adjacent at hunlinked
    cases hlookup : graph.adjacency.lookup other with
    | none => rfl
    | some neighbors =>
        rw [hlookup, Option.getD_some] at hunlinked
        rw [Option.map_some, Finset.erase_eq_of_notMem hunlinked]

theorem lookup_links_removeNode_of_ne (graph : MeshGraph) (device : DeviceId)
    {pair : DeviceId × DeviceId} (hfirst : pair.1 ≠ device)
    (hsecond : pair.2 ≠ device) :
    (graph.removeNode device).links.lookup pair = graph.links.lookup pair := by
  unfold removeNode
  dsimp only
  rw [Table.lookup_retain]
  cases graph.links.lookup pair with
  | none => rfl
  | some health => simp [hfirst, hsecond]

end MeshGraph

namespace MeshManager

variable {manager next : MeshManager} {device : DeviceId}

/--
A manager whose graph, schedule and replay windows lost the device, whatever
became of its admission.
-/
structure Removes (manager next : MeshManager) (device : DeviceId) :
    Prop where
  graph : next.graph = manager.graph.removeNode device
  schedule : next.schedule = manager.schedule.removeDevice device
  replay : next.replay = manager.replay.erase device
  network : next.network = manager.network
  nextNickname : next.nextNickname = manager.nextNickname
  allowlist : ∀ other, other ≠ device →
    (other ∈ next.allowlist ↔ other ∈ manager.allowlist)
  joinKeys : ∀ other, other ≠ device →
    next.joinKeys.lookup other = manager.joinKeys.lookup other

theorem removes_revoke (manager : MeshManager) (device : DeviceId) :
    Removes manager (manager.revoke device) device := by
  refine ⟨rfl, rfl, rfl, rfl, rfl, ?_, ?_⟩
  · intro other hne
    exact Finset.mem_erase.trans (and_iff_right hne)
  · intro other hne
    exact Finmap.lookup_erase_ne hne

theorem removes_allow (joinKey : KeyMaterial)
    (hkey : device ∈ manager.joinKeys) :
    Removes manager (manager.allow device joinKey) device := by
  unfold allow
  dsimp only
  rw [if_pos (Finmap.lookup_isSome.mpr hkey)]
  refine ⟨rfl, rfl, rfl, rfl, rfl, ?_, ?_⟩
  · intro other hne
    exact Finset.mem_insert.trans (or_iff_right hne)
  · intro other hne
    exact Finmap.lookup_insert_of_ne _ hne

theorem Removes.noTrace (h : Removes manager next device)
    (hgraph : manager.graph.Consistent) : next.NoTrace device := by
  constructor
  · rw [h.graph, mem_nodes_removeNode]
    exact fun hmem => hmem.1 rfl
  · rw [h.graph, Consistent.mem_adjacency_removeNode]
    exact fun hmem => hmem.1 rfl
  · intro other neighbors hlookup
    rw [h.graph] at hlookup
    by_cases hother : other = device
    · rw [hother, lookup_adjacency_removeNode, if_pos rfl] at hlookup
      contradiction
    · rw [hgraph.lookup_adjacency_removeNode_of_ne hother,
        Option.map_eq_some_iff] at hlookup
      obtain ⟨previous, -, rfl⟩ := hlookup
      exact Finset.notMem_erase device previous
  · intro pair hpair
    rw [h.graph, mem_links_removeNode] at hpair
    exact hpair.2
  · intro cell hcell
    rw [h.schedule, Schedule.removeDevice, List.mem_filter] at hcell
    simpa [Cell.involves] using hcell.2
  · rw [h.replay]
    exact Finmap.notMem_erase_self

theorem Removes.sameElsewhere (h : Removes manager next device)
    (hgraph : manager.graph.Consistent) :
    SameElsewhere manager next device where
  network := h.network
  nextNickname := h.nextNickname
  superframeSize := by rw [h.schedule]; rfl
  cells := by rw [h.schedule]; rfl
  links pair hfirst hsecond := by
    rw [h.graph]
    exact lookup_links_removeNode_of_ne manager.graph device hfirst hsecond
  nodes other hne := by
    rw [h.graph]
    exact Finmap.lookup_erase_ne hne
  adjacency other hne := by
    rw [h.graph]
    exact hgraph.lookup_adjacency_removeNode_of_ne hne
  allowlist := h.allowlist
  joinKeys := h.joinKeys
  replay other hne := by
    rw [h.replay]
    exact Finmap.lookup_erase_ne hne

/-! ## A revoked device -/

theorem notMem_joinKeys_perform (hkey : device ∉ manager.joinKeys)
    {action : ManagerAction}
    (haction : ∀ joinKey, action ≠ .allow device joinKey) :
    device ∉ (manager.perform action).joinKeys := by
  cases action with
  | allow other joinKey =>
      have hne : device ≠ other := by
        rintro rfl
        exact haction joinKey rfl
      have hkeys : (manager.allow other joinKey).joinKeys =
          manager.joinKeys.insert other joinKey := by
        unfold allow
        dsimp only
        split_ifs <;> rfl
      rw [perform, hkeys, Finmap.mem_insert, or_iff_right hne]
      exact hkey
  | revoke other =>
      exact fun hmem => hkey (Finmap.mem_erase.mp hmem).2
  | join request authenticate =>
      rw [perform, (manager.joins request authenticate).joinKeys]
      exact hkey
  | editGraph edit => exact hkey
  | assignGraph edits => exact hkey
  | insertCell cell => exact hkey
  | removeDevice other => exact hkey
  | assignSchedule schedule => exact hkey

theorem notMem_joinKeys_performAll (hkey : device ∉ manager.joinKeys)
    {actions : List ManagerAction}
    (hactions : ∀ joinKey, .allow device joinKey ∉ actions) :
    device ∉ (manager.performAll actions).joinKeys := by
  induction actions generalizing manager with
  | nil => exact hkey
  | cons action actions ih =>
      refine ih (notMem_joinKeys_perform hkey ?_) ?_
      · rintro joinKey rfl
        exact hactions joinKey List.mem_cons_self
      · exact fun joinKey hmem =>
          hactions joinKey (List.mem_cons_of_mem action hmem)

theorem joinAuthenticated_of_notMem {request : JoinRequest}
    (hkey : request.device ∉ manager.joinKeys)
    (authenticate : JoinRequest → KeyMaterial → Bool) :
    (manager.joinAuthenticated request authenticate).1 = .ok .notAllowed ∨
      (manager.joinAuthenticated request authenticate).1 =
        .ok .wrongNetwork := by
  unfold joinAuthenticated
  rw [Finmap.lookup_eq_none.mpr hkey]
  by_cases hnetwork : request.network ≠ manager.network
  · rw [if_pos hnetwork]
    exact .inr rfl
  · rw [if_neg hnetwork]
    exact .inl rfl

/--
In every state that a manager can reach, revoking a device or replacing its key
removes it everywhere and leaves everything else as it was.  A revoked device
cannot join until it is allowed again.
-/
theorem revocation_leaves_no_trace (manager : MeshManager)
    (h : manager.Reachable) (device : DeviceId) :
    ((manager.revoke device).NoTrace device ∧
      device ∉ (manager.revoke device).allowlist ∧
      device ∉ (manager.revoke device).joinKeys ∧
      SameElsewhere manager (manager.revoke device) device) ∧
    (∀ joinKey, device ∈ manager.joinKeys →
      (manager.allow device joinKey).NoTrace device ∧
      SameElsewhere manager (manager.allow device joinKey) device) ∧
    ∀ actions : List ManagerAction,
      (∀ joinKey, .allow device joinKey ∉ actions) →
      ∀ request authenticate, request.device = device →
        let later := (manager.revoke device).performAll actions
        (later.joinAuthenticated request authenticate).1 =
            .ok .notAllowed ∨
          (later.joinAuthenticated request authenticate).1 =
            .ok .wrongNetwork := by
  have hgraph := h.consistent
  have hrevoke := manager.removes_revoke device
  have hunkeyed : device ∉ (manager.revoke device).joinKeys :=
    Finmap.notMem_erase_self
  refine ⟨⟨hrevoke.noTrace hgraph, Finset.notMem_erase device _, hunkeyed,
    hrevoke.sameElsewhere hgraph⟩, ?_, ?_⟩
  · intro joinKey hkey
    have hallow := removes_allow joinKey hkey
    exact ⟨hallow.noTrace hgraph, hallow.sameElsewhere hgraph⟩
  · rintro actions hactions request authenticate rfl
    exact joinAuthenticated_of_notMem
      (notMem_joinKeys_performAll hunkeyed hactions) authenticate

def linkedPair : List ManagerAction :=
  [.allow ⟨1⟩ ⟨Vector.replicate 16 1⟩, .allow ⟨2⟩ ⟨Vector.replicate 16 2⟩,
    .join ⟨⟨1⟩, ⟨7⟩, 5⟩ fun _ _ => true,
    .join ⟨⟨2⟩, ⟨7⟩, 5⟩ fun _ _ => true,
    .editGraph (.updateLink ⟨2⟩ ⟨1⟩ ⟨-60, 0x3f666666, 1⟩),
    .insertCell ⟨3, 0, ⟨1⟩, ⟨2⟩, .transmit⟩]

def pairManager : MeshManager :=
  performAll ⟨⟨7⟩, {}, ⟨100, []⟩, ∅, ∅, ∅, 1⟩ linkedPair

theorem revocation_leaves_no_trace_pair :
    (pairManager.graph.links.lookup (⟨1⟩, ⟨2⟩)).isSome ∧
      pairManager.schedule.cells.length = 1 ∧
      (pairManager.revoke ⟨1⟩).NoTrace ⟨1⟩ ∧
      (pairManager.allow ⟨1⟩ ⟨Vector.replicate 16 3⟩).NoTrace ⟨1⟩ := by
  have hreachable : pairManager.Reachable :=
    ⟨⟨7⟩, 100, _, linkedPair, rfl, rfl⟩
  have hrevoked := revocation_leaves_no_trace pairManager hreachable ⟨1⟩
  refine ⟨by decide +kernel, by decide +kernel, hrevoked.1.1, ?_⟩
  exact (hrevoked.2.1 _ (by decide +kernel)).1

end MeshManager

end HartLink.Mesh
