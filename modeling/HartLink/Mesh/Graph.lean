import HartLink.Mesh.Topology

/-!
# The neighbour graph over whole runs

Three tables hold one undirected graph: the nodes, the set of neighbours of
each node, and the health of each link under its ordered pair.  `Consistent`
says how they belong together; every operation keeps it.
-/

namespace HartLink.Mesh

open HartLink.Foundation

theorem orderedPair_comm (left right : DeviceId) :
    orderedPair left right = orderedPair right left := by
  unfold orderedPair
  rcases lt_trichotomy left right with hlt | rfl | hlt
  · rw [if_pos hlt.le, if_neg (not_le.mpr hlt)]
  · rfl
  · rw [if_neg (not_le.mpr hlt), if_pos hlt.le]

theorem orderedPair_eq_iff (left right first second : DeviceId)
    (h : first < second) :
    orderedPair left right = (first, second) ↔
      (left = first ∧ right = second) ∨ (left = second ∧ right = first) := by
  unfold orderedPair
  split_ifs with hle
  · rw [Prod.mk.injEq]
    refine ⟨.inl, ?_⟩
    rintro (heq | ⟨rfl, rfl⟩)
    · exact heq
    · exact absurd h (not_lt.mpr hle)
  · rw [Prod.mk.injEq, and_comm]
    refine ⟨.inr, ?_⟩
    rintro (⟨rfl, rfl⟩ | heq)
    · exact absurd h.le hle
    · exact heq

/-- Both ends of a link, in order. -/
theorem orderedPair_lt {left right : DeviceId} (h : left ≠ right) :
    (orderedPair left right).1 < (orderedPair left right).2 := by
  unfold orderedPair
  split_ifs with hle
  · exact lt_of_le_of_ne hle h
  · exact not_le.mp hle

theorem mem_orderedPair {left right device : DeviceId} :
    (orderedPair left right).1 = device ∨ (orderedPair left right).2 = device ↔
      left = device ∨ right = device := by
  unfold orderedPair
  split_ifs
  · rfl
  · exact or_comm

namespace MeshGraph

/-! ## Runs -/

inductive GraphEdit where
  | upsertNode (node : NodeState)
  | removeNode (id : DeviceId)
  | updateLink (left right : DeviceId) (health : LinkHealth)
  deriving DecidableEq, Repr

def edit (graph : MeshGraph) : GraphEdit → MeshGraph
  | .upsertNode node => graph.upsertNode node
  | .removeNode id => graph.removeNode id
  | .updateLink left right health => (graph.updateLink left right health).1

/-- A graph after any operations, from `MeshGraph::default()` on. -/
def build (edits : List GraphEdit) : MeshGraph := edits.foldl edit {}

/-! ## Neighbours under the operations -/

def adjacent (graph : MeshGraph) (id : DeviceId) : Finset DeviceId :=
  (graph.adjacency.lookup id).getD ∅

theorem adjacent_upsertNode (graph : MeshGraph) (node : NodeState)
    (id : DeviceId) :
    (graph.upsertNode node).adjacent id = graph.adjacent id := by
  unfold adjacent upsertNode
  dsimp only
  rw [Table.lookup_insert_eq]
  split_ifs with hid
  · rw [hid]
    rfl
  · rfl

theorem mem_adjacency_upsertNode (graph : MeshGraph) (node : NodeState)
    (id : DeviceId) :
    id ∈ (graph.upsertNode node).adjacency ↔
      id = node.id ∨ id ∈ graph.adjacency :=
  Finmap.mem_insert

/-- Removing a device from the sets of some others. -/
theorem lookup_foldl_modify (id device : DeviceId) (others : List DeviceId)
    (adjacency : Table DeviceId (Finset DeviceId)) :
    (others.foldl (fun adjacency neighbor =>
        Table.modify neighbor (·.erase id) adjacency) adjacency).lookup
        device =
      if device ∈ others then (adjacency.lookup device).map (·.erase id)
      else adjacency.lookup device := by
  induction others generalizing adjacency with
  | nil => simp
  | cons other others ih =>
      rw [List.foldl_cons, ih, Table.lookup_modify]
      by_cases hother : device = other
      · subst hother
        simp only [List.mem_cons, true_or, if_true, Option.map_map]
        split_ifs
        · congr 1
          funext neighbors
          simp
        · rfl
      · simp [hother]

theorem lookup_adjacency_removeNode (graph : MeshGraph)
    (id device : DeviceId) :
    (graph.removeNode id).adjacency.lookup device =
      if device = id then none
      else if device ∈ graph.adjacent id then
        (graph.adjacency.lookup device).map (·.erase id)
      else graph.adjacency.lookup device := by
  unfold removeNode adjacent
  cases hneighbors : graph.adjacency.lookup id with
  | none =>
      split_ifs with hdevice hmem
      · rw [hdevice, hneighbors]
      · simp at hmem
      · rfl
  | some neighbors =>
      dsimp only
      rw [lookup_foldl_modify, Table.lookup_erase_eq, Option.getD_some]
      simp only [Finset.mem_sort]
      split_ifs <;> rfl

theorem lookup_addNeighbor (device neighbor other : DeviceId)
    (adjacency : Table DeviceId (Finset DeviceId)) :
    (addNeighbor device neighbor adjacency).lookup other =
      if other = device then
        some (insert neighbor ((adjacency.lookup device).getD ∅))
      else adjacency.lookup other :=
  Table.lookup_insert_eq adjacency device other _

def withLink (graph : MeshGraph) (left right : DeviceId)
    (health : LinkHealth) : MeshGraph :=
  { graph with
    links := graph.links.insert (orderedPair left right) health
    adjacency := addNeighbor right left
      (addNeighbor left right graph.adjacency) }

theorem updateLink_cases (graph : MeshGraph) (left right : DeviceId)
    (health : LinkHealth) :
    graph.updateLink left right health = (graph, false) ∨
    graph.updateLink left right health =
        (graph.withLink left right health, true) ∧
      left ≠ right ∧ isRatio health.reliability = true ∧
      left ∈ graph.nodes ∧ right ∈ graph.nodes := by
  unfold updateLink
  split_ifs with hrefused
  · exact .inl rfl
  · simp only [not_or, Bool.not_eq_true, Option.isNone_eq_false_iff,
      Finmap.lookup_isSome, Bool.not_eq_false] at hrefused
    exact .inr ⟨rfl, hrefused⟩

theorem mem_adjacent_withLink {graph : MeshGraph} {left right : DeviceId}
    (hne : left ≠ right) (health : LinkHealth) (device other : DeviceId) :
    other ∈ (graph.withLink left right health).adjacent device ↔
      device = left ∧ other = right ∨ device = right ∧ other = left ∨
        other ∈ graph.adjacent device := by
  unfold adjacent withLink
  dsimp only
  rw [lookup_addNeighbor, lookup_addNeighbor, lookup_addNeighbor]
  by_cases hright : device = right
  · subst hright
    simp [Ne.symm hne]
  · by_cases hleft : device = left
    · subst hleft
      simp [hne]
    · simp [hleft, hright]

theorem mem_adjacency_withLink {graph : MeshGraph} {left right : DeviceId}
    {health : LinkHealth} {device : DeviceId} :
    device ∈ (graph.withLink left right health).adjacency ↔
      device = right ∨ device = left ∨ device ∈ graph.adjacency := by
  unfold withLink addNeighbor
  rw [Finmap.mem_insert, Finmap.mem_insert]

theorem mem_links_removeNode {graph : MeshGraph} {id : DeviceId}
    {pair : DeviceId × DeviceId} :
    pair ∈ (graph.removeNode id).links ↔
      pair ∈ graph.links ∧ pair.1 ≠ id ∧ pair.2 ≠ id := by
  rw [← Finmap.lookup_isSome, ← Finmap.lookup_isSome]
  unfold removeNode
  dsimp only
  rw [Table.lookup_retain]
  cases graph.links.lookup pair <;> simp

theorem mem_nodes_removeNode {graph : MeshGraph} {id device : DeviceId} :
    device ∈ (graph.removeNode id).nodes ↔
      device ≠ id ∧ device ∈ graph.nodes :=
  Finmap.mem_erase

/-! ## The representation -/

/-- The neighbours are the nodes that a link under the ordered pair joins. -/
structure Consistent (graph : MeshGraph) : Prop where
  keys : ∀ device, device ∈ graph.adjacency ↔ device ∈ graph.nodes
  linked : ∀ device other, other ∈ graph.adjacent device ↔
    orderedPair device other ∈ graph.links
  ordered : ∀ pair ∈ graph.links, pair.1 < pair.2 ∧
    pair.1 ∈ graph.nodes ∧ pair.2 ∈ graph.nodes

namespace Consistent

variable {graph : MeshGraph}

theorem symmetric (h : graph.Consistent) {device other : DeviceId}
    (hmem : other ∈ graph.adjacent device) :
    device ∈ graph.adjacent other := by
  rw [h.linked] at hmem ⊢
  rwa [orderedPair_comm]

theorem irreflexive (h : graph.Consistent) (device : DeviceId) :
    device ∉ graph.adjacent device := by
  rw [h.linked]
  intro hmem
  have hlt := (h.ordered _ hmem).1
  rw [orderedPair, if_pos le_rfl] at hlt
  exact lt_irrefl device hlt

theorem initial : Consistent {} :=
  ⟨fun _ => iff_of_false Finmap.notMem_empty Finmap.notMem_empty,
    fun _ _ => iff_of_false (by simp [adjacent]) Finmap.notMem_empty,
    fun _ hmem => absurd hmem Finmap.notMem_empty⟩

theorem upsertNode (h : graph.Consistent) (node : NodeState) :
    (graph.upsertNode node).Consistent := by
  have hnodes : ∀ device, device ∈ (graph.upsertNode node).nodes ↔
      device = node.id ∨ device ∈ graph.nodes := fun _ => Finmap.mem_insert
  constructor
  · intro device
    rw [mem_adjacency_upsertNode, hnodes, h.keys]
  · intro device other
    rw [adjacent_upsertNode]
    exact h.linked device other
  · intro pair hpair
    obtain ⟨hlt, hfirst, hsecond⟩ := h.ordered pair hpair
    exact ⟨hlt, (hnodes _).mpr (.inr hfirst), (hnodes _).mpr (.inr hsecond)⟩

theorem adjacent_removeNode (h : graph.Consistent) (id device : DeviceId) :
    (graph.removeNode id).adjacent device =
      if device = id then ∅ else (graph.adjacent device).erase id := by
  unfold adjacent
  rw [lookup_adjacency_removeNode]
  split_ifs with hdevice hmem
  · rfl
  · cases graph.adjacency.lookup device <;> simp
  · have hunlinked : id ∉ graph.adjacent device := fun hother =>
      hmem (h.symmetric hother)
    exact (Finset.erase_eq_of_notMem hunlinked).symm

theorem mem_adjacency_removeNode (graph : MeshGraph) (id device : DeviceId) :
    device ∈ (graph.removeNode id).adjacency ↔
      device ≠ id ∧ device ∈ graph.adjacency := by
  rw [← Finmap.lookup_isSome, ← Finmap.lookup_isSome,
    lookup_adjacency_removeNode]
  split_ifs <;> simp_all

theorem removeNode (h : graph.Consistent) (id : DeviceId) :
    (graph.removeNode id).Consistent := by
  constructor
  · intro device
    rw [mem_adjacency_removeNode, mem_nodes_removeNode, h.keys]
  · intro device other
    rw [h.adjacent_removeNode, mem_links_removeNode, ← h.linked]
    have hends : ((orderedPair device other).1 ≠ id ∧
        (orderedPair device other).2 ≠ id) ↔ device ≠ id ∧ other ≠ id := by
      rw [← not_or, mem_orderedPair, not_or]
    rw [hends]
    split_ifs with hdevice
    · simp [hdevice]
    · rw [Finset.mem_erase]
      tauto
  · intro pair hpair
    obtain ⟨hpair, hfirst, hsecond⟩ := mem_links_removeNode.mp hpair
    obtain ⟨hlt, hfirstNode, hsecondNode⟩ := h.ordered pair hpair
    exact ⟨hlt, mem_nodes_removeNode.mpr ⟨hfirst, hfirstNode⟩,
      mem_nodes_removeNode.mpr ⟨hsecond, hsecondNode⟩⟩

theorem withLink (h : graph.Consistent) {left right : DeviceId}
    (health : LinkHealth) (hne : left ≠ right) (hleft : left ∈ graph.nodes)
    (hright : right ∈ graph.nodes) :
    (graph.withLink left right health).Consistent := by
  have hlt := orderedPair_lt hne
  have hlinks : ∀ pair, pair ∈ (graph.withLink left right health).links ↔
      pair = orderedPair left right ∨ pair ∈ graph.links :=
    fun _ => Finmap.mem_insert
  constructor
  · intro device
    rw [mem_adjacency_withLink, h.keys]
    change _ ↔ device ∈ graph.nodes
    constructor
    · rintro (rfl | rfl | hnode)
      · exact hright
      · exact hleft
      · exact hnode
    · exact fun hnode => .inr (.inr hnode)
  · intro device other
    rw [mem_adjacent_withLink hne, hlinks, h.linked]
    have hsame := orderedPair_eq_iff device other _ _ hlt
    rw [Prod.mk.eta] at hsame
    rw [hsame, ← or_assoc]
    refine or_congr_left ?_
    unfold orderedPair
    split_ifs
    · rfl
    · exact or_comm
  · intro pair hpair
    rcases (hlinks pair).mp hpair with rfl | hpair
    · refine ⟨hlt, ?_⟩
      change (orderedPair left right).1 ∈ graph.nodes ∧
        (orderedPair left right).2 ∈ graph.nodes
      unfold orderedPair
      split_ifs
      · exact ⟨hleft, hright⟩
      · exact ⟨hright, hleft⟩
    · exact h.ordered pair hpair

theorem edit (h : graph.Consistent) (edit : GraphEdit) :
    (graph.edit edit).Consistent := by
  cases edit with
  | upsertNode node => exact h.upsertNode node
  | removeNode id => exact h.removeNode id
  | updateLink left right health =>
      simp only [MeshGraph.edit]
      rcases graph.updateLink_cases left right health with
        hrefused | ⟨hupdated, hne, -, hleft, hright⟩
      · rw [hrefused]
        exact h
      · rw [hupdated]
        exact h.withLink health hne hleft hright

theorem edits (h : graph.Consistent) (edits : List GraphEdit) :
    (edits.foldl MeshGraph.edit graph).Consistent := by
  induction edits generalizing graph with
  | nil => exact h
  | cons edit edits ih => exact ih (h.edit edit)

end Consistent

/--
In every graph that the operations can build, the three tables describe one
undirected graph without loops, and a refused update changes nothing.
-/
theorem mesh_graph_consistent (edits : List GraphEdit) :
    (∀ device, device ∈ (build edits).adjacency ↔
      device ∈ (build edits).nodes) ∧
    (∀ device other, other ∈ (build edits).adjacent device →
      device ∈ (build edits).adjacent other) ∧
    (∀ device, device ∉ (build edits).adjacent device) ∧
    (∀ device other, other ∈ (build edits).adjacent device ↔
      orderedPair device other ∈ (build edits).links) ∧
    (∀ first second, (first, second) ∈ (build edits).links →
      first < second ∧ first ∈ (build edits).nodes ∧
        second ∈ (build edits).nodes) ∧
    ∀ left right health,
      ((build edits).updateLink left right health).2 = false →
      ((build edits).updateLink left right health).1 = build edits := by
  have h : (build edits).Consistent := Consistent.initial.edits edits
  refine ⟨h.keys, fun _ _ => h.symmetric, h.irreflexive, h.linked,
    fun first second => h.ordered (first, second), ?_⟩
  intro left right health hrefused
  rcases (build edits).updateLink_cases left right health with
    heq | ⟨heq, -⟩
  · rw [heq]
  · rw [heq] at hrefused
    contradiction

end MeshGraph

end HartLink.Mesh
