import HartLink.Mesh.Graph

/-!
# Routes

A route leads over active nodes and reliable links.  In a consistent graph the
filtered neighbours are just the ends of such links, so that the breadth-first
search returns a route with as few hops as possible.
-/

namespace HartLink.Mesh

open HartLink.Foundation

namespace MeshGraph

/-- A path over active nodes, each of them linked to the next reliably. -/
structure Admissible (graph : MeshGraph) (minimumReliability : UInt32)
    (source destination : DeviceId) (hops : List DeviceId) : Prop where
  first : hops.head? = some source
  last : hops.getLast? = some destination
  active : ∀ device ∈ hops, graph.isActive device = true
  reliable : hops.IsChain fun device next =>
    graph.isReliable minimumReliability device next = true

variable {graph : MeshGraph} {minimumReliability : UInt32}
  {source destination : DeviceId}

theorem mem_keys_of_isActive {device : DeviceId}
    (h : graph.isActive device = true) : device ∈ graph.nodes.keys := by
  unfold isActive at h
  obtain ⟨node, hnode, -⟩ := (Option.any_eq_true _ _).mp h
  exact Finmap.mem_keys.mpr (Finmap.mem_of_lookup_eq_some hnode)

theorem mem_neighbors_iff (h : graph.Consistent) {device next : DeviceId} :
    next ∈ graph.neighbors minimumReliability device ↔
      graph.isReliable minimumReliability device next = true ∧
        graph.isActive next = true := by
  unfold neighbors
  rw [List.mem_filter, Finset.mem_sort, Bool.and_eq_true]
  refine and_iff_right_of_imp fun hnext => ?_
  obtain ⟨health, hhealth, -⟩ := (Option.any_eq_true _ _).mp hnext.1
  exact (h.linked device next).mpr (Finmap.mem_of_lookup_eq_some hhealth)

theorem isChain_neighbors_iff (h : graph.Consistent) {device : DeviceId}
    {hops : List DeviceId} (hactive : graph.isActive device = true) :
    ((device :: hops).IsChain fun device next =>
        next ∈ graph.neighbors minimumReliability device) ↔
      (∀ other ∈ device :: hops, graph.isActive other = true) ∧
        (device :: hops).IsChain fun device next =>
          graph.isReliable minimumReliability device next = true := by
  induction hops generalizing device with
  | nil => simp [hactive]
  | cons next hops ih =>
      rw [List.isChain_cons_cons, List.isChain_cons_cons, mem_neighbors_iff h]
      constructor
      · rintro ⟨⟨hreliable, hnext⟩, hrest⟩
        obtain ⟨hothers, hchain⟩ := (ih hnext).mp hrest
        exact ⟨List.forall_mem_cons.mpr ⟨hactive, hothers⟩, hreliable, hchain⟩
      · rintro ⟨hall, hreliable, hchain⟩
        have hothers := (List.forall_mem_cons.mp hall).2
        have hnext := hothers next List.mem_cons_self
        exact ⟨⟨hreliable, hnext⟩, (ih hnext).mpr ⟨hothers, hchain⟩⟩

theorem admissible_iff_isPath (h : graph.Consistent)
    (hactive : graph.isActive source = true) {hops : List DeviceId} :
    graph.Admissible minimumReliability source destination hops ↔
      IsPath (graph.neighbors minimumReliability) source destination hops := by
  constructor
  · rintro ⟨hfirst, hlast, hall, hchain⟩
    refine ⟨hfirst, hlast, ?_⟩
    cases hops with
    | nil => simp
    | cons device hops =>
        exact (isChain_neighbors_iff h (hall device List.mem_cons_self)).mpr
          ⟨hall, hchain⟩
  · intro hpath
    obtain ⟨rest, rfl⟩ := hpath.exists_cons
    obtain ⟨hall, hchain⟩ :=
      (isChain_neighbors_iff h hactive).mp hpath.steps
    exact ⟨hpath.first, hpath.last, hall, hchain⟩

theorem Admissible.isActive_ends {hops : List DeviceId}
    (h : graph.Admissible minimumReliability source destination hops) :
    graph.isActive source = true ∧ graph.isActive destination = true :=
  ⟨h.active source (List.mem_of_head? h.first),
    h.active destination (List.mem_of_getLast? h.last)⟩

/-- In a consistent graph a route is a shortest admissible path. -/
theorem route_cases (h : graph.Consistent)
    (hratio : isRatio minimumReliability = true)
    (source destination : DeviceId) :
    (graph.route source destination minimumReliability = none ∧
      ∀ hops, ¬ graph.Admissible minimumReliability source destination hops) ∨
    ∃ hops, graph.route source destination minimumReliability =
        some ⟨hops⟩ ∧
      graph.Admissible minimumReliability source destination hops ∧
      hops.Nodup ∧
      ∀ other, graph.Admissible minimumReliability source destination other →
        hops.length ≤ other.length := by
  unfold route
  rw [if_neg (not_not.mpr hratio)]
  split_ifs with hinactive
  · refine .inl ⟨rfl, fun hops hadmissible => ?_⟩
    obtain ⟨hsource, hdestination⟩ := hadmissible.isActive_ends
    rcases hinactive with hinactive | hinactive
    · exact hinactive hsource
    · exact hinactive hdestination
  · have hactive : graph.isActive source = true := by
      simp only [not_or, not_not] at hinactive
      exact hinactive.1
    have hclosed : ∀ device ∈ graph.nodes.keys,
        ∀ next ∈ graph.neighbors minimumReliability device,
          next ∈ graph.nodes.keys := fun device _ next hnext =>
      mem_keys_of_isActive ((mem_neighbors_iff h).mp hnext).2
    simp only [admissible_iff_isPath h hactive]
    rcases shortestPath_spec hclosed (mem_keys_of_isActive hactive)
        destination with ⟨hnone, hunreached⟩ | ⟨hops, hsome, hshortest⟩
    · exact .inl ⟨by rw [hnone]; rfl, hunreached⟩
    · exact .inr ⟨hops, by rw [hsome]; rfl, hshortest⟩

/--
In every graph that the operations can build, a route exists exactly when active
nodes and reliable links join both devices, and it is such a path with the least
number of hops and no repeated node.
-/
theorem mesh_routes_shortest (edits : List GraphEdit)
    (source destination : DeviceId) (minimumReliability : UInt32)
    (hratio : isRatio minimumReliability = true) :
    (((build edits).route source destination minimumReliability).isSome ↔
      ∃ hops, (build edits).Admissible minimumReliability source destination
        hops) ∧
    ∀ route, (build edits).route source destination minimumReliability =
        some route →
      (build edits).Admissible minimumReliability source destination
        route.hops ∧
      route.hops.Nodup ∧
      ∀ other, (build edits).Admissible minimumReliability source destination
        other → route.hops.length ≤ other.length := by
  have h : (build edits).Consistent := Consistent.initial.edits edits
  rcases route_cases h hratio source destination with
    ⟨hnone, hunreached⟩ | ⟨hops, hsome, hadmissible, hshortest⟩
  · rw [hnone]
    exact ⟨iff_of_false (by simp) fun ⟨hops, hpath⟩ => hunreached hops hpath,
      by simp⟩
  · rw [hsome]
    refine ⟨iff_of_true rfl ⟨hops, hadmissible⟩, ?_⟩
    intro route hroute
    injection hroute with hroute
    subst hroute
    exact ⟨hadmissible, hshortest⟩

/-- Four devices in a square, one of its sides too weak for half reliability. -/
def squareEdits : List GraphEdit :=
  [.upsertNode ⟨⟨1⟩, 1, true⟩, .upsertNode ⟨⟨2⟩, 2, true⟩,
    .upsertNode ⟨⟨3⟩, 3, true⟩, .upsertNode ⟨⟨4⟩, 4, true⟩,
    .updateLink ⟨1⟩ ⟨2⟩ ⟨-70, 0x3e800000, 1⟩,
    .updateLink ⟨4⟩ ⟨1⟩ ⟨-60, 0x3f666666, 1⟩,
    .updateLink ⟨4⟩ ⟨3⟩ ⟨-60, 0x3f666666, 1⟩,
    .updateLink ⟨2⟩ ⟨3⟩ ⟨-60, 0x3f666666, 1⟩]

theorem mesh_routes_shortest_square :
    isRatio 0x3f000000 = true ∧
      (build squareEdits).isReliable 0x3f000000 ⟨1⟩ ⟨2⟩ = false ∧
      ((build squareEdits).route ⟨1⟩ ⟨2⟩ 0x3f000000).isSome := by
  have hratio : isRatio 0x3f000000 = true := by decide
  refine ⟨hratio, by decide +kernel, ?_⟩
  refine (mesh_routes_shortest squareEdits ⟨1⟩ ⟨2⟩ _ hratio).1.mpr
    ⟨[⟨1⟩, ⟨4⟩, ⟨3⟩, ⟨2⟩], rfl, rfl, ?_, ?_⟩
  · decide +kernel
  · decide +kernel

end MeshGraph

end HartLink.Mesh
