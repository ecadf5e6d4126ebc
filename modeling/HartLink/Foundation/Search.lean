import HartLink.Foundation.Table
import Mathlib.Tactic

/-!
# Breadth-first search

A search from a node goes through its neighbours in the order in which they
were discovered and stops at the first discovery of the goal.  Every discovered
node remembers its predecessor, and the path is read back from the goal.
`shortestPath_spec` says that the search finds a path with the least number of
steps, if there is one.
-/

namespace HartLink.Foundation

variable {Node : Type*} [DecidableEq Node]

/-! ## The search -/

structure Frontier (Node : Type*) [DecidableEq Node] where
  queue : List Node
  previous : Table Node Node
  visited : Finset Node

/-- The loop over the neighbours of a node may come across the goal. -/
inductive Expansion (Node : Type*) [DecidableEq Node] where
  | reached (previous : Table Node Node)
  | expanded (frontier : Frontier Node)

def Frontier.discover (frontier : Frontier Node) (current neighbor : Node) :
    Frontier Node :=
  { queue := frontier.queue ++ [neighbor]
    previous := frontier.previous.insert neighbor current
    visited := insert neighbor frontier.visited }

def expand (goal current : Node) :
    List Node → Frontier Node → Expansion Node
  | [], frontier => .expanded frontier
  | neighbor :: neighbors, frontier =>
      if neighbor ∈ frontier.visited then
        expand goal current neighbors frontier
      else if neighbor = goal then
        .reached (frontier.previous.insert neighbor current)
      else
        expand goal current neighbors (frontier.discover current neighbor)

/-- The search ends with an empty queue, or without an answer. -/
def search (neighbors : Node → List Node) (goal : Node) :
    Nat → Frontier Node → Option (Table Node Node)
  | 0, _ => none
  | fuel + 1, frontier =>
      match frontier.queue with
      | [] => none
      | current :: queue =>
          match expand goal current (neighbors current)
              { frontier with queue } with
          | .reached previous => some previous
          | .expanded frontier => search neighbors goal fuel frontier

/-- The path is read from its end; `hops` begins with the current node. -/
def walkBack (previous : Table Node Node) (source : Node) :
    Nat → Node → List Node → Option (List Node)
  | 0, current, hops => if current = source then some hops else none
  | fuel + 1, current, hops =>
      if current = source then some hops
      else
        match previous.lookup current with
        | none => none
        | some before => walkBack previous source fuel before (before :: hops)

def shortestPath (neighbors : Node → List Node) (fuel : Nat)
    (source goal : Node) : Option (List Node) :=
  if source = goal then some [source]
  else
    (search neighbors goal fuel
      { queue := [source], previous := ∅, visited := {source} }).bind
      fun previous =>
        walkBack previous source previous.keys.card goal [goal]

/-! ## Paths -/

structure IsPath (neighbors : Node → List Node) (source goal : Node)
    (hops : List Node) : Prop where
  first : hops.head? = some source
  last : hops.getLast? = some goal
  steps : hops.IsChain fun node next => next ∈ neighbors node

omit [DecidableEq Node] in
theorem IsPath.exists_cons {neighbors : Node → List Node} {source goal : Node}
    {hops : List Node} (h : IsPath neighbors source goal hops) :
    ∃ rest, hops = source :: rest := by
  cases hops with
  | nil => simpa using h.first
  | cons first rest =>
      have hfirst := h.first
      rw [List.head?_cons] at hfirst
      injection hfirst with hfirst
      exact ⟨rest, by rw [hfirst]⟩

/-! ## What has been discovered -/

section Discoveries

variable {neighbors : Node → List Node} {source : Node} {depth : Node → Nat}
  {queue : List Node} {previous : Table Node Node} {visited : Finset Node}
  {current neighbor : Node}

/-- The discovered nodes form a tree, `depth` counts its levels. -/
structure Traced (neighbors : Node → List Node) (source : Node)
    (depth : Node → Nat) (previous : Table Node Node)
    (visited : Finset Node) : Prop where
  start : source ∈ visited ∧ depth source = 0
  keys : ∀ node, node ∈ previous ↔ node ∈ visited ∧ node ≠ source
  before : ∀ node parent, previous.lookup node = some parent →
    parent ∈ visited ∧ node ∈ neighbors parent ∧
      depth node = depth parent + 1

/--
The queue holds the discovered nodes that are still to be expanded, in order of
their depth, and no discovered node is much deeper than one of them.
-/
structure Layered (neighbors : Node → List Node) (depth : Node → Nat)
    (queue : List Node) (visited : Finset Node) : Prop where
  queued : ∀ node ∈ queue, node ∈ visited
  sorted : queue.Pairwise fun node next => depth node ≤ depth next
  near : ∀ node ∈ visited, ∀ waiting ∈ queue,
    depth node ≤ depth waiting + 1
  closed : ∀ node ∈ visited, node ∉ queue → ∀ next ∈ neighbors node,
    next ∈ visited ∧ depth next ≤ depth node + 1

theorem traced_initial (neighbors : Node → List Node) (source : Node) :
    Traced neighbors source (fun _ => 0) ∅ {source} := by
  constructor
  · simp
  · intro node
    simp [Finmap.notMem_empty]
  · intro node parent hlookup
    simp at hlookup

omit [DecidableEq Node] in
theorem layered_initial (neighbors : Node → List Node) (source : Node) :
    Layered neighbors (fun _ => 0) [source] {source} := by
  constructor
  · simp
  · simp
  · simp
  · intro node hnode hqueue
    rw [Finset.mem_singleton] at hnode
    rw [List.mem_singleton] at hqueue
    exact absurd hnode hqueue

/-- The levels with a new node below the current one. -/
def deepen (depth : Node → Nat) (current neighbor : Node) : Node → Nat :=
  Function.update depth neighbor (depth current + 1)

theorem deepen_self : deepen depth current neighbor neighbor =
    depth current + 1 :=
  Function.update_self ..

theorem deepen_of_mem (hnew : neighbor ∉ visited) {node : Node}
    (hnode : node ∈ visited) :
    deepen depth current neighbor node = depth node :=
  Function.update_of_ne (ne_of_mem_of_not_mem hnode hnew) _ _

theorem Traced.discover (h : Traced neighbors source depth previous visited)
    (hcurrent : current ∈ visited) (hnew : neighbor ∉ visited)
    (hneighbor : neighbor ∈ neighbors current) :
    Traced neighbors source (deepen depth current neighbor)
      (previous.insert neighbor current) (insert neighbor visited) := by
  constructor
  · refine ⟨Finset.mem_insert_of_mem h.start.1, ?_⟩
    rw [deepen_of_mem hnew h.start.1]
    exact h.start.2
  · intro node
    rw [Finmap.mem_insert, Finset.mem_insert, h.keys]
    constructor
    · rintro (rfl | ⟨hnode, hne⟩)
      · exact ⟨.inl rfl, fun heq => hnew (heq ▸ h.start.1)⟩
      · exact ⟨.inr hnode, hne⟩
    · rintro ⟨hnode | hnode, hne⟩
      · exact .inl hnode
      · exact .inr ⟨hnode, hne⟩
  · intro node parent hlookup
    rw [Table.lookup_insert_eq] at hlookup
    split_ifs at hlookup with hnode
    · injection hlookup with hlookup
      subst hnode hlookup
      refine ⟨Finset.mem_insert_of_mem hcurrent, hneighbor, ?_⟩
      rw [deepen_self, deepen_of_mem hnew hcurrent]
    · obtain ⟨hparent, hstep, hdepth⟩ := h.before node parent hlookup
      have hvisited := ((h.keys node).mp
        (Finmap.mem_of_lookup_eq_some hlookup)).1
      refine ⟨Finset.mem_insert_of_mem hparent, hstep, ?_⟩
      rw [deepen_of_mem hnew hvisited, deepen_of_mem hnew hparent, hdepth]

/-- A neighbour of the node at the front goes to the end of the queue. -/
theorem Layered.discover
    (h : Layered neighbors depth (current :: queue) visited)
    (hnew : neighbor ∉ visited) :
    Layered neighbors (deepen depth current neighbor)
      (current :: (queue ++ [neighbor])) (insert neighbor visited) := by
  have hfront : ∀ waiting ∈ current :: queue,
      depth current ≤ depth waiting :=
    List.forall_mem_cons.mpr ⟨le_rfl, (List.pairwise_cons.mp h.sorted).1⟩
  have hold := fun node => @deepen_of_mem Node _ depth visited current neighbor
    hnew node
  have hself := @deepen_self Node _ depth current neighbor
  rw [← List.cons_append]
  constructor
  · intro node hnode
    rcases List.mem_append.mp hnode with hnode | hnode
    · exact Finset.mem_insert_of_mem (h.queued node hnode)
    · exact List.mem_singleton.mp hnode ▸ Finset.mem_insert_self _ _
  · refine List.pairwise_append.mpr
      ⟨h.sorted.imp_of_mem ?_, List.pairwise_singleton _ _, ?_⟩
    · intro node next hnode hnext hle
      rwa [hold node (h.queued node hnode), hold next (h.queued next hnext)]
    · intro node hnode next hnext
      rw [List.mem_singleton.mp hnext, hself, hold node (h.queued node hnode)]
      exact h.near node (h.queued node hnode) current List.mem_cons_self
  · intro node hnode waiting hwaiting
    -- Every depth is at most one more than that of the current node.
    have hnear : deepen depth current neighbor node ≤ depth current + 1 := by
      rcases Finset.mem_insert.mp hnode with rfl | hvisited
      · exact hself.le
      · rw [hold node hvisited]
        exact h.near node hvisited current List.mem_cons_self
    rcases List.mem_append.mp hwaiting with holder | hlast
    · rw [hold waiting (h.queued waiting holder)]
      rcases Finset.mem_insert.mp hnode with rfl | hvisited
      · exact hnear.trans (Nat.succ_le_succ (hfront waiting holder))
      · rw [hold node hvisited]
        exact h.near node hvisited waiting holder
    · rw [List.mem_singleton.mp hlast, hself]
      omega
  · intro node hnode hqueue next hnext
    rw [List.mem_append, List.mem_singleton, not_or] at hqueue
    have hvisited := (Finset.mem_insert.mp hnode).resolve_left hqueue.2
    obtain ⟨hseen, hle⟩ := h.closed node hvisited hqueue.1 next hnext
    refine ⟨Finset.mem_insert_of_mem hseen, ?_⟩
    rwa [hold node hvisited, hold next hseen]

/-- A node whose neighbours have all been discovered leaves the queue. -/
theorem Layered.close
    (h : Layered neighbors depth (current :: queue) visited)
    (hseen : ∀ next ∈ neighbors current, next ∈ visited) :
    Layered neighbors depth queue visited := by
  refine ⟨fun node hnode => h.queued node (List.mem_cons_of_mem _ hnode),
    (List.pairwise_cons.mp h.sorted).2,
    fun node hnode waiting hwaiting =>
      h.near node hnode waiting (List.mem_cons_of_mem _ hwaiting), ?_⟩
  intro node hnode hqueue next hnext
  by_cases hcurrent : node = current
  · subst hcurrent
    exact ⟨hseen next hnext,
      h.near next (hseen next hnext) node List.mem_cons_self⟩
  · exact h.closed node hnode (by simp [hcurrent, hqueue]) next hnext

theorem Layered.depth_lt_length
    (h : Layered neighbors depth (current :: queue) visited) {goal node : Node}
    {hops : List Node} {steps : Nat} (hgoal : goal ∉ visited)
    (hchain : (node :: hops).IsChain fun node next => next ∈ neighbors node)
    (hlast : (node :: hops).getLast? = some goal) (hnode : node ∈ visited)
    (hdepth : depth node ≤ steps) :
    depth current + 1 ≤ steps + hops.length := by
  induction hops generalizing node steps with
  | nil =>
      rw [List.getLast?_singleton] at hlast
      injection hlast with hlast
      exact absurd (hlast ▸ hnode) hgoal
  | cons next hops ih =>
      obtain ⟨hnext, hrest⟩ := List.isChain_cons_cons.mp hchain
      rw [List.getLast?_cons_cons] at hlast
      by_cases hqueue : node ∈ current :: queue
      · have hfront : depth current ≤ depth node := by
          rcases List.mem_cons.mp hqueue with rfl | hqueue
          · exact le_rfl
          · exact (List.pairwise_cons.mp h.sorted).1 node hqueue
        rw [List.length_cons]
        omega
      · obtain ⟨hseen, hle⟩ := h.closed node hnode hqueue next hnext
        have hlater := @ih next (steps + 1) hrest hlast hseen (by omega)
        rw [List.length_cons]
        omega

omit [DecidableEq Node] in
/-- With an empty queue everything that a path reaches has been discovered. -/
theorem Layered.mem_of_path (h : Layered neighbors depth [] visited)
    {goal node : Node} {hops : List Node}
    (hchain : (node :: hops).IsChain fun node next => next ∈ neighbors node)
    (hlast : (node :: hops).getLast? = some goal) (hnode : node ∈ visited) :
    goal ∈ visited := by
  induction hops generalizing node with
  | nil =>
      rw [List.getLast?_singleton] at hlast
      injection hlast with hlast
      exact hlast ▸ hnode
  | cons next hops ih =>
      obtain ⟨hnext, hrest⟩ := List.isChain_cons_cons.mp hchain
      rw [List.getLast?_cons_cons] at hlast
      exact ih hrest hlast (h.closed node hnode (by simp) next hnext).1

/-! ## Reading the path back -/

/-- The path behind a discovered node, from the source up to it. -/
structure Trail (neighbors : Node → List Node) (source : Node)
    (depth : Node → Nat) (visited : Finset Node) (node : Node)
    (front : List Node) : Prop where
  path : IsPath neighbors source node (front ++ [node])
  length : front.length = depth node
  rising : (front ++ [node]).Pairwise fun node next => depth node < depth next
  seen : ∀ other ∈ front ++ [node], other ∈ visited

omit [DecidableEq Node] in
theorem Trail.extend {front : List Node} {node parent : Node}
    (h : Trail neighbors source depth visited parent front)
    (hstep : node ∈ neighbors parent) (hnode : node ∈ visited)
    (hdepth : depth node = depth parent + 1) :
    Trail neighbors source depth visited node (front ++ [parent]) := by
  obtain ⟨⟨hfirst, hlast, hsteps⟩, hlength, hrising, hseen⟩ := h
  -- The parent is the deepest node of the trail.
  have hbelow : ∀ other ∈ front ++ [parent], depth other ≤ depth parent := by
    intro other hother
    rcases List.mem_append.mp hother with hother | hother
    · exact ((List.pairwise_append.mp hrising).2.2 other hother parent
        (by simp)).le
    · rw [List.mem_singleton.mp hother]
  refine ⟨⟨?_, by simp, ?_⟩, ?_, ?_, ?_⟩
  · rw [List.head?_append_of_ne_nil _ (by simp)]
    exact hfirst
  · refine List.isChain_append.mpr ⟨hsteps, by simp, ?_⟩
    intro other hother next hnext
    rw [hlast] at hother
    simp only [List.head?_cons, Option.mem_def, Option.some.injEq]
      at hother hnext
    rw [← hother, ← hnext]
    exact hstep
  · simp [hlength, hdepth]
  · refine List.pairwise_append.mpr ⟨hrising, List.pairwise_singleton _ _, ?_⟩
    intro other hother next hnext
    rw [List.mem_singleton.mp hnext, hdepth]
    exact Nat.lt_succ_of_le (hbelow other hother)
  · intro other hother
    rcases List.mem_append.mp hother with hother | hother
    · exact hseen other hother
    · rw [List.mem_singleton.mp hother]
      exact hnode

omit [DecidableEq Node] in
theorem Trail.nodup {front : List Node} {node : Node}
    (h : Trail neighbors source depth visited node front) :
    (front ++ [node]).Nodup := by
  refine h.rising.imp ?_
  rintro first _ hlt rfl
  exact lt_irrefl _ hlt

theorem Traced.walkBack (h : Traced neighbors source depth previous visited)
    {fuel : Nat} {node : Node} (hnode : node ∈ visited)
    (hfuel : depth node ≤ fuel) (hops : List Node) :
    ∃ front, walkBack previous source fuel node (node :: hops) =
        some (front ++ node :: hops) ∧
      Trail neighbors source depth visited node front := by
  have hsource : Trail neighbors source depth visited source [] :=
    ⟨⟨rfl, rfl, List.isChain_singleton _⟩, h.start.2.symm, by simp,
      by simpa using h.start.1⟩
  induction fuel generalizing node hops with
  | zero =>
      have hstart : node = source := by
        by_contra hne
        obtain ⟨parent, hparent⟩ :=
          Finmap.mem_iff.mp ((h.keys node).mpr ⟨hnode, hne⟩)
        have := (h.before node parent hparent).2.2
        omega
      subst hstart
      refine ⟨[], ?_, hsource⟩
      rw [HartLink.Foundation.walkBack, if_pos rfl]
      rfl
  | succ fuel ih =>
      by_cases hstart : node = source
      · subst hstart
        refine ⟨[], ?_, hsource⟩
        rw [HartLink.Foundation.walkBack, if_pos rfl]
        rfl
      · obtain ⟨parent, hlookup⟩ :=
          Finmap.mem_iff.mp ((h.keys node).mpr ⟨hnode, hstart⟩)
        obtain ⟨hparent, hstep, hdepth⟩ := h.before node parent hlookup
        obtain ⟨front, hback, htrail⟩ :=
          ih hparent (by omega) (node :: hops)
        refine ⟨front ++ [parent], ?_, htrail.extend hstep hnode hdepth⟩
        rw [HartLink.Foundation.walkBack, if_neg hstart, hlookup]
        simpa using hback

/-- Every level up to that of a discovered node has a predecessor entry. -/
theorem Traced.depth_le_card
    (h : Traced neighbors source depth previous visited) {node : Node}
    (hnode : node ∈ visited) : depth node ≤ previous.keys.card := by
  obtain ⟨front, -, htrail⟩ := h.walkBack hnode le_rfl []
  have hnodup := htrail.nodup
  have hdistinct := hnodup.sublist (List.tail_sublist _)
  have hkeys : (front ++ [node]).tail.toFinset ⊆ previous.keys := by
    intro other hother
    rw [List.mem_toFinset] at hother
    rw [Finmap.mem_keys, h.keys]
    refine ⟨htrail.seen other (List.mem_of_mem_tail hother), ?_⟩
    -- The source is the first node of the trail.
    rintro rfl
    cases hparts : front ++ [node] with
    | nil => simp at hparts
    | cons first rest =>
        have hfirst := htrail.path.first
        rw [hparts] at hfirst hother hnodup
        injection hfirst with hfirst
        exact (List.nodup_cons.mp hnodup).1 (hfirst ▸ hother)
  have hcard := Finset.card_le_card hkeys
  rw [List.toFinset_card_of_nodup hdistinct] at hcard
  simpa [htrail.length] using hcard

end Discoveries

/-! ## Expanding a node -/

section Expansions

variable {neighbors : Node → List Node} {source goal current : Node}

/-- The loop over the neighbours keeps the levels that there were. -/
structure Expanded (neighbors : Node → List Node) (source current : Node)
    (depth deeper : Node → Nat) (frontier next : Frontier Node)
    (nodes : List Node) : Prop where
  traced : Traced neighbors source deeper next.previous next.visited
  layered : Layered neighbors deeper (current :: next.queue) next.visited
  grows : frontier.visited ⊆ next.visited
  same : ∀ node ∈ frontier.visited, deeper node = depth node
  covers : ∀ node ∈ nodes, node ∈ next.visited
  within : ∀ node ∈ next.visited, node ∈ frontier.visited ∨ node ∈ nodes
  balance : next.queue.length + frontier.visited.card =
    frontier.queue.length + next.visited.card

/-- The goal has been discovered below the current node. -/
structure Reached (neighbors : Node → List Node) (source goal : Node)
    (level : Nat) (previous : Table Node Node) (depth : Node → Nat)
    (visited : Finset Node) : Prop where
  traced : Traced neighbors source depth previous visited
  found : goal ∈ visited
  deep : depth goal = level

theorem expand_spec {depth : Node → Nat} {frontier : Frontier Node}
    (htraced : Traced neighbors source depth frontier.previous
      frontier.visited)
    (hlayered : Layered neighbors depth (current :: frontier.queue)
      frontier.visited)
    (hgoal : goal ∉ frontier.visited) {nodes : List Node}
    (hnodes : ∀ node ∈ nodes, node ∈ neighbors current) :
    (∃ previous deeper visited,
      expand goal current nodes frontier = .reached previous ∧
      Reached neighbors source goal (depth current + 1) previous deeper
        visited) ∨
    ∃ next deeper, expand goal current nodes frontier = .expanded next ∧
      Expanded neighbors source current depth deeper frontier next nodes ∧
      goal ∉ next.visited := by
  have hcurrent : current ∈ frontier.visited :=
    hlayered.queued current List.mem_cons_self
  induction nodes generalizing depth frontier with
  | nil =>
      exact .inr ⟨frontier, depth, rfl, ⟨htraced, hlayered, subset_rfl,
        fun _ _ => rfl, by simp, fun _ => .inl, rfl⟩, hgoal⟩
  | cons node nodes ih =>
      rw [List.forall_mem_cons] at hnodes
      obtain ⟨hnode, hnodes⟩ := hnodes
      rw [expand]
      by_cases hvisited : node ∈ frontier.visited
      · rw [if_pos hvisited]
        refine (ih htraced hlayered hgoal hnodes hcurrent).imp_right ?_
        rintro ⟨next, deeper, heq, hexpanded, hnext⟩
        refine ⟨next, deeper, heq, { hexpanded with
          covers := List.forall_mem_cons.mpr
            ⟨hexpanded.grows hvisited, hexpanded.covers⟩
          within := ?_ }, hnext⟩
        intro other hother
        exact (hexpanded.within other hother).imp_right
          (List.mem_cons_of_mem _)
      rw [if_neg hvisited]
      have hdiscovered := htraced.discover hcurrent hvisited hnode
      split_ifs with hreached
      · subst hreached
        exact .inl ⟨_, _, _, rfl, hdiscovered, Finset.mem_insert_self _ _,
          deepen_self⟩
      · have hdeeper : deepen depth current node current = depth current :=
          deepen_of_mem hvisited hcurrent
        have hrest := @ih (deepen depth current node)
          (frontier.discover current node) hdiscovered
          (hlayered.discover hvisited)
          (by simp [Frontier.discover, Ne.symm hreached, hgoal]) hnodes
          (Finset.mem_insert_of_mem hcurrent)
        rw [hdeeper] at hrest
        refine hrest.imp_right ?_
        rintro ⟨next, deeper, heq, hexpanded, hnext⟩
        refine ⟨next, deeper, heq, ⟨hexpanded.traced, hexpanded.layered, ?_, ?_,
          ?_, ?_, ?_⟩, hnext⟩
        · exact (Finset.subset_insert _ _).trans hexpanded.grows
        · intro other hother
          rw [hexpanded.same other (Finset.mem_insert_of_mem hother)]
          exact deepen_of_mem hvisited hother
        · exact List.forall_mem_cons.mpr
            ⟨hexpanded.grows (Finset.mem_insert_self _ _), hexpanded.covers⟩
        · intro other hother
          rcases hexpanded.within other hother with hother | hother
          · rcases Finset.mem_insert.mp hother with rfl | hother
            · exact .inr List.mem_cons_self
            · exact .inl hother
          · exact .inr (List.mem_cons_of_mem _ hother)
        · have hbalance := hexpanded.balance
          simp only [Frontier.discover, List.length_append,
            List.length_singleton, Finset.card_insert_of_notMem hvisited]
            at hbalance
          omega

/-! ## The whole search -/

theorem not_isPath_of_empty {depth : Node → Nat} {frontier : Frontier Node}
    (htraced : Traced neighbors source depth frontier.previous
      frontier.visited)
    (hlayered : Layered neighbors depth frontier.queue frontier.visited)
    (hgoal : goal ∉ frontier.visited) (hqueue : frontier.queue = [])
    (hops : List Node) : ¬ IsPath neighbors source goal hops := by
  intro hpath
  rw [hqueue] at hlayered
  obtain ⟨rest, rfl⟩ := hpath.exists_cons
  exact hgoal (hlayered.mem_of_path hpath.steps hpath.last htraced.start.1)

/--
The nodes stay in a finite set.  Every round takes one node from the queue, and
every node enters it once, so that as many rounds as there are nodes are enough.
-/
theorem search_spec {everything : Finset Node}
    (hclosed : ∀ node ∈ everything, ∀ next ∈ neighbors node,
      next ∈ everything)
    {fuel : Nat} {depth : Node → Nat} {frontier : Frontier Node}
    (htraced : Traced neighbors source depth frontier.previous
      frontier.visited)
    (hlayered : Layered neighbors depth frontier.queue frontier.visited)
    (hgoal : goal ∉ frontier.visited) (hwithin : frontier.visited ⊆ everything)
    (hfuel : everything.card + frontier.queue.length ≤
      fuel + frontier.visited.card) :
    (search neighbors goal fuel frontier = none ∧
      ∀ hops, ¬ IsPath neighbors source goal hops) ∨
    ∃ previous deeper visited,
      search neighbors goal fuel frontier = some previous ∧
      Traced neighbors source deeper previous visited ∧ goal ∈ visited ∧
      ∀ hops, IsPath neighbors source goal hops →
        deeper goal + 1 ≤ hops.length := by
  induction fuel generalizing depth frontier with
  | zero =>
      have hcard := Finset.card_le_card hwithin
      have hqueue : frontier.queue = [] :=
        List.eq_nil_of_length_eq_zero (by omega)
      exact .inl ⟨rfl, not_isPath_of_empty htraced hlayered hgoal hqueue⟩
  | succ fuel ih =>
      rw [search]
      cases hqueue : frontier.queue with
      | nil =>
          exact .inl ⟨rfl, not_isPath_of_empty htraced hlayered hgoal hqueue⟩
      | cons current queue =>
      rw [hqueue] at hlayered hfuel
      dsimp only
      rcases @expand_spec _ _ neighbors source goal current depth
          { frontier with queue } htraced hlayered hgoal (neighbors current)
          (fun _ => id) with
        ⟨previous, deeper, visited, heq, hreached⟩ |
        ⟨next, deeper, heq, hexpanded, hnext⟩
      · rw [heq]
        refine .inr ⟨previous, deeper, visited, rfl, hreached.traced,
          hreached.found, ?_⟩
        intro hops hpath
        obtain ⟨rest, rfl⟩ := hpath.exists_cons
        have hlength := hlayered.depth_lt_length hgoal hpath.steps hpath.last
          htraced.start.1 htraced.start.2.le
        rw [hreached.deep, List.length_cons]
        omega
      · rw [heq]
        have hcurrent := hwithin (hlayered.queued current List.mem_cons_self)
        have hsubset : next.visited ⊆ everything := by
          intro node hnode
          rcases hexpanded.within node hnode with hnode | hnode
          · exact hwithin hnode
          · exact hclosed current hcurrent node hnode
        have hbalance := hexpanded.balance
        dsimp only at hbalance
        rw [List.length_cons] at hfuel
        exact ih hexpanded.traced (hexpanded.layered.close hexpanded.covers)
          hnext hsubset (by omega)

end Expansions

/--
A search over a finite set of nodes with a round for each of them returns a path
without a repeated node and with as few steps as possible, or nothing if there
is no path.
-/
theorem shortestPath_spec {neighbors : Node → List Node}
    {everything : Finset Node} {source : Node}
    (hclosed : ∀ node ∈ everything, ∀ next ∈ neighbors node,
      next ∈ everything) (hsource : source ∈ everything) (goal : Node) :
    (shortestPath neighbors everything.card source goal = none ∧
      ∀ hops, ¬ IsPath neighbors source goal hops) ∨
    ∃ hops, shortestPath neighbors everything.card source goal = some hops ∧
      IsPath neighbors source goal hops ∧ hops.Nodup ∧
      ∀ other, IsPath neighbors source goal other →
        hops.length ≤ other.length := by
  unfold shortestPath
  split_ifs with hsame
  · subst hsame
    refine .inr ⟨[source], rfl, ⟨rfl, rfl, List.isChain_singleton _⟩,
      List.nodup_singleton _, ?_⟩
    intro other hother
    obtain ⟨rest, rfl⟩ := hother.exists_cons
    simp
  · have hsearch := @search_spec _ _ neighbors source goal everything hclosed
      everything.card _
      { queue := [source], previous := ∅, visited := {source} }
      (traced_initial neighbors source) (layered_initial neighbors source)
      (by simp [Ne.symm hsame]) (by simpa using hsource) (by simp)
    rcases hsearch with ⟨hnone, hunreached⟩ |
      ⟨previous, depth, visited, hfound, htraced, hgoal, hshortest⟩
    · exact .inl ⟨by rw [hnone]; rfl, hunreached⟩
    · obtain ⟨front, hback, htrail⟩ :=
        htraced.walkBack hgoal (htraced.depth_le_card hgoal) []
      refine .inr ⟨front ++ [goal], by rw [hfound]; exact hback, htrail.path,
        htrail.nodup, ?_⟩
      intro other hother
      rw [List.length_append, htrail.length]
      exact hshortest other hother

end HartLink.Foundation
