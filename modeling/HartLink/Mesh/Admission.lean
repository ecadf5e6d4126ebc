import HartLink.Mesh.Manager

/-!
# Admission over whole runs

A run interleaves provisioning, revocation and attempts to join with changes of
the graph and the schedule.  Nicknames are never used twice, and every node
belongs to a provisioned device.  A replay window outlives everything but a
change of the device's key, and then it forgets every counter.
-/

namespace HartLink.Mesh

open HartLink.Foundation

/-! ## Nodes under the operations of the graph -/

namespace MeshGraph

theorem node_upsertNode (graph : MeshGraph) (node : NodeState)
    (device : DeviceId) :
    (graph.upsertNode node).node device =
      if device = node.id then some node else graph.node device :=
  Table.lookup_insert_eq graph.nodes node.id device node

theorem node_removeNode (graph : MeshGraph) (id device : DeviceId) :
    (graph.removeNode id).node device =
      if device = id then none else graph.node device :=
  Table.lookup_erase_eq graph.nodes id device

theorem node_updateLink (graph : MeshGraph) (left right device : DeviceId)
    (health : LinkHealth) :
    (graph.updateLink left right health).1.node device =
      graph.node device := by
  unfold updateLink
  split_ifs <;> rfl

end MeshGraph

/-! ## Runs -/

/-- The verifier of an attempt to join sees the request and the key only. -/
inductive MeshAction where
  | allow (device : DeviceId) (joinKey : KeyMaterial)
  | revoke (device : DeviceId)
  | join (request : JoinRequest)
      (authenticate : JoinRequest → KeyMaterial → Bool)
  | updateLink (left right : DeviceId) (health : LinkHealth)
  | removeNode (device : DeviceId)
  | insertCell (cell : Cell)
  | removeDevice (device : DeviceId)

namespace MeshManager

def step (manager : MeshManager) : MeshAction → Option MeshManager
  | .allow device joinKey => some (manager.allow device joinKey)
  | .revoke device => some (manager.revoke device)
  | .join request authenticate =>
      some (manager.joinAuthenticated request authenticate).2
  | .updateLink left right health =>
      some { manager with
        graph := (manager.graph.updateLink left right health).1 }
  | .removeNode device =>
      some { manager with graph := manager.graph.removeNode device }
  | .insertCell cell =>
      some { manager with schedule := (manager.schedule.insert cell).2 }
  | .removeDevice device =>
      some { manager with schedule := manager.schedule.removeDevice device }

def run (manager : MeshManager) (actions : List MeshAction) :
    Option MeshManager :=
  runSteps step manager actions

def nickname (manager : MeshManager) : MeshAction → List UInt16
  | .join request authenticate =>
      match (manager.joinAuthenticated request authenticate).1,
          manager.graph.node request.device with
      | .ok (.accepted nickname), none => [nickname]
      | _, _ => []
  | _ => []

def nicknames (manager : MeshManager) (actions : List MeshAction) :
    List UInt16 :=
  observe step nickname manager actions

/-! ## Nicknames and provisioned nodes -/

/-- What a step does to the nodes, apart from adding one. -/
structure KeepsNodes (manager next : MeshManager) : Prop where
  nextNickname : next.nextNickname = manager.nextNickname
  nodes : ∀ device, next.graph.node device = manager.graph.node device ∨
    next.graph.node device = none
  allowed : ∀ device, (next.graph.node device).isSome →
    device ∈ manager.allowlist → device ∈ next.allowlist
  keys : ∀ device, (next.graph.node device).isSome →
    (manager.joinKeys.lookup device).isSome →
      (next.joinKeys.lookup device).isSome

theorem keepsNodes_removeNode (manager : MeshManager) (id device : DeviceId) :
    (manager.graph.removeNode id).node device = manager.graph.node device ∨
      (manager.graph.removeNode id).node device = none := by
  rw [MeshGraph.node_removeNode]
  split_ifs
  · exact .inr rfl
  · exact .inl rfl

theorem keepsNodes_allow (manager : MeshManager) (device : DeviceId)
    (joinKey : KeyMaterial) :
    KeepsNodes manager (manager.allow device joinKey) := by
  have hkeys : ∀ other, (manager.joinKeys.lookup other).isSome →
      ((manager.joinKeys.insert device joinKey).lookup other).isSome := by
    intro other hother
    rw [Table.lookup_insert_eq]
    split_ifs
    · rfl
    · exact hother
  unfold allow
  dsimp only
  split_ifs
  · exact ⟨rfl, manager.keepsNodes_removeNode device,
      fun _ _ hother => Finset.mem_insert_of_mem hother,
      fun other _ => hkeys other⟩
  · exact ⟨rfl, fun _ => .inl rfl,
      fun _ _ hother => Finset.mem_insert_of_mem hother,
      fun other _ => hkeys other⟩

theorem keepsNodes_revoke (manager : MeshManager) (device : DeviceId) :
    KeepsNodes manager (manager.revoke device) := by
  have hother : ∀ other, ((manager.revoke device).graph.node other).isSome →
      other ≠ device := by
    rintro other hnode rfl
    rw [revoke, MeshGraph.node_removeNode, if_pos rfl] at hnode
    contradiction
  refine ⟨rfl, manager.keepsNodes_removeNode device, ?_, ?_⟩
  · intro other hnode hallowed
    exact Finset.mem_erase.mpr ⟨hother other hnode, hallowed⟩
  · intro other hnode hkey
    rw [revoke, Table.lookup_erase_eq, if_neg (hother other hnode)]
    exact hkey

theorem KeepsNodes.refl (manager : MeshManager) :
    KeepsNodes manager manager :=
  ⟨rfl, fun _ => .inl rfl, fun _ _ => id, fun _ _ => id⟩

structure AddsNode (manager next : MeshManager) (device : DeviceId) :
    Prop where
  nonzero : manager.nextNickname ≠ 0
  unknown : manager.graph.node device = none
  allowed : device ∈ manager.allowlist
  key : (manager.joinKeys.lookup device).isSome
  nextNickname : next.nextNickname = followingNickname manager.nextNickname
  allowlist : next.allowlist = manager.allowlist
  joinKeys : next.joinKeys = manager.joinKeys
  nodes : ∀ other, next.graph.node other =
    if other = device then some ⟨device, manager.nextNickname, true⟩
    else manager.graph.node other

theorem join_nodes {manager next : MeshManager} {request : JoinRequest}
    {authenticate : JoinRequest → KeyMaterial → Bool}
    (h : manager.step (.join request authenticate) = some next)
    (hactive : ∀ device node, manager.graph.node device = some node →
      node.active = true) :
    (manager.nickname (.join request authenticate) = [] ∧
      KeepsNodes manager next) ∨
    manager.nickname (.join request authenticate) =
        [manager.nextNickname] ∧
      AddsNode manager next request.device := by
  injection h with h
  subst h
  have hjoins := manager.joins request authenticate
  simp only [nickname]
  generalize manager.joinAuthenticated request authenticate = outcome
    at hjoins ⊢
  obtain ⟨result, after⟩ := outcome
  dsimp only at hjoins ⊢
  cases hjoins with
  | refused hrefused =>
      refine .inl ⟨?_, .refl manager⟩
      split
      next nickname hnode => exact absurd rfl (hrefused nickname)
      · rfl
  | rejoined hknown _ hallowed hkey hcounter =>
      refine .inl ⟨by rw [hknown], ?_⟩
      exact ⟨rfl, fun _ => .inl rfl, fun _ _ => id, fun _ _ => id⟩
  | joined hinactive hnickname hallowed hkey hcounter =>
      have hunknown : manager.graph.node request.device = none := by
        cases hnode : manager.graph.node request.device with
        | none => rfl
        | some node =>
            have hfalse := hinactive node hnode
            rw [hactive request.device node hnode] at hfalse
            contradiction
      refine .inr ⟨by rw [hunknown], hnickname, hunknown, hallowed,
        by rw [hkey]; rfl, rfl, rfl, rfl, ?_⟩
      intro other
      exact MeshGraph.node_upsertNode manager.graph
        ⟨request.device, manager.nextNickname, true⟩ other

theorem step_nodes {manager next : MeshManager} {action : MeshAction}
    (h : manager.step action = some next)
    (hactive : ∀ device node, manager.graph.node device = some node →
      node.active = true) :
    (manager.nickname action = [] ∧ KeepsNodes manager next) ∨
    ∃ device, manager.nickname action = [manager.nextNickname] ∧
      AddsNode manager next device := by
  cases action with
  | allow device joinKey =>
      injection h with h
      subst h
      exact .inl ⟨rfl, manager.keepsNodes_allow device joinKey⟩
  | revoke device =>
      injection h with h
      subst h
      exact .inl ⟨rfl, manager.keepsNodes_revoke device⟩
  | join request authenticate =>
      exact (join_nodes h hactive).imp_right fun hadds =>
        ⟨request.device, hadds⟩
  | updateLink left right health =>
      injection h with h
      subst h
      exact .inl ⟨rfl, rfl, fun device => .inl
        (manager.graph.node_updateLink left right device health),
        fun _ _ => id, fun _ _ => id⟩
  | removeNode device =>
      injection h with h
      subst h
      exact .inl ⟨rfl, rfl, manager.keepsNodes_removeNode device,
        fun _ _ => id, fun _ _ => id⟩
  | insertCell cell =>
      injection h with h
      subst h
      exact .inl ⟨rfl, rfl, fun _ => .inl rfl, fun _ _ => id, fun _ _ => id⟩
  | removeDevice device =>
      injection h with h
      subst h
      exact .inl ⟨rfl, rfl, fun _ => .inl rfl, fun _ _ => id, fun _ _ => id⟩

/-- Nicknames grow until they are used up, and nodes hold some of them. -/
structure Admitted (seen : List UInt16) (manager : MeshManager) : Prop where
  nonzero : 0 ∉ seen
  nodup : seen.Nodup
  below : manager.nextNickname ≠ 0 →
    ∀ nickname ∈ seen, nickname.toNat < manager.nextNickname.toNat
  nodes : ∀ device node, manager.graph.node device = some node →
    node.active = true ∧ node.nickname ∈ seen ∧
      device ∈ manager.allowlist ∧
      (manager.joinKeys.lookup device).isSome
  injective : ∀ device other node otherNode,
    manager.graph.node device = some node →
    manager.graph.node other = some otherNode →
    node.nickname = otherNode.nickname → device = other

theorem below_followingNickname {nickname : UInt16}
    (h : followingNickname nickname ≠ 0) :
    (followingNickname nickname).toNat = nickname.toNat + 1 := by
  have hlt := nickname.toNat_lt
  unfold followingNickname at h ⊢
  split_ifs at h ⊢ with hlast
  · contradiction
  have hnat : nickname.toNat ≠ 65535 := fun heq =>
    hlast (UInt16.toNat_inj.mp heq)
  rw [UInt16.toNat_add, show (1 : UInt16).toNat = 1 from rfl]
  omega

theorem admitted_keeps {seen : List UInt16} {manager next : MeshManager}
    (hkeeps : KeepsNodes manager next) (h : Admitted seen manager) :
    Admitted seen next := by
  have hsame : ∀ device node, next.graph.node device = some node →
      manager.graph.node device = some node := by
    intro device node hnode
    rcases hkeeps.nodes device with heq | hnone
    · exact heq ▸ hnode
    · rw [hnone] at hnode
      contradiction
  refine ⟨h.nonzero, h.nodup, hkeeps.nextNickname ▸ h.below, ?_, ?_⟩
  · intro device node hnode
    obtain ⟨hactive, hseen, hallowed, hkey⟩ :=
      h.nodes device node (hsame device node hnode)
    have hsome : (next.graph.node device).isSome := by
      rw [hnode]
      rfl
    exact ⟨hactive, hseen, hkeeps.allowed device hsome hallowed,
      hkeeps.keys device hsome hkey⟩
  · intro device other node otherNode hnode hother
    exact h.injective device other node otherNode (hsame device node hnode)
      (hsame other otherNode hother)

theorem admitted_adds {seen : List UInt16} {manager next : MeshManager}
    {device : DeviceId} (hadds : AddsNode manager next device)
    (h : Admitted seen manager) :
    Admitted (seen ++ [manager.nextNickname]) next := by
  have hfresh : manager.nextNickname ∉ seen := fun hmem =>
    Nat.lt_irrefl _ (h.below hadds.nonzero manager.nextNickname hmem)
  refine ⟨?_, ?_, ?_, ?_, ?_⟩
  · simp only [List.mem_append, List.mem_singleton, not_or]
    exact ⟨h.nonzero, fun hzero => hadds.nonzero hzero.symm⟩
  · rw [List.nodup_append']
    exact ⟨h.nodup, List.nodup_singleton _, by simpa using hfresh⟩
  · rw [hadds.nextNickname]
    intro hleft nickname hmem
    rw [below_followingNickname hleft]
    rcases List.mem_append.mp hmem with hmem | hmem
    · exact Nat.lt_succ_of_lt (h.below hadds.nonzero nickname hmem)
    · rw [List.mem_singleton.mp hmem]
      exact Nat.lt_succ_self _
  · intro other node hnode
    rw [hadds.nodes other] at hnode
    rw [hadds.allowlist, hadds.joinKeys]
    split_ifs at hnode with hother
    · injection hnode with hnode
      subst hnode hother
      exact ⟨rfl, by simp, hadds.allowed, hadds.key⟩
    · obtain ⟨hactive, hseen, hrest⟩ := h.nodes other node hnode
      exact ⟨hactive, List.mem_append_left _ hseen, hrest⟩
  · -- The new nickname differs from those of all nodes there were.
    have hnewNickname : ∀ other node, manager.graph.node other = some node →
        node.nickname ≠ manager.nextNickname := by
      intro other node hnode heq
      exact hfresh (heq ▸ (h.nodes other node hnode).2.1)
    intro first second node other hfirst hsecond heq
    rw [hadds.nodes first] at hfirst
    rw [hadds.nodes second] at hsecond
    split_ifs at hfirst hsecond with hfirstNew hsecondNew hsecondNew
    · rw [hfirstNew, hsecondNew]
    · injection hfirst with hfirst
      subst hfirst
      exact absurd heq.symm (hnewNickname second other hsecond)
    · injection hsecond with hsecond
      subst hsecond
      exact absurd heq (hnewNickname first node hfirst)
    · exact h.injective first second node other hfirst hsecond heq

theorem admitted_step {seen : List UInt16} {manager next : MeshManager}
    {action : MeshAction} (hstep : manager.step action = some next)
    (h : Admitted seen manager) :
    Admitted (seen ++ manager.nickname action) next := by
  have hactive : ∀ device node, manager.graph.node device = some node →
      node.active = true := fun device node hnode =>
    (h.nodes device node hnode).1
  rcases step_nodes hstep hactive with
    ⟨hnone, hkeeps⟩ | ⟨device, hnickname, hadds⟩
  · rw [hnone, List.append_nil]
    exact admitted_keeps hkeeps h
  · rw [hnickname]
    exact admitted_adds hadds h

theorem admitted_new {network : NetworkId} {superframeSize : UInt16}
    {manager : MeshManager} (h : new network superframeSize = .ok manager) :
    Admitted [] manager := by
  unfold new at h
  split at h
  · contradiction
  injection h with h
  subst h
  have hnodes : ∀ device, MeshGraph.node {} device = none := fun _ => rfl
  refine ⟨by simp, by simp, by simp, ?_, ?_⟩
  · intro device node hnode
    rw [hnodes] at hnode
    contradiction
  · intro device other node otherNode hnode
    rw [hnodes] at hnode
    contradiction

theorem node_step {seen : List UInt16} {manager next : MeshManager}
    {action : MeshAction} {device : DeviceId} {node : NodeState}
    (h : Admitted seen manager) (hstep : manager.step action = some next)
    (hnode : manager.graph.node device = some node) :
    next.graph.node device = some node ∨ next.graph.node device = none := by
  rcases step_nodes hstep fun device node hnode =>
    (h.nodes device node hnode).1 with ⟨-, hkeeps⟩ | ⟨added, -, hadds⟩
  · rcases hkeeps.nodes device with heq | hnone
    · exact .inl (heq.trans hnode)
    · exact .inr hnone
  · left
    rw [hadds.nodes device, if_neg, hnode]
    rintro rfl
    rw [hadds.unknown] at hnode
    contradiction

/--
Admission over every run: nicknames of new nodes are nonzero and never repeat,
a node keeps its nickname while it is there and belongs to a provisioned
device, and a refused attempt to join changes nothing.
-/
theorem run_admits (network : NetworkId) (superframeSize : UInt16)
    (manager : MeshManager) (hnew : new network superframeSize = .ok manager)
    (actions : List MeshAction) (final : MeshManager)
    (hrun : manager.run actions = some final) :
    (0 ∉ manager.nicknames actions ∧ (manager.nicknames actions).Nodup) ∧
    (∀ device node, final.graph.node device = some node →
      node.nickname ∈ manager.nicknames actions) ∧
    (∀ device other node otherNode,
      final.graph.node device = some node →
      final.graph.node other = some otherNode →
      node.nickname = otherNode.nickname → device = other) ∧
    (∀ action next device node, final.step action = some next →
      final.graph.node device = some node →
      next.graph.node device = some node ∨
        next.graph.node device = none) ∧
    (∀ device node, final.graph.node device = some node →
      (final.joinKeys.lookup device).isSome ∧ device ∈ final.allowlist) ∧
    ∀ request authenticate,
      (∀ nickname, (final.joinAuthenticated request authenticate).1 ≠
        .ok (.accepted nickname)) →
      (final.joinAuthenticated request authenticate).2 = final := by
  have hfinal : Admitted (manager.nicknames actions) final :=
    runSteps_observe admitted_step hrun (admitted_new hnew)
  refine ⟨⟨hfinal.nonzero, hfinal.nodup⟩, ?_, hfinal.injective, ?_, ?_, ?_⟩
  · intro device node hnode
    exact (hfinal.nodes device node hnode).2.1
  · intro action next device node hstep hnode
    exact node_step hfinal hstep hnode
  · intro device node hnode
    obtain ⟨-, -, hallowed, hkey⟩ := hfinal.nodes device node hnode
    exact ⟨hkey, hallowed⟩
  · intro request authenticate hrefused
    have hjoins := final.joins request authenticate
    generalize final.joinAuthenticated request authenticate = outcome
      at hjoins hrefused ⊢
    obtain ⟨result, after⟩ := outcome
    cases hjoins with
    | refused => rfl
    | rejoined => exact absurd rfl (hrefused _)
    | joined => exact absurd rfl (hrefused _)

/-! ## A network with one device -/

def plainManager : MeshManager := ⟨⟨10⟩, {}, ⟨20, []⟩, ∅, ∅, ∅, 1⟩

def plainKey : KeyMaterial := ⟨.replicate 16 9⟩

def otherKey : KeyMaterial := ⟨.replicate 16 8⟩

def allowPlain (joinKey : KeyMaterial) : MeshAction := .allow ⟨1⟩ joinKey

def joinPlain (joinKey : KeyMaterial) : MeshAction :=
  .join ⟨⟨1⟩, ⟨10⟩, 1⟩ fun _ key => key = joinKey

theorem run_admits_plain :
    ∃ final, plainManager.run [allowPlain plainKey, joinPlain plainKey] =
        some final ∧
      plainManager.nicknames [allowPlain plainKey, joinPlain plainKey] = [1] ∧
      (plainManager.nicknames [allowPlain plainKey, joinPlain plainKey]).Nodup :=
  ⟨_, rfl, by decide, (run_admits ⟨10⟩ 20 plainManager rfl _ _ rfl).1.2⟩

/-! ## Replayed requests -/

/-- An attempt to join that was accepted, with the key of the device then. -/
structure AcceptedJoin where
  device : DeviceId
  joinKey : KeyMaterial
  securityCounter : UInt32
  deriving DecidableEq, Repr

def acceptedJoin (manager : MeshManager) : MeshAction → List AcceptedJoin
  | .join request authenticate =>
      match (manager.joinAuthenticated request authenticate).1,
          manager.joinKeys.lookup request.device with
      | .ok (.accepted _), some joinKey =>
          [⟨request.device, joinKey, request.securityCounter⟩]
      | _, _ => []
  | _ => []

def acceptedJoins (manager : MeshManager) (actions : List MeshAction) :
    List AcceptedJoin :=
  observe step acceptedJoin manager actions

def NewKeys (seen : List AcceptedJoin) (_ : MeshManager) :
    MeshAction → Prop
  | .allow device joinKey =>
      ∀ join ∈ seen, join.device = device → join.joinKey ≠ joinKey
  | _ => True

instance (seen : List AcceptedJoin) (manager : MeshManager) :
    (action : MeshAction) → Decidable (NewKeys seen manager action)
  | .allow device joinKey =>
      inferInstanceAs (Decidable
        (∀ join ∈ seen, join.device = device → join.joinKey ≠ joinKey))
  | .revoke _ | .join _ _ | .updateLink _ _ _ | .removeNode _
  | .insertCell _ | .removeDevice _ => isTrue trivial

/-- The window of a device holds the counters accepted under its key. -/
structure Remembers (seen : List AcceptedJoin) (manager : MeshManager) :
    Prop where
  nodup : seen.Nodup
  replay : ∀ device, manager.joinKeys.lookup device = none →
    manager.replay.lookup device = none
  windows : ∀ device joinKey,
    manager.joinKeys.lookup device = some joinKey →
    ReplayWindow.Records (fun counter => ⟨device, joinKey, counter⟩ ∈ seen)
      ((manager.replay.lookup device).getD {})

theorem remembers_allow {seen : List AcceptedJoin} {manager : MeshManager}
    {device : DeviceId} {joinKey : KeyMaterial}
    (hnew : ∀ join ∈ seen, join.device = device → join.joinKey ≠ joinKey)
    (h : Remembers seen manager) :
    Remembers seen (manager.allow device joinKey) := by
  have hkeys : (manager.allow device joinKey).joinKeys =
      manager.joinKeys.insert device joinKey := by
    unfold allow
    dsimp only
    split_ifs <;> rfl
  -- Either way the device begins without a window.
  have hreplay : ∀ other, (manager.allow device joinKey).replay.lookup other =
      if other = device then none else manager.replay.lookup other := by
    intro other
    unfold allow
    dsimp only
    split_ifs with hkey hother hother
    · rw [hother]
      exact Finmap.lookup_erase device manager.replay
    · exact Finmap.lookup_erase_ne hother
    · rw [hother]
      exact h.replay device (by simpa using hkey)
    · rfl
  refine ⟨h.nodup, ?_, ?_⟩
  · intro other hnone
    rw [hkeys, Table.lookup_insert_eq] at hnone
    rw [hreplay]
    split_ifs at hnone ⊢
    exact h.replay other hnone
  · intro other otherKey hother
    rw [hkeys, Table.lookup_insert_eq] at hother
    rw [hreplay]
    split_ifs at hother ⊢ with heq
    · injection hother with hother
      subst heq hother
      have hunseen : (fun counter => (⟨other, joinKey, counter⟩ :
          AcceptedJoin) ∈ seen) = fun _ => False := by
        funext counter
        exact eq_false fun hmem => hnew _ hmem rfl rfl
      rw [hunseen]
      exact ReplayWindow.records_default
    · exact h.windows other otherKey hother

theorem remembers_revoke {seen : List AcceptedJoin} {manager : MeshManager}
    (device : DeviceId) (h : Remembers seen manager) :
    Remembers seen (manager.revoke device) := by
  refine ⟨h.nodup, ?_, ?_⟩
  · intro other hnone
    rw [revoke, Table.lookup_erase_eq] at hnone ⊢
    split_ifs at hnone ⊢
    · rfl
    · exact h.replay other hnone
  · intro other otherKey hother
    rw [revoke, Table.lookup_erase_eq] at hother ⊢
    split_ifs at hother ⊢
    exact h.windows other otherKey hother

theorem remembers_accepted {seen : List AcceptedJoin}
    {manager next : MeshManager} {request : JoinRequest}
    {joinKey : KeyMaterial} {window : ReplayWindow}
    (hkey : manager.joinKeys.lookup request.device = some joinKey)
    (hcounter : ReplayWindow.accept
      ((manager.replay.lookup request.device).getD {})
      request.securityCounter = (.ok (), window))
    (hkeys : next.joinKeys = manager.joinKeys)
    (hreplay : next.replay = manager.replay.insert request.device window)
    (h : Remembers seen manager) :
    Remembers (seen ++ [⟨request.device, joinKey, request.securityCounter⟩])
      next := by
  have hwindow := h.windows request.device joinKey hkey
  rcases ReplayWindow.accept_cases hwindow request.securityCounter with
    ⟨-, hunseen, hrecords⟩ | ⟨-, error, herror⟩
  swap
  · rw [hcounter] at herror
    injection herror with herror
    contradiction
  rw [hcounter] at hrecords
  refine ⟨?_, ?_, ?_⟩
  · rw [List.nodup_append']
    exact ⟨h.nodup, List.nodup_singleton _, by simpa using hunseen⟩
  · intro other hnone
    rw [hkeys] at hnone
    rw [hreplay, Table.lookup_insert_eq, if_neg]
    · exact h.replay other hnone
    · rintro rfl
      rw [hkey] at hnone
      contradiction
  · intro other otherKey hother
    rw [hkeys] at hother
    rw [hreplay, Table.lookup_insert_eq]
    split_ifs with heq
    · subst heq
      rw [hkey] at hother
      injection hother with hother
      subst hother
      have hset : (fun counter => (⟨request.device, joinKey, counter⟩ :
          AcceptedJoin) ∈ seen ++ [⟨request.device, joinKey,
            request.securityCounter⟩]) =
          fun counter => counter = request.securityCounter ∨
            ⟨request.device, joinKey, counter⟩ ∈ seen := by
        funext counter
        simp [or_comm]
      rw [hset]
      exact hrecords
    · have hset : (fun counter => (⟨other, otherKey, counter⟩ :
          AcceptedJoin) ∈ seen ++ [⟨request.device, joinKey,
            request.securityCounter⟩]) =
          fun counter => ⟨other, otherKey, counter⟩ ∈ seen := by
        funext counter
        simp [heq]
      rw [hset]
      exact h.windows other otherKey hother

theorem remembers_step {seen : List AcceptedJoin}
    {manager next : MeshManager} {action : MeshAction}
    (hstep : manager.step action = some next)
    (hnew : NewKeys seen manager action) (h : Remembers seen manager) :
    Remembers (seen ++ manager.acceptedJoin action) next := by
  cases action with
  | join request authenticate =>
      injection hstep with hstep
      subst hstep
      have hjoins := manager.joins request authenticate
      simp only [acceptedJoin]
      generalize manager.joinAuthenticated request authenticate = outcome
        at hjoins ⊢
      obtain ⟨result, after⟩ := outcome
      dsimp only at hjoins ⊢
      cases hjoins with
      | refused hrefused =>
          split
          next nickname _ _ => exact absurd rfl (hrefused nickname)
          · rw [List.append_nil]
            exact h
      | rejoined _ _ _ hkey hcounter =>
          rw [hkey]
          exact remembers_accepted hkey hcounter rfl rfl h
      | joined _ _ _ hkey hcounter =>
          rw [hkey]
          exact remembers_accepted hkey hcounter rfl rfl h
  | allow device joinKey =>
      injection hstep with hstep
      subst hstep
      simp only [acceptedJoin, List.append_nil]
      exact remembers_allow hnew h
  | revoke device =>
      injection hstep with hstep
      subst hstep
      simp only [acceptedJoin, List.append_nil]
      exact remembers_revoke device h
  | updateLink | removeNode | insertCell | removeDevice =>
      injection hstep with hstep
      subst hstep
      simp only [acceptedJoin, List.append_nil]
      exact ⟨h.nodup, h.replay, h.windows⟩

theorem remembers_new {network : NetworkId} {superframeSize : UInt16}
    {manager : MeshManager} (h : new network superframeSize = .ok manager) :
    Remembers [] manager := by
  unfold new at h
  split at h
  · contradiction
  injection h with h
  subst h
  refine ⟨List.nodup_nil, fun _ _ => rfl, ?_⟩
  intro device joinKey hkey
  contradiction

/--
As long as no device is given a key under which it has joined before, every
counter of a device is accepted at most once under each of its keys.
-/
theorem run_accepts_once (network : NetworkId) (superframeSize : UInt16)
    (manager : MeshManager) (hnew : new network superframeSize = .ok manager)
    (actions : List MeshAction) (final : MeshManager)
    (hrun : manager.run actions = some final)
    (hkeys : AlongSeen step acceptedJoin NewKeys [] manager actions) :
    (manager.acceptedJoins actions).Nodup := by
  have hfinal := runSteps_observe_alongSeen remembers_step hrun hkeys
    (remembers_new hnew)
  exact hfinal.nodup

theorem run_accepts_once_otherKey :
    plainManager.acceptedJoins [allowPlain plainKey, joinPlain plainKey,
        allowPlain otherKey, joinPlain otherKey] =
      [⟨⟨1⟩, plainKey, 1⟩, ⟨⟨1⟩, otherKey, 1⟩] ∧
    (plainManager.acceptedJoins [allowPlain plainKey, joinPlain plainKey,
      allowPlain otherKey, joinPlain otherKey]).Nodup := by
  refine ⟨by decide, run_accepts_once ⟨10⟩ 20 plainManager rfl _ _ rfl ?_⟩
  decide

/-- The same request is accepted again once the same key is provisioned again. -/
theorem replayed_join :
    plainManager.acceptedJoins [allowPlain plainKey, joinPlain plainKey,
        allowPlain plainKey, joinPlain plainKey] =
      [⟨⟨1⟩, plainKey, 1⟩, ⟨⟨1⟩, plainKey, 1⟩] ∧
    plainManager.acceptedJoins [allowPlain plainKey, joinPlain plainKey,
        .revoke ⟨1⟩, allowPlain plainKey, joinPlain plainKey] =
      [⟨⟨1⟩, plainKey, 1⟩, ⟨⟨1⟩, plainKey, 1⟩] := by
  constructor <;> decide

end MeshManager

end HartLink.Mesh
