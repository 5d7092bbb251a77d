import Mathlib.Data.List.Forall2
import Switchyard.Proofs.Control.Atomicity

/-!
# Multicast groups by their history

The members of a group are the nodes whose association with it still lasts, in the order in which these
associations were made; a node is what was created under its handle, with the ports that were given last.
Both are read off the log of what was done. `Recorded` ties an engine to its log, and every operation
keeps it.
-/

namespace Switchyard

open Sequencing

namespace MulticastNode

variable {port other : Nat} {ports : List Nat}

theorem mem_insertPort : other ∈ insertPort port ports ↔ other = port ∨ other ∈ ports := by
  induction ports with
  | nil => simp [insertPort]
  | cons p ports ih =>
    unfold insertPort
    split
    case isTrue => exact List.mem_cons
    case isFalse =>
      split
      case isTrue same => simp [same]
      case isFalse =>
        rw [List.mem_cons, ih, List.mem_cons]
        exact or_left_comm

theorem ascending_insertPort (ascending : ports.Pairwise (· < ·)) :
    (insertPort port ports).Pairwise (· < ·) := by
  induction ports with
  | nil => exact List.pairwise_singleton _ _
  | cons p ports ih =>
    obtain ⟨above, rest⟩ := List.pairwise_cons.mp ascending
    unfold insertPort
    split
    case isTrue below =>
      refine List.pairwise_cons.mpr ⟨fun q mem => ?_, ascending⟩
      rcases List.mem_cons.mp mem with rfl | mem
      · exact below
      · exact Nat.lt_trans below (above q mem)
    case isFalse notBelow =>
      split
      case isTrue => exact ascending
      case isFalse different =>
        refine List.pairwise_cons.mpr ⟨fun q mem => ?_, ih rest⟩
        rcases mem_insertPort.mp mem with rfl | mem
        · omega
        · exact above q mem

theorem mem_portSet : port ∈ portSet ports ↔ port ∈ ports := by
  induction ports with
  | nil => rfl
  | cons p ports ih =>
    rw [portSet, List.foldr_cons, mem_insertPort, List.mem_cons]
    exact or_congr_right ih

theorem ascending_portSet (ports : List Nat) : (portSet ports).Pairwise (· < ·) := by
  induction ports with
  | nil => exact List.Pairwise.nil
  | cons p ports ih => exact ascending_insertPort ih

end MulticastNode

namespace Multicast

/-! ## Operations -/

/-- The operations on the multicast engine. -/
inductive Operation where
  | createGroup (group : Nat)
  | destroyGroup (group : Nat)
  | createNode (rid : Nat) (ports : List Nat)
  | updateNode (handle : Nat) (ports : List Nat)
  | destroyNode (handle : Nat)
  | associate (group handle : Nat)
  | dissociate (group handle : Nat)
  deriving DecidableEq

/-- Carries out an operation, and answers the handle of what it made. -/
def Operation.run : Operation → MulticastM (Option Nat)
  | .createGroup group => (fun _ => none) <$> Multicast.createGroup group
  | .destroyGroup group => (fun _ => none) <$> Multicast.destroyGroup group
  | .createNode rid ports => some <$> Multicast.createNode rid ports
  | .updateNode handle ports => (fun _ => none) <$> Multicast.updateNode handle ports
  | .destroyNode handle => (fun _ => none) <$> Multicast.destroyNode handle
  | .associate group handle => (fun _ => none) <$> Multicast.associate group handle
  | .dissociate group handle => (fun _ => none) <$> Multicast.dissociate group handle

variable {m after : Multicast} {group other handle node rid : Nat} {ports : List Nat} {u : Unit}
  {op : Operation} {answer : Option Nat} {log : List (Operation × Option Nat)}

/-- The engine with other members of a group. -/
def withMembers (m : Multicast) (group : Nat) (members : List Nat) : Multicast :=
  { m with groups := m.groups.map fun g => if g.1 = group then (group, members) else g }

/-- What an operation does where it succeeds, and what it answers. -/
inductive Operation.Does (m : Multicast) : Operation → Option Nat → Multicast → Prop where
  | createGroup {group : Nat} (fresh : m.members? group = none) :
      Does m (.createGroup group) none { m with groups := (group, []) :: m.groups }
  | destroyGroup {group : Nat} :
      Does m (.destroyGroup group) none { m with groups := m.groups.filter (·.1 != group) }
  | createNode {rid : Nat} {ports : List Nat} :
      Does m (.createNode rid ports) (some m.nextNode) { m with
        nodes := (m.nextNode, ⟨rid, MulticastNode.portSet ports⟩) :: m.nodes
        nextNode := m.nextNode + 1 }
  | updateNode {handle : Nat} {ports : List Nat} {old : MulticastNode}
      (there : m.node? handle = some old) :
      Does m (.updateNode handle ports) none { m with
        nodes := m.nodes.map fun n =>
          if n.1 = handle then (handle, { old with ports := MulticastNode.portSet ports }) else n }
  | destroyNode {handle : Nat} :
      Does m (.destroyNode handle) none { m with
        groups := m.groups.map fun g => (g.1, g.2.filter (· != handle))
        nodes := m.nodes.filter (·.1 != handle) }
  | associate {group handle : Nat} {members : List Nat}
      (there : (m.node? handle).isSome = true) (known : m.members? group = some members)
      (new : handle ∉ members) :
      Does m (.associate group handle) none (m.withMembers group (members ++ [handle]))
  | dissociate {group handle : Nat} {members : List Nat} (known : m.members? group = some members) :
      Does m (.dissociate group handle) none
        (m.withMembers group (members.filter (· != handle)))

theorem createGroup_eq_ok (done : createGroup group m = .ok u after) :
    m.members? group = none ∧ after = { m with groups := (group, []) :: m.groups } := by
  have made := get_bind_eq_ok.mp done
  split at made
  case isTrue => cases made
  case isFalse fresh => exact ⟨by simpa using fresh, (modify_eq_ok.mp made).symm⟩

/-- An operation that succeeds does what it is to do. -/
theorem does_of_run (done : op.run m = .ok answer after) : op.Does m answer after := by
  cases op with
  | createGroup group =>
    obtain ⟨_, made, rfl⟩ := state_map_eq_ok.mp done
    obtain ⟨fresh, rfl⟩ := createGroup_eq_ok made
    exact .createGroup fresh
  | destroyGroup group =>
    obtain ⟨_, made, rfl⟩ := state_map_eq_ok.mp done
    have rest := get_bind_eq_ok.mp made
    have checked := modify_bind_eq_ok.mp rest
    split at checked
    case isTrue => cases checked
    case isFalse =>
      obtain ⟨-, rfl⟩ := state_pure_eq_ok.mp checked
      exact .destroyGroup
  | createNode rid ports =>
    obtain ⟨_, made, rfl⟩ := state_map_eq_ok.mp done
    cases made
    exact .createNode
  | updateNode handle ports =>
    obtain ⟨_, made, rfl⟩ := state_map_eq_ok.mp done
    obtain ⟨old, there, changed⟩ := (looksUp_requireNode handle).bind_eq_ok.mp made
    obtain rfl := modify_eq_ok.mp changed
    exact .updateNode there
  | destroyNode handle =>
    obtain ⟨_, made, rfl⟩ := state_map_eq_ok.mp done
    have rest := get_bind_eq_ok.mp made
    have purged := modify_bind_eq_ok.mp rest
    split at purged
    case isTrue => cases purged
    case isFalse =>
      obtain rfl := modify_eq_ok.mp purged
      exact .destroyNode
  | associate group handle =>
    obtain ⟨_, made, rfl⟩ := state_map_eq_ok.mp done
    obtain ⟨node, there, rest⟩ := (looksUp_requireNode handle).bind_eq_ok.mp made
    obtain ⟨members, known, put⟩ := (looksUp_requireGroup group).bind_eq_ok.mp rest
    split at put
    case isTrue => cases put
    case isFalse new =>
      obtain rfl := modify_eq_ok.mp put
      exact .associate (Option.isSome_of_eq_some there) known new
  | dissociate group handle =>
    obtain ⟨_, made, rfl⟩ := state_map_eq_ok.mp done
    obtain ⟨members, known, rest⟩ := (looksUp_requireGroup group).bind_eq_ok.mp made
    have checked := modify_bind_eq_ok.mp rest
    split at checked
    case isTrue => cases checked
    case isFalse =>
      obtain ⟨-, rfl⟩ := state_pure_eq_ok.mp checked
      exact .dissociate known

/-! ## The members of a group -/

/-- The members of a group; an unknown group has none. -/
def membersOf (m : Multicast) (group : Nat) : List Nat := (m.members? group).getD []

/-- Does the operation end the association of the node with the group? -/
def Operation.ends (group handle : Nat) : Operation → Bool
  | .destroyGroup destroyed => decide (destroyed = group)
  | .destroyNode destroyed => decide (destroyed = handle)
  | .dissociate left leaving => decide (left = group ∧ leaving = handle)
  | _ => false

/-- The node that the operation associates with the group. -/
def Operation.joins? (group : Nat) : Operation → Option Nat
  | .associate joined handle => if joined = group then some handle else none
  | _ => none

/-- Does none of the later operations end the association of the node with the group? -/
def lasts (group : Nat) (later : List (Operation × Option Nat)) (handle : Nat) : Bool :=
  later.all fun e => !e.1.ends group handle

/-- The nodes whose association with the group lasts, in the order in which the associations were made. -/
def associations (group : Nat) : List (Operation × Option Nat) → List Nat
  | [] => []
  | (op, _) :: later =>
    (op.joins? group).toList.filter (lasts group later) ++ associations group later

/-- One more operation ends associations and makes one. -/
theorem associations_concat (group : Nat) (log : List (Operation × Option Nat)) (op : Operation)
    (answer : Option Nat) :
    associations group (log ++ [(op, answer)]) =
      (associations group log).filter (fun handle => !op.ends group handle) ++
        (op.joins? group).toList := by
  induction log with
  | nil => simp [associations, lasts]
  | cons first log ih =>
    obtain ⟨early, _⟩ := first
    have split : lasts group (log ++ [(op, answer)]) =
        fun handle => !op.ends group handle && lasts group log handle := by
      funext handle
      simp [lasts, Bool.and_comm]
    rw [List.cons_append, associations, ih, associations, List.filter_append, List.append_assoc,
      List.filter_filter, split]

theorem members?_withMembers (m : Multicast) (group other : Nat) (members : List Nat) :
    (m.withMembers group members).members? other =
      if other = group then (m.members? group).map fun _ => members else m.members? other :=
  lookup_map_put _ _ _ _

/-- What an operation does to the members of a group: some leave, and one may join behind the others. -/
theorem membersOf_does (does : op.Does m answer after) (other : Nat) :
    after.membersOf other = (m.membersOf other).filter (fun handle => !op.ends other handle) ++
      (op.joins? other).toList := by
  unfold membersOf
  cases does with
  | createGroup fresh =>
    rw [members?, lookup_pair_cons]
    split
    case isTrue same => simp [same, fresh, Operation.joins?]
    case isFalse => simp [members?, Operation.ends, Operation.joins?]
  | destroyGroup =>
    rw [members?, lookup_filter_ne]
    split
    case isTrue same => simp [same, Operation.ends, Operation.joins?]
    case isFalse different => simp [members?, Ne.symm different, Operation.ends, Operation.joins?]
  | createNode => simp [members?, Operation.ends, Operation.joins?]
  | updateNode _ => simp [members?, Operation.ends, Operation.joins?]
  | @destroyNode handle =>
    have purge : (· != handle) = fun other => !decide (handle = other) := by
      funext other
      rw [bne_comm, bne, beq_eq_decide]
    rw [members?, lookup_map_values, purge, members?]
    cases m.groups.lookup other with
    | none => rfl
    | some members => exact (List.append_nil _).symm
  | associate _ known _ =>
    rw [members?_withMembers]
    split
    case isTrue same => simp [same, known, Operation.ends, Operation.joins?]
    case isFalse different => simp [Ne.symm different, Operation.ends, Operation.joins?]
  | dissociate known =>
    rw [members?_withMembers]
    split
    case isTrue same => simp [same, known, Operation.ends, Operation.joins?, bne, beq_eq_decide, eq_comm]
    case isFalse different => simp [Ne.symm different, Operation.ends, Operation.joins?]

/-- An operation associates only a node that is there and that is no member yet. -/
theorem joins_does (does : op.Does m answer after) (joins : op.joins? group = some handle) :
    (m.node? handle).isSome = true ∧ handle ∉ m.membersOf group := by
  cases does with
  | associate there known apart =>
    rw [Operation.joins?] at joins
    split at joins
    case isTrue same =>
      obtain rfl := Option.some.inj joins
      rw [membersOf, ← same, known]
      exact ⟨there, apart⟩
    case isFalse => cases joins
  | _ => cases joins

/-! ## Nodes -/

/-- What an operation does to the nodes. -/
theorem node?_does (does : op.Does m answer after) (handle : Nat) :
    after.node? handle = match op with
      | .createNode rid ports =>
        if handle = m.nextNode then some ⟨rid, MulticastNode.portSet ports⟩ else m.node? handle
      | .updateNode updated ports =>
        if handle = updated then
          (m.node? updated).map fun old => { old with ports := MulticastNode.portSet ports }
        else m.node? handle
      | .destroyNode destroyed => if handle = destroyed then none else m.node? handle
      | _ => m.node? handle := by
  cases does with
  | createNode => exact lookup_pair_cons _ _ _ _
  | @updateNode updated ports old there =>
    dsimp only
    rw [there]
    have put := lookup_map_put m.nodes updated handle
      { old with ports := MulticastNode.portSet ports }
    rwa [show m.nodes.lookup updated = some old from there] at put
  | destroyNode => exact lookup_filter_ne _ _ _
  | _ => rfl

/-- A node is there until it is destroyed. -/
theorem isSome_node?_does (does : op.Does m answer after)
    (there : (m.node? handle).isSome = true) (stays : op ≠ .destroyNode handle) :
    (after.node? handle).isSome = true := by
  rw [node?_does does]
  cases op with
  | createNode rid ports =>
    dsimp only
    split
    · rfl
    · exact there
  | updateNode updated ports =>
    dsimp only
    split
    case isTrue same =>
      rw [Option.isSome_map, ← same]
      exact there
    case isFalse => exact there
  | destroyNode destroyed =>
    have different : handle ≠ destroyed := by
      rintro rfl
      exact stays rfl
    dsimp only
    rw [if_neg different]
    exact there
  | _ => exact there

/-- The ports that an operation with its answer gives to the node. -/
def Operation.gives? (handle : Nat) : Operation × Option Nat → Option (List Nat)
  | (.createNode _ ports, answer) => if answer = some handle then some ports else none
  | (.updateNode updated ports, _) => if updated = handle then some ports else none
  | _ => none

/-- The node has been created under the handle with its replication number, and its ports, ascending,
are those that were given to it last. -/
structure Described (log : List (Operation × Option Nat)) (handle : Nat) (node : MulticastNode) :
    Prop where
  created : ∃ ports, (.createNode node.rid ports, some handle) ∈ log
  ascending : node.ports.Pairwise (· < ·)
  current : ∃ given, (log.filterMap (Operation.gives? handle)).getLast? = some given ∧
    ∀ port, port ∈ node.ports ↔ port ∈ given

namespace Described

variable {described : MulticastNode}

/-- An operation that gives no ports to the node leaves it as it is. -/
theorem keep (before : Described log handle described)
    (nothing : Operation.gives? handle (op, answer) = none) :
    Described (log ++ [(op, answer)]) handle described := by
  obtain ⟨⟨ports, created⟩, ascending, given, last, current⟩ := before
  refine ⟨⟨ports, List.mem_append_left _ created⟩, ascending, given, ?_, current⟩
  rw [List.filterMap_append, List.filterMap_cons_none nothing, List.filterMap_nil, List.append_nil]
  exact last

/-- An operation that gives ports to the node. -/
theorem give (created : ∃ ports, (.createNode rid ports, some handle) ∈ log ++ [(op, answer)])
    (given : Operation.gives? handle (op, answer) = some ports) :
    Described (log ++ [(op, answer)]) handle ⟨rid, MulticastNode.portSet ports⟩ := by
  refine ⟨created, MulticastNode.ascending_portSet ports, ports, ?_, fun _ =>
    MulticastNode.mem_portSet⟩
  rw [List.filterMap_append, List.filterMap_cons_some given, List.filterMap_nil,
    List.getLast?_append, List.getLast?_singleton, Option.some_or]

end Described

/-- The handle of a new node is the next one; no other operation gives out a handle. -/
theorem answer_does (does : op.Does m answer after) :
    answer = some m.nextNode ∧ after.nextNode = m.nextNode + 1 ∨
      answer = none ∧ after.nextNode = m.nextNode := by
  cases does with
  | createNode => exact .inl ⟨rfl, rfl⟩
  | _ => exact .inr ⟨rfl, rfl⟩

/-- What the log of an engine says about it. -/
structure Recorded (log : List (Operation × Option Nat)) (m : Multicast) : Prop where
  members : ∀ group, m.membersOf group = associations group log
  present : ∀ group, ∀ handle ∈ m.membersOf group, (m.node? handle).isSome = true
  distinct : ∀ group, (m.membersOf group).Nodup
  handles : log.filterMap (·.2) = List.range m.nextNode
  nodes : ∀ handle node, m.node? handle = some node → Described log handle node

namespace Recorded

variable {described : MulticastNode}

theorem empty : Recorded [] Multicast.empty :=
  ⟨fun _ => rfl, fun _ _ absurd => (by cases absurd), fun _ => List.nodup_nil, rfl,
    fun _ _ absurd => (by cases absurd)⟩

/-- The members that stay are distinct, and one that joins was none of them. -/
theorem distinct_does (recorded : Recorded log m) (does : op.Does m answer after) (group : Nat) :
    (after.membersOf group).Nodup := by
  rw [membersOf_does does]
  refine List.nodup_append.mpr ⟨(recorded.distinct group).filter _, ?_, ?_⟩
  · cases op.joins? group <;> simp
  · intro member stays joined joins same
    have new := (joins_does does (Option.mem_toList.mp joins)).2
    rw [← same] at new
    exact new (List.mem_of_mem_filter stays)

/-- A destroyed node is no member any more, so that the members that stay are there. -/
theorem present_does (recorded : Recorded log m) (does : op.Does m answer after) (group : Nat) :
    ∀ handle ∈ after.membersOf group, (after.node? handle).isSome = true := by
  intro handle member
  rw [membersOf_does does] at member
  rcases List.mem_append.mp member with stays | joins
  · obtain ⟨before, lasting⟩ := List.mem_filter.mp stays
    refine isSome_node?_does does (recorded.present group handle before) ?_
    rintro rfl
    simp [Operation.ends] at lasting
  · have joins := Option.mem_toList.mp joins
    refine isSome_node?_does does (joins_does does joins).1 ?_
    rintro rfl
    cases joins

/-- An operation leaves a node as it is, or gives it the ports that the log says. -/
theorem nodes_does (recorded : Recorded log m) (does : op.Does m answer after)
    (there : after.node? handle = some described) :
    Described (log ++ [(op, answer)]) handle described := by
  rw [node?_does does] at there
  cases does with
  | @createNode rid ports =>
    dsimp only at there
    split at there
    case isTrue same =>
      obtain rfl := Option.some.inj there
      subst same
      exact .give ⟨ports, by simp⟩ (if_pos rfl)
    case isFalse different =>
      refine (recorded.nodes handle described there).keep (if_neg fun same => different ?_)
      exact (Option.some.inj same).symm
  | @updateNode updated ports _ _ =>
    dsimp only at there
    split at there
    case isTrue same =>
      subst same
      obtain ⟨old, before, rfl⟩ := Option.map_eq_some_iff.mp there
      obtain ⟨first, created⟩ := (recorded.nodes handle old before).created
      exact .give ⟨first, List.mem_append_left _ created⟩ (if_pos rfl)
    case isFalse different =>
      exact (recorded.nodes handle described there).keep (if_neg (Ne.symm different))
  | destroyNode =>
    dsimp only at there
    split at there
    case isTrue => cases there
    case isFalse => exact (recorded.nodes handle described there).keep rfl
  | _ => exact (recorded.nodes handle described there).keep rfl

/-- What the log says stays true with one more operation. -/
theorem does (recorded : Recorded log m) (does : op.Does m answer after) :
    Recorded (log ++ [(op, answer)]) after := by
  refine ⟨fun group => ?_, recorded.present_does does, recorded.distinct_does does, ?_,
    fun _ _ => recorded.nodes_does does⟩
  · rw [membersOf_does does, recorded.members, associations_concat]
  · rw [List.filterMap_append, recorded.handles]
    rcases answer_does does with ⟨rfl, next⟩ | ⟨rfl, next⟩
    · rw [next, List.range_succ]
      rfl
    · rw [next]
      exact List.append_nil _

end Recorded

/-! ## What operations lead to -/

theorem groupsDistinct_run (op : Operation) : Keeps GroupsDistinct op.run := by
  cases op with
  | createGroup => exact keeps_createGroup.map _
  | destroyGroup => exact keeps_destroyGroup.map _
  | createNode => exact keeps_createNode.map _
  | updateNode => exact keeps_updateNode.map _
  | destroyNode => exact keeps_destroyNode.map _
  | associate => exact keeps_associate.map _
  | dissociate => exact keeps_dissociate.map _

theorem run_atomic (distinct : m.GroupsDistinct) (op : Operation) : AtomicAt op.run m := by
  cases op with
  | createGroup => exact (createGroup_atomic m).map _
  | destroyGroup => exact (destroyGroup_atomic m).map _
  | createNode => exact (createNode_atomic m).map _
  | updateNode => exact (updateNode_atomic m).map _
  | destroyNode => exact (destroyNode_atomic m).map _
  | associate => exact (associate_atomic m).map _
  | dissociate => exact (dissociate_atomic distinct).map _

/-- Whatever was done to an engine, its log tells the truth: what failed left no trace. -/
theorem recorded_of_history (history : History Operation.run Multicast.empty log m) :
    m.GroupsDistinct ∧ Recorded log m := by
  induction history with
  | start => exact ⟨List.nodup_nil, .empty⟩
  | done _ op done ih => exact ⟨groupsDistinct_run op ih.1 done, ih.2.does (does_of_run done)⟩
  | failed _ op failed ih =>
    obtain rfl := run_atomic ih.1 op failed
    exact ih

/-- Present members have nodes. -/
theorem exists_nodes (members : List Nat)
    (present : ∀ handle ∈ members, (m.node? handle).isSome = true) :
    ∃ nodes, List.Forall₂ (fun handle node => m.node? handle = some node) members nodes := by
  induction members with
  | nil => exact ⟨[], .nil⟩
  | cons handle members ih =>
    obtain ⟨there, others⟩ := List.forall_mem_cons.mp present
    obtain ⟨node, found⟩ := Option.isSome_iff_exists.mp there
    obtain ⟨nodes, founds⟩ := ih others
    exact ⟨node :: nodes, .cons found founds⟩

/-- The copies of a group are those of its nodes. -/
theorem replicate_eq {nodes : List MulticastNode}
    (founds : List.Forall₂ (fun handle node => m.node? handle = some node) (m.membersOf group) nodes) :
    m.replicate group = nodes.flatMap (·.replicas) := by
  rw [replicate, ← membersOf]
  generalize m.membersOf group = members at founds
  induction founds with
  | nil => rfl
  | cons found _ ih =>
    rw [List.flatMap_cons, List.flatMap_cons, ih, found, Option.map_some, Option.getD_some]

/-- The members of a group are different nodes that are there, and handles of nodes are given out once.
The copies of a group come node by node, in the order in which the associations that last were made, to
the current ports of the node in ascending order. An unknown group makes no copies, and neither does one
that was just created. -/
theorem replicate_in_order (history : History Operation.run Multicast.empty log m) :
    (∀ group members, m.members? group = some members → members = associations group log ∧
      members.Nodup ∧ ∀ handle ∈ members, (m.node? handle).isSome = true) ∧
    log.filterMap (·.2) = List.range m.nextNode ∧
    (∀ group, ∃ nodes,
      List.Forall₂ (fun handle node => m.node? handle = some node ∧ Described log handle node)
        (associations group log) nodes ∧
      m.replicate group = nodes.flatMap fun node => node.ports.map fun port => ⟨port, node.rid⟩) ∧
    (∀ group, m.members? group = none → m.replicate group = []) ∧
    ∀ group after, createGroup group m = .ok () after → after.replicate group = [] := by
  obtain ⟨-, recorded⟩ := recorded_of_history history
  refine ⟨fun group members known => ?_, recorded.handles, fun group => ?_, fun group unknown => ?_,
    fun group after made => ?_⟩
  · have same : m.membersOf group = members := by rw [membersOf, known, Option.getD_some]
    rw [← same]
    exact ⟨recorded.members group, recorded.distinct group, recorded.present group⟩
  · obtain ⟨nodes, founds⟩ := exists_nodes (m.membersOf group) (recorded.present group)
    refine ⟨nodes, ?_, replicate_eq founds⟩
    rw [← recorded.members]
    exact founds.imp fun handle node found => ⟨found, recorded.nodes handle node found⟩
  · rw [replicate, unknown, Option.getD_none, List.flatMap_nil]
  · obtain ⟨-, rfl⟩ := createGroup_eq_ok made
    rw [replicate, members?, List.lookup_cons_self, Option.getD_some, List.flatMap_nil]

/-- The first node leaves the first group and joins it again, behind the second one, and is given other
ports; an operation in between fails. The second group is destroyed and made again. -/
theorem replicate_in_order_rejoined :
    ∃ log m, History Operation.run Multicast.empty log m ∧ associations 1 log = [1, 0] ∧
      (∃ nodes,
        List.Forall₂ (fun handle node => m.node? handle = some node ∧ Described log handle node)
          [1, 0] nodes ∧
        m.replicate 1 = nodes.flatMap fun node => node.ports.map fun port => ⟨port, node.rid⟩) ∧
      m.replicate 1 = [⟨1, 20⟩, ⟨4, 20⟩, ⟨2, 10⟩, ⟨9, 10⟩] ∧ m.replicate 2 = [] := by
  have begun : History Operation.run Multicast.empty [] Multicast.empty := .start
  have groups := (begun.done (.createGroup 1) rfl).done (.createGroup 2) rfl
  have nodes := (groups.done (.createNode 10 [5]) rfl).done (.createNode 20 [4, 1]) rfl
  have joined := (nodes.done (.associate 1 0) rfl).done (.associate 1 1) rfl
  have again := (joined.failed (.associate 1 0) rfl).done (.dissociate 1 0) rfl
  have last := (again.done (.associate 1 0) rfl).done (.updateNode 0 [9, 2, 9]) rfl
  have second := (last.done (.associate 2 1) rfl).done (.destroyGroup 2) rfl
  have made := second.done (.createGroup 2) rfl
  refine ⟨_, _, made, rfl, ?_, by decide, by decide⟩
  exact (replicate_in_order made).2.2.1 1

end Multicast

end Switchyard
