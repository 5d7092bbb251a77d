import Switchyard.Error

/-!
# The multicast engine

A multicast group lists nodes, and a node sends copies to a set of ports under one replication
number. The copies of a group come node by node in the order in which the nodes joined it, and in
ascending port order within a node. Node handles are never given out twice.
-/

namespace Switchyard

/-- A copy to make of a packet: the port it leaves by and its replication number. -/
structure Replica where
  egressPort : Nat
  rid : Nat
  deriving DecidableEq, Inhabited

/-- A multicast node: a replication number and its ports, strictly ascending. -/
structure MulticastNode where
  rid : Nat
  ports : List Nat
  deriving DecidableEq, Inhabited

namespace MulticastNode

/-- A port in its place among ascending ports; a port that is there already is not repeated. -/
def insertPort (port : Nat) : List Nat → List Nat
  | [] => [port]
  | p :: ports =>
    if port < p then port :: p :: ports
    else if port = p then p :: ports
    else p :: insertPort port ports

/-- The set of the given ports. -/
def portSet (ports : List Nat) : List Nat := ports.foldr insertPort []

/-- The copies that a node makes. -/
def replicas (node : MulticastNode) : List Replica := node.ports.map fun port => ⟨port, node.rid⟩

end MulticastNode

/-- The groups with their members, oldest member first, and the nodes by handle. -/
structure Multicast where
  groups : List (Nat × List Nat)
  nodes : List (Nat × MulticastNode)
  nextNode : Nat
  deriving DecidableEq, Inhabited

/-- Operations on the multicast engine. -/
abbrev MulticastM := EStateM Error Multicast

namespace Multicast

def empty : Multicast := ⟨[], [], 0⟩

/-- The members of a group. -/
def members? (m : Multicast) (group : Nat) : Option (List Nat) := m.groups.lookup group

def node? (m : Multicast) (handle : Nat) : Option MulticastNode := m.nodes.lookup handle

/-- The copies that a group makes; an unknown group makes none. -/
def replicate (m : Multicast) (group : Nat) : List Replica :=
  ((m.members? group).getD []).flatMap fun handle =>
    ((m.node? handle).map (·.replicas)).getD []

/-- The members of a group that must exist. -/
def requireGroup (group : Nat) : MulticastM (List Nat) := do
  match (← get).members? group with
  | some members => return members
  | none => throw (.unknownGroup group)

/-- The node of a handle that must exist. -/
def requireNode (handle : Nat) : MulticastM MulticastNode := do
  match (← get).node? handle with
  | some node => return node
  | none => throw (.unknownNode handle)

/-- Replaces the members of a group. -/
def putMembers (group : Nat) (members : List Nat) : MulticastM Unit :=
  modify fun m =>
    { m with groups := m.groups.map fun g => if g.1 = group then (group, members) else g }

/-- Makes an empty group. -/
def createGroup (group : Nat) : MulticastM Unit := do
  if ((← get).members? group).isSome then throw (.duplicateGroup group)
  else modify fun m => { m with groups := (group, []) :: m.groups }

/-- Removes a group. -/
def destroyGroup (group : Nat) : MulticastM Unit := do
  let removed := (← get).members? group
  modify fun m => { m with groups := m.groups.filter (·.1 != group) }
  if removed.isNone then throw (.unknownGroup group)

/-- Makes a node and answers its handle. -/
def createNode (rid : Nat) (ports : List Nat) : MulticastM Nat := do
  let handle := (← get).nextNode
  let node : MulticastNode := ⟨rid, MulticastNode.portSet ports⟩
  modify fun m => { m with nodes := (handle, node) :: m.nodes, nextNode := handle + 1 }
  return handle

/-- Gives a node other ports. -/
def updateNode (handle : Nat) (ports : List Nat) : MulticastM Unit := do
  let node ← requireNode handle
  let changed : MulticastNode := { node with ports := MulticastNode.portSet ports }
  modify fun m =>
    { m with nodes := m.nodes.map fun n => if n.1 = handle then (handle, changed) else n }

/-- Removes a node, and then from all groups too. -/
def destroyNode (handle : Nat) : MulticastM Unit := do
  let removed := (← get).node? handle
  modify fun m => { m with nodes := m.nodes.filter (·.1 != handle) }
  if removed.isNone then throw (.unknownNode handle)
  modify fun m => { m with groups := m.groups.map fun g => (g.1, g.2.filter (· != handle)) }

/-- Lets a node join a group, as its last member. -/
def associate (group handle : Nat) : MulticastM Unit := do
  let _ ← requireNode handle
  let members ← requireGroup group
  if handle ∈ members then throw (.alreadyAssociated group handle)
  else putMembers group (members ++ [handle])

/-- Lets a node leave a group. It was no member if as many members are left as there were. -/
def dissociate (group handle : Nat) : MulticastM Unit := do
  let members ← requireGroup group
  let rest := members.filter (· != handle)
  putMembers group rest
  if rest.length = members.length then throw (.notAssociated group handle)

end Multicast

end Switchyard
