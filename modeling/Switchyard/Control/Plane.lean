import Switchyard.Control.Command
import Switchyard.Control.Multicast

/-!
# The control plane

The state that commands change while packets flow: the tables and the multicast engine. A command
that fails stops with the state it has reached; a batch stops at its first failing line, and the
lines before it stay in force.
-/

namespace Switchyard

/-- The tables and the multicast engine of a running program. -/
structure ControlPlane where
  tables : TableStore
  multicast : Multicast
  deriving DecidableEq, Inhabited

/-- Operations on the control plane. -/
abbrev ControlM := EStateM Error ControlPlane

namespace ControlPlane

/-- An operation on the tables alone. -/
def onTables {α : Type} (op : TableM α) : ControlM α := fun plane =>
  match op plane.tables with
  | .ok a tables => .ok a { plane with tables := tables }
  | .error e tables => .error e { plane with tables := tables }

/-- An operation on the multicast engine alone. -/
def onMulticast {α : Type} (op : MulticastM α) : ControlM α := fun plane =>
  match op plane.multicast with
  | .ok a multicast => .ok a { plane with multicast := multicast }
  | .error e multicast => .error e { plane with multicast := multicast }

/-- Carries out a command, and answers the handle of what it made. -/
def run : Command → ControlM (Option Nat)
  | .tableAdd table action keys args => some <$> onTables (TableStore.add table action keys args)
  | .tableDelete table handle => silently (onTables (TableStore.delete table handle))
  | .tableModify table action handle args =>
    silently (onTables (TableStore.modifyEntry table handle action args))
  | .tableSetDefault table action args =>
    silently (onTables (TableStore.setDefault table action args))
  | .tableClear table => silently (onTables (TableStore.clear table))
  | .groupCreate group => silently (onMulticast (Multicast.createGroup group))
  | .groupDestroy group => silently (onMulticast (Multicast.destroyGroup group))
  | .nodeCreate rid ports => some <$> onMulticast (Multicast.createNode rid ports)
  | .nodeUpdate handle ports => silently (onMulticast (Multicast.updateNode handle ports))
  | .nodeDestroy handle => silently (onMulticast (Multicast.destroyNode handle))
  | .nodeAssociate group handle => silently (onMulticast (Multicast.associate group handle))
  | .nodeDissociate group handle => silently (onMulticast (Multicast.dissociate group handle))
where
  /-- An operation that makes nothing. -/
  silently (op : ControlM Unit) : ControlM (Option Nat) := do
    op
    return none

/-- Reads a command and carries it out. -/
def runLine (line : String) : ControlM (Option Nat) := do
  let command ← MonadExcept.ofExcept (Command.ofLine line)
  run command

/-- Carries out the commands of a batch, line by line. -/
def runBatch (batch : String) : ControlM (List (Option Nat)) := (commandLines batch).mapM runLine

end ControlPlane

end Switchyard
