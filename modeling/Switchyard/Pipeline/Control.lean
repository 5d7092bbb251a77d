import Switchyard.Control.Table
import Switchyard.Packet

/-!
# Controls

A control is the part of a stage that a program writes: it looks packets up in the tables and
changes their fields. What it has to say beside that goes into reports, which decide nothing.
-/

namespace Switchyard

/-- The values that a packet has for the keys of a table. -/
def Table.keyValues (t : Table) (pkt : Packet) : List Nat := t.keys.map fun key => pkt.get key.field

/-- The call that the named table answers with for a packet. -/
def TableStore.lookupPacket (s : TableStore) (name : String) (pkt : Packet) : Option ActionCall :=
  (s.table? name).bind fun t => t.lookup (t.keyValues pkt)

/-- The two stages that run a control. -/
inductive Stage where
  | ingress
  | egress
  deriving DecidableEq, Inhabited

/-- What a control tells: the answer of a table, the values of some fields and the state of the
packet they belong to, or why it ended early. -/
inductive Report where
  | lookup (call : Option ActionCall)
  | fields (stage : Stage) (copyId : Nat) (exited : Bool) (values : List (Option Nat))
  | failure (error : Error)
  deriving DecidableEq

/-- A control. -/
abbrev Control := TableStore → Packet → Packet × List Report

/-- The controls of the two stages. -/
structure Controls where
  ingress : Control
  egress : Control

namespace Control

/-- The control that a packet transformer makes. -/
def silent (change : TableStore → Packet → Packet) : Control :=
  fun tables pkt => (change tables pkt, [])

/-- The control that leaves packets as they are. -/
def skip : Control := silent fun _ pkt => pkt

end Control

/-- The controls of a switch that decides nothing. -/
def Controls.skip : Controls := ⟨Control.skip, Control.skip⟩

end Switchyard
