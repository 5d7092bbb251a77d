import Switchyard.Proofs.BasicSwitch.Program
import Switchyard.Proofs.Control.Spelling
import Switchyard.Proofs.Control.Atomicity
import Switchyard.Star

/-!
# The script of a star

The commands of a star, read word by word and carried out one after another on the plane that the program
of the basic switch starts with. They all succeed as long as the replication numbers have 16 bits, and
leave one entry for every host, the entries for the group addresses, and one group of all hosts.
-/

namespace Switchyard

open Text Sequencing

/-- The number of an address. -/
def IpAddr.number : IpAddr → Nat
  | v4 a => a.toNat
  | v6 a => a.toNat

/-- Every address is a value, its number. -/
theorem IpAddr.spells (ip : IpAddr) : ip.Spells ip.number := by
  cases ip with
  | v4 a => exact spells_v4 a
  | v6 a => exact spells_v6 a

namespace Star

/-- The table for addresses of the family, and the length of these. -/
def tableName : IpAddr → String
  | .v4 _ => "ipv4_lpm"
  | .v6 _ => "ipv6_lpm"

def addressBits : IpAddr → Nat
  | .v4 _ => 32
  | .v6 _ => 128

theorem addressBits_lt (ip : IpAddr) : addressBits ip < UInt16.size := by
  cases ip with
  | v4 a => exact show 32 < UInt16.size by decide
  | v6 a => exact show 128 < UInt16.size by decide

/-! ## The words of the commands -/

def forwardWords (ip : IpAddr) (port : Nat) : List String :=
  ["table_add", tableName ip, "forward", prefixWord ip (addressBits ip), Command.arrow, toString port]

def groupWords : List String := ["mc_mgrp_create", toString group]

def nodeWords (i : Nat) : List String := ["mc_node_create", toString (i + 1), toString (i + 1)]

def memberWords (i : Nat) : List String := ["mc_node_associate", toString group, toString i]

def multicastWords (table addresses : String) : List String :=
  ["table_add", table, "multicast", addresses, Command.arrow, toString group]

/-- The commands of a star, word by word. -/
def rows (ips : List IpAddr) : List (List String) :=
  let numbers := List.range ips.length
  (ips.zipIdx.map fun (ip, i) => forwardWords ip (i + 1)) ++ [groupWords] ++ numbers.map nodeWords ++
    numbers.map memberWords ++
      [multicastWords "ipv4_lpm" groupPrefixV4, multicastWords "ipv6_lpm" groupPrefixV6]

section Words

theorem commandRow_cons (w v : String) (ws : List String) :
    commandRow (w :: v :: ws) = w ++ (" " ++ commandRow (v :: ws)) := by
  simp [commandRow, String.append_assoc]

theorem commandRow_singleton (w : String) : commandRow [w] = w := by simp [commandRow]

theorem forwardCommand_eq (ip : IpAddr) (port : Nat) :
    forwardCommand ip port = commandRow (forwardWords ip port) := by
  have word (length : Nat) : prefixWord ip length = toString ip ++ ("/" ++ toString length) := by
    show toString ip ++ "/" ++ toString length = _
    rw [String.append_assoc]
  rw [forwardWords]
  simp only [commandRow_cons, commandRow_singleton, word]
  cases ip with
  | v4 a =>
    have front : "table_add ipv4_lpm forward " =
        "table_add" ++ (" " ++ ("ipv4_lpm" ++ (" " ++ ("forward" ++ " ")))) := by
      decide
    have behind : "/32 => " = "/" ++ (toString 32 ++ (" " ++ (Command.arrow ++ " "))) := by decide
    show "table_add ipv4_lpm forward " ++ toString a ++ "/32 => " ++ toString port = _
    rw [front, behind]
    simp only [String.append_assoc]
    rfl
  | v6 a =>
    have front : "table_add ipv6_lpm forward " =
        "table_add" ++ (" " ++ ("ipv6_lpm" ++ (" " ++ ("forward" ++ " ")))) := by
      decide
    have behind : "/128 => " = "/" ++ (toString 128 ++ (" " ++ (Command.arrow ++ " "))) := by decide
    show "table_add ipv6_lpm forward " ++ toString a ++ "/128 => " ++ toString port = _
    rw [front, behind]
    simp only [String.append_assoc]
    rfl

theorem commandList_eq (ips : List IpAddr) : commandList ips = (rows ips).map commandRow := by
  have node (i : Nat) : s!"mc_node_create {i + 1} {i + 1}" = commandRow (nodeWords i) := rfl
  have member (i : Nat) : s!"mc_node_associate {group} {i}" = commandRow (memberWords i) := rfl
  have created : s!"mc_mgrp_create {group}" = commandRow groupWords := rfl
  have v4 : s!"table_add ipv4_lpm multicast {groupPrefixV4} => {group}" =
      commandRow (multicastWords "ipv4_lpm" groupPrefixV4) := by
    decide
  have v6 : s!"table_add ipv6_lpm multicast {groupPrefixV6} => {group}" =
      commandRow (multicastWords "ipv6_lpm" groupPrefixV6) := by
    decide
  rw [commandList, rows]
  simp only [List.map_append, List.map_map, List.map_cons, List.map_nil, created, node, member, v4, v6,
    forwardCommand_eq]
  rfl

theorem isWord_tableName (ip : IpAddr) : IsWord (tableName ip).toList := by
  cases ip with
  | v4 a => exact isWord_of_all (w := "ipv4_lpm") (by decide)
  | v6 a => exact isWord_of_all (w := "ipv6_lpm") (by decide)

/-- The words of one command, the first of which is a verb. -/
structure IsLine (ws : List String) : Prop where
  areWords : ∀ w ∈ ws, IsWord w.toList
  verb : ∃ w ∈ ws.head?, w.toList.head? ≠ some '#'

theorem isLine_forwardWords (ip : IpAddr) (port : Nat) : IsLine (forwardWords ip port) := by
  have key := (ip.spells.written_prefixWord (addressBits_lt ip)).isWord
  have table := isWord_tableName ip
  refine ⟨?_, ⟨_, rfl, by decide⟩⟩
  simp only [forwardWords, List.forall_mem_cons]
  exact ⟨isWord_of_all (by decide), table, isWord_of_all (by decide), key, isWord_of_all (by decide),
    isWord_toString_nat port, List.forall_mem_nil _⟩

theorem isLine_multicastWords {table addresses : String} (tableWord : IsWord table.toList)
    (addressesWord : IsWord addresses.toList) : IsLine (multicastWords table addresses) := by
  refine ⟨?_, ⟨_, rfl, by decide⟩⟩
  simp only [multicastWords, List.forall_mem_cons]
  exact ⟨isWord_of_all (by decide), tableWord, isWord_of_all (by decide), addressesWord,
    isWord_of_all (by decide), isWord_toString_nat group, List.forall_mem_nil _⟩

theorem isLine_groupWords : IsLine groupWords := by
  refine ⟨?_, ⟨_, rfl, by decide⟩⟩
  simp only [groupWords, List.forall_mem_cons]
  exact ⟨isWord_of_all (by decide), isWord_toString_nat _, List.forall_mem_nil _⟩

theorem isLine_nodeWords (i : Nat) : IsLine (nodeWords i) := by
  refine ⟨?_, ⟨_, rfl, by decide⟩⟩
  simp only [nodeWords, List.forall_mem_cons]
  exact ⟨isWord_of_all (by decide), isWord_toString_nat _, isWord_toString_nat _,
    List.forall_mem_nil _⟩

theorem isLine_memberWords (i : Nat) : IsLine (memberWords i) := by
  refine ⟨?_, ⟨_, rfl, by decide⟩⟩
  simp only [memberWords, List.forall_mem_cons]
  exact ⟨isWord_of_all (by decide), isWord_toString_nat _, isWord_toString_nat _,
    List.forall_mem_nil _⟩

theorem isLine_of_mem_rows (ips : List IpAddr) : ∀ ws ∈ rows ips, IsLine ws := by
  simp only [rows, List.forall_mem_append, List.forall_mem_cons, List.forall_mem_map]
  refine ⟨⟨⟨⟨?_, isLine_groupWords, List.forall_mem_nil _⟩, fun i _ => isLine_nodeWords i⟩,
    fun i _ => isLine_memberWords i⟩, ?_, ?_, List.forall_mem_nil _⟩
  · exact fun entry _ => isLine_forwardWords entry.1 (entry.2 + 1)
  · exact isLine_multicastWords (isWord_of_all (by decide)) (isWord_of_all (by decide))
  · exact isLine_multicastWords (isWord_of_all (by decide)) (isWord_of_all (by decide))

/-- The command lines of a star are its commands. -/
theorem commandLines_commands (ips : List IpAddr) :
    commandLines (commands ips) = (rows ips).map commandRow := by
  have lines := isLine_of_mem_rows ips
  rw [commands, commandList_eq, List.map_map]
  exact commandLines_join (fun ws member => (lines ws member).areWords)
    fun ws member => (lines ws member).verb

end Words

end Star

end Switchyard
