import Switchyard.Proofs.Control.Readback
import Switchyard.Proofs.Star.Script

/-!
# The plane of a star

What the commands of a star leave behind.
-/

namespace Switchyard

open Text Sequencing

namespace ControlPlane

/-- Lines that all succeed lead from one plane to another. -/
def Leads (lines : List String) (plane after : ControlPlane) : Prop :=
  ∃ answers, lines.mapM runLine plane = .ok answers after

variable {line : String} {lines rest : List String} {plane middle after : ControlPlane}

theorem leads_nil : Leads [] plane after ↔ plane = after := by
  constructor
  · rintro ⟨answers, done⟩
    rw [List.mapM_nil] at done
    exact (state_pure_eq_ok.mp done).2
  · rintro rfl
    exact ⟨[], rfl⟩

theorem leads_cons : Leads (line :: lines) plane after ↔
    ∃ answer middle, runLine line plane = .ok answer middle ∧ Leads lines middle after := by
  constructor
  · rintro ⟨answers, done⟩
    rw [List.mapM_cons] at done
    obtain ⟨answer, middle, first, done⟩ := state_bind_eq_ok.mp done
    obtain ⟨others, last, later, done⟩ := state_bind_eq_ok.mp done
    obtain ⟨rfl, rfl⟩ := state_pure_eq_ok.mp done
    exact ⟨answer, middle, first, others, later⟩
  · rintro ⟨answer, middle, first, others, later⟩
    refine ⟨answer :: others, ?_⟩
    rw [List.mapM_cons, state_bind_of_ok first, state_bind_of_ok later]
    rfl

theorem leads_append : Leads (lines ++ rest) plane after ↔
    ∃ middle, Leads lines plane middle ∧ Leads rest middle after := by
  induction lines generalizing plane with
  | nil => simp [leads_nil]
  | cons line lines ih =>
    simp only [List.cons_append, leads_cons, ih]
    constructor
    · rintro ⟨answer, next, first, middle, others, later⟩
      exact ⟨middle, ⟨answer, next, first, others⟩, later⟩
    · rintro ⟨middle, ⟨answer, next, first, others⟩, later⟩
      exact ⟨answer, next, first, middle, others, later⟩

/-- Each of the lines succeeds somewhere. -/
theorem Leads.exists_run (leads : Leads lines plane after) (member : line ∈ lines) :
    ∃ before answer next, runLine line before = .ok answer next := by
  induction lines generalizing plane with
  | nil => cases member
  | cons first lines ih =>
    obtain ⟨answer, next, done, others⟩ := leads_cons.mp leads
    rcases List.mem_cons.mp member with rfl | member
    · exact ⟨plane, answer, next, done⟩
    · exact ih others member

end ControlPlane

namespace Star

open ControlPlane

/-! ## The plane -/

/-- The addresses of a family in a list, as numbers, with the ports that they are sent to. -/
def routes (isV4 : Bool) (ips : List IpAddr) : List (Nat × Nat) :=
  ips.zipIdx.filterMap fun (ip, i) => if ip.isV4 = isV4 then some (ip.number, i + 1) else none

/-- The entries for routes, each for one address. -/
def routeEntries (bits : Nat) (routes : List (Nat × Nat)) : List TableEntry :=
  (routes.zipIdx.map fun (route, handle) =>
    ⟨handle, [.lpm route.1 bits], ⟨"forward", [route.2]⟩⟩).reverse

/-- The entry for group addresses. -/
def groupEntry (handle address length : Nat) : TableEntry :=
  ⟨handle, [.lpm address length], ⟨"multicast", [group]⟩⟩

/-- A table of address prefixes with entries that were added one after another. -/
def prefixTable (name : String) (field : FieldId) (bits : Nat) (entries : List TableEntry) : Table :=
  { BasicSwitch.emptyPrefixTable name field bits with
    entries := entries, nextHandle := entries.length }

/-- The tables of the basic switch with entries for addresses. -/
def tables (v4 v6 : List TableEntry) : TableStore :=
  ⟨[prefixTable "ipv4_lpm" 27 32 v4, prefixTable "ipv6_lpm" 35 128 v6,
    ⟨"rid_filter", [⟨10, 16, .exact⟩], ["drop"], [], 0, none⟩]⟩

/-- The nodes of the first hosts, each with the port of the host, newest first. -/
def nodes (count : Nat) : List (Nat × MulticastNode) :=
  (List.range count).reverse.map fun i => (i, ⟨i + 1, [i + 1]⟩)

/-- The plane of a star. -/
def plane (ips : List IpAddr) : ControlPlane :=
  let v4 := routeEntries 32 (routes true ips)
  let v6 := routeEntries 128 (routes false ips)
  ⟨tables (groupEntry v4.length 0x0a00ff00 24 :: v4)
      (groupEntry v6.length (0xff0e * 2 ^ 112) 16 :: v6),
    ⟨[(group, List.range ips.length)], nodes ips.length, ips.length⟩⟩

/-! ## Carrying out the commands -/

section Run

variable (v4 v6 : List TableEntry) (m : Multicast)

theorem run_forward_v4 (n port : Nat) :
    run (.tableAdd "ipv4_lpm" "forward" [.lpm n 32] [port]) ⟨tables v4 v6, m⟩ =
      .ok (some v4.length)
        ⟨tables (⟨v4.length, [.lpm n 32], ⟨"forward", [port]⟩⟩ :: v4) v6, m⟩ := rfl

theorem run_forward_v6 (n port : Nat) :
    run (.tableAdd "ipv6_lpm" "forward" [.lpm n 128] [port]) ⟨tables v4 v6, m⟩ =
      .ok (some v6.length)
        ⟨tables v4 (⟨v6.length, [.lpm n 128], ⟨"forward", [port]⟩⟩ :: v6), m⟩ := rfl

theorem run_multicast_v4 :
    run (.tableAdd "ipv4_lpm" "multicast" [.lpm 0x0a00ff00 24] [group]) ⟨tables v4 v6, m⟩ =
      .ok (some v4.length) ⟨tables (groupEntry v4.length 0x0a00ff00 24 :: v4) v6, m⟩ := rfl

theorem run_multicast_v6 :
    run (.tableAdd "ipv6_lpm" "multicast" [.lpm (0xff0e * 2 ^ 112) 16] [group]) ⟨tables v4 v6, m⟩ =
      .ok (some v6.length)
        ⟨tables v4 (groupEntry v6.length (0xff0e * 2 ^ 112) 16 :: v6), m⟩ := rfl

end Run

theorem routes_concat (isV4 : Bool) (ips : List IpAddr) (ip : IpAddr) :
    routes isV4 (ips ++ [ip]) =
      routes isV4 ips ++ if ip.isV4 = isV4 then [(ip.number, ips.length + 1)] else [] := by
  rw [routes, List.zipIdx_append, List.filterMap_append]
  by_cases family : ip.isV4 = isV4 <;> simp [routes, family]

theorem routeEntries_concat (bits : Nat) (routes : List (Nat × Nat)) (n port : Nat) :
    routeEntries bits (routes ++ [(n, port)]) =
      ⟨routes.length, [.lpm n bits], ⟨"forward", [port]⟩⟩ :: routeEntries bits routes := by
  simp [routeEntries, List.zipIdx_append]

@[simp] theorem length_routeEntries (bits : Nat) (routes : List (Nat × Nat)) :
    (routeEntries bits routes).length = routes.length := by
  simp [routeEntries]

/-- The tables when the first addresses have their entries. -/
def routing (ips : List IpAddr) : TableStore :=
  tables (routeEntries 32 (routes true ips)) (routeEntries 128 (routes false ips))

theorem run_forward (ips : List IpAddr) (ip : IpAddr) (m : Multicast) :
    ∃ answer, run (.tableAdd (tableName ip) "forward" [.lpm ip.number (addressBits ip)]
        [ips.length + 1]) ⟨routing ips, m⟩ =
      .ok answer ⟨routing (ips ++ [ip]), m⟩ := by
  unfold routing
  rw [routes_concat, routes_concat]
  cases ip with
  | v4 a =>
    refine ⟨some (routeEntries 32 (routes true ips)).length, ?_⟩
    simp only [IpAddr.isV4, if_true, reduceCtorEq, if_false, List.append_nil, routeEntries_concat,
      ← length_routeEntries 32]
    exact run_forward_v4 _ _ m _ _
  | v6 a =>
    refine ⟨some (routeEntries 128 (routes false ips)).length, ?_⟩
    simp only [IpAddr.isV4, if_true, reduceCtorEq, if_false, List.append_nil, routeEntries_concat,
      ← length_routeEntries 128]
    exact run_forward_v6 _ _ m _ _

variable {ips : List IpAddr}

/-- The addresses get their entries one after another. -/
theorem leads_forward (front rest : List IpAddr) (m : Multicast)
    (narrow : front.length + rest.length < UInt16.size) :
    Leads ((rest.zipIdx front.length).map fun (ip, i) => commandRow (forwardWords ip (i + 1)))
      ⟨routing front, m⟩ ⟨routing (front ++ rest), m⟩ := by
  induction rest generalizing front with
  | nil =>
    rw [List.append_nil]
    exact leads_nil.mpr rfl
  | cons ip rest ih =>
    rw [List.length_cons] at narrow
    have room : front.length + 1 < valueBound := by
      have wide : UInt16.size ≤ valueBound := by decide
      omega
    have key := ip.spells.written_prefixWord (addressBits_lt ip)
    have port := operand_toString room (Nat.le_refl _)
    have written : Command.Written (Numeral.Spells 10) (forwardWords ip (front.length + 1))
        (.tableAdd (tableName ip) "forward" [.lpm ip.number (addressBits ip)] [front.length + 1]) :=
      .tableAdd (isWord_tableName ip) (isWord_of_all (w := "forward") (by decide)) (.cons key .nil)
        (.cons port .nil)
    obtain ⟨answer, done⟩ := run_forward front ip m
    have others := ih (front ++ [ip]) (by rw [List.length_append, List.length_singleton]; omega)
    rw [List.length_append, List.length_singleton, List.append_assoc, List.singleton_append] at others
    rw [List.zipIdx_cons, List.map_cons, leads_cons]
    exact ⟨answer, _, runLine_of_written written done, others⟩

theorem nodes_succ (count : Nat) :
    nodes (count + 1) = (count, ⟨count + 1, [count + 1]⟩) :: nodes count := by
  simp [nodes, List.range_succ]

theorem lookup_nodes {count i : Nat} (below : i < count) :
    (nodes count).lookup i = some ⟨i + 1, [i + 1]⟩ := by
  induction count with
  | zero => exact absurd below (Nat.not_lt_zero i)
  | succ count ih =>
    rw [nodes_succ, lookup_pair_cons]
    split
    case isTrue last => rw [last]
    case isFalse => exact ih (by omega)

/-- Nodes are made one after another. -/
theorem leads_nodes (store : TableStore) (groups : List (Nat × List Nat)) {count : Nat}
    (narrow : count < UInt16.size) :
    Leads ((List.range count).map fun i => commandRow (nodeWords i)) ⟨store, groups, [], 0⟩
      ⟨store, groups, nodes count, count⟩ := by
  induction count with
  | zero => exact leads_nil.mpr rfl
  | succ count ih =>
    have word : count + 1 < UInt32.size := Nat.lt_trans narrow (by decide)
    have written : Command.Written (Numeral.Spells 10) (nodeWords count)
        (.nodeCreate (count + 1) [count + 1]) :=
      .nodeCreate (operand_toString narrow (by decide)) (.cons (operand_toString word (by decide)) .nil)
    have done : run (.nodeCreate (count + 1) [count + 1]) ⟨store, groups, nodes count, count⟩ =
        .ok (some count) ⟨store, groups, nodes (count + 1), count + 1⟩ := by
      rw [nodes_succ]
      rfl
    rw [List.range_succ, List.map_append]
    refine leads_append.mpr ⟨_, ih (Nat.lt_of_succ_lt narrow), ?_⟩
    exact leads_cons.mpr ⟨_, _, runLine_of_written written done, leads_nil.mpr rfl⟩

theorem associate_next (members : List Nat) {count i : Nat} (below : i < count) (new : i ∉ members) :
    Multicast.associate group i ⟨[(group, members)], nodes count, count⟩ =
      .ok () ⟨[(group, members ++ [i])], nodes count, count⟩ := by
  have node : Multicast.requireNode i ⟨[(group, members)], nodes count, count⟩ =
      .ok ⟨i + 1, [i + 1]⟩ ⟨[(group, members)], nodes count, count⟩ :=
    (Multicast.looksUp_requireNode i).eq_ok.mpr ⟨lookup_nodes below, rfl⟩
  have found : Multicast.requireGroup group ⟨[(group, members)], nodes count, count⟩ =
      .ok members ⟨[(group, members)], nodes count, count⟩ := rfl
  unfold Multicast.associate
  rw [state_bind_of_ok node, state_bind_of_ok found, if_neg new]
  rfl

/-- They join the group one after another. -/
theorem leads_members (store : TableStore) {count size : Nat} (inside : size ≤ count)
    (narrow : count < UInt16.size) :
    Leads ((List.range size).map fun i => commandRow (memberWords i))
      ⟨store, [(group, [])], nodes count, count⟩
      ⟨store, [(group, List.range size)], nodes count, count⟩ := by
  induction size with
  | zero => exact leads_nil.mpr rfl
  | succ size ih =>
    have word : size < UInt32.size := by
      have wide : UInt16.size ≤ UInt32.size := by decide
      omega
    have written : Command.Written (Numeral.Spells 10) (memberWords size) (.nodeAssociate group size) :=
      .nodeAssociate (operand_toString (by decide) (by decide)) (operand_toString word (by decide))
    have done : run (.nodeAssociate group size) ⟨store, [(group, List.range size)], nodes count, count⟩ =
        .ok none ⟨store, [(group, List.range (size + 1))], nodes count, count⟩ := by
      have joined := associate_next (List.range size) inside (by simp)
      rw [← List.range_succ] at joined
      show (onMulticast (Multicast.associate group size) >>= fun _ => pure none) _ = _
      rw [state_bind_of_ok ((lifts_onMulticast _).ok joined)]
      rfl
    rw [List.range_succ, List.map_append]
    refine leads_append.mpr ⟨_, ih (Nat.le_of_succ_le inside), ?_⟩
    rw [← List.range_succ]
    exact leads_cons.mpr ⟨_, _, runLine_of_written written done, leads_nil.mpr rfl⟩

/-- The commands of a star lead to its plane. -/
theorem leads_rows (narrow : ips.length < UInt16.size) :
    Leads ((rows ips).map commandRow) ⟨BasicSwitch.program.tables, Multicast.empty⟩ (plane ips) := by
  have v4 : Command.ofWords (multicastWords "ipv4_lpm" groupPrefixV4) =
      .ok (.tableAdd "ipv4_lpm" "multicast" [.lpm 0x0a00ff00 24] [group]) := by
    decide +kernel
  have v6 : Command.ofWords (multicastWords "ipv6_lpm" groupPrefixV6) =
      .ok (.tableAdd "ipv6_lpm" "multicast" [.lpm (0xff0e * 2 ^ 112) 16] [group]) := by
    decide +kernel
  have v4Line := isLine_multicastWords (isWord_of_all (w := "ipv4_lpm") (by decide))
    (isWord_of_all (w := groupPrefixV4) (by decide))
  have v6Line := isLine_multicastWords (isWord_of_all (w := "ipv6_lpm") (by decide))
    (isWord_of_all (w := groupPrefixV6) (by decide))
  have created : Command.Written (Numeral.Spells 10) groupWords (.groupCreate group) :=
    .groupCreate (operand_toString (by decide) (by decide))
  have forward := leads_forward [] ips Multicast.empty
    (by rw [List.length_nil, Nat.zero_add]; exact narrow)
  have grouped : Leads [commandRow groupWords] ⟨routing ips, Multicast.empty⟩
      ⟨routing ips, [(group, [])], [], 0⟩ :=
    leads_cons.mpr ⟨_, _, runLine_of_written created rfl, leads_nil.mpr rfl⟩
  have made := leads_nodes (routing ips) [(group, [])] narrow
  have joined := leads_members (routing ips) (Nat.le_refl ips.length) narrow
  have last : Leads [commandRow (multicastWords "ipv4_lpm" groupPrefixV4),
      commandRow (multicastWords "ipv6_lpm" groupPrefixV6)]
        ⟨routing ips, [(group, List.range ips.length)], nodes ips.length, ips.length⟩ (plane ips) :=
    leads_cons.mpr ⟨_, _, runLine_of_words v4Line.areWords v4 (run_multicast_v4 _ _ _),
      leads_cons.mpr ⟨_, _, runLine_of_words v6Line.areWords v6 (run_multicast_v6 _ _ _),
        leads_nil.mpr rfl⟩⟩
  simp only [rows, List.map_append, List.map_map, List.map_cons, List.map_nil, Function.comp_def]
  exact leads_append.mpr ⟨_, leads_append.mpr ⟨_, leads_append.mpr ⟨_, leads_append.mpr ⟨_, forward,
    grouped⟩, made⟩, joined⟩, last⟩

/-- They fail if there are too many of them for the replication numbers. -/
theorem narrow_of_leads {before after : ControlPlane}
    (leads : Leads ((rows ips).map commandRow) before after) : ips.length < UInt16.size := by
  rw [← Nat.not_le]
  intro many
  have last : 65535 < ips.length := many
  have member : nodeWords 65535 ∈ rows ips := by
    simp only [rows, List.mem_append, List.mem_map, List.mem_range]
    exact Or.inl (Or.inl (Or.inr ⟨65535, last, rfl⟩))
  obtain ⟨plane, answer, next, done⟩ := leads.exists_run (List.mem_map_of_mem member)
  obtain ⟨command, middle, read, -⟩ := state_bind_eq_ok.mp done
  have refused : Command.ofWords (nodeWords 65535) = .error .ridTooWide := by decide +kernel
  rw [Command.ofLine_commandRow (isLine_nodeWords 65535).areWords, refused] at read
  cases (ofExcept_eq_ok.mp read).1

section Batch

variable {pipeline loaded : Pipeline} {answers : List (Option Nat)}
  (fresh : pipeline.plane = ⟨BasicSwitch.program.tables, Multicast.empty⟩)

include fresh

/-- A fresh basic switch takes the commands of a star, if there are not too many. -/
theorem exists_runBatch (narrow : ips.length < UInt16.size) :
    ∃ answers, Pipeline.runBatch (commands ips) pipeline =
      .ok answers { pipeline with plane := plane ips } := by
  obtain ⟨answers, led⟩ := leads_rows narrow
  refine ⟨answers, ?_⟩
  unfold Pipeline.runBatch Pipeline.onPlane runBatch
  rw [commandLines_commands, fresh]
  simp only [led]

/-- If there are too many, it fails. -/
theorem runBatch_commands (loads : Pipeline.runBatch (commands ips) pipeline = .ok answers loaded) :
    ips.length < UInt16.size ∧ loaded = { pipeline with plane := plane ips } := by
  have narrow : ips.length < UInt16.size := by
    unfold Pipeline.runBatch Pipeline.onPlane runBatch at loads
    rw [commandLines_commands] at loads
    cases ran : ((rows ips).map commandRow).mapM runLine pipeline.plane with
    | error e after =>
      simp only [ran] at loads
      cases loads
    | ok outputs after => exact narrow_of_leads ⟨outputs, ran⟩
  obtain ⟨expected, done⟩ := exists_runBatch fresh narrow
  rw [done] at loads
  cases loads
  exact ⟨narrow, rfl⟩

end Batch

end Star

end Switchyard
