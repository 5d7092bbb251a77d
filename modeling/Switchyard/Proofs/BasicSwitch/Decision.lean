import Switchyard.Proofs.BasicSwitch.Rewriting
import Switchyard.Proofs.Control.Tables

/-!
# What the basic switch decides

Ingress carries out the call that the tables have for the destination of a packet, and refuses what has a
bad checksum or no such call. Egress lets a copy leave unless it is withheld, as multicast copies can be,
or its packet has no hop left. `ports_forwarded` puts both together for any drop port; that what is
refused or withheld really goes missing depends on the drop port being the one the controls know.
-/

namespace Switchyard

namespace BasicSwitch

open Packet Pipeline Sequencing

/-! ## The terms of a decision -/

/-- The call that the tables have for the destination of the bytes: for IPv4 that of the one table, for
IPv6 that of the other, and else none. -/
def Routed (tables : TableStore) (b : Bytes) (call : Option ActionCall) : Prop :=
  (HoldsIpv4 b ∧ tables.Decides layout "ipv4_lpm" [BigEndian.read b 30 4] call) ∨
    (HoldsIpv6 b ∧ tables.Decides layout "ipv6_lpm" [BigEndian.read b 38 16] call) ∨
      ¬HoldsIpv4 b ∧ ¬HoldsIpv6 b ∧ call = none

/-- The bytes hold an IPv4 header whose checksum is not what it should be. -/
def BadChecksum (b : Bytes) : Prop := HoldsIpv4 b ∧ storedChecksum b ≠ computedChecksum b

instance (b : Bytes) : Decidable (BadChecksum b) := inferInstanceAs (Decidable (_ ∧ _))

/-- No hop is left after this one: the time to live or the hop limit is zero or one. -/
def Exhausted (b : Bytes) : Prop :=
  HoldsIpv4 b ∧ BigEndian.read b 22 1 ≤ 1 ∨ HoldsIpv6 b ∧ BigEndian.read b 21 1 ≤ 1

instance (b : Bytes) : Decidable (Exhausted b) := inferInstanceAs (Decidable (_ ∨ _))

/-- Is a multicast copy not to leave: because it would go back by the port of the frame, as far as port
fields hold it, or because the filter has a call for its replication number? -/
def withheld (tables : TableStore) (port : Nat) (r : Replica) : Bool :=
  r.egressPort % 512 == port % 512 ||
    (tables.lookup "rid_filter" [r.rid % UInt16.size]).isSome

/-! ## Lookups -/

section Lookups

variable {plane : ControlPlane} {name : String} {key : TableKey} {actions : List String}

/-- A table with one key compares one field of a packet. -/
theorem lookupPacket_eq (reached : ControlPlane.Reachable program plane)
    (declared : program.tables.schemas.find? (·.1 == name) = some (name, [key], actions))
    (pkt : Packet) :
    plane.tables.lookupPacket name pkt = plane.tables.lookup name [pkt.get key.field] := by
  obtain ⟨t, found, keys, -⟩ :=
    TableStore.table?_of_schemas (reached.schemas load_description) declared
  rw [TableStore.lookupPacket, TableStore.lookup, found, Option.bind_some, Option.bind_some,
    Table.keyValues, keys]
  rfl

theorem decides_iff (reached : ControlPlane.Reachable program plane)
    (declared : program.tables.schemas.find? (·.1 == name) = some (name, [key], actions))
    {value : Nat} {call : Option ActionCall} :
    plane.tables.Decides layout name [value] call ↔ call = plane.tables.lookup name [value] := by
  obtain ⟨t, found, keys, -⟩ :=
    TableStore.table?_of_schemas (reached.schemas load_description) declared
  exact TableStore.decides_iff (reached.allSound load_description) found (by rw [keys]; rfl)

/-- The switch looks up what `Routed` speaks of. -/
theorem route_eq (reached : ControlPlane.Reachable program plane) {pkt : Packet} {b : Bytes}
    (represents : Represents pkt b) {call : Option ActionCall} (routed : Routed plane.tables b call) :
    positions.route plane.tables pkt = call := by
  show (if pkt.isValid ipv4Header = true then plane.tables.lookupPacket "ipv4_lpm" pkt
    else if pkt.isValid ipv6Header = true then plane.tables.lookupPacket "ipv6_lpm" pkt
    else none) = call
  simp only [represents.isValid_ipv4, represents.isValid_ipv6]
  rcases routed with ⟨ipv4, decides⟩ | ⟨ipv6, decides⟩ | ⟨noIpv4, noIpv6, rfl⟩
  · rw [if_pos ipv4, lookupPacket_eq reached rfl, represents.get_ipv4Destination ipv4]
    exact ((decides_iff reached rfl).mp decides).symm
  · rw [if_neg fun ipv4 => not_holdsIpv6_of_holdsIpv4 ipv4 ipv6, if_pos ipv6,
      lookupPacket_eq reached rfl, represents.get_ipv6Destination ipv6]
    exact ((decides_iff reached rfl).mp decides).symm
  · rw [if_neg noIpv4, if_neg noIpv6]

/-- The tables have one call for every frame. -/
theorem exists_routed (reached : ControlPlane.Reachable program plane) (b : Bytes) :
    ∃ call, Routed plane.tables b call := by
  by_cases ipv4 : HoldsIpv4 b
  · exact ⟨_, Or.inl ⟨ipv4, (decides_iff reached rfl).mpr rfl⟩⟩
  · by_cases ipv6 : HoldsIpv6 b
    · exact ⟨_, Or.inr (Or.inl ⟨ipv6, (decides_iff reached rfl).mpr rfl⟩)⟩
    · exact ⟨none, Or.inr (Or.inr ⟨ipv4, ipv6, rfl⟩)⟩

end Lookups

/-! ## Ingress -/

section Ingress

variable {p : Pipeline} {frame : Frame} {call : Option ActionCall} (id port : Nat) (now : Time)

/-- Whatever the call is, carrying it out changes metadata only. -/
theorem apply_represents {pkt : Packet} {b : Bytes} (represents : Represents pkt b)
    (call : Option ActionCall) :
    Represents (positions.apply call pkt) b ∧ (positions.apply call pkt).get 0 = pkt.get 0 := by
  unfold apply drop
  repeat' split
  all_goals exact ⟨represents.set_metadata (by decide), get_set_ne (by decide)⟩

/-- Ingress carries out a call: that of the tables, unless the checksum is bad. -/
theorem ingress_apply {plane : ControlPlane} (reached : ControlPlane.Reachable program plane)
    {pkt : Packet} {b : Bytes} (represents : Represents pkt b)
    (verdict : pkt.get 6 ≠ 0 ↔ BadChecksum b) (routed : Routed plane.tables b call) :
    positions.ingress plane.tables pkt =
      positions.apply (if BadChecksum b then none else call) pkt := by
  unfold ingress
  rw [route_eq reached represents routed]
  by_cases bad : BadChecksum b
  · rw [if_pos bad]
    exact if_pos (verdict.mpr bad)
  · rw [if_neg bad]
    exact if_neg (mt verdict.mp bad)

theorem afterIngress_apply (installed : Installed p) (controls : p.controls = positions.controls)
    (reached : ControlPlane.Reachable program p.plane)
    (routed : Routed p.plane.tables frame.toBytes call) :
    p.afterIngress id frame port now =
      { positions.apply (if BadChecksum frame.toBytes then none else call)
          (shown id port now frame.toBytes) with exited := false } := by
  rw [afterIngress_eq id port now installed, controls, controls_ingress,
    ingress_apply reached (shown_represents id port now frame.toBytes)
      (shown_checksumError id port now frame.toBytes) routed]

variable (installed : Installed p) (controls : p.controls = positions.controls)
  (reached : ControlPlane.Reachable program p.plane)
  (routed : Routed p.plane.tables frame.toBytes call)

include installed controls reached routed

theorem afterIngress_represents :
    Represents (p.afterIngress id frame port now) frame.toBytes ∧
      (p.afterIngress id frame port now).get 0 = port % 512 := by
  have shows := shown_represents id port now frame.toBytes
  obtain ⟨represents, same⟩ :=
    apply_represents shows (if BadChecksum frame.toBytes then none else call)
  rw [afterIngress_apply id port now installed controls reached routed]
  refine ⟨represents.resume, ?_⟩
  rw [get_exited, same, shown_ingressPort]

/-- A packet is refused by storing the number that the controls take for the drop port. -/
theorem afterIngress_refused
    (refused : BadChecksum frame.toBytes ∨
      ∀ c ∈ call, c.action ≠ "forward" ∧ c.action ≠ "multicast") :
    (p.afterIngress id frame port now).get 9 = 0 ∧
      (p.afterIngress id frame port now).get 1 = 511 := by
  have represents := shown_represents id port now frame.toBytes
  have dropped : positions.apply (if BadChecksum frame.toBytes then none else call)
      (shown id port now frame.toBytes) = positions.drop (shown id port now frame.toBytes) := by
    by_cases bad : BadChecksum frame.toBytes
    · rw [if_pos bad]
      rfl
    · rw [if_neg bad]
      cases call with
      | none => rfl
      | some c =>
        obtain ⟨noForward, noMulticast⟩ := refused.resolve_left bad c rfl
        simp only [apply, noForward, noMulticast, if_false]
  rw [afterIngress_apply id port now installed controls reached routed, dropped, get_exited _ false 9,
    get_exited _ false 1]
  exact ⟨(get_set_ne (by decide)).trans (shown_group id port now frame.toBytes), get_drop represents⟩

theorem afterIngress_forward (intact : ¬BadChecksum frame.toBytes) {c : ActionCall}
    (answer : call = some c) (forward : c.action = "forward") :
    (p.afterIngress id frame port now).get 9 = 0 ∧
      (p.afterIngress id frame port now).get 1 = c.arg 0 % 512 := by
  have represents := shown_represents id port now frame.toBytes
  have stored : positions.apply (if BadChecksum frame.toBytes then none else call)
      (shown id port now frame.toBytes) = (shown id port now frame.toBytes).set 1 (c.arg 0) := by
    rw [if_neg intact, answer]
    exact if_pos forward
  have width : layout.width 1 = 9 := by decide
  rw [afterIngress_apply id port now installed controls reached routed, stored, get_exited _ false 9,
    get_exited _ false 1, represents.get_stored (by decide), width]
  exact ⟨(get_set_ne (by decide)).trans (shown_group id port now frame.toBytes), rfl⟩

theorem afterIngress_multicast (intact : ¬BadChecksum frame.toBytes) {c : ActionCall}
    (answer : call = some c) (multicast : c.action = "multicast") :
    (p.afterIngress id frame port now).get 9 = c.arg 0 % UInt16.size := by
  have represents := shown_represents id port now frame.toBytes
  have other : ¬c.action = "forward" := by
    rw [multicast]
    decide
  have stored : positions.apply (if BadChecksum frame.toBytes then none else call)
      (shown id port now frame.toBytes) = (shown id port now frame.toBytes).set 9 (c.arg 0) := by
    rw [if_neg intact, answer]
    exact (if_neg other).trans (if_pos multicast)
  have width : layout.width 9 = 16 := by decide
  rw [afterIngress_apply id port now installed controls reached routed, stored, get_exited _ false 9,
    represents.get_stored (by decide), width]

end Ingress

/-! ## Egress -/

section Egress

variable {p : Pipeline} {P : Packet} {b : Bytes}

/-- The metadata of a copy, as its egress control reads it. -/
theorem get_egressMetadata (represents : Represents P b) (length : Nat) (now : Time)
    (kind : InstanceType) (rid : Option Nat) (copyPort : Nat) :
    let Q := P.assign (p.egressMetadata length now kind rid copyPort)
    Q.get 0 = P.get 0 ∧ Q.get 2 = copyPort % 512 ∧ Q.get 3 = kind.code % UInt32.size ∧
      ∀ n ∈ rid, Q.get 10 = n % UInt16.size := by
  have assigned {id value : Nat}
      (named : assigned? layout (p.egressMetadata length now kind rid copyPort) id = some value) :
      (P.assign (p.egressMetadata length now kind rid copyPort)).get id =
        value % Nat.pow 2 (layout.width id) := by
    have read := get_assign represents.wellFormed (by rw [represents.layout]; exact named)
    rw [read, represents.layout]
  refine ⟨?_, ?_, ?_, ?_⟩
  · apply get_assign_of_none
    rw [represents.layout]
    cases rid <;> rfl
  · exact assigned (by cases rid <;> rfl)
  · exact assigned (by cases rid <;> rfl)
  · rintro n rfl
    exact assigned rfl

/-- Only copies for members of a group are held back. -/
theorem isPruned_assign (reached : ControlPlane.Reachable program p.plane)
    (represents : Represents P b) (length : Nat) (now : Time) (r : Replica) :
    positions.isPruned p.plane.tables (P.assign (p.replicaMetadata length now r)) =
        (r.egressPort % 512 == P.get 0 ||
          (p.plane.tables.lookup "rid_filter" [r.rid % UInt16.size]).isSome) ∧
      ∀ copyPort, positions.isPruned p.plane.tables
        (P.assign (p.egressMetadata length now .normal none copyPort)) = false := by
  constructor
  · obtain ⟨cameBy, goes, kind, rid⟩ :=
      get_egressMetadata (p := p) represents length now .replication (some r.rid) r.egressPort
    show (Packet.get _ 3 == _ && (Packet.get _ 2 == Packet.get _ 0 || _)) = _
    rw [replicaMetadata, goes, cameBy, kind, lookupPacket_eq reached rfl, rid r.rid rfl]
    rfl
  · intro copyPort
    obtain ⟨-, -, kind, -⟩ := get_egressMetadata (p := p) represents length now .normal none copyPort
    show (Packet.get _ 3 == _ && _) = false
    rw [kind]
    rfl

/-- Taking a hop off stores a drop port only where none would be left. -/
theorem takeHop_spec {pkt : Packet} (represents : Represents pkt b) :
    (positions.takeHop pkt).get 1 = if Exhausted b then 511 else pkt.get 1 := by
  have taken {id : FieldId} (other : id ≠ 1) (last : pkt.get id ≤ 1 ↔ Exhausted b) :
      (if pkt.get id ≤ 1 then positions.drop pkt else pkt.set id (pkt.get id - 1)).get 1 =
        if Exhausted b then 511 else pkt.get 1 := by
    by_cases none : pkt.get id ≤ 1
    · rw [if_pos none, if_pos (last.mp none), get_drop represents]
    · rw [if_neg none, if_neg (mt last.mpr none), get_set_ne other]
  unfold takeHop
  rw [hopField?_eq represents]
  by_cases ipv4 : HoldsIpv4 b
  · have noIpv6 := not_holdsIpv6_of_holdsIpv4 ipv4
    rw [if_pos ipv4]
    apply taken (by decide)
    rw [represents.get_ttl ipv4]
    simp [Exhausted, ipv4, noIpv6]
  · rw [if_neg ipv4]
    by_cases ipv6 : HoldsIpv6 b
    · rw [if_pos ipv6]
      apply taken (by decide)
      rw [represents.get_hopLimit ipv6]
      simp [Exhausted, ipv4, ipv6]
    · rw [if_neg ipv6]
      simp [Exhausted, ipv4, ipv6]

/-- Egress stores the number that the controls take for the drop port in what it does not let pass, and
leaves `egress_spec` alone otherwise. -/
theorem egress_spec (tables : TableStore) {pkt : Packet} (represents : Represents pkt b) :
    (positions.egress tables pkt).get 1 =
      if positions.isPruned tables pkt = true ∨ Exhausted b then 511 else pkt.get 1 := by
  unfold egress
  by_cases pruned : positions.isPruned tables pkt = true
  · rw [if_pos pruned, if_pos (Or.inl pruned), get_drop represents]
  · rw [if_neg pruned, takeHop_spec represents]
    simp [pruned]

/-- A copy goes missing exactly if egress does not let it pass and the drop port is the one that the
controls know. -/
theorem evaluate_port (installed : Installed p) (controls : p.controls = positions.controls)
    (represents : Represents P b) (frame : Frame) (now : Time) (kind : InstanceType)
    (rid : Option Nat) (copyPort : Nat) :
    let metadata := p.egressMetadata frame.length now kind rid copyPort
    (p.evaluate frame P metadata copyPort).map (·.port) =
      if p.config.dropPort = 511 ∧
        (positions.isPruned p.plane.tables (P.assign metadata) = true ∨ Exhausted b) then none
      else some copyPort := by
  intro metadata
  have assigned : Represents (P.assign metadata) b :=
    assign_egressMetadata now represents frame.length copyPort kind rid
  have layout : P.layout = p.program.layout := by
    rw [represents.layout, installed.program]
    rfl
  have spec := egress_spec p.plane.tables assigned
  have arrives : (P.assign metadata).get 1 ≠ p.config.dropPort := by
    have other := egressSpec_assign installed.ready layout represents.wellFormed frame.length now kind
      rid copyPort
    rwa [installed.fields] at other
  unfold evaluate
  rw [installed.fields, controls, controls_egress]
  show Option.map _ (if (positions.egress p.plane.tables (P.assign metadata)).get 1 =
    p.config.dropPort then none else some _) = _
  rw [spec]
  by_cases stopped : positions.isPruned p.plane.tables (P.assign metadata) = true ∨ Exhausted b
  · rw [if_pos stopped]
    by_cases known : p.config.dropPort = 511
    · rw [if_pos known.symm, if_pos ⟨known, stopped⟩]
      rfl
    · rw [if_neg (Ne.symm known), if_neg fun both => known both.1]
      rfl
  · rw [if_neg stopped, if_neg arrives, if_neg fun both => stopped both.2]
    rfl

/-- What is left of a list where some elements give nothing. -/
theorem filterMap_unless {α β : Type} (c : α → Prop) [DecidablePred c] (f : α → β) (l : List α) :
    l.filterMap (fun x => if c x then none else some (f x)) =
      (l.filter fun x => !decide (c x)).map f := by
  rw [← List.filterMap_eq_map, List.filterMap_filter]
  apply List.filterMap_congr
  intro x _
  by_cases holds : c x <;> simp [holds]

/-- The ports by which a packet leaves after ingress. -/
theorem ports_forwarded (installed : Installed p) (controls : p.controls = positions.controls)
    (reached : ControlPlane.Reachable program p.plane) (represents : Represents P b) {port : Nat}
    (cameBy : P.get 0 = port % 512) (frame : Frame) (now : Time) :
    (p.forwarded frame now P).map (·.port) =
      if P.get 9 ≠ 0 then
        ((p.plane.multicast.replicate (P.get 9)).filter fun r =>
          !decide (p.config.dropPort = 511 ∧
            (withheld p.plane.tables port r = true ∨ Exhausted b))).map (·.egressPort)
      else if P.get 1 = p.config.dropPort ∨ p.config.dropPort = 511 ∧ Exhausted b then []
      else [P.get 1] := by
  have spec : fields.egressSpec = 1 := rfl
  unfold forwarded
  rw [represents.field?_group, installed.fields, spec]
  by_cases group : P.get 9 ≠ 0
  · have replica (r : Replica) :
        (p.evaluate frame P (p.replicaMetadata frame.length now r) r.egressPort).map (·.port) =
          if p.config.dropPort = 511 ∧
            (withheld p.plane.tables port r = true ∨ Exhausted b) then none
          else some r.egressPort := by
      have evaluated := evaluate_port installed controls represents frame now .replication
        (some r.rid) r.egressPort
      have pruned := (isPruned_assign reached represents frame.length now r).1
      rw [cameBy] at pruned
      rw [withheld, ← pruned]
      exact evaluated
    rw [if_pos group, if_pos group, List.map_filterMap, ← filterMap_unless]
    exact List.filterMap_congr fun r _ => replica r
  · have single := evaluate_port installed controls represents frame now .normal none (P.get 1)
    have pruned := (isPruned_assign reached represents frame.length now default).2 (P.get 1)
    simp only [pruned, Bool.false_eq_true, false_or] at single
    rw [if_neg group, if_neg group]
    by_cases dropped : P.get 1 = p.config.dropPort
    · rw [if_pos dropped, if_pos (Or.inl dropped)]
      rfl
    · rw [if_neg dropped, ← Option.toList_map, single]
      by_cases stopped : p.config.dropPort = 511 ∧ Exhausted b
      · rw [if_pos stopped, if_pos (Or.inr stopped)]
        rfl
      · rw [if_neg stopped, if_neg (not_or_intro dropped stopped)]
        rfl

end Egress

/-! ## The decision -/

/-- Dropping is neither forwarding nor multicasting. -/
theorem refused_of_drop {call : Option ActionCall} (dropped : ∀ c ∈ call, c.action = "drop") :
    ∀ c ∈ call, c.action ≠ "forward" ∧ c.action ≠ "multicast" := by
  intro c answer
  rw [dropped c answer]
  decide

section Ports

variable {p : Pipeline} {frame : Frame} {call : Option ActionCall} (id port : Nat) (now : Time)
  (installed : Installed p) (controls : p.controls = positions.controls)
  (reached : ControlPlane.Reachable program p.plane)
  (routed : Routed p.plane.tables frame.toBytes call)

include installed controls reached routed

/-- What ingress refuses goes to the number that the controls take for the drop port, if that is not the
drop port. -/
theorem ports_refused
    (refused : BadChecksum frame.toBytes ∨
      ∀ c ∈ call, c.action ≠ "forward" ∧ c.action ≠ "multicast") :
    (p.forwarded frame now (p.afterIngress id frame port now)).map (·.port) =
      if p.config.dropPort = 511 then [] else [511] := by
  obtain ⟨represents, cameBy⟩ := afterIngress_represents id port now installed controls reached
    routed
  obtain ⟨noGroup, spec⟩ := afterIngress_refused id port now installed controls reached routed
    refused
  rw [ports_forwarded installed controls reached represents cameBy, if_neg (not_not_intro noGroup), spec]
  by_cases known : p.config.dropPort = 511
  · rw [if_pos (Or.inl known.symm), if_pos known]
  · simp [known, Ne.symm known]

theorem ports_forward (intact : ¬BadChecksum frame.toBytes) {c : ActionCall} (answer : call = some c)
    (forward : c.action = "forward") :
    (p.forwarded frame now (p.afterIngress id frame port now)).map (·.port) =
      if c.arg 0 % 512 = p.config.dropPort ∨ p.config.dropPort = 511 ∧ Exhausted frame.toBytes then []
      else [c.arg 0 % 512] := by
  obtain ⟨represents, cameBy⟩ := afterIngress_represents id port now installed controls reached
    routed
  obtain ⟨noGroup, spec⟩ := afterIngress_forward id port now installed controls reached routed
    intact answer forward
  rw [ports_forwarded installed controls reached represents cameBy, if_neg (not_not_intro noGroup), spec]

theorem ports_multicast (intact : ¬BadChecksum frame.toBytes) {c : ActionCall}
    (answer : call = some c) (multicast : c.action = "multicast")
    (group : c.arg 0 % UInt16.size ≠ 0) :
    (p.forwarded frame now (p.afterIngress id frame port now)).map (·.port) =
      ((p.plane.multicast.replicate (c.arg 0 % UInt16.size)).filter fun r =>
        !decide (p.config.dropPort = 511 ∧
          (withheld p.plane.tables port r = true ∨ Exhausted frame.toBytes))).map
            (·.egressPort) := by
  obtain ⟨represents, cameBy⟩ := afterIngress_represents id port now installed controls reached
    routed
  have set := afterIngress_multicast id port now installed controls reached routed intact answer
    multicast
  rw [ports_forwarded installed controls reached represents cameBy, set, if_pos group]

end Ports

/-- The port of a member of a group, where all ports are below 512. -/
theorem not_withheld_iff (tables : TableStore) {port : Nat} {r : Replica} (came : port < 512)
    (goes : r.egressPort < 512) :
    (!withheld tables port r) = (r.egressPort != port &&
      (tables.lookup "rid_filter" [r.rid % UInt16.size]).isNone) := by
  rw [withheld, Nat.mod_eq_of_lt came, Nat.mod_eq_of_lt goes, Bool.not_or, Option.not_isSome]
  rfl

/-- The ports by which a frame leaves, with the default settings. The tables have one call for it. A port
gets the frame once and a group gets a copy for each member, without the members that the frame came by or
that the filter has a call for, as long as there is a hop left; any other frame goes nowhere. -/
theorem forwarding_decision {start after : Numbering} {p : Pipeline}
    (made : pipeline description .default start = .ok p after) {plane : ControlPlane}
    (reached : ControlPlane.Reachable program plane) {frame : Frame}
    (intact : ¬BadChecksum frame.toBytes) {port : Nat} (came : port < 512) (now : Time)
    (s : Numbering) :
    let running := { p with plane := plane }
    let next := { s with nextPacket := s.nextPacket + 1 }
    (∃ call, Routed plane.tables frame.toBytes call) ∧
    (Boundary.defaultMaxFrame < frame.length → running.process frame port now s =
      .error (.frameTooLarge frame.length Boundary.defaultMaxFrame) next) ∧
    (frame.length ≤ Boundary.defaultMaxFrame → ∃ outcome,
      running.process frame port now s = .ok outcome next ∧
      ∀ call, Routed plane.tables frame.toBytes call →
        (∀ c ∈ call, c.action = "forward" → c.arg 0 < 511 →
          outcome.emissions.map (·.port) = if Exhausted frame.toBytes then [] else [c.arg 0]) ∧
        (∀ c ∈ call, c.action = "multicast" → 1 ≤ c.arg 0 → c.arg 0 < UInt16.size →
          (∀ r ∈ plane.multicast.replicate (c.arg 0), r.egressPort < 512) →
          outcome.emissions.map (·.port) =
            if Exhausted frame.toBytes then []
            else ((plane.multicast.replicate (c.arg 0)).filter fun r => r.egressPort != port &&
              (plane.tables.lookup "rid_filter" [r.rid % UInt16.size]).isNone).map (·.egressPort)) ∧
        ((∀ c ∈ call, c.action = "drop") → outcome.emissions = [])) := by
  intro running next
  have new := pipeline_eq_ok.mp made
  have installed : Installed running := installed_of_new new plane
  have controls : running.controls = positions.controls := (new_eq_ok new).2.1
  have config : running.config = .default := (new_eq_ok new).2.2.1
  have ingress : running.controls.ingress.FieldsOnly := controls ▸ positions.controls_fieldsOnly.1
  have egress : running.controls.egress.FieldsOnly := controls ▸ positions.controls_fieldsOnly.2
  have limit : running.config.maxFrame = Boundary.defaultMaxFrame := by
    rw [config]
    rfl
  have known : running.config.dropPort = 511 := by
    rw [config]
    rfl
  refine ⟨exists_routed reached frame.toBytes, ?_, ?_⟩
  · intro long
    rw [← limit] at long ⊢
    exact installed.process_of_long long port now s
  · intro short
    rw [← limit] at short
    obtain ⟨reports, done⟩ := installed.process_eq ingress egress frame short port now s
    refine ⟨_, done, ?_⟩
    intro call routed
    refine ⟨?_, ?_, ?_⟩
    · intro c answer forward kept
      have ports := ports_forward s.nextPacket port now installed controls reached routed intact
        answer forward
      rw [Nat.mod_eq_of_lt (Nat.lt_succ_of_lt kept), known] at ports
      simpa [Nat.ne_of_lt kept] using ports
    · intro c answer multicast positive narrow numbered
      have group : c.arg 0 % UInt16.size = c.arg 0 := Nat.mod_eq_of_lt narrow
      have ports := ports_multicast s.nextPacket port now installed controls reached routed intact
        answer multicast (by rw [group]; exact Nat.ne_of_gt positive)
      rw [group, known] at ports
      refine ports.trans ?_
      by_cases last : Exhausted frame.toBytes
      · simp [last]
      · rw [if_neg last]
        refine congrArg (List.map _) (List.filter_congr ?_)
        intro r member
        simpa [last] using not_withheld_iff plane.tables came (numbered r member)
    · intro dropped
      have ports := ports_refused s.nextPacket port now installed controls reached routed
        (Or.inr (refused_of_drop dropped))
      rw [if_pos known] at ports
      exact List.map_eq_nil_iff.mp ports

/-- A network goes to a group of four copies, and the filter names the replication number of one. -/
def filtering : ControlPlane :=
  ⟨⟨[⟨"ipv4_lpm", [⟨27, 32, .lpm⟩], ["forward", "multicast", "drop"],
        [⟨0, [.lpm 0x0a000000 8], ⟨"multicast", [7]⟩⟩], 1, some ⟨"drop", []⟩⟩,
      emptyPrefixTable "ipv6_lpm" 35 128,
      ⟨"rid_filter", [⟨10, 16, .exact⟩], ["drop"], [⟨0, [.exact 5], ⟨"drop", []⟩⟩], 1, none⟩]⟩,
    ⟨[(7, [0, 1])], [(1, ⟨5, [4]⟩), (0, ⟨3, [1, 2, 6]⟩)], 2⟩⟩

theorem filtering_reachable : ControlPlane.Reachable program filtering := by
  have start : ControlPlane.Reachable program ⟨program.tables, Multicast.empty⟩ := .loaded
  have routed := start.done (.tableAdd "ipv4_lpm" "multicast" [.lpm 0x0a000000 8] [7]) rfl
  have filtered := routed.done (.tableAdd "rid_filter" "drop" [.exact 5] []) rfl
  have grouped := filtered.done (.groupCreate 7) rfl
  have first := (grouped.done (.nodeCreate 3 [6, 1, 2]) rfl).done (.nodeAssociate 7 0) rfl
  exact (first.done (.nodeCreate 5 [4]) rfl).done (.nodeAssociate 7 1) rfl

/-- The copy to the port of the frame and the one that the filter names do not leave. -/
theorem forwarding_decision_filtering :
    ∃ p after, pipeline description .default .initial = .ok p after ∧
      ControlPlane.Reachable program filtering ∧ ¬BadChecksum (Frame.ofBytes 1 routed).toBytes ∧
      1 < 512 ∧
      let running := { p with plane := filtering }
      ∃ outcome, running.process (Frame.ofBytes 1 routed) 1 .zero .initial =
          .ok outcome { Numbering.initial with nextPacket := 1 } ∧
        outcome.emissions.map (·.port) = [2, 6] := by
  have made : pipeline description .default .initial = .ok _ _ := pipeline_eq_ok.mpr rfl
  have intact : ¬BadChecksum (Frame.ofBytes 1 routed).toBytes := by decide +kernel
  have answer : Routed filtering.tables (Frame.ofBytes 1 routed).toBytes
      (some ⟨"multicast", [7]⟩) :=
    Or.inl ⟨by decide, (decides_iff filtering_reachable rfl).mpr (by decide +kernel)⟩
  refine ⟨_, _, made, filtering_reachable, intact, by decide, ?_⟩
  obtain ⟨-, -, decided⟩ :=
    forwarding_decision made filtering_reachable intact (show 1 < 512 by decide) .zero .initial
  obtain ⟨outcome, done, ports⟩ := decided (by decide)
  obtain ⟨-, copies, -⟩ := ports _ answer
  refine ⟨outcome, done, (copies _ rfl rfl (by decide) (by decide) (by decide)).trans ?_⟩
  decide +kernel

end BasicSwitch

end Switchyard
