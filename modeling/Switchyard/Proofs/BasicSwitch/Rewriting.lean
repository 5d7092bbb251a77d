import Switchyard.Proofs.BasicSwitch.Controls
import Switchyard.Proofs.BasicSwitch.Stages

/-!
# The basic switch rewrites only what forwarding requires

Whatever leaves the basic switch is an IPv4 packet with a right checksum, or an IPv6 packet, that had at
least two hops left. Its bytes are those that came in with one hop taken off, and for IPv4 with the
checksum made right again.
-/

namespace Switchyard

namespace BasicSwitch

open Packet Pipeline Sequencing

/-- The second bytes are the first ones, an IPv4 packet with a right checksum, forwarded by one hop. -/
structure ForwardsIpv4 (b g : Bytes) : Prop where
  holds : HoldsIpv4 b
  checksum : storedChecksum b = computedChecksum b
  hops : 2 ≤ BigEndian.read b 22 1
  length : g.length = b.length
  ttl : BigEndian.read g 22 1 = BigEndian.read b 22 1 - 1
  verifies : internetChecksum (covered g) = 0
  others : ∀ i, i ≠ 22 → i ≠ 24 → i ≠ 25 → g[i]? = b[i]?

/-- The second bytes are the first ones, an IPv6 packet, forwarded by one hop. -/
structure ForwardsIpv6 (b g : Bytes) : Prop where
  holds : HoldsIpv6 b
  hops : 2 ≤ BigEndian.read b 21 1
  length : g.length = b.length
  hopLimit : BigEndian.read g 21 1 = BigEndian.read b 21 1 - 1
  others : ∀ i, i ≠ 21 → g[i]? = b[i]?

variable {b g : Bytes}

/-! ## Taking a hop off -/

/-- The bytes with one hop less at a place. -/
def lowered (b : Bytes) (place : Nat) : Bytes :=
  Bytes.patch b place (BigEndian.encode 1 (BigEndian.read b place 1 - 1))

section Lowering

variable {place : Nat}

theorem length_lowered (inside : place < b.length) : (lowered b place).length = b.length :=
  Bytes.length_patch (by rw [BigEndian.length_encode]; exact inside)

/-- The number of hops fits in its byte, so it is stored as it is. -/
theorem read_lowered (inside : place < b.length) :
    BigEndian.read (lowered b place) place 1 = BigEndian.read b place 1 - 1 := by
  have byte : BigEndian.read b place 1 < Nat.pow 256 1 := BigEndian.read_lt b place 1
  rw [lowered, Bytes.read_patch_encode inside]
  exact Nat.mod_eq_of_lt (Nat.lt_of_le_of_lt (Nat.sub_le _ _) byte)

theorem getElem?_lowered (inside : place < b.length) {i : Nat} (other : i ≠ place) :
    (lowered b place)[i]? = b[i]? := by
  have size := BigEndian.length_encode 1 (BigEndian.read b place 1 - 1)
  rw [lowered, Bytes.getElem?_patch (by omega), if_neg (by omega)]

/-- The parser does not go by the number of hops. -/
theorem shape_lowered (inside : place < b.length) (behind : 20 < place) (apart : place < 23) :
    shape (lowered b place) = shape b := by
  have size := BigEndian.length_encode 1 (BigEndian.read b place 1 - 1)
  exact shape_patch (by omega) behind (Or.inl (by omega))

end Lowering

/-- Correcting the checksum leaves the time to live alone. -/
theorem read_corrected (b : Bytes) : BigEndian.read (corrected b) 22 1 = BigEndian.read b 22 1 := by
  unfold corrected
  split
  case isTrue holds =>
    have long := holds.2
    have length := BigEndian.length_encode 2 (computedChecksum b)
    exact Bytes.read_patch_of_disjoint (by omega) (Or.inl (by decide))
  case isFalse => rfl

/-- Taking a hop off a right IPv4 packet and correcting its checksum forwards it. -/
theorem forwardsIpv4 (holds : HoldsIpv4 b) (checksum : storedChecksum b = computedChecksum b)
    (hops : 2 ≤ BigEndian.read b 22 1) : ForwardsIpv4 b (corrected (lowered b 22)) := by
  have inside : 22 < b.length := Nat.lt_of_lt_of_le (by decide) holds.2
  have stays : HoldsIpv4 (lowered b 22) :=
    (holdsIpv4_congr (shape_lowered inside (by decide) (by decide))).mpr holds
  refine ⟨holds, checksum, hops, ?_, ?_, internetChecksum_corrected stays, ?_⟩
  · rw [length_corrected, length_lowered inside]
  · rw [read_corrected, read_lowered inside]
  · intro i ttl high low
    rw [getElem?_corrected high low, getElem?_lowered inside ttl]

/-- Taking a hop off an IPv6 packet forwards it; there is no checksum to correct. -/
theorem forwardsIpv6 (holds : HoldsIpv6 b) (hops : 2 ≤ BigEndian.read b 21 1) :
    ForwardsIpv6 b (corrected (lowered b 21)) := by
  have inside : 21 < b.length := Nat.lt_of_lt_of_le (by decide) holds.2
  have other : ¬HoldsIpv4 (lowered b 21) := by
    rw [holdsIpv4_congr (shape_lowered inside (by decide) (by decide))]
    intro ipv4
    exact not_holdsIpv6_of_holdsIpv4 ipv4 holds
  have same : corrected (lowered b 21) = lowered b 21 := if_neg other
  rw [same]
  exact ⟨holds, hops, length_lowered inside, read_lowered inside, fun i => getElem?_lowered inside⟩

/-- What is forwarded still has a hop. -/
theorem ForwardsIpv4.hops_left (forwards : ForwardsIpv4 b g) :
    (HoldsIpv4 g → 0 < BigEndian.read g 22 1) ∧ (HoldsIpv6 g → 0 < BigEndian.read g 21 1) := by
  constructor
  · intro _
    have ttl := forwards.ttl
    have hops := forwards.hops
    omega
  · intro ipv6
    have etherType : BigEndian.read g 12 2 = BigEndian.read b 12 2 :=
      BigEndian.read_congr fun i _ _ => forwards.others i (by omega) (by omega) (by omega)
    rw [HoldsIpv6, etherType, forwards.length] at ipv6
    exact absurd ipv6 (not_holdsIpv6_of_holdsIpv4 forwards.holds)

theorem ForwardsIpv6.hops_left (forwards : ForwardsIpv6 b g) :
    (HoldsIpv4 g → 0 < BigEndian.read g 22 1) ∧ (HoldsIpv6 g → 0 < BigEndian.read g 21 1) := by
  constructor
  · intro ipv4
    have etherType : BigEndian.read g 12 2 = BigEndian.read b 12 2 :=
      BigEndian.read_congr fun i _ _ => forwards.others i (by omega)
    rw [HoldsIpv4, etherType, forwards.length] at ipv4
    exact absurd forwards.holds (not_holdsIpv6_of_holdsIpv4 ipv4)
  · intro _
    have hopLimit := forwards.hopLimit
    have hops := forwards.hops
    omega

/-! ## What the controls let pass -/

theorem pipeline_eq_ok {config : PipelineConfig} {start after : Numbering} {p : Pipeline} :
    pipeline description config start = .ok p after ↔
      Pipeline.new program positions.controls config start = .ok p after := by
  constructor
  · intro made
    obtain ⟨loaded, found, made⟩ := ofExcept_bind_eq_ok.mp made
    rw [mapError_eq_ok, load_description] at found
    obtain rfl := Except.ok.inj found
    obtain ⟨s, found, made⟩ := ofExcept_bind_eq_ok.mp made
    rw [mapError_eq_ok] at found
    obtain rfl := Except.ok.inj (positions_ofLayout.symm.trans found)
    exact made
  · intro made
    refine ofExcept_bind_eq_ok.mpr ⟨program, mapError_eq_ok.mpr load_description, ?_⟩
    exact ofExcept_bind_eq_ok.mpr ⟨positions, mapError_eq_ok.mpr positions_ofLayout, made⟩

variable {p : Pipeline}

/-- Dropping leaves the drop port in `egress_spec`. -/
theorem get_drop {pkt : Packet} (represents : Represents pkt b) : (positions.drop pkt).get 1 = 511 := by
  show (pkt.set 1 511).get 1 = 511
  rw [represents.get_stored (by decide)]
  decide

/-- Ingress changes metadata only; and a packet that it gives a group or a port is an internet packet
without a bad checksum. -/
theorem ingress_passes (tables : TableStore) {pkt : Packet} (represents : Represents pkt b)
    (noGroup : pkt.get 9 = 0)
    (verdict : pkt.get 6 ≠ 0 ↔ HoldsIpv4 b ∧ storedChecksum b ≠ computedChecksum b) :
    Represents (positions.ingress tables pkt) b ∧
      ((positions.ingress tables pkt).get 9 ≠ 0 ∨ (positions.ingress tables pkt).get 1 ≠ 511 →
        (HoldsIpv4 b ∨ HoldsIpv6 b) ∧ (HoldsIpv4 b → storedChecksum b = computedChecksum b)) := by
  rcases positions.ingress_cases tables pkt with dropped | ⟨good, internet, value, routed⟩
  · rw [dropped]
    refine ⟨represents.set_metadata (by decide), ?_⟩
    rintro (group | port)
    · have same : (positions.drop pkt).get 9 = pkt.get 9 := get_set_ne (by decide)
      rw [same] at group
      exact absurd noGroup group
    · exact absurd (get_drop represents) port
  · constructor
    · rcases routed with toPort | toGroup
      · rw [toPort]
        exact represents.set_metadata (by decide)
      · rw [toGroup]
        exact represents.set_metadata (by decide)
    · intro _
      refine ⟨internet.imp represents.isValid_ipv4.mp represents.isValid_ipv6.mp, ?_⟩
      intro holds
      apply Decidable.not_not.mp
      intro wrong
      exact verdict.mpr ⟨holds, wrong⟩ good

/-- The field that counts the hops is known from the bytes. -/
theorem hopField?_eq {pkt : Packet} (represents : Represents pkt b) :
    positions.hopField? pkt =
      if HoldsIpv4 b then some ttlField else if HoldsIpv6 b then some hopLimitField else none := by
  show (if pkt.isValid ipv4Header = true then some ttlField
    else if pkt.isValid ipv6Header = true then some hopLimitField else none) = _
  simp only [represents.isValid_ipv4, represents.isValid_ipv6]

/-- An internet packet that egress does not drop had two hops left, and one is taken off. -/
theorem egress_passes (tables : TableStore) {pkt : Packet} (represents : Represents pkt b)
    (internet : HoldsIpv4 b ∨ HoldsIpv6 b)
    (kept : (positions.egress tables pkt).get 1 ≠ 511) :
    (HoldsIpv4 b ∧ 2 ≤ BigEndian.read b 22 1 ∧
      Represents (positions.egress tables pkt) (lowered b 22)) ∨
    (HoldsIpv6 b ∧ 2 ≤ BigEndian.read b 21 1 ∧
      Represents (positions.egress tables pkt) (lowered b 21)) := by
  have field := hopField?_eq represents
  rcases positions.egress_cases tables pkt with dropped | ⟨id, found, hops, taken⟩ | ⟨found, -⟩
  · rw [dropped] at kept
    exact absurd (get_drop represents) kept
  · rw [found] at field
    rw [taken]
    rcases internet with ipv4 | ipv6
    · rw [if_pos ipv4] at field
      obtain rfl := Option.some.inj field
      rw [represents.get_ttl ipv4] at hops ⊢
      exact Or.inl ⟨ipv4, hops, represents.set_ttl ipv4⟩
    · rw [if_neg fun ipv4 => not_holdsIpv6_of_holdsIpv4 ipv4 ipv6, if_pos ipv6] at field
      obtain rfl := Option.some.inj field
      rw [represents.get_hopLimit ipv6] at hops ⊢
      exact Or.inr ⟨ipv6, hops, represents.set_hopLimit ipv6⟩
  · rw [found] at field
    rcases internet with ipv4 | ipv6
    · rw [if_pos ipv4] at field
      contradiction
    · rw [if_neg fun ipv4 => not_holdsIpv6_of_holdsIpv4 ipv4 ipv6, if_pos ipv6] at field
      contradiction

/-- The packet after ingress. -/
theorem afterIngress_passes (installed : Installed p) (controls : p.controls = positions.controls) (id : Nat)
    (frame : Frame) (port : Nat) (now : Time) :
    Represents (p.afterIngress id frame port now) frame.toBytes ∧
      ((p.afterIngress id frame port now).get 9 ≠ 0 ∨ (p.afterIngress id frame port now).get 1 ≠ 511 →
        (HoldsIpv4 frame.toBytes ∨ HoldsIpv6 frame.toBytes) ∧
          (HoldsIpv4 frame.toBytes →
            storedChecksum frame.toBytes = computedChecksum frame.toBytes)) := by
  obtain ⟨represents, passes⟩ := ingress_passes p.plane.tables
    (shown_represents id port now frame.toBytes) (shown_group id port now frame.toBytes)
    (shown_checksumError id port now frame.toBytes)
  rw [afterIngress_eq id port now installed, controls, controls_ingress, get_exited _ false 9,
    get_exited _ false 1]
  exact ⟨represents.resume, passes⟩

/-- Whatever leaves is the frame forwarded by one hop, if the drop port is the one that the controls
know. -/
theorem Installed.forwards_of_mem (installed : Installed p) (known : p.config.dropPort = 511)
    (controls : p.controls = positions.controls) {id port : Nat} {frame : Frame} {now : Time}
    {e : Emission} (sent : e ∈ p.forwarded frame now (p.afterIngress id frame port now)) :
    (ForwardsIpv4 frame.toBytes e.frame.toBytes ∨ ForwardsIpv6 frame.toBytes e.frame.toBytes) ∧
      e.frame.packetTags = frame.packetTags ∧
      e.frame.byteTags.map (·.tag) = frame.byteTags.map (·.tag) := by
  obtain ⟨represents, passes⟩ := afterIngress_passes installed controls id frame port now
  obtain ⟨passed, kind, rid, copyPort, evaluated⟩ := mem_forwarded sent
  rw [represents.field?_group, installed.fields, known] at passed
  obtain ⟨internet, checksum⟩ := passes passed
  have kept := (evaluate_eq_some.mp evaluated).1
  have assigned := assign_egressMetadata (p := p) now represents frame.length copyPort kind rid
  have egress (pkt : Packet) : (p.controls.egress p.plane.tables pkt).1 =
      positions.egress p.plane.tables pkt := by
    rw [controls, controls_egress]
  rw [installed.fields, known, egress] at kept
  rcases egress_passes p.plane.tables assigned internet kept with
    ⟨holds, hops, left⟩ | ⟨holds, hops, left⟩
  · rw [← egress] at left
    obtain ⟨-, bytes, tags⟩ := emission_evaluated installed evaluated left
    refine ⟨Or.inl ?_, tags⟩
    rw [bytes]
    exact forwardsIpv4 holds (checksum holds) hops
  · rw [← egress] at left
    obtain ⟨-, bytes, tags⟩ := emission_evaluated installed evaluated left
    refine ⟨Or.inr ?_, tags⟩
    rw [bytes]
    exact forwardsIpv6 holds hops

theorem forwards_of_mem (runs : Runs p) (controls : p.controls = positions.controls) {id port : Nat}
    {frame : Frame} {now : Time} {e : Emission}
    (sent : e ∈ p.forwarded frame now (p.afterIngress id frame port now)) :
    (ForwardsIpv4 frame.toBytes e.frame.toBytes ∨ ForwardsIpv6 frame.toBytes e.frame.toBytes) ∧
      e.frame.packetTags = frame.packetTags ∧
      e.frame.byteTags.map (·.tag) = frame.byteTags.map (·.tag) :=
  runs.toInstalled.forwards_of_mem (by rw [runs.config]; rfl) controls sent

/-- A frame that is not too long gets an outcome, and whatever leaves is the frame forwarded by one hop,
whatever the tables and the groups are: a right IPv4 packet or an IPv6 packet, with two hops left when it
came and at least one when it goes, and nothing else changed but the IPv4 checksum. -/
theorem rewrites_only_hops {start after : Numbering} {p : Pipeline}
    (made : pipeline description .default start = .ok p after) (plane : ControlPlane) (f : Frame)
    (port : Nat) (now : Time) (s : Numbering) :
    let running := { p with plane := plane }
    (f.length ≤ Boundary.defaultMaxFrame → ∃ outcome,
      running.process f port now s = .ok outcome { s with nextPacket := s.nextPacket + 1 }) ∧
    ∀ outcome t, running.process f port now s = .ok outcome t → ∀ e ∈ outcome.emissions,
      (ForwardsIpv4 f.toBytes e.frame.toBytes ∨ ForwardsIpv6 f.toBytes e.frame.toBytes) ∧
      (HoldsIpv4 e.frame.toBytes → 0 < BigEndian.read e.frame.toBytes 22 1) ∧
      (HoldsIpv6 e.frame.toBytes → 0 < BigEndian.read e.frame.toBytes 21 1) ∧
      e.frame.packetTags = f.packetTags ∧
      e.frame.byteTags.map (·.tag) = f.byteTags.map (·.tag) := by
  intro running
  have new := pipeline_eq_ok.mp made
  have runs : Runs running := runs_of_new new plane
  have controls : running.controls = positions.controls := (new_eq_ok new).2.1
  have ingress : running.controls.ingress.FieldsOnly := controls ▸ positions.controls_fieldsOnly.1
  have egress : running.controls.egress.FieldsOnly := controls ▸ positions.controls_fieldsOnly.2
  constructor
  · intro short
    obtain ⟨reports, done⟩ := runs.process_eq ingress egress f short port now s
    exact ⟨_, done⟩
  · intro outcome t done e sent
    have short := runs.short_of_process done
    obtain ⟨reports, forwarded⟩ := runs.process_eq ingress egress f short port now s
    rw [forwarded] at done
    obtain ⟨rfl, rfl⟩ := EStateM.Result.ok.inj done
    obtain ⟨forwards, tags⟩ := forwards_of_mem runs controls sent
    have left := forwards.elim ForwardsIpv4.hops_left ForwardsIpv6.hops_left
    exact ⟨forwards, left.1, left.2, tags⟩

/-- An IPv4 packet with options and four hops left. -/
def routed : Bytes :=
  [2, 0, 0, 0, 0, 1, 2, 0, 0, 0, 0, 2, 8, 0,
    0x46, 0, 0, 26, 0, 7, 0, 0, 4, 99, 157, 114, 10, 0, 0, 1, 10, 0, 0, 2, 1, 2, 3, 4, 0xca, 0xfe]

/-- The addresses of one network go to a group of two ports. -/
def routes : ControlPlane :=
  ⟨⟨[⟨"ipv4_lpm", [⟨27, 32, .lpm⟩], ["forward", "multicast", "drop"],
      [⟨0, [.lpm 0x0a000000 8], ⟨"multicast", [1]⟩⟩], 1, some ⟨"drop", []⟩⟩]⟩,
    ⟨[(1, [0])], [(0, ⟨3, [1, 2]⟩)], 1⟩⟩

/-- Of the two copies the one to the port of the frame is pruned. -/
theorem rewrites_only_hops_routed :
    ∃ p after, pipeline description .default .initial = .ok p after ∧
      let running := { p with plane := routes }
      ((Frame.ofBytes 1 routed).length ≤ Boundary.defaultMaxFrame → ∃ outcome,
        running.process (Frame.ofBytes 1 routed) 1 .zero .initial =
          .ok outcome { Numbering.initial with nextPacket := 1 }) ∧
      (∀ outcome t, running.process (Frame.ofBytes 1 routed) 1 .zero .initial = .ok outcome t →
        ∀ e ∈ outcome.emissions,
          (ForwardsIpv4 routed e.frame.toBytes ∨ ForwardsIpv6 routed e.frame.toBytes) ∧
          (HoldsIpv4 e.frame.toBytes → 0 < BigEndian.read e.frame.toBytes 22 1) ∧
          (HoldsIpv6 e.frame.toBytes → 0 < BigEndian.read e.frame.toBytes 21 1) ∧
          e.frame.packetTags = [] ∧ e.frame.byteTags.map (·.tag) = []) ∧
      ((running.process (Frame.ofBytes 1 routed) 1 .zero).run' .initial).map
        (·.emissions.map fun e => (e.port, e.frame.toBytes)) =
          some [(2, [2, 0, 0, 0, 0, 1, 2, 0, 0, 0, 0, 2, 8, 0,
            0x46, 0, 0, 26, 0, 7, 0, 0, 3, 99, 158, 114, 10, 0, 0, 1, 10, 0, 0, 2, 1, 2, 3, 4,
            0xca, 0xfe])] := by
  refine ⟨_, _, pipeline_eq_ok.mpr rfl, ?_⟩
  obtain ⟨processed, forwards⟩ := rewrites_only_hops (pipeline_eq_ok.mpr rfl) routes
    (Frame.ofBytes 1 routed) 1 .zero .initial
  exact ⟨processed, forwards, by decide +kernel⟩

end BasicSwitch

end Switchyard
