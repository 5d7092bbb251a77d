import Switchyard.Proofs.Star.Start

/-!
# What the commands of a star install

The commands are printed from a list of addresses and read back. Whatever the addresses are, each of them
is then sent to the port of its first place in the list, the other addresses of the group networks go to
the group, and the group makes one copy for every place.
-/

namespace Switchyard

/-- Is the address in `10.0.255.0/24`, or in `ff0e::/16`? -/
def IpAddr.InGroupNetwork : IpAddr → Prop
  | v4 a => a.toBytes.take 3 = [10, 0, 255]
  | v6 a => a.toBytes.take 2 = [0xff, 0x0e]

instance : DecidablePred IpAddr.InGroupNetwork
  | .v4 a => inferInstanceAs (Decidable (a.toBytes.take 3 = [10, 0, 255]))
  | .v6 a => inferInstanceAs (Decidable (a.toBytes.take 2 = [0xff, 0x0e]))

namespace Star

variable {ips : List IpAddr}

/-- The prefixes that the commands write are those of the group networks. -/
theorem isGroupAddress_iff (ip : IpAddr) : IsGroupAddress ip ↔ ip.InGroupNetwork := by
  have byte (n : Nat) (b : UInt8) : UInt8.ofNat n = b ↔ n % 256 = b.toNat := by
    rw [← UInt8.toNat_inj, UInt8.toNat_ofNat']
  cases ip with
  | v4 a =>
    have bound : a.toNat < 2 ^ 32 := a.bits.isLt
    have first : a.toBytes.take 3 = [UInt8.ofNat (a.toNat / 2 ^ 24), UInt8.ofNat (a.toNat / 2 ^ 16),
      UInt8.ofNat (a.toNat / 2 ^ 8)] := rfl
    show 0x0a00ff00 % 2 ^ 32 / 2 ^ 8 = a.toNat % 2 ^ 32 / 2 ^ 8 ↔ a.toBytes.take 3 = _
    simp only [first, List.cons.injEq, byte, and_true]
    have ten : (10 : UInt8).toNat = 10 := rfl
    have zero : (0 : UInt8).toNat = 0 := rfl
    have full : (255 : UInt8).toNat = 255 := rfl
    rw [ten, zero, full]
    omega
  | v6 a =>
    have bound : a.toNat < 2 ^ 128 := a.bits.isLt
    have first : a.toBytes.take 2 = [UInt8.ofNat (a.toNat / 2 ^ 120), UInt8.ofNat (a.toNat / 2 ^ 112)] :=
      rfl
    show 0xff0e * 2 ^ 112 % 2 ^ 128 / 2 ^ 112 = a.toNat % 2 ^ 128 / 2 ^ 112 ↔ a.toBytes.take 2 = _
    simp only [first, List.cons.injEq, byte, and_true]
    have full : (0xff : UInt8).toNat = 255 := rfl
    have scope : (0x0e : UInt8).toNat = 14 := rfl
    rw [full, scope]
    omega

/-- The group of all hosts makes one copy for every host, in their order. -/
theorem replicate_plane (ips : List IpAddr) :
    (plane ips).multicast.replicate group = (List.range ips.length).map fun i => ⟨i + 1, i + 1⟩ := by
  have members : (plane ips).multicast.members? group = some (List.range ips.length) := rfl
  rw [Multicast.replicate, members, Option.getD_some, List.map_eq_flatMap]
  refine List.flatMap_congr fun i member => ?_
  have node : (plane ips).multicast.node? i = some ⟨i + 1, [i + 1]⟩ :=
    lookup_nodes (List.mem_range.mp member)
  rw [node]
  rfl

/-- What a plane answers when it directs packets to the places of addresses in a list. -/
structure Directs (ips : List IpAddr) (plane : ControlPlane) : Prop where
  /-- An address of the list is sent to the port of the first place where it stands. -/
  listed : ∀ i (inside : i < ips.length),
    plane.tables.lookup (tableName ips[i]) [ips[i].number] =
      some ⟨"forward", [1 + ips.idxOf ips[i]]⟩
  /-- Another one goes to the group if it is in a group network, and else is dropped. -/
  unlisted : ∀ ip, ip ∉ ips → plane.tables.lookup (tableName ip) [ip.number] =
    some (if ip.InGroupNetwork then ⟨"multicast", [1]⟩ else ⟨"drop", []⟩)
  copies : plane.multicast.replicate 1 = (List.range ips.length).map fun i => ⟨i + 1, i + 1⟩

theorem directs_plane (ips : List IpAddr) : Directs ips (plane ips) := by
  constructor
  case listed =>
    intro i inside
    have place : ips.idxOf? ips[i] = some (ips.idxOf ips[i]) := by
      obtain ⟨first, found⟩ := Option.isSome_iff_exists.mp
        (List.isSome_idxOf?.mpr (List.getElem_mem inside))
      rw [List.idxOf_eq_getD_idxOf?, found, Option.getD_some]
    rw [lookup_plane, place, Nat.add_comm]
  case unlisted =>
    intro ip other
    rw [lookup_plane, List.idxOf?_eq_none_iff.mpr other]
    simp only [isGroupAddress_iff]
    split <;> rfl
  case copies => exact replicate_plane ips

/-- The commands of a star are read as they are meant, whatever the addresses are. A fresh basic switch
takes all of them if there are no more than 65535, and only its plane changes: it then directs packets to
the places of the addresses. -/
theorem commands_install (ips : List IpAddr) (narrow : ips.length ≤ 65535) (config : PipelineConfig)
    (start : Numbering) :
    (∃ fresh after, BasicSwitch.pipeline BasicSwitch.description config start = .ok fresh after) ∧
      ∀ fresh after, BasicSwitch.pipeline BasicSwitch.description config start = .ok fresh after →
        ∃ answers loaded, Pipeline.runBatch (commands ips) fresh = .ok answers loaded ∧
          loaded = { fresh with plane := loaded.plane } ∧ Directs ips loaded.plane := by
  refine ⟨exists_basicSwitch config start, ?_⟩
  intro fresh after made
  obtain ⟨answers, loads⟩ := exists_runBatch (plane_of_made made) (Nat.lt_succ_of_le narrow)
  exact ⟨answers, _, loads, rfl, directs_plane ips⟩

/-- An IPv4 address that stands twice is sent to its first port, its mapped address to a port of its own. -/
theorem commands_install_twice : ∃ fresh after answers loaded,
    BasicSwitch.pipeline BasicSwitch.description (.named "s0") .initial = .ok fresh after ∧
    Pipeline.runBatch
        (commands [.v4 (.ofNat 0x0a000001), .v6 (.ofNat 0xffff0a000001), .v4 (.ofNat 0x0a000001)]) fresh =
      .ok answers loaded ∧
    loaded.plane.tables.lookup "ipv4_lpm" [0x0a000001] = some ⟨"forward", [1]⟩ ∧
    loaded.plane.tables.lookup "ipv6_lpm" [0xffff0a000001] = some ⟨"forward", [2]⟩ ∧
    loaded.plane.tables.lookup "ipv4_lpm" [0x0a00ff07] = some ⟨"multicast", [1]⟩ ∧
    loaded.plane.tables.lookup "ipv6_lpm" [0] = some ⟨"drop", []⟩ ∧
    loaded.plane.multicast.replicate 1 = [⟨1, 1⟩, ⟨2, 2⟩, ⟨3, 3⟩] := by
  obtain ⟨⟨fresh, after, made⟩, all⟩ := commands_install
    [.v4 (.ofNat 0x0a000001), .v6 (.ofNat 0xffff0a000001), .v4 (.ofNat 0x0a000001)] (by decide)
    (.named "s0") .initial
  obtain ⟨answers, loaded, loads, -, directs⟩ := all fresh after made
  refine ⟨fresh, after, answers, loaded, made, loads, ?_, ?_, ?_, ?_, directs.copies⟩
  · exact directs.listed 2 (by decide)
  · exact directs.listed 1 (by decide)
  · exact directs.unlisted (.v4 (.ofNat 0x0a00ff07)) (by decide)
  · exact directs.unlisted (.v6 (.ofNat 0)) (by decide)

end Star

end Switchyard
