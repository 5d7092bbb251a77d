import Switchyard.BasicSwitch
import Switchyard.Proofs.Pipeline.Forwarding

/-!
# What the controls of the basic switch decide

The controls work on fields and flags only. Ingress either drops a packet, or the packet is an internet
packet without a bad checksum and gets a port or a group. Egress either drops a packet, takes one hop
off, or lets a packet pass that has no hops to count.
-/

namespace Switchyard

open Packet

theorem TableStore.lookupPacket_congr (s : TableStore) (name : String) {pkt other : Packet}
    (same : SameFields pkt other) : s.lookupPacket name pkt = s.lookupPacket name other := by
  have keys (t : Table) : t.keyValues pkt = t.keyValues other := by
    simp only [Table.keyValues, same.get_eq]
  simp only [lookupPacket, keys]

namespace BasicSwitch

variable (s : BasicSwitch) (tables : TableStore) {pkt other : Packet}

/-! ## Fields and flags only -/

theorem apply_edits (call : Option ActionCall) (pkt : Packet) : Edits pkt (s.apply call pkt) := by
  unfold apply drop
  repeat' split
  all_goals exact Edits.refl.set _ _

theorem ingress_edits (pkt : Packet) : Edits pkt (s.ingress tables pkt) := by
  unfold ingress drop
  split
  · exact Edits.refl.set _ _
  · exact s.apply_edits _ pkt

theorem egress_edits (pkt : Packet) : Edits pkt (s.egress tables pkt) := by
  unfold egress takeHop drop
  repeat' split
  all_goals first | exact Edits.refl | exact Edits.refl.set _ _

theorem apply_sameFields (call : Option ActionCall) (same : SameFields pkt other) :
    SameFields (s.apply call pkt) (s.apply call other) := by
  unfold apply drop
  repeat' split
  all_goals exact same.set _ _

theorem ingress_sameFields (same : SameFields pkt other) :
    SameFields (s.ingress tables pkt) (s.ingress tables other) := by
  have route : s.route tables pkt = s.route tables other := by
    simp only [route, same.isValid_eq, tables.lookupPacket_congr _ same]
  unfold ingress drop
  rw [same.get_eq, route]
  split
  · exact same.set _ _
  · exact s.apply_sameFields _ same

theorem egress_sameFields (same : SameFields pkt other) :
    SameFields (s.egress tables pkt) (s.egress tables other) := by
  have pruned : s.isPruned tables pkt = s.isPruned tables other := by
    simp only [isPruned, same.get_eq, tables.lookupPacket_congr _ same]
  have field : s.hopField? pkt = s.hopField? other := by
    simp only [hopField?, same.isValid_eq]
  unfold egress takeHop drop
  rw [pruned, field]
  split
  · exact same.set _ _
  · split
    · exact same
    · rw [same.get_eq]
      split
      · exact same.set _ _
      · exact same.set _ _

theorem controls_fieldsOnly : s.controls.ingress.FieldsOnly ∧ s.controls.egress.FieldsOnly :=
  ⟨⟨s.ingress_edits, fun tables _ _ same => s.ingress_sameFields tables same⟩,
    ⟨s.egress_edits, fun tables _ _ same => s.egress_sameFields tables same⟩⟩

/-! ## Decisions -/

@[simp] theorem controls_ingress (pkt : Packet) :
    (s.controls.ingress tables pkt).1 = s.ingress tables pkt := rfl

@[simp] theorem controls_egress (pkt : Packet) :
    (s.controls.egress tables pkt).1 = s.egress tables pkt := rfl

theorem ingress_cases (pkt : Packet) :
    s.ingress tables pkt = s.drop pkt ∨
      (pkt.get s.checksumError = 0 ∧
        (pkt.isValid s.ipv4 = true ∨ pkt.isValid s.ipv6 = true) ∧
        ∃ value, s.ingress tables pkt = pkt.set s.egressSpec value ∨
          s.ingress tables pkt = pkt.set s.group value) := by
  unfold ingress
  by_cases bad : pkt.get s.checksumError ≠ 0
  · rw [if_pos bad]
    exact Or.inl rfl
  · rw [if_neg bad]
    cases routed : s.route tables pkt with
    | none => exact Or.inl rfl
    | some call =>
      have internet : pkt.isValid s.ipv4 = true ∨ pkt.isValid s.ipv6 = true := by
        unfold route at routed
        split at routed
        case isTrue valid => exact Or.inl valid
        case isFalse =>
          split at routed
          case isTrue valid => exact Or.inr valid
          case isFalse => contradiction
      unfold apply
      dsimp only
      by_cases forward : call.action = "forward"
      · rw [if_pos forward]
        exact Or.inr ⟨Decidable.not_not.mp bad, internet, call.arg 0, Or.inl rfl⟩
      · rw [if_neg forward]
        by_cases multicast : call.action = "multicast"
        · rw [if_pos multicast]
          exact Or.inr ⟨Decidable.not_not.mp bad, internet, call.arg 0, Or.inr rfl⟩
        · rw [if_neg multicast]
          exact Or.inl rfl

theorem egress_cases (pkt : Packet) :
    s.egress tables pkt = s.drop pkt ∨
      (∃ id, s.hopField? pkt = some id ∧ 2 ≤ pkt.get id ∧
        s.egress tables pkt = pkt.set id (pkt.get id - 1)) ∨
      (s.hopField? pkt = none ∧ s.egress tables pkt = pkt) := by
  unfold egress
  split
  · exact Or.inl rfl
  · unfold takeHop
    cases found : s.hopField? pkt with
    | none => exact Or.inr (Or.inr ⟨rfl, rfl⟩)
    | some id =>
      dsimp only
      by_cases last : pkt.get id ≤ 1
      · rw [if_pos last]
        exact Or.inl rfl
      · rw [if_neg last]
        exact Or.inr (Or.inl ⟨id, rfl, by omega, rfl⟩)

end BasicSwitch

end Switchyard
