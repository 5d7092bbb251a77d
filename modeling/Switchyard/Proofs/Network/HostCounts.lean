import Mathlib.Data.String.Basic
import Switchyard.Network.Stats
import Switchyard.Proofs.Keyed

/-!
# The counts of hosts

Hosts are counted by name, and the names stand in order. Changing the counts of a name keeps the order and
changes what is found under that name alone.
-/

namespace Switchyard

namespace HostStats

variable {name other : String} {change : HostStats → HostStats} {hosts : List (String × HostStats)}

/-- The names ascend. -/
def Ordered (hosts : List (String × HostStats)) : Prop := hosts.Pairwise (·.1 < ·.1)

theorem name_of_mem_update {entry : String × HostStats} (member : entry ∈ update name change hosts) :
    entry.1 = name ∨ ∃ old ∈ hosts, old.1 = entry.1 := by
  induction hosts with
  | nil =>
    rw [List.mem_singleton.mp member]
    exact Or.inl rfl
  | cons first rest ih =>
    unfold update at member
    split at member
    case isTrue same =>
      rcases List.mem_cons.mp member with rfl | member
      · exact Or.inl same.symm
      · exact Or.inr ⟨entry, List.mem_cons_of_mem _ member, rfl⟩
    case isFalse =>
      split at member
      case isTrue =>
        rcases List.mem_cons.mp member with rfl | member
        · exact Or.inl rfl
        · exact Or.inr ⟨entry, member, rfl⟩
      case isFalse =>
        rcases List.mem_cons.mp member with rfl | member
        · exact Or.inr ⟨_, List.mem_cons_self, rfl⟩
        · rcases ih member with same | ⟨old, oldMem, same⟩
          · exact Or.inl same
          · exact Or.inr ⟨old, List.mem_cons_of_mem _ oldMem, same⟩

theorem ordered_update (ordered : Ordered hosts) (name : String) (change : HostStats → HostStats) :
    Ordered (update name change hosts) := by
  induction hosts with
  | nil => exact List.pairwise_singleton _ _
  | cons first rest ih =>
    obtain ⟨ahead, behind⟩ := List.pairwise_cons.mp ordered
    unfold update
    split
    case isTrue => exact List.pairwise_cons.mpr ⟨ahead, behind⟩
    case isFalse different =>
      split
      case isTrue before =>
        refine List.pairwise_cons.mpr ⟨?_, ordered⟩
        exact List.forall_mem_cons.mpr ⟨before, fun entry member => before.trans (ahead entry member)⟩
      case isFalse notBefore =>
        have after : first.1 < name :=
          lt_of_le_of_ne (not_lt.mp notBefore) (Ne.symm different)
        refine List.pairwise_cons.mpr ⟨fun entry member => ?_, ih behind⟩
        rcases name_of_mem_update member with same | ⟨old, oldMem, same⟩
        · rw [same]
          exact after
        · rw [← same]
          exact ahead old oldMem

/-- In front of the names that come later, a name is not found. -/
theorem lookup_eq_none_of_lt (before : ∀ entry ∈ hosts, name < entry.1) : hosts.lookup name = none := by
  refine List.lookup_eq_none_iff.mpr fun entry member => ?_
  have apart : name ≠ entry.1 := ne_of_lt (before entry member)
  simpa using apart

theorem lookup_update (ordered : Ordered hosts) (name other : String)
    (change : HostStats → HostStats) : (update name change hosts).lookup other =
      if other = name then some (change ((hosts.lookup name).getD zero)) else hosts.lookup other := by
  induction hosts with
  | nil => exact lookup_pair_cons [] name other _
  | cons first rest ih =>
    obtain ⟨key, counts⟩ := first
    obtain ⟨ahead, behind⟩ := List.pairwise_cons.mp ordered
    unfold update
    split
    case isTrue same =>
      obtain rfl : name = key := same
      rw [lookup_pair_cons, List.lookup_cons_self, lookup_pair_cons]
      split <;> rfl
    case isFalse different =>
      split
      case isTrue before =>
        have missing : ((key, counts) :: rest).lookup name = none :=
          lookup_eq_none_of_lt (List.forall_mem_cons.mpr
            ⟨before, fun entry member => before.trans (ahead entry member)⟩)
        rw [missing]
        exact lookup_pair_cons _ name other _
      case isFalse =>
        simp only [lookup_pair_cons, if_neg different, ih behind]
        by_cases asked : other = key
        · rw [if_pos asked, asked, if_neg (Ne.symm different), if_pos rfl]
        · rw [if_neg asked, if_neg asked]

end HostStats

namespace Stats

theorem host?_onHost {s : Stats} (ordered : HostStats.Ordered s.hosts) (name other : String)
    (change : HostStats → HostStats) : (s.onHost name change).host? other =
      if other = name then some (change ((s.host? name).getD HostStats.zero)) else s.host? other :=
  HostStats.lookup_update ordered name other change

/-- What a host has, when it has received a frame. -/
theorem host?_received {s : Stats} (ordered : HostStats.Ordered s.hosts) (name other : String)
    (bytes latency : Nat) : ((s.countDelivered name bytes).countLatency latency).host? other =
      if other = name then some (((s.host? name).getD HostStats.zero).countReceived bytes)
      else s.host? other :=
  HostStats.lookup_update ordered name other (·.countReceived bytes)

end Stats

end Switchyard
