import Switchyard.Proofs.Star.Passage

/-!
# What is counted in a star

The counts of a network while a flow passes through a star: they go by how many frames the switch has
handled, less the copies that are still on their way to hosts.
-/

namespace Switchyard

namespace Star

namespace Passage

open Timetable

variable {c : Passage} {x : Stage} {stats : Stats} {handled k port : Nat} {frame : Frame}
  {rising : List Frame} {falling rest fresh : List (Nat × Nat × Frame)}

/-- The counts when the switch has handled so many frames and copies are falling. -/
structure Tally (c : Passage) (handled : Nat) (falling : List (Nat × Nat × Frame)) (stats : Stats) :
    Prop where
  ordered : HostStats.Ordered stats.hosts
  received : ∀ i < c.options.hosts, ∃ h, stats.host? (hostName i) = some h ∧
    h.receivedFrames + (falling.map (·.2.1)).count (i + 1) = if i + 1 ∈ c.ports then handled else 0
  delivered : stats.deliveredFrames + falling.length = handled * c.connected.length
  switchReceived : stats.switchReceived = handled
  switchSent : stats.switchSent = handled * c.ports.length
  droppedNoPort : stats.droppedNoPort = handled * c.ports.count 0
  latency : stats.totalLatency + (falling.map (c.delay ·.1)).sum =
    c.connected.length * ∑ k ∈ Finset.range handled, c.delay k

/-- Nothing has been counted yet. -/
theorem tally_zero (c : Passage) :
    c.Tally 0 [] { Stats.zero with hosts := accounts c.options.hosts } where
  ordered := ordered_accounts _
  received i inside := by
    refine ⟨HostStats.zero, (lookup_accounts i _).trans (if_pos inside), ?_⟩
    split <;> rfl
  delivered := (Nat.zero_mul _).symm
  switchReceived := rfl
  switchSent := (Nat.zero_mul _).symm
  droppedNoPort := (Nat.zero_mul _).symm
  latency := by simp [Stats.zero]

/-- The order of what is falling does not matter. -/
theorem Tally.reorder (tally : c.Tally handled falling stats) (perm : falling.Perm rest) :
    c.Tally handled rest stats where
  ordered := tally.ordered
  received i inside := by
    rw [← (perm.map (·.2.1)).count_eq]
    exact tally.received i inside
  delivered := by
    rw [← perm.length_eq]
    exact tally.delivered
  switchReceived := tally.switchReceived
  switchSent := tally.switchSent
  droppedNoPort := tally.droppedNoPort
  latency := by
    rw [← (perm.map (c.delay ·.1)).sum_eq]
    exact tally.latency

/-- A host counts what it sends. -/
theorem Tally.send (tally : c.Tally handled falling stats) (name : String) (bytes : Nat) :
    c.Tally handled falling (stats.onHost name (·.countSent bytes)) where
  ordered := HostStats.ordered_update tally.ordered _ _
  received i inside := by
    obtain ⟨h, found, counted⟩ := tally.received i inside
    rw [Stats.host?_onHost tally.ordered]
    by_cases same : hostName i = name
    · rw [if_pos same, ← same, found]
      exact ⟨_, rfl, counted⟩
    · rw [if_neg same]
      exact ⟨h, found, counted⟩
  delivered := tally.delivered
  switchReceived := tally.switchReceived
  switchSent := tally.switchSent
  droppedNoPort := tally.droppedNoPort
  latency := tally.latency

/-- The switch has handled one more frame, and a copy is falling by each port with a link. -/
theorem Tally.rise (tally : c.Tally handled falling stats) (distinct : c.ports.Nodup)
    (numbers : ∀ entry ∈ fresh, entry.1 = handled) (ports : fresh.map (·.2.1) = c.connected) :
    c.Tally (handled + 1) (falling ++ fresh) { stats with
      switchReceived := stats.switchReceived + 1
      switchSent := stats.switchSent + c.ports.length
      droppedNoPort := stats.droppedNoPort + c.ports.count 0 } where
  ordered := tally.ordered
  received i inside := by
    obtain ⟨h, found, counted⟩ := tally.received i inside
    refine ⟨h, found, ?_⟩
    have copies : c.connected.count (i + 1) = if i + 1 ∈ c.ports then 1 else 0 := by
      rw [connected, List.count_filter (by simp), distinct.count]
    rw [List.map_append, List.count_append, ports, copies, ← Nat.add_assoc, counted]
    split <;> rfl
  delivered := by
    have length : fresh.length = c.connected.length := by rw [← ports, List.length_map]
    rw [List.length_append, ← Nat.add_assoc, tally.delivered, length, Nat.succ_mul]
  switchReceived := by rw [tally.switchReceived]
  switchSent := by rw [tally.switchSent, Nat.succ_mul]
  droppedNoPort := by rw [tally.droppedNoPort, Nat.succ_mul]
  latency := by
    have length : fresh.length = c.connected.length := by rw [← ports, List.length_map]
    have delays : fresh.map (c.delay ·.1) = List.replicate c.connected.length (c.delay handled) :=
      List.eq_replicate_iff.mpr ⟨by rw [List.length_map, length],
        List.forall_mem_map.mpr fun entry member => by rw [numbers entry member]⟩
    rw [List.map_append, List.sum_append, ← Nat.add_assoc, tally.latency, delays,
      List.sum_replicate_nat, Finset.sum_range_succ, Nat.mul_add]

/-- A host counts what it receives. -/
theorem Tally.fall (tally : c.Tally handled ((k, port + 1, frame) :: rest) stats) (bytes : Nat) :
    c.Tally handled rest
      ((stats.countDelivered (hostName port) bytes).countLatency (c.delay k)) where
  ordered := HostStats.ordered_update tally.ordered _ _
  received i inside := by
    obtain ⟨h, found, counted⟩ := tally.received i inside
    rw [Stats.host?_received tally.ordered]
    simp only [hostName_inj]
    by_cases same : i = port
    · subst same
      rw [if_pos rfl, found]
      refine ⟨_, rfl, ?_⟩
      rw [← counted, List.map_cons, List.count_cons_self, Option.getD_some]
      exact Nat.succ_add_eq_add_succ _ _
    · rw [if_neg same]
      refine ⟨h, found, ?_⟩
      rw [← counted, List.map_cons, List.count_cons_of_ne (by simpa using Ne.symm same)]
  delivered := by
    have counted := tally.delivered
    rw [List.length_cons] at counted
    show stats.deliveredFrames + 1 + rest.length = _
    omega
  switchReceived := tally.switchReceived
  switchSent := tally.switchSent
  droppedNoPort := tally.droppedNoPort
  latency := by
    have counted := tally.latency
    simp only [List.map_cons, List.sum_cons, ← Nat.add_assoc] at counted
    rw [← counted]
    rfl

/-- The sum of the latencies stays below the bound. -/
theorem Tally.latency_fits (tally : c.Tally handled ((k, port, frame) :: rest) stats) (sound : c.Sound)
    (inside : handled ≤ c.flow.remaining) : stats.totalLatency + c.delay k ≤ Time.maxNanos := by
  have counted := tally.latency
  have fewer : ∑ k ∈ Finset.range handled, c.delay k ≤
      ∑ k ∈ Finset.range c.flow.remaining, c.delay k :=
    Finset.sum_le_sum_of_subset (Finset.range_mono inside)
  have bounded := Nat.mul_le_mul_left c.connected.length fewer
  have total := sound.latencies
  simp only [List.map_cons, List.sum_cons] at counted
  omega

end Passage

end Star

end Switchyard
