import Mathlib.Data.List.Flatten
import Mathlib.Data.List.Nodup
import Switchyard.Proofs.Network.Turns

/-!
# The numbers of frames

Frames are numbered from a counter that goes on from zero after the largest number. An injection takes the next
number if its flow has frames left and its source is a host, also where no frame comes of it. So the frames that
are sent in a run have, in order, numbers among those that follow one another from the counter. They differ as
long as no more numbers are taken than there are, and ascend up to where the counter starts again.
-/

namespace Switchyard

namespace Network

/-- The numbers that are taken next, so many of them. -/
def numbersFrom (uid : UInt64) (count : Nat) : List Nat :=
  (List.range count).map fun k => (uid.toNat + k) % UInt64.size

variable {uid : UInt64} {count : Nat}

theorem numbersFrom_succ (uid : UInt64) (count : Nat) :
    numbersFrom uid (count + 1) = uid.toNat :: numbersFrom (uid + 1) count := by
  have later (k : Nat) : (uid.toNat + (k + 1)) % UInt64.size = ((uid + 1).toNat + k) % UInt64.size := by
    rw [UInt64.toNat_add, Nat.mod_add_mod, UInt64.toNat_one, Nat.add_assoc, Nat.add_comm k]
  rw [numbersFrom, List.range_succ_eq_map, List.map_cons, List.map_map, Nat.add_zero,
    Nat.mod_eq_of_lt uid.toNat_lt_size]
  exact congrArg _ (List.map_congr_left fun k _ => later k)

/-- First the numbers up to the largest one, then those from zero on. -/
theorem numbersFrom_eq (few : count ≤ UInt64.size) : numbersFrom uid count =
    List.range' uid.toNat (min count (UInt64.size - uid.toNat)) ++
      List.range (uid.toNat + count - UInt64.size) := by
  have start := uid.toNat_lt_size
  have parts : count =
      min count (UInt64.size - uid.toNat) + (uid.toNat + count - UInt64.size) := by omega
  have early : ∀ k ∈ List.range (min count (UInt64.size - uid.toNat)),
      (uid.toNat + k) % UInt64.size = uid.toNat + k := by
    intro k member
    have below := List.mem_range.mp member
    exact Nat.mod_eq_of_lt (by omega)
  have late : ∀ k ∈ List.range (uid.toNat + count - UInt64.size),
      (uid.toNat + (min count (UInt64.size - uid.toNat) + k)) % UInt64.size = k := by
    intro k member
    have below := List.mem_range.mp member
    have whole : uid.toNat + (min count (UInt64.size - uid.toNat) + k) = UInt64.size + k := by omega
    rw [whole, Nat.add_mod_left, Nat.mod_eq_of_lt (by omega)]
  unfold numbersFrom
  conv => lhs; rw [parts, List.range_add, List.map_append, List.map_map]
  rw [List.map_congr_left early, List.range'_eq_map_range]
  exact congrArg _ ((List.map_congr_left late).trans (List.map_id _))

/-- Two ascending stretches, the first one from a bound on and the second one below it, ascend as a whole only
if one of them is empty. -/
theorem ascending_append_iff {early late : List Nat} {bound : Nat}
    (earlyAscends : early.Pairwise (· < ·)) (lateAscends : late.Pairwise (· < ·))
    (large : ∀ n ∈ early, bound ≤ n) (small : ∀ n ∈ late, n < bound) :
    (early ++ late).Pairwise (· < ·) ↔
      (∀ n ∈ early ++ late, bound ≤ n) ∨ ∀ n ∈ early ++ late, n < bound := by
  constructor
  · intro ascends
    cases late with
    | nil =>
      rw [List.append_nil]
      exact .inl large
    | cons first late =>
      refine .inr fun n member => ?_
      rcases List.mem_append.mp member with inEarly | inLate
      · have before := (List.pairwise_append.mp ascends).2.2 n inEarly first List.mem_cons_self
        exact before.trans (small first List.mem_cons_self)
      · exact small n inLate
  · rintro (all | all)
    · have none : late = [] := List.eq_nil_iff_forall_not_mem.mpr fun n member =>
        Nat.not_lt.mpr (all n (List.mem_append_right _ member)) (small n member)
      rwa [none, List.append_nil]
    · have none : early = [] := List.eq_nil_iff_forall_not_mem.mpr fun n member =>
        Nat.not_lt.mpr (large n member) (all n (List.mem_append_left _ member))
      rwa [none, List.nil_append]

end Network

namespace Sending

/-- The frames have numbers of a counter, of which so many are taken: in the order of the counter, no two the
same, and ascending, unless the counter starts again from zero between two of them. -/
structure Numbered (uid : UInt64) (count : Nat) (log : List Sending) : Prop where
  inOrder : (log.map (·.frame.uid)).Sublist (Network.numbersFrom uid count)
  distinct : (log.map (·.frame.uid)).Nodup
  ascending_iff : (log.map (·.frame.uid)).Pairwise (· < ·) ↔
    (∀ n ∈ log.map (·.frame.uid), uid.toNat ≤ n) ∨ ∀ n ∈ log.map (·.frame.uid), n < uid.toNat
  ascending : uid.toNat + count ≤ UInt64.size → (log.map (·.frame.uid)).Pairwise (· < ·)

variable {uid : UInt64} {count : Nat} {log : List Sending}

theorem numbered_of_sublist (few : count ≤ UInt64.size)
    (inOrder : (log.map (·.frame.uid)).Sublist (Network.numbersFrom uid count)) :
    Numbered uid count log := by
  have start := uid.toNat_lt_size
  -- the numbers before the counter starts again, and those after it
  obtain ⟨early, late, parts, fromUid, fromZero⟩ :=
    List.sublist_append_iff.mp (Network.numbersFrom_eq few ▸ inOrder)
  have earlyAscends : early.Pairwise (· < ·) := List.Pairwise.sublist fromUid List.pairwise_lt_range'
  have lateAscends : late.Pairwise (· < ·) := List.Pairwise.sublist fromZero List.pairwise_lt_range
  have earlyLarge : ∀ n ∈ early, uid.toNat ≤ n := fun n member =>
    (List.mem_range'_1.mp (fromUid.subset member)).1
  have lateSmall : ∀ n ∈ late, n < uid.toNat := by
    intro n member
    have below := List.mem_range.mp (fromZero.subset member)
    omega
  refine ⟨inOrder, ?distinct, ?ascending_iff, ?ascending⟩
  case distinct =>
    rw [parts, List.nodup_append]
    refine ⟨earlyAscends.imp Nat.ne_of_lt, lateAscends.imp Nat.ne_of_lt, ?_⟩
    intro n large m small
    exact Nat.ne_of_gt (Nat.lt_of_lt_of_le (lateSmall m small) (earlyLarge n large))
  case ascending_iff =>
    rw [parts]
    exact Network.ascending_append_iff earlyAscends lateAscends earlyLarge lateSmall
  case ascending =>
    intro room
    have none : late = [] := by
      rw [Nat.sub_eq_zero_of_le room] at fromZero
      exact List.sublist_nil.mp fromZero
    rw [parts, none, List.append_nil]
    exact earlyAscends

end Sending

/-- An event takes a number for a frame if it is the injection of a flow with frames left, from a host. -/
def NetworkEvent.takesNumber (net : Network) : NetworkEvent → Bool
  | .deliver _ _ _ => false
  | .inject flow => flow.remaining != 0 && (net.host? flow.source).isSome

/-- How many numbers are taken in turns. -/
def Turn.numbersTaken (net : Network) (turns : List Turn) : Nat :=
  turns.countP (·.entry.event.takesNumber net)

namespace NetworkEvent

variable {now : Time} {event : NetworkEvent} {net net' : Network} {after : Activity} {sent : List Sending}

theorem takesNumber_of_nodes (same : net'.nodes = net.nodes) :
    event.takesNumber net' = event.takesNumber net := by
  cases event with
  | deliver => rfl
  | inject flow => rw [takesNumber, takesNumber, Network.host?_of_nodes same]

/-- An event that takes a number moves the counter on, and a frame that is sent has that number. Any other event
leaves the counter, and nothing is sent. -/
theorem Sends.number (sends : event.Sends now ⟨net, []⟩ sent after) :
    (event.takesNumber net = true ∧ after.network.nextUid = net.nextUid + 1 ∧
        (sent.map (·.frame.uid)).Sublist [net.nextUid.toNat]) ∨
      (event.takesNumber net = false ∧ after.network.nextUid = net.nextUid ∧ sent = []) := by
  cases sends with
  | @deliver node port frame _ done =>
    refine .inr ⟨rfl, ?_, rfl⟩
    exact congrArg HostSide.nextUid (Activity.deliver_eq_ok done)
  | silent does =>
    cases does with
    | exhausted nothing => exact .inr ⟨by rw [takesNumber, nothing]; rfl, rfl, rfl⟩
    | noHost missing => exact .inr ⟨by rw [takesNumber, missing]; exact Bool.and_false _, rfl, rfl⟩
    | mixed more host => exact .inl ⟨by rw [takesNumber, more, host]; rfl, rfl, List.nil_sublist _⟩
  | @send flow _ _ _ _ does =>
    obtain ⟨left, n, ip, mac, more, found, host, makes, side⟩ := does.hostSide_of_some
    have address : net.host? flow.source = some (ip, mac) := Network.host?_of_node? found host
    refine .inl ⟨by rw [takesNumber, more, address]; rfl, congrArg HostSide.nextUid side, ?_⟩
    rw [List.map_singleton, makes.uid]
    exact .refl _

end NetworkEvent

namespace Turns

variable {s t : Scheduler NetworkEvent} {net last : Network} {turns : List Turn}

/-- The frames that are sent in turns have, in order, numbers that are taken in them, and the counter moves on by
as many. -/
theorem numbers (run : Turns s net turns t last) (idle : ∀ n ∈ net.nodes, n.busy = false) :
    ((turns.flatMap Turn.sent).map (·.frame.uid)).Sublist
        (Network.numbersFrom net.nextUid (Turn.numbersTaken net turns)) ∧
      last.nextUid = net.nextUid + .ofNat (Turn.numbersTaken net turns) := by
  induction run with
  | done => exact ⟨.slnil, (UInt64.add_zero _).symm⟩
  | @next s m t net last p after sent turns taken done sends rest ih =>
    have nodes : after.network.nodes = net.nodes :=
      (Network.Receives.event _).nodes_eq idle done
    have same : Turn.numbersTaken after.network turns = Turn.numbersTaken net turns := by
      unfold Turn.numbersTaken
      exact List.countP_congr fun turn _ => by rw [NetworkEvent.takesNumber_of_nodes nodes]
    obtain ⟨inOrder, counter⟩ := ih (nodes ▸ idle)
    rw [same] at inOrder counter
    rw [List.flatMap_cons, List.map_append]
    obtain ⟨takes, next, number⟩ | ⟨none, next, silent⟩ := sends.number
    · have count : Turn.numbersTaken net (⟨p, sent, m.recorded after.planned⟩ :: turns) =
          Turn.numbersTaken net turns + 1 := List.countP_cons_of_pos takes
      rw [next] at inOrder counter
      rw [count, Network.numbersFrom_succ, counter, UInt64.ofNat_add]
      exact ⟨number.append inOrder, by ac_rfl⟩
    · have count : Turn.numbersTaken net (⟨p, sent, m.recorded after.planned⟩ :: turns) =
          Turn.numbersTaken net turns := List.countP_cons_of_neg (by rw [none]; exact Bool.false_ne_true)
      rw [next] at inOrder counter
      rw [count, silent]
      exact ⟨inOrder, counter⟩

theorem numbersTaken_eq (run : Turns s net turns t last) (idle : ∀ n ∈ net.nodes, n.busy = false)
    (few : Turn.numbersTaken net turns < UInt64.size) :
    Turn.numbersTaken net turns = (last.nextUid - net.nextUid).toNat := by
  rw [(run.numbers idle).2, UInt64.add_comm, UInt64.add_sub_cancel, UInt64.toNat_ofNat_of_lt' few]

end Turns

namespace NetworkSimulation

variable {s after : NetworkSimulation}

/-- A complete run is made of turns. There are enough numbers for it: it executes fewer events than there are
numbers. -/
theorem exists_turns_of_run (done : run s = .ok () after) :
    ∃ turns, Turns s.scheduler s.network turns after.scheduler after.network ∧
      after.scheduler.queue = [] ∧ Turn.numbersTaken s.network turns < UInt64.size := by
  have ended := advance_eq_ok done
  obtain ⟨new, ran, events, none⟩ := Scheduler.runWhile_eq_ok ended
  obtain ⟨turns, run, entries⟩ := exists_turns events
  refine ⟨turns, run, Scheduler.next?_eq_none_iff_queue.mp none, ?_⟩
  have few : Scheduler.maxEvents < UInt64.size := by decide
  calc Turn.numbersTaken s.network turns
      ≤ turns.length := List.countP_le_length
    _ = ran.length := by rw [← entries, List.length_map]
    _ ≤ Scheduler.maxEvents - s.scheduler.executed := events.length_le ended
    _ ≤ Scheduler.maxEvents := Nat.sub_le _ _
    _ < UInt64.size := few

/-- Any number can be the next one. -/
theorem Reachable.withUid (reached : Reachable s) (uid : UInt64) :
    Reachable { s with network := { s.network with nextUid := uid } } := by
  have taken (count : Nat) : Reachable
      { s with network := { s.network with nextUid := s.network.nextUid + .ofNat count } } := by
    induction count with
    | zero =>
      rw [show s.network.nextUid + .ofNat 0 = s.network.nextUid from UInt64.add_zero _]
      exact reached
    | succ count ih =>
      rw [UInt64.ofNat_add, ← UInt64.add_assoc]
      exact ih.takeUid
  have far := taken (uid - s.network.nextUid).toNat
  rwa [UInt64.ofNat_toNat, UInt64.add_comm, UInt64.sub_add_cancel] at far

end NetworkSimulation

end Switchyard
