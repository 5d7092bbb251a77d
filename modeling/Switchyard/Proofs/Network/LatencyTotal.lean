import Switchyard.Proofs.Network.Receipts

/-!
# The total of the latencies

The total is a count of 64 bits, and while a simulation goes on it is the sum of the latencies of all frames
received that say when they were sent. Nothing keeps that sum small: a link without bandwidth delays each
frame by a quarter of all time. The simulation comes down by the total exactly where the sum, with the
receipts of the next event, no longer fits.
-/

namespace Switchyard

open Sequencing

namespace Receipt

/-- The sum of the latencies in a log. -/
def latencySum (log : List Receipt) : Nat := (latencies log).sum

theorem latencySum_singleton (r : Receipt) : latencySum [r] = r.latency?.getD 0 := by
  unfold latencySum latencies
  cases latency : r.latency? <;> simp [latency]

theorem latencySum_append (log more : List Receipt) :
    latencySum (log ++ more) = latencySum log + latencySum more := by
  rw [latencySum, latencies, List.filterMap_append, List.sum_append]
  rfl

end Receipt

namespace Activity

variable {s t : Activity} {now : Time}

/-! ## What cannot come down by the total -/

theorem avoids_outgoing (node : NodeId) (port : Nat) : Avoids .latencyOverflow (outgoing node port) := by
  unfold outgoing
  split
  · exact avoids_pure _ _
  · exact ((looksUp_requireNode node).avoids (by simp)).bind fun _ => avoids_pure _ _

theorem avoids_transmit (now : Time) (node : NodeId) (port : Nat) (frame : Frame) :
    Avoids .latencyOverflow (transmit now node port frame) := by
  refine (avoids_outgoing node port).bind fun link => ?_
  cases link with
  | none => exact avoids_modify _ _
  | some id =>
    refine (avoids_get _).bind fun s => ?_
    exact Avoids.bind (avoids_modify _ _) fun _ => avoids_modify _ _

theorem avoids_sendFromHost (now : Time) (node : NodeId) (frame : Frame) :
    Avoids .latencyOverflow (sendFromHost now node frame) := by
  refine ((looksUp_requireNode node).avoids (by simp)).bind fun n => ?_
  exact Avoids.bind (avoids_modify _ _) fun _ => avoids_transmit now node 1 frame

theorem avoids_emitAll (now : Time) (node : NodeId) (emissions : List Emission) :
    Avoids .latencyOverflow (emissions.forM (emit now node)) :=
  forM_of_bind (avoids_pure _ _) (fun first second => first.bind fun _ => second)
    fun e => Avoids.bind (avoids_modify _ _) fun _ => avoids_transmit now node e.port e.frame

theorem avoids_forward (now : Time) (node : NodeId) (name : String) (pipeline : Pipeline)
    (id : NumberingId) (port : Nat) (frame : Frame) :
    Avoids .latencyOverflow (forward now node name pipeline id port frame) := by
  have processed : Avoids .latencyOverflow (process now name pipeline id port frame) := by
    refine (avoids_get _).bind fun s => ?_
    dsimp only
    split
    · exact avoids_throw (by simp)
    · exact Avoids.bind (avoids_modify _ _) fun _ => avoids_pure _ _
  refine Avoids.bind (avoids_modify _ _) fun _ => ?_
  exact processed.bind fun emissions => avoids_emitAll now node emissions

theorem avoids_inject (flow : Flow) (now : Time) : Avoids .latencyOverflow (flow.inject now) := by
  refine (avoids_get _).bind fun s => ?_
  dsimp only
  split
  case h_1 => exact avoids_pure _ _
  case h_2 => exact avoids_pure _ _
  case h_3 left ip mac _ _ =>
    split
    case isTrue =>
      intro s t failed
      cases failed
    case isFalse =>
      refine Avoids.bind (avoids_modify _ _) fun _ => ?_
      split
      · exact avoids_pure _ _
      · refine (avoids_sendFromHost _ _ _).bind fun _ => ?_
        split
        · exact avoids_modify _ _
        · exact avoids_pure _ _

/-! ## What can -/

/-- A host comes down by a latency that does not fit on top of the total. -/
theorem receive_overflows_iff (r : Receipt) (fits : s.network.stats.totalLatency ≤ Time.maxNanos) :
    (∃ t, receive r.time r.name r.frame s = .error .latencyOverflow t) ↔
      Time.maxNanos < s.network.stats.totalLatency + Receipt.latencySum [r] := by
  rw [Receipt.latencySum_singleton, Receipt.latency?]
  unfold receive countLatency
  cases r.frame.sent? with
  | none =>
    refine iff_of_false ?_ (Nat.not_lt.mpr fits)
    rintro ⟨t, failed⟩
    cases failed
  | some sent =>
    let counted : Activity := { s with network := { s.network with
      stats := (s.network.stats.countDelivered r.name r.frame.length).countLatency
        (r.time.toNat - sent.toNat) } }
    show (∃ t, (if Time.maxNanos < counted.network.stats.totalLatency then throw .latencyOverflow
      else pure () : ActivityM Unit) counted = .error .latencyOverflow t) ↔ _
    by_cases large : Time.maxNanos < counted.network.stats.totalLatency
    · rw [if_pos large]
      exact iff_of_true ⟨counted, rfl⟩ large
    · rw [if_neg large]
      refine iff_of_false ?_ large
      rintro ⟨t, failed⟩
      cases failed

variable {node : NodeId} {n : Node} {port : Nat} {frame : Frame}

/-- A delivery to a free node fails where its handling does. -/
theorem deliver_fails_iff {fault : Fault} (found : s.network.node? node = some n) (idle : n.busy = false) :
    (∃ t, deliver now node port frame s = .error fault t) ↔
      ∃ t, handle now node n port frame { s with network := s.network.setBusy node true } =
        .error fault t := by
  have handled : deliver now node port frame s =
      (handle now node n port frame >>= fun _ => change (·.setBusy node false))
        { s with network := s.network.setBusy node true } := by
    unfold deliver
    rw [state_bind_of_ok ((looksUp_requireNode node).found found), if_neg (by simp [idle])]
    rfl
  rw [handled]
  constructor
  · rintro ⟨t, failed⟩
    rcases state_bind_eq_error.mp failed with early | ⟨_, m, -, late⟩
    · exact ⟨t, early⟩
    · cases late
  · rintro ⟨t, failed⟩
    exact ⟨t, state_bind_eq_error.mpr (.inl failed)⟩

/-- A delivery comes down by the total where it delivers to a host, and the latency does not fit. -/
theorem deliver_overflows_iff (fits : s.network.stats.totalLatency ≤ Time.maxNanos) :
    (∃ t, deliver now node port frame s = .error .latencyOverflow t) ↔
      Time.maxNanos < s.network.stats.totalLatency +
        Receipt.latencySum (s.network.receipts now (.deliver node port frame)) := by
  have quiet : ¬Time.maxNanos < s.network.stats.totalLatency + Receipt.latencySum [] :=
    Nat.not_lt.mpr fits
  cases found : s.network.node? node with
  | none =>
    simp only [Network.receipts, found]
    refine iff_of_false ?_ quiet
    rintro ⟨t, failed⟩
    rcases state_bind_eq_error.mp failed with early | ⟨n, m, there, -⟩
    · exact (looksUp_requireNode node).avoids (by simp) early
    · rw [(looksUp_requireNode node).missing found] at there
      cases there
  | some n =>
    obtain ⟨name, kind, ports, busy⟩ := n
    cases busy with
    | true =>
      have nothing : s.network.receipts now (.deliver node port frame) = [] := by
        cases kind <;> simp only [Network.receipts, found]
      rw [nothing]
      refine iff_of_false ?_ quiet
      rintro ⟨t, failed⟩
      unfold deliver at failed
      rw [state_bind_of_ok ((looksUp_requireNode node).found found)] at failed
      cases failed
    | false =>
      rw [deliver_fails_iff found rfl]
      cases kind with
      | host ip mac =>
        have still := s.network.stats_setBusy node true
        have received := receive_overflows_iff
          (s := { s with network := s.network.setBusy node true }) ⟨node, name, now, frame⟩
          (by rw [still]; exact fits)
        simp only [Network.receipts, found]
        rw [still] at received
        exact received
      | switch pipeline id =>
        simp only [Network.receipts, found]
        refine iff_of_false ?_ quiet
        rintro ⟨t, failed⟩
        exact avoids_forward _ _ _ _ _ _ _ failed

/-- Whether an event comes down by the total. -/
theorem event_overflows_iff {event : NetworkEvent} (fits : s.network.stats.totalLatency ≤ Time.maxNanos) :
    (∃ t, event.activity now s = .error .latencyOverflow t) ↔
      Time.maxNanos < s.network.stats.totalLatency +
        Receipt.latencySum (s.network.receipts now event) := by
  cases event with
  | inject flow =>
    refine iff_of_false ?_ (Nat.not_lt.mpr fits)
    rintro ⟨t, failed⟩
    exact avoids_inject flow now failed
  | deliver node port frame => exact deliver_overflows_iff fits

end Activity

theorem Network.perform_eq_error_iff {net : Network} {op : ActivityM Unit} {fault : Fault} :
    net.perform op = .error fault ↔ ∃ t, op ⟨net, []⟩ = .error fault t := by
  unfold perform
  cases op ⟨net, []⟩ <;> simp

namespace Network.Receives

variable {net : Network} {now : Time} {op : Time → ActivityM Unit} {log more : List Receipt}

/-- Whether something that is made to happen comes down by the total. -/
theorem overflows_iff (receives : net.Receives now op more) (tallies : net.stats.Tallies log)
    (fits : Receipt.latencySum log ≤ Time.maxNanos) :
    (∃ t, op now ⟨net, []⟩ = .error .latencyOverflow t) ↔
      Time.maxNanos < Receipt.latencySum (log ++ more) := by
  have total : net.stats.totalLatency = Receipt.latencySum log := tallies.latency
  have quiet : ¬Time.maxNanos < Receipt.latencySum (log ++ []) := by
    rw [List.append_nil]
    exact Nat.not_lt.mpr fits
  cases receives with
  | send node frame =>
    refine iff_of_false ?_ quiet
    rintro ⟨t, failed⟩
    exact Activity.avoids_sendFromHost now node frame failed
  | transmit node port frame =>
    refine iff_of_false ?_ quiet
    rintro ⟨t, failed⟩
    exact Activity.avoids_transmit now node port frame failed
  | event event =>
    rw [Receipt.latencySum_append, ← total]
    exact Activity.event_overflows_iff (s := ⟨net, []⟩) (total ▸ fits)

/-- What has happened has not come down. -/
theorem fits {after : Activity} (receives : net.Receives now op more) (tallies : net.stats.Tallies log)
    (fits : Receipt.latencySum log ≤ Time.maxNanos) (done : op now ⟨net, []⟩ = .ok () after) :
    Receipt.latencySum (log ++ more) ≤ Time.maxNanos := by
  refine Nat.not_lt.mp fun large => ?_
  obtain ⟨t, failed⟩ := (receives.overflows_iff tallies fits).mpr large
  rw [done] at failed
  cases failed

end Network.Receives

namespace NetworkSimulation

variable {s t after : NetworkSimulation} {log heard : List Receipt} {isWanted : Time → Bool}

/-- While a simulation goes on, the sum of the latencies fits. -/
theorem Received.fits (past : Received s log) : Receipt.latencySum log ≤ Time.maxNanos := by
  induction past with
  | initial => exact Nat.zero_le _
  | build _ _ ih => exact ih
  | happen past receives done ih => exact receives.fits past.tallies ih done
  | schedule _ _ ih => exact ih
  | execute past _ done ih => exact (Network.Receives.event _).fits past.tallies ih done
  | wait _ _ ih => exact ih

/-! ## Runs -/

/-- A stretch of a run, with what hosts receive in it. -/
inductive Stretch (isWanted : Time → Bool) :
    NetworkSimulation → List Receipt → NetworkSimulation → Prop where
  | done {s : NetworkSimulation} : Stretch isWanted s [] s
  | next {s t : NetworkSimulation} {p : Pending NetworkEvent} {m : Scheduler NetworkEvent}
      {after : Activity} {heard : List Receipt}
      (taken : s.scheduler.next? isWanted = some (p, m))
      (done : p.event.activity m.now ⟨s.network, []⟩ = .ok () after)
      (rest : Stretch isWanted ⟨m.scheduleAll after.planned, after.network⟩ heard t) :
      Stretch isWanted s (s.network.receipts m.now p.event ++ heard) t

theorem Stretch.received (stretch : Stretch isWanted s heard t) (past : Received s log) :
    Received t (log ++ heard) := by
  induction stretch generalizing log with
  | done => rwa [List.append_nil]
  | next taken done _ ih =>
    rw [← List.append_assoc]
    exact ih (past.execute taken done)

theorem exists_stretch {new ran : List (Pending NetworkEvent)} {scheduler last : Scheduler NetworkEvent}
    {net net' : Network}
    (run : Scheduler.Executes Network.behaviour isWanted scheduler net new ran last net') :
    ∃ heard, Stretch isWanted ⟨scheduler, net⟩ heard ⟨last, net'⟩ := by
  induction run with
  | done => exact ⟨[], .done⟩
  | next taken happens _ ih =>
    obtain ⟨after, happened, rfl, rfl⟩ := Balanced.perform_eq_ok happens
    obtain ⟨heard, rest⟩ := ih
    exact ⟨_, .next taken happened rest⟩

theorem Stretch.executes (stretch : Stretch isWanted s heard t) :
    ∃ new ran, Scheduler.Executes Network.behaviour isWanted s.scheduler s.network new ran
      t.scheduler t.network := by
  induction stretch with
  | done => exact ⟨[], [], .done⟩
  | @next s t p m after heard taken done _ ih =>
    obtain ⟨new, ran, rest⟩ := ih
    refine ⟨_, _, .next taken ?_ rest⟩
    show s.network.perform (p.event.activity m.now) = _
    unfold Network.perform
    rw [done]

/-- After a stretch of a run, there is an event to execute with whose receipts the sum of the latencies
no longer fits. -/
def Overflows (isWanted : Time → Bool) (s : NetworkSimulation) (log : List Receipt) : Prop :=
  ∃ heard t p m, Stretch isWanted s heard t ∧ t.scheduler.executed < Scheduler.maxEvents ∧
    t.scheduler.next? isWanted = some (p, m) ∧
    Time.maxNanos < Receipt.latencySum (log ++ heard ++ t.network.receipts m.now p.event)

theorem runWhile_overflows_iff (past : Received s log) :
    s.scheduler.runWhile Network.behaviour isWanted (Scheduler.maxEvents - s.scheduler.executed) s.network =
        .error (.event .latencyOverflow) ↔ s.Overflows isWanted log := by
  rw [Scheduler.runWhile_eq_fault_iff]
  constructor
  · rintro ⟨new, ran, scheduler, net, p, m, run, room, next, failed⟩
    obtain ⟨heard, stretch⟩ := exists_stretch run
    have further := stretch.received past
    have counted := run.executed_eq
    refine ⟨heard, _, p, m, stretch, by dsimp only; omega, next, ?_⟩
    exact ((Network.Receives.event p.event).overflows_iff further.tallies further.fits).mp
      (Network.perform_eq_error_iff.mp failed)
  · rintro ⟨heard, t, p, m, stretch, room, next, large⟩
    obtain ⟨new, ran, run⟩ := stretch.executes
    have further := stretch.received past
    have counted := run.executed_eq
    refine ⟨new, ran, t.scheduler, t.network, p, m, run, by omega, next, ?_⟩
    exact Network.perform_eq_error_iff.mpr
      (((Network.Receives.event p.event).overflows_iff further.tallies further.fits).mpr large)

theorem advance_eq_error_iff {result : Except (RunFault Fault) (Scheduler NetworkEvent × Network)}
    {fault : RunFault Fault} : advance result s = .error fault s ↔ result = .error fault := by
  cases result with
  | error other =>
    show EStateM.Result.error other s = .error fault s ↔ _
    simp
  | ok pair =>
    show EStateM.Result.ok () _ = .error fault s ↔ _
    simp

theorem act_eq_fault_iff {op : Time → ActivityM Unit} {fault : Fault} :
    act op s = .error (.event fault) s ↔ ∃ t, op s.scheduler.now ⟨s.network, []⟩ = .error fault t := by
  rw [← Network.perform_eq_error_iff]
  unfold act
  rw [get_bind]
  cases performed : s.network.perform (op s.scheduler.now) with
  | error other =>
    show EStateM.Result.error (RunFault.event other) s = .error (.event fault) s ↔ _
    simp
  | ok pair =>
    show EStateM.Result.ok () _ = .error (RunFault.event fault) s ↔ _
    simp

/-- Whatever is made to happen, hosts receive something of it, or nothing. -/
theorem Outside.exists_receives {op : Time → ActivityM Unit} (outside : Outside op) (net : Network)
    (now : Time) : ∃ more, net.Receives now op more := by
  cases outside with
  | send node frame => exact ⟨_, .send node frame⟩
  | transmit node port frame => exact ⟨_, .transmit node port frame⟩
  | event event => exact ⟨_, .event event⟩

theorem run_overflows_iff (past : Received s log) :
    run s = .error (.event .latencyOverflow) s ↔ s.Overflows (fun _ => true) log := by
  rw [← runWhile_overflows_iff past]
  exact advance_eq_error_iff

theorem runUntil_overflows_iff (past : Received s log) (limit : Time) :
    runUntil limit s = .error (.event .latencyOverflow) s ↔
      s.Overflows (fun due => due ≤ limit) log := by
  rw [← runWhile_overflows_iff past]
  refine advance_eq_error_iff.trans ?_
  unfold Scheduler.runUntil
  cases s.scheduler.runWhile Network.behaviour (fun due => due ≤ limit)
      (Scheduler.maxEvents - s.scheduler.executed) s.network with
  | error other => exact Iff.rfl
  | ok pair =>
    show Except.ok _ = .error (RunFault.event Fault.latencyOverflow) ↔ _
    simp

/-- The total of the latencies is exact as long as a simulation goes on: it is the sum, over all frames
received that say when they were sent, of the time under way, and the mean is taken of that sum. But the
total has 64 bits, and that the sum fits is no law of networks: what happens from outside, a run, and a run
up to a time come down by the total exactly where the sum, with the receipts of the next event, is too
large. -/
theorem latency_overflows_iff (past : Received s log) :
    (s.network.stats.totalLatency = Receipt.latencySum log ∧
      Receipt.latencySum log ≤ Time.maxNanos ∧
      s.network.stats.averageLatency = Receipt.latencySum log / log.length) ∧
    (∀ op, Outside op →
      (act op s = .error (.event .latencyOverflow) s ↔
        ∃ more, s.network.Receives s.scheduler.now op more ∧
          Time.maxNanos < Receipt.latencySum (log ++ more)) ∧
      ∀ after, act op s = .ok () after → ∃ more, Received after (log ++ more)) ∧
    ((run s = .error (.event .latencyOverflow) s ↔ s.Overflows (fun _ => true) log) ∧
      ∀ after, run s = .ok () after →
        ∃ heard, Stretch (fun _ => true) s heard after ∧ Received after (log ++ heard)) ∧
    ∀ limit,
      (runUntil limit s = .error (.event .latencyOverflow) s ↔
        s.Overflows (fun due => due ≤ limit) log) ∧
      ∀ after, runUntil limit s = .ok () after →
        ∃ heard last, Stretch (fun due => due ≤ limit) s heard last ∧ after.network = last.network ∧
          Received after (log ++ heard) := by
  have tallies := past.tallies
  refine ⟨⟨tallies.latency, past.fits, ?average⟩, fun op outside => ⟨?act, fun after done => ?acted⟩,
    ⟨run_overflows_iff past, fun after done => ?run⟩,
    fun limit => ⟨runUntil_overflows_iff past limit, fun after done => ?runUntil⟩⟩
  case average => rw [Stats.averageLatency, tallies.frames, tallies.latency, Receipt.latencySum]
  case act =>
    obtain ⟨more, receives⟩ := outside.exists_receives s.network s.scheduler.now
    rw [act_eq_fault_iff]
    constructor
    · intro failed
      exact ⟨more, receives, (receives.overflows_iff tallies past.fits).mp failed⟩
    · rintro ⟨more, receives, large⟩
      exact (receives.overflows_iff tallies past.fits).mpr large
  case acted => exact past.act_eq_ok outside done
  case run =>
    obtain ⟨new, ran, events, -⟩ := Scheduler.runWhile_eq_ok (advance_eq_ok done)
    obtain ⟨heard, stretch⟩ := exists_stretch events
    exact ⟨heard, stretch, stretch.received past⟩
  case runUntil =>
    obtain ⟨new, ran, last, events, -, moved⟩ := Scheduler.runUntil_eq_ok (advance_eq_ok done)
    obtain ⟨heard, stretch⟩ := exists_stretch events
    have waited := (stretch.received past).wait limit
    rw [← moved] at waited
    exact ⟨heard, _, stretch, rfl, waited⟩

/-- Over a link without bandwidth the first of three frames is under way for a quarter of all time, the
second for a half of it, and the third for three quarters. The third no longer fits on top of the other
two. -/
theorem latency_overflows_iff_stalled :
    ∃ s, Received s [] ∧ s.network.links.map (·.bandwidth) = [0, 0] ∧
      run s = .error (.event .latencyOverflow) s ∧ s.Overflows (fun _ => true) [] := by
  have hosts := (Received.initial.build (.addHost "a" (.v4 (.ofNat 1)))).build
    (.addHost "b" (.v4 (.ofNat 2)))
  have joined := hosts.build
    (.connect (show Network.connect 0 1 .zero 0 _ = .ok _ _ from rfl))
  have waiting := joined.schedule ⟨.zero, .inject ⟨1, 0, .v4 (.ofNat 2), 100, 3, .zero⟩⟩
  have overflows := (latency_overflows_iff waiting).2.2.1.1
  have large := overflows.mp rfl
  exact ⟨_, waiting, rfl, overflows.mpr large, large⟩

end NetworkSimulation

end Switchyard
