import Switchyard.Proofs.Network.Receipts

/-!
# The turns of a run

A turn is one event of a run with what comes of it: the frames that hosts send at it, and the entries that it
puts into the queue. Only injections make hosts send, and all that hosts send is counted under their names, so
that the counts after a run are those before it and what was sent in its turns.
-/

namespace Switchyard

/-- A frame that a host has sent, with the time. -/
structure Sending where
  host : NodeId
  name : String
  time : Time
  frame : Frame

namespace Sending

/-- The bytes in a log. -/
def bytes (log : List Sending) : Nat := (log.map (·.frame.length)).sum

/-- What was sent under a name. -/
def under (name : String) (log : List Sending) : List Sending := log.filter (·.name == name)

variable {log more : List Sending} {name : String}

theorem bytes_append : bytes (log ++ more) = bytes log + bytes more := by
  rw [bytes, List.map_append, List.sum_append, bytes, bytes]

theorem under_append (name : String) : under name (log ++ more) = under name log ++ under name more :=
  List.filter_append log more

theorem under_of_own (own : ∀ x ∈ log, x.name = name) : under name log = log :=
  List.filter_eq_self.mpr fun x member => beq_iff_eq.mpr (own x member)

theorem under_of_other {other : String} (own : ∀ x ∈ log, x.name = name) (apart : other ≠ name) :
    under other log = [] :=
  List.filter_eq_nil_iff.mpr fun x member same =>
    apart ((beq_iff_eq.mp same).symm.trans (own x member))

theorem bytes_perm (perm : log.Perm more) : bytes log = bytes more := (perm.map _).sum_eq

theorem under_perm (perm : log.Perm more) (name : String) : (under name log).Perm (under name more) :=
  perm.filter _

end Sending

namespace Stats

/-- What hosts have sent since `before`, under every name, is in a log. -/
structure Sent (before : Stats) (log : List Sending) (stats : Stats) : Prop where
  ordered : HostStats.Ordered stats.hosts
  frames : ∀ name, ((stats.host? name).getD .zero).sentFrames =
    ((before.host? name).getD .zero).sentFrames + (Sending.under name log).length
  bytes : ∀ name, ((stats.host? name).getD .zero).sentBytes =
    ((before.host? name).getD .zero).sentBytes + Sending.bytes (Sending.under name log)

variable {before stats other : Stats} {log more : List Sending}

theorem sent_refl (ordered : HostStats.Ordered before.hosts) : Sent before [] before :=
  ⟨ordered, fun _ => rfl, fun _ => rfl⟩

/-- Only the counts of hosts matter. -/
theorem Sent.of_hosts (sent : Sent before log stats) (same : other.hosts = stats.hosts) :
    Sent before log other where
  ordered := same ▸ sent.ordered
  frames name := by rw [host?, same, ← sent.frames name, host?]
  bytes name := by rw [host?, same, ← sent.bytes name, host?]

/-- A name counts what is sent under it. -/
theorem Sent.onHost {change : HostStats → HostStats} {name : String} (sent : Sent before log stats)
    (own : ∀ x ∈ more, x.name = name)
    (frames : ∀ h, (change h).sentFrames = h.sentFrames + more.length)
    (bytes : ∀ h, (change h).sentBytes = h.sentBytes + Sending.bytes more) :
    Sent before (log ++ more) (stats.onHost name change) where
  ordered := HostStats.ordered_update sent.ordered name change
  frames other := by
    rw [host?_onHost sent.ordered, Sending.under_append]
    split
    case isTrue same =>
      rw [same, Option.getD_some, frames, sent.frames, Sending.under_of_own own, List.length_append,
        Nat.add_assoc]
    case isFalse apart => rw [sent.frames, Sending.under_of_other own apart, List.append_nil]
  bytes other := by
    rw [host?_onHost sent.ordered, Sending.under_append]
    split
    case isTrue same =>
      rw [same, Option.getD_some, bytes, sent.bytes, Sending.under_of_own own, Sending.bytes_append,
        Nat.add_assoc]
    case isFalse apart => rw [sent.bytes, Sending.under_of_other own apart, List.append_nil]

/-- What a host receives is no matter of what it has sent. -/
theorem Sent.receive (sent : Sent before log stats) (r : Receipt) :
    Sent before log (stats.afterReceipt r) := by
  have counted : Sent before (log ++ []) (stats.onHost r.name (·.countReceived r.frame.length)) :=
    sent.onHost (by simp) (fun _ => rfl) fun _ => rfl
  rw [List.append_nil] at counted
  refine counted.of_hosts ?_
  unfold afterReceipt
  cases r.latency? <;> rfl

theorem Sent.receiveAll (sent : Sent before log stats) (receipts : List Receipt) :
    Sent before log (receipts.foldl afterReceipt stats) := by
  induction receipts generalizing stats with
  | nil => exact sent
  | cons r receipts ih => exact ih (sent.receive r)

end Stats

/-- What hosts send at an event: nothing at a delivery, and the next frame of a flow at its injection, if there
is one. -/
inductive NetworkEvent.Sends (now : Time) (s : Activity) :
    NetworkEvent → List Sending → Activity → Prop where
  | deliver {node : NodeId} {port : Nat} {frame : Frame} {t : Activity}
      (done : Activity.deliver now node port frame s = .ok () t) :
      Sends now s (.deliver node port frame) [] t
  | silent {flow : Flow} {t : Activity} (does : Activity.Injects flow now s none t) :
      Sends now s (.inject flow) [] t
  | send {flow : Flow} {n : Node} {frame : Frame} {t : Activity}
      (found : s.network.node? flow.source = some n)
      (does : Activity.Injects flow now s (some frame) t) :
      Sends now s (.inject flow) [⟨flow.source, n.name, now, frame⟩] t

namespace NetworkEvent

variable {now : Time} {event : NetworkEvent} {s t : Activity} {sent log : List Sending} {before : Stats}

theorem sends_of_ok (done : event.activity now s = .ok () t) : ∃ sent, event.Sends now s sent t := by
  cases event with
  | deliver node port frame => exact ⟨[], .deliver done⟩
  | inject flow =>
    obtain ⟨frame, does⟩ := Activity.injects_of_ok done
    cases frame with
    | none => exact ⟨[], .silent does⟩
    | some frame =>
      obtain ⟨left, n, ip, mac, -, found, -⟩ := does.hostSide_of_some
      exact ⟨_, .send found does⟩

/-- What is sent at an event is counted. -/
theorem Sends.counted (sends : event.Sends now s sent t) (past : Stats.Sent before log s.hostSide.counts) :
    Stats.Sent before (log ++ sent) t.hostSide.counts := by
  cases sends with
  | deliver done =>
    rw [Activity.deliver_eq_ok done, List.append_nil]
    exact past.receiveAll _
  | silent does =>
    rw [does.hostSide_of_none, List.append_nil]
    exact past
  | send found does =>
    obtain ⟨left, n, ip, mac, -, found', -, -, side⟩ := does.hostSide_of_some
    obtain rfl := Option.some.inj (found.symm.trans found')
    rw [side]
    exact past.onHost (by simp) (fun _ => rfl) fun _ => rfl

end NetworkEvent

/-- An event of a run with what comes of it: the entry that was taken from the queue, the frames that hosts
sent, and the entries that were put into the queue. -/
structure Turn where
  entry : Pending NetworkEvent
  sent : List Sending
  scheduled : List (Pending NetworkEvent)

/-- The turns of a run, one after another. -/
inductive Turns : Scheduler NetworkEvent → Network → List Turn → Scheduler NetworkEvent → Network →
    Prop where
  | done {s : Scheduler NetworkEvent} {net : Network} : Turns s net [] s net
  | next {s m t : Scheduler NetworkEvent} {net last : Network} {p : Pending NetworkEvent}
      {after : Activity} {sent : List Sending} {turns : List Turn}
      (taken : s.next? (fun _ => true) = some (p, m))
      (done : p.event.activity m.now ⟨net, []⟩ = .ok () after)
      (sends : p.event.Sends m.now ⟨net, []⟩ sent after)
      (rest : Turns (m.scheduleAll after.planned) after.network turns t last) :
      Turns s net (⟨p, sent, m.recorded after.planned⟩ :: turns) t last

variable {s t : Scheduler NetworkEvent} {net last : Network} {turns : List Turn}

/-- Every stretch of a run is made of turns, one for each event. -/
theorem exists_turns {new ran : List (Pending NetworkEvent)}
    (run : Scheduler.Executes Network.behaviour (fun _ => true) s net new ran t last) :
    ∃ turns, Turns s net turns t last ∧ turns.map Turn.entry = ran := by
  induction run with
  | done => exact ⟨[], .done, rfl⟩
  | next taken happens _ ih =>
    obtain ⟨after, happened, rfl, rfl⟩ := Balanced.perform_eq_ok happens
    obtain ⟨sent, sends⟩ := NetworkEvent.sends_of_ok happened
    obtain ⟨turns, rest, entries⟩ := ih
    exact ⟨_, .next taken happened sends rest, congrArg _ entries⟩

/-- What was sent in turns is counted. -/
theorem Turns.counted {before : Stats} {log : List Sending} (run : Turns s net turns t last)
    (past : Stats.Sent before log net.stats.ofHosts) :
    Stats.Sent before (log ++ turns.flatMap (·.sent)) last.stats.ofHosts := by
  induction run generalizing log with
  | done => rwa [List.flatMap_nil, List.append_nil]
  | next _ _ sends _ ih =>
    have further := ih (sends.counted past)
    rwa [List.append_assoc] at further

end Switchyard
