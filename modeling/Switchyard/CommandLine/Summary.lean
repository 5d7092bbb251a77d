import Switchyard.Json.Printer
import Switchyard.Network.Stats
import Switchyard.Time

/-!
# Summaries of runs

What a run came to, as the line that it prints and as the JSON text that it may write to a file.
-/

namespace Switchyard

/-- What a run came to. -/
structure Summary where
  now : Time
  executedEvents : Nat
  pipelinePackets : Nat
  sentFrames : Nat
  stats : Stats
  deriving DecidableEq

namespace Summary

/-- The line that a run ends with. -/
def line (s : Summary) : String :=
  s!"done @ {s.now}, sent_frames={s.sentFrames}, delivered_frames={s.stats.deliveredFrames}, " ++
    s!"delivered_bytes={s.stats.deliveredBytes}, dropped_no_port={s.stats.droppedNoPort}"

def ofHost (h : HostStats) : Json :=
  .ofMembers [
    ("tx_frames", .ofNat h.sentFrames),
    ("tx_bytes", .ofNat h.sentBytes),
    ("rx_frames", .ofNat h.receivedFrames),
    ("rx_bytes", .ofNat h.receivedBytes)]

def ofStats (s : Stats) : Json :=
  .ofMembers [
    ("delivered_frames", .ofNat s.deliveredFrames),
    ("delivered_bytes", .ofNat s.deliveredBytes),
    ("dropped_no_port", .ofNat s.droppedNoPort),
    ("switch_rx_frames", .ofNat s.switchReceived),
    ("switch_tx_frames", .ofNat s.switchSent),
    ("total_latency_ns", .ofNat s.totalLatency),
    ("max_latency_ns", .ofNat s.maxLatency),
    ("hosts", .ofMembers (s.hosts.map fun (name, h) => (name, ofHost h)))]

def toJson (s : Summary) : Json :=
  .ofMembers [
    ("now_ns", .ofNat s.now.toNat),
    ("executed_events", .ofNat s.executedEvents),
    ("pipeline_packets", .ofNat s.pipelinePackets),
    ("sent_frames", .ofNat s.sentFrames),
    ("avg_latency_ns", .ofNat s.stats.averageLatency),
    ("stats", ofStats s.stats)]

/-- The text that is written to a file. -/
def text (s : Summary) : String := s.toJson.pretty

end Summary

end Switchyard
