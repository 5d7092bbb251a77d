import Switchyard.Network.Traffic

/-!
# The frames of a flow

What a flow makes of a number and a time: a frame of the length that was asked for, if the headers fit into
it, with the number and two tags, one for the flow and one for the time.
-/

namespace Switchyard

namespace Flow

variable {flow : Flow} {ip : IpAddr}

/-- The number of bytes in the frames of a flow from a host. -/
def frameLength (flow : Flow) (ip : IpAddr) : Nat := max flow.frameBytes (headerBytes ip)

theorem headerBytes_eq (ip : IpAddr) : headerBytes ip = if ip.isV4 then 42 else 62 := by
  cases ip <;> rfl

theorem headerBytes_bounds (ip : IpAddr) : 0 < headerBytes ip ∧ headerBytes ip ≤ 62 := by
  rw [headerBytes_eq]
  split <;> decide

/-- A frame of a flow from an address, under a number and sent at a time. -/
structure Makes (flow : Flow) (ip : IpAddr) (uid : Nat) (now : Time) (frame : Frame) : Prop where
  family : ip.isV4 = flow.destination.isV4
  uid : frame.uid = uid
  length : frame.length = flow.frameLength ip
  tags : frame.packetTags = [.flowId flow.id, .sentAt now]

variable {now : Time} {uid : Nat} {mac : MacAddr} {net : Network} {frame : Frame}

theorem makes_of_nextFrame? (next : flow.nextFrame? now uid ip mac net = some frame) :
    flow.Makes ip uid now frame := by
  unfold nextFrame? at next
  cases target : flow.destination with
  | v4 destination =>
    rw [target] at next
    cases ip with
    | v4 source =>
      obtain rfl := Option.some.inj next
      refine ⟨by rw [target]; rfl, rfl, ?_, rfl⟩
      simp only [Frame.length, Frame.addByteTag, Frame.addPacketTag, Frame.new, List.foldr_cons,
        List.foldr_nil, Header.size, Ipv4Header.size, Ipv4Header.new, Ipv4Header.withChecksum,
        List.length_nil, Payload.length, payloadBytes, frameLength, headerBytes]
      omega
    | v6 source => cases next
  | v6 destination =>
    rw [target] at next
    cases ip with
    | v4 source => cases next
    | v6 source =>
      obtain rfl := Option.some.inj next
      refine ⟨by rw [target]; rfl, rfl, ?_, rfl⟩
      simp only [Frame.length, Frame.addByteTag, Frame.addPacketTag, Frame.new, List.foldr_cons,
        List.foldr_nil, Header.size, Payload.length, payloadBytes, frameLength, headerBytes]
      omega

/-- There is a frame between addresses of one family. -/
theorem exists_nextFrame? (family : ip.isV4 = flow.destination.isV4) (now : Time) (uid : Nat)
    (mac : MacAddr) (net : Network) : ∃ frame, flow.nextFrame? now uid ip mac net = some frame := by
  unfold nextFrame?
  cases target : flow.destination with
  | v4 destination =>
    rw [target] at family
    cases ip with
    | v4 source => exact ⟨_, rfl⟩
    | v6 source => cases family
  | v6 destination =>
    rw [target] at family
    cases ip with
    | v4 source => cases family
    | v6 source => exact ⟨_, rfl⟩

end Flow

end Switchyard
