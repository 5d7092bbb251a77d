import Switchyard.Pipeline.Boundary
import Switchyard.Proofs.Frame.Codec

/-!
# Recovery loses no byte

A rule is lossless if what it reads is written back as the bytes that it takes. The standard rules
are. Every step of a recovery by lossless rules therefore cuts off exactly the bytes of one header,
and the recovered frame spells the byte string it was recovered from.
-/

namespace Switchyard

namespace RecoveryRule

/-- The header that the rule reads is written as exactly the bytes that the rule takes. -/
def Lossless (rule : RecoveryRule) : Prop :=
  ∀ bs s r, rule.decode bs s = some r → r.used ≤ bs.length ∧ r.header.encode = bs.take r.used

/-- A rule that reads one kind of header is lossless if reading that header keeps its bytes. -/
theorem lossless_of_map {α : Type} {rule : RecoveryRule} {decode? : Bytes → Option α}
    {header : α → Header} {next : RecoveryState → α → RecoveryState}
    (reads : ∀ bs s, rule.decode bs s =
      (decode? bs).map fun h => ⟨header h, (header h).size, next s h⟩)
    (keeps : ∀ bs h, decode? bs = some h → (header h).ReadFrom bs) : rule.Lossless := by
  intro bs s r decoded
  rw [reads] at decoded
  obtain ⟨h, found, rfl⟩ := Option.map_eq_some_iff.mp decoded
  exact keeps bs h found

theorem ethernet_lossless : ethernet.Lossless :=
  lossless_of_map (decode_reading _ _ _) fun _ _ => EthernetHeader.readFrom_of_decode?

theorem ipv4_lossless : ipv4.Lossless :=
  lossless_of_map (decode_reading _ _ _) fun _ _ => Ipv4Header.readFrom_of_decode?

theorem ipv6_lossless : ipv6.Lossless :=
  lossless_of_map (decode_reading _ _ _) fun _ _ => Ipv6Header.readFrom_of_decode?

theorem tcp_lossless : tcp.Lossless :=
  lossless_of_map (decode_reading _ _ _) fun _ _ => TcpHeader.readFrom_of_decode?

theorem udp_lossless : udp.Lossless :=
  lossless_of_map (decode_reading _ _ _) fun _ _ => UdpHeader.readFrom_of_decode?

theorem ipInIp_lossless : ipInIp.Lossless :=
  lossless_of_map (decode_reading _ _ _) fun _ _ => Ipv4Header.readFrom_of_decode?

theorem standard_lossless : ∀ rule ∈ standard, rule.Lossless := by
  intro rule member
  simp only [standard, List.mem_cons, List.mem_nil_iff, or_false] at member
  rcases member with rfl | rfl | rfl | rfl | rfl
  · exact ethernet_lossless
  · exact ipv4_lossless
  · exact ipv6_lossless
  · exact tcp_lossless
  · exact udp_lossless

end RecoveryRule

namespace Recovery

/-- What one step of recovery reads was written in front of the bytes. -/
theorem encode_of_step? {rules : List RecoveryRule} (lossless : ∀ rule ∈ rules, rule.Lossless)
    {s : RecoveryState} {bs : Bytes} {r : Recovered} (read : step? rules s bs = some r) :
    r.header.encode = bs.take r.used := by
  obtain ⟨rule, member, attempted⟩ := List.exists_of_findSome?_eq_some read
  simp only [RecoveryRule.attempt?] at attempted
  split at attempted
  case isTrue =>
    have decoded := (Option.filter_eq_some_iff.mp attempted).1
    exact (lossless rule member bs s r decoded).2
  case isFalse => contradiction

/-- The headers that a run finds, written one after another, and the rest of the bytes are the
bytes. -/
theorem run_lossless {rules : List RecoveryRule} (lossless : ∀ rule ∈ rules, rule.Lossless)
    (s : RecoveryState) (bs : Bytes) :
    (run rules s bs).1.flatMap Header.encode ++ (run rules s bs).2 = bs := by
  fun_induction run rules s bs with
  | case1 s bs stop => rfl
  | case2 s bs r read headers payload rest ih =>
    rw [rest] at ih
    rw [List.flatMap_cons, List.append_assoc, ih, encode_of_step? lossless read,
      List.take_append_drop]

end Recovery

theorem Frame.toBytes_recover {rules : List RecoveryRule}
    (lossless : ∀ rule ∈ rules, rule.Lossless) (uid : Nat) (bytes : Bytes) :
    (Frame.recover rules uid bytes).toBytes = bytes :=
  Recovery.run_lossless lossless .initial bytes

namespace Boundary

/-- A packet leaves a standard boundary with its bytes. -/
theorem toBytes_leave (maxFrame : Nat) (pkt : Packet) (origin : Frame) :
    ((standard maxFrame).leave pkt origin).toBytes = pkt.data :=
  Frame.toBytes_recover RecoveryRule.standard_lossless pkt.id pkt.data

/-- The tags are those of the frame that came in. -/
theorem tags_leave (b : Boundary) (pkt : Packet) (origin : Frame) :
    (b.leave pkt origin).packetTags = origin.packetTags ∧
      (b.leave pkt origin).byteTags.map (·.tag) = origin.byteTags.map (·.tag) := by
  refine ⟨rfl, ?_⟩
  unfold leave
  rw [List.map_map]
  rfl

/-- Whatever the bytes are, and whatever lossless rules come after the standard ones, the recovered
frame has the same bytes and the same length. -/
theorem recover_keeps_every_byte (maxFrame : Nat) (rules : List RecoveryRule)
    (lossless : ∀ rule ∈ rules, rule.Lossless) (uid : Nat) (bytes : Bytes) :
    ((((standard maxFrame).withRules rules).recover uid bytes).toBytes = bytes) ∧
      (((standard maxFrame).withRules rules).recover uid bytes).length = bytes.length := by
  have all : ∀ rule ∈ RecoveryRule.standard ++ rules, rule.Lossless := by
    intro rule member
    rcases List.mem_append.mp member with builtIn | further
    · exact RecoveryRule.standard_lossless rule builtIn
    · exact lossless rule further
  have same : (((standard maxFrame).withRules rules).recover uid bytes).toBytes = bytes :=
    Frame.toBytes_recover all uid bytes
  refine ⟨same, ?_⟩
  rw [← Frame.length_toBytes, same]

/-- An IPv4 header with options, another one without directly behind it, and three more bytes. -/
def tunnel : Bytes :=
  [2, 0, 0, 0, 0, 1, 2, 0, 0, 0, 0, 2, 8, 0,
    0x46, 0xff, 0, 47, 0, 7, 0xff, 0xff, 1, 4, 0xde, 0xad, 10, 0, 0, 1, 10, 0, 0, 2, 1, 2, 3, 4,
    0x45, 3, 0, 23, 0, 0, 0x40, 0, 64, 99, 0, 0, 10, 0, 0, 3, 10, 0, 0, 4,
    0xca, 0xfe, 0xed]

theorem recover_keeps_every_byte_tunnel :
    (∀ rule ∈ [RecoveryRule.ipInIp], rule.Lossless) ∧
      (((standard 9000).withRules [.ipInIp]).recover 1 tunnel).toBytes = tunnel ∧
      (((standard 9000).withRules [.ipInIp]).recover 1 tunnel).length = 61 := by
  have lossless : ∀ rule ∈ [RecoveryRule.ipInIp], rule.Lossless := by
    intro rule member
    rw [List.mem_singleton.mp member]
    exact RecoveryRule.ipInIp_lossless
  exact ⟨lossless, recover_keeps_every_byte 9000 [.ipInIp] lossless 1 tunnel⟩

end Boundary

end Switchyard
