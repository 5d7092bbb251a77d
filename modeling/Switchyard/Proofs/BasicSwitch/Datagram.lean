import Switchyard.Proofs.BasicSwitch.Decision
import Switchyard.Proofs.Frame.Ipv4Checksum
import Switchyard.Proofs.Frame.ReadBack
import Switchyard.Proofs.Network.FlowFrames

/-!
# What the basic switch makes of a datagram

The frames of a flow as the basic switch sees them: there are hops left, the checksum is right, and the
address that is looked up is the destination of the flow.
-/

namespace Switchyard

open BigEndian

namespace BasicSwitch

variable {e : EthernetHeader} {rest : Bytes}

theorem length_ethernet (e : EthernetHeader) : e.encode.length = 14 :=
  Header.length_encode (.ethernet e)

theorem read_etherType (e : EthernetHeader) (rest : Bytes) :
    read (e.encode ++ rest) 12 2 = e.etherType.toNat := by
  have bound : e.etherType.toNat < Nat.pow 256 2 := e.etherType.toNat_lt
  simp (disch := decide) only [EthernetHeader.encode, MacAddr.toBytes, List.append_assoc,
    read_encode_append, Nat.reduceSub, read_front, Nat.mod_eq_of_lt bound]

/-- Behind the Ethernet header stands the internet header. -/
theorem read_behind_ethernet (e : EthernetHeader) (rest : Bytes) {start : Nat} (count : Nat)
    (behind : 14 ≤ start) : read (e.encode ++ rest) start count = read rest (start - 14) count := by
  have front : e.encode.length ≤ start := by rwa [length_ethernet]
  rw [BigEndian.read, List.drop_append, List.drop_of_length_le front, List.nil_append, length_ethernet,
    BigEndian.read]

section Ipv4

variable {h : Ipv4Header}

theorem holdsIpv4_encode (h : Ipv4Header) (type : e.etherType = EtherType.ipv4) (rest : Bytes) :
    HoldsIpv4 (e.encode ++ (h.encode ++ rest)) := by
  refine ⟨?_, ?_⟩
  · rw [read_etherType, type]
    rfl
  · rw [List.length_append, List.length_append, length_ethernet, h.length_encode, Ipv4Header.minSize]
    omega

/-- The fields of the header that the switch reads. -/
theorem read_ipv4 (h : Ipv4Header) (rest : Bytes) :
    read (e.encode ++ (h.encode ++ rest)) 22 1 = h.ttl.toNat ∧
      read (e.encode ++ (h.encode ++ rest)) 24 2 = h.checksum.toNat ∧
      read (e.encode ++ (h.encode ++ rest)) 30 4 = h.dst.toNat := by
  have checksumBound : h.checksum.toNat < Nat.pow 256 2 := h.checksum.toNat_lt
  have dstBound : h.dst.toNat < Nat.pow 256 4 := h.dst.bits.isLt
  rw [read_behind_ethernet _ _ _ (by decide), read_behind_ethernet _ _ _ (by decide),
    read_behind_ethernet _ _ _ (by decide)]
  simp (disch := decide) only [Ipv4Header.encode, Ipv4Addr.toBytes, List.append_assoc,
    List.cons_append, List.nil_append, read_encode_append, read_cons, Nat.reduceSub, uint8_front,
    read_front, Nat.mod_eq_of_lt checksumBound, Nat.mod_eq_of_lt dstBound, and_self]

/-- The header covers itself and its options. -/
theorem covered_encode (fits : OptionsFit h.options) (rest : Bytes) :
    covered (e.encode ++ (h.encode ++ rest)) = h.encode := by
  have words := fits.words
  have size : h.encode.length = 20 + h.options.length := h.length_encode
  have reach : max 20 (4 * headerWords (e.encode ++ (h.encode ++ rest))) = 20 + h.options.length := by
    rw [headerWords, read_behind_ethernet _ _ _ (by decide), h.read_lead]
    omega
  rw [covered, reach, List.drop_left' (length_ethernet e), List.take_left' size]

/-- The checksum that the bytes should carry is the one that the header should carry. -/
theorem computedChecksum_encode (type : e.etherType = EtherType.ipv4) (fits : OptionsFit h.options)
    (rest : Bytes) :
    computedChecksum (e.encode ++ (h.encode ++ rest)) = h.computedChecksum.toNat := by
  have holds := holdsIpv4_encode h type rest
  have zeros : ([0, 0] : Bytes) = encode 2 0 := rfl
  rw [computedChecksum, h.computedChecksum_eq, zeros,
    covered_patch holds.2 (shape_patch_checksum holds 0) (by decide) (by rw [length_encode]; decide),
    covered_encode fits]

end Ipv4

section Ipv6

variable {h : Ipv6Header}

theorem holdsIpv6_encode (h : Ipv6Header) (type : e.etherType = EtherType.ipv6) (rest : Bytes) :
    HoldsIpv6 (e.encode ++ (h.encode ++ rest)) := by
  have size : h.encode.length = 40 := Header.length_encode (.ipv6 h)
  refine ⟨?_, ?_⟩
  · rw [read_etherType, type]
    rfl
  · rw [List.length_append, List.length_append, length_ethernet, size]
    omega

theorem read_ipv6 (h : Ipv6Header) (rest : Bytes) :
    read (e.encode ++ (h.encode ++ rest)) 21 1 = h.hopLimit.toNat ∧
      read (e.encode ++ (h.encode ++ rest)) 38 16 = h.dst.toNat := by
  have dstBound : h.dst.toNat < Nat.pow 256 16 := h.dst.bits.isLt
  rw [read_behind_ethernet _ _ _ (by decide), read_behind_ethernet _ _ _ (by decide)]
  simp (disch := decide) only [Ipv6Header.encode, Ipv6Addr.toBytes, List.append_assoc,
    List.cons_append, List.nil_append, read_encode_append, read_cons, Nat.reduceSub, uint8_front,
    read_front, Nat.mod_eq_of_lt dstBound, and_self]

end Ipv6

/-! ## Datagrams -/

/-- A frame that the basic switch can pass on, to be looked up by an address. -/
structure Passable (b : Bytes) (destination : IpAddr) : Prop where
  intact : ¬BadChecksum b
  hops : ¬Exhausted b
  routed : ∀ {tables : TableStore} {call : Option ActionCall},
    tables.Decides layout (match destination with | .v4 _ => "ipv4_lpm" | .v6 _ => "ipv6_lpm")
      [match destination with | .v4 a => a.toNat | .v6 a => a.toNat] call → Routed tables b call

theorem passable_ipv4 {h : Ipv4Header} (type : e.etherType = EtherType.ipv4) (fits : OptionsFit h.options)
    (right : h.checksum = h.computedChecksum) (hops : 1 < h.ttl.toNat) (rest : Bytes) :
    Passable (e.encode ++ (h.encode ++ rest)) (.v4 h.dst) := by
  have holds := holdsIpv4_encode h type rest
  have other := not_holdsIpv6_of_holdsIpv4 holds
  obtain ⟨ttl, stored, dst⟩ := read_ipv4 (e := e) h rest
  refine ⟨?_, ?_, ?_⟩
  · rintro ⟨-, wrong⟩
    rw [storedChecksum, stored, computedChecksum_encode type fits, right] at wrong
    exact wrong rfl
  · rintro (⟨-, last⟩ | ⟨ipv6, -⟩)
    · rw [ttl] at last
      omega
    · exact other ipv6
  · intro tables call decides
    refine Or.inl ⟨holds, ?_⟩
    rw [dst]
    exact decides

theorem passable_ipv6 {h : Ipv6Header} (type : e.etherType = EtherType.ipv6)
    (hops : 1 < h.hopLimit.toNat) (rest : Bytes) :
    Passable (e.encode ++ (h.encode ++ rest)) (.v6 h.dst) := by
  have holds := holdsIpv6_encode h type rest
  obtain ⟨limit, dst⟩ := read_ipv6 (e := e) h rest
  have other : ¬HoldsIpv4 (e.encode ++ (h.encode ++ rest)) := fun ipv4 =>
    not_holdsIpv6_of_holdsIpv4 ipv4 holds
  refine ⟨fun bad => other bad.1, ?_, ?_⟩
  · rintro (⟨ipv4, -⟩ | ⟨-, last⟩)
    · exact other ipv4
    · rw [limit] at last
      omega
  · intro tables call decides
    refine Or.inr (Or.inl ⟨holds, ?_⟩)
    rw [dst]
    exact decides

end BasicSwitch

namespace Flow

open BasicSwitch

variable {flow : Flow} {ip : IpAddr}

/-- The frames pass the limit if they are asked to. -/
theorem frameLength_le (short : flow.frameBytes ≤ Boundary.defaultMaxFrame) :
    flow.frameLength ip ≤ Boundary.defaultMaxFrame := by
  have headers := (headerBytes_bounds ip).2
  have limit : 62 ≤ Boundary.defaultMaxFrame := by decide
  unfold frameLength
  omega

/-- A frame of a flow to an address, sent at a time. -/
structure Carries (flow : Flow) (ip : IpAddr) (sent : Time) (frame : Frame) : Prop where
  length : frame.length = flow.frameLength ip
  sent : frame.sent? = some sent
  passable : Passable frame.toBytes flow.destination

/-- There is a next frame if the addresses are of one family. -/
theorem exists_nextFrame (family : ip.isV4 = flow.destination.isV4) (now : Time) (uid : Nat)
    (mac : MacAddr) (net : Network) :
    ∃ frame, flow.nextFrame? now uid ip mac net = some frame ∧ flow.Carries ip now frame := by
  have hops : 1 < (64 : UInt8).toNat := by decide
  have noOptions : OptionsFit [] := by decide
  obtain ⟨frame, next⟩ := exists_nextFrame? family now uid mac net
  refine ⟨frame, next, (makes_of_nextFrame? next).length, ?sent, ?passable⟩
  case sent =>
    rw [Frame.sent?, (makes_of_nextFrame? next).tags]
    rfl
  case passable =>
    unfold nextFrame? at next
    cases target : flow.destination with
    | v4 destination =>
      rw [target] at next
      cases ip with
      | v4 source =>
        obtain rfl := Option.some.inj next
        exact passable_ipv4 rfl noOptions (Ipv4Header.computedChecksum_withChecksum _).symm hops _
      | v6 source => cases next
    | v6 destination =>
      rw [target] at next
      cases ip with
      | v4 source => cases next
      | v6 source =>
        obtain rfl := Option.some.inj next
        exact passable_ipv6 rfl hops _

end Flow

end Switchyard
