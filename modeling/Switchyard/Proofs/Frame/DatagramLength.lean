import Mathlib.Data.List.Forall2
import Switchyard.Frame
import Switchyard.Proofs.Frame.Ipv4Checksum

/-!
# The lengths in a datagram

The headers of a datagram say how long it is, each with sixteen bits, and a constructor that is given too
much says so with the largest length. But the number of bytes in the payload is cut to sixteen bits before it
gets to a constructor. So the lengths are saturated for payloads of less than 65536 bytes, and from there on
they start again from those of an empty payload.
-/

namespace Switchyard

theorem toNat_saturated (n : Nat) : (UInt16.ofNat (min n 65535)).toNat = min n 65535 := by
  rw [UInt16.toNat_ofNat']
  omega

/-- The length that a header has for what is behind it, if it has one. -/
def Header.lengthField? : Header → Option Nat
  | .ipv4 h => some h.totalLength.toNat
  | .ipv6 h => some h.payloadLength.toNat
  | .udp h => some h.length.toNat
  | _ => none

theorem UdpHeader.toNat_length_new (srcPort dstPort : UInt16) (n : Nat) :
    (UdpHeader.new srcPort dstPort n).length.toNat = min (8 + n) 65535 := by
  rw [Nat.add_comm]
  exact toNat_saturated (n + size)

theorem Ipv4Header.toNat_totalLength_new (src dst : Ipv4Addr) (protocol : UInt8) (n : Nat) :
    (Ipv4Header.new src dst protocol n).totalLength.toNat = min (20 + n) 65535 := by
  rw [Nat.add_comm]
  exact toNat_saturated (n + minSize)

/-- A new header carries the checksum that it should carry. -/
theorem Ipv4Header.verifies_new (src dst : Ipv4Addr) (protocol : UInt8) (n : Nat) :
    internetChecksum (Ipv4Header.new src dst protocol n).encode = 0 := by
  refine (internetChecksum_encode_eq_zero_iff _).mpr (.inl ?_)
  exact (computedChecksum_withChecksum _).symm

namespace Frame

/-- The lengths that the headers have, outermost first. -/
def lengthFields (f : Frame) : List Nat := f.headers.filterMap Header.lengthField?

/-- The lengths for a payload of so many bytes, first that of the internet header. A length that does not
fit is the largest one. -/
def saturatedLengths (ip : IpAddr) (n : Nat) : List Nat :=
  [min ((if ip.isV4 then 28 else 8) + n) 65535, min (8 + n) 65535]

theorem saturatedLengths_v4 (a : Ipv4Addr) (n : Nat) :
    saturatedLengths (.v4 a) n = [min (28 + n) 65535, min (8 + n) 65535] := rfl

theorem saturatedLengths_v6 (a : Ipv6Addr) (n : Nat) :
    saturatedLengths (.v6 a) n = [min (8 + n) 65535, min (8 + n) 65535] := rfl

variable {uid : Nat} {src dst : Endpoint} {payload : Payload} {ip : IpAddr} {n m : Nat}

/-- The lengths for a number cut to sixteen bits are right if nothing is cut off, or if they are the largest all
the same. -/
theorem saturatedLengths_mod_iff :
    saturatedLengths ip (n % 65536) = saturatedLengths ip n ↔ n < 65536 ∨ 65527 ≤ n % 65536 := by
  simp only [saturatedLengths, List.cons.injEq, and_true]
  split <;> omega

/-- When a length that is cut to sixteen bits does not make the lengths smaller. -/
theorem saturatedLengths_le_iff (bound : n < 65536) :
    List.Forall₂ (· ≤ ·) (saturatedLengths ip n) (saturatedLengths ip m) ↔ n ≤ m ∨ 65527 ≤ m := by
  simp only [saturatedLengths, List.forall₂_cons, List.forall₂_nil_left_iff, and_true]
  split <;> omega

/-- A frame with the payload behind headers whose lengths are saturated, but for the payload's length cut to
sixteen bits. An IPv4 header among them verifies. -/
structure CarriesDatagram (ip : IpAddr) (payload : Payload) (f : Frame) : Prop where
  chain : f.chain = ["ethernet", if ip.isV4 then "ipv4" else "ipv6", "udp"]
  carried : f.payload = payload
  family : f.ipv4?.isSome = ip.isV4
  verifies : ∀ h, f.ipv4? = some h → internetChecksum h.encode = 0
  lengths : f.lengthFields = saturatedLengths ip (payload.length % 65536)

/-- There is a datagram between any two addresses of one family. -/
theorem exists_udp? (family : src.ip.isV4 = dst.ip.isV4) (uid : Nat) (payload : Payload) :
    ∃ frame, udp? uid src dst payload = some frame ∧ frame.CarriesDatagram src.ip payload := by
  let udp := UdpHeader.new src.port dst.port (payload.length % 65536)
  have counted : udp.length.toNat = min (8 + payload.length % 65536) 65535 :=
    UdpHeader.toNat_length_new _ _ _
  unfold udp?
  cases source : src.ip with
  | v4 s =>
    cases target : dst.ip with
    | v4 d =>
      let ip := Ipv4Header.new s d IpProtocol.udp udp.length.toNat
      have total : ip.totalLength.toNat = min (28 + payload.length % 65536) 65535 := by
        rw [Ipv4Header.toNat_totalLength_new, counted]
        omega
      refine ⟨_, rfl, rfl, rfl, rfl, ?_, ?_⟩
      · intro h first
        obtain rfl := Option.some.inj first
        exact Ipv4Header.verifies_new _ _ _ _
      · show [ip.totalLength.toNat, udp.length.toNat] = _
        rw [total, counted, saturatedLengths_v4]
    | v6 d =>
      rw [source, target] at family
      cases family
  | v6 s =>
    cases target : dst.ip with
    | v4 d =>
      rw [source, target] at family
      cases family
    | v6 d =>
      let ip := Ipv6Header.new s d IpProtocol.udp udp.length.toNat
      have behind : ip.payloadLength.toNat = min (8 + payload.length % 65536) 65535 := by
        show (UInt16.ofNat udp.length.toNat).toNat = _
        rw [UInt16.ofNat_toNat, counted]
      refine ⟨_, rfl, rfl, rfl, rfl, ?_, ?_⟩
      · intro h absurd
        cases absurd
      · show [ip.payloadLength.toNat, udp.length.toNat] = _
        rw [behind, counted, saturatedLengths_v6]

/-- The lengths in a datagram are those of its payload, saturated, but the payload is counted with sixteen bits
before. So they are right exactly for payloads of less than 65536 bytes and for those whose count is near the
largest one again, and a longer payload has no smaller lengths exactly where its count is not smaller or is near
the largest one. An IPv4 header verifies in any case. -/
theorem datagram_lengths (family : src.ip.isV4 = dst.ip.isV4) (uid : Nat) (payload : Payload) :
    ∃ frame, udp? uid src dst payload = some frame ∧ frame.CarriesDatagram src.ip payload ∧
      (frame.lengthFields = saturatedLengths src.ip payload.length ↔
        payload.length < 65536 ∨ 65527 ≤ payload.length % 65536) ∧
      ∀ longer other, udp? uid src dst longer = some other →
        (List.Forall₂ (· ≤ ·) frame.lengthFields other.lengthFields ↔
          payload.length % 65536 ≤ longer.length % 65536 ∨ 65527 ≤ longer.length % 65536) := by
  obtain ⟨frame, made, carries⟩ := exists_udp? family uid payload
  refine ⟨frame, made, carries, ?_, ?_⟩
  · rw [carries.lengths]
    exact saturatedLengths_mod_iff
  · intro longer other otherMade
    obtain ⟨another, anotherMade, further⟩ := exists_udp? family uid longer
    obtain rfl := Option.some.inj (otherMade.symm.trans anotherMade)
    rw [carries.lengths, further.lengths]
    exact saturatedLengths_le_iff (Nat.mod_lt _ (by decide))

/-- A payload of 65536 bytes between two IPv4 addresses has the lengths of an empty one. -/
theorem datagram_lengths_start_again :
    ∃ frame, udp? 1 ⟨.broadcast, .v4 (.ofNat 1), 7⟩ ⟨.broadcast, .v4 (.ofNat 2), 7⟩ (.zeros 65536) =
        some frame ∧
      frame.lengthFields = [28, 8] ∧ frame.lengthFields ≠ saturatedLengths (.v4 (.ofNat 1)) 65536 := by
  have family : (Endpoint.mk .broadcast (.v4 (.ofNat 1)) 7).ip.isV4 =
      (Endpoint.mk .broadcast (.v4 (.ofNat 2)) 7).ip.isV4 := rfl
  obtain ⟨frame, made, carries, right, -⟩ := datagram_lengths family 1 (.zeros 65536)
  refine ⟨frame, made, carries.lengths, fun same => ?_⟩
  exact absurd (right.mp same) (by decide)

end Frame

end Switchyard
