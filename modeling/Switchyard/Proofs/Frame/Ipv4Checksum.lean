import Switchyard.Frame.Header
import Switchyard.Proofs.InternetChecksum

/-!
# The checksum of an IPv4 header

The checksum stands in the sixth word of the encoded header and shows nowhere else. So the checksum that
the header should carry does not depend on the one that it carries, and the bytes of a header that carries
it sum up to all ones, whatever its options are.
-/

namespace Switchyard

namespace Ipv4Header

open BigEndian

theorem length_encode (h : Ipv4Header) : h.encode.length = minSize + h.options.length :=
  Header.length_encode (.ipv4 h)

/-- There is a sixth word. -/
theorem checksum_inside (h : Ipv4Header) : 2 * 5 + 2 ≤ h.encode.length := by
  rw [length_encode, minSize]
  omega

/-- Another checksum is another sixth word. -/
theorem encode_checksum (h : Ipv4Header) (c : UInt16) :
    { h with checksum := c }.encode = Bytes.patch h.encode (2 * 5) (BigEndian.encode 2 c.toNat) := by
  let front : Bytes := [h.lead, h.tos] ++ BigEndian.encode 2 h.totalLength.toNat ++
    BigEndian.encode 2 h.identification.toNat ++ BigEndian.encode 2 h.flagsFragment.toNat ++
    [h.ttl, h.protocol]
  let behind : Bytes := h.src.toBytes ++ h.dst.toBytes ++ h.options
  have place : front.length = 2 * 5 := by simp [front]
  have split : h.encode = front ++ (BigEndian.encode 2 h.checksum.toNat ++ behind) := by
    simp [front, behind, encode]
  have changed : { h with checksum := c }.encode = front ++ (BigEndian.encode 2 c.toNat ++ behind) := by
    simp [front, behind, encode, lead, size]
  rw [changed, split, Bytes.patch_append place]
  rw [BigEndian.length_encode, BigEndian.length_encode]

/-- The checksum that a header should carry is that of its bytes with zeros in place of the checksum. -/
theorem computedChecksum_eq (h : Ipv4Header) :
    h.computedChecksum = internetChecksum (Bytes.patch h.encode (2 * 5) [0, 0]) :=
  internetChecksumWithout_eq h.checksum_inside

/-- The checksum that a header carries is no part of the one that it should carry. -/
theorem computedChecksum_checksum (h : Ipv4Header) (c : UInt16) :
    { h with checksum := c }.computedChecksum = h.computedChecksum := by
  rw [computedChecksum_eq, computedChecksum_eq, encode_checksum, Bytes.patch_patch h.checksum_inside]
  rw [BigEndian.length_encode]
  rfl

@[simp] theorem computedChecksum_withChecksum (h : Ipv4Header) :
    h.withChecksum.computedChecksum = h.computedChecksum :=
  h.computedChecksum_checksum h.computedChecksum

/-- The sum of the words of a header but the checksum. -/
def otherWords (h : Ipv4Header) : Nat := InternetChecksum.wordSumWithout 5 h.encode

/-- The sum is not zero, as the version is in it. -/
theorem otherWords_positive (h : Ipv4Header) : 0 < h.otherWords := by
  have lead : 0 < h.lead.toNat := by
    rw [lead, UInt8.toNat_ofNat']
    omega
  show 0 < h.lead.toNat * 256 + h.tos.toNat + _
  omega

theorem wordSum_encode (h : Ipv4Header) :
    InternetChecksum.wordSum h.encode = h.otherWords + h.checksum.toNat := by
  have bound : h.checksum.toNat < 65536 := h.checksum.toNat_lt
  have same : h.encode = Bytes.patch h.encode (2 * 5) (BigEndian.encode 2 h.checksum.toNat) :=
    h.encode_checksum h.checksum
  rw [same, InternetChecksum.wordSum_patch _ (by decide) h.checksum_inside, Nat.mod_eq_of_lt bound,
    otherWords, InternetChecksum.wordSumWithout_eq h.checksum_inside]
  omega

/-- Which headers verify: those with the checksum that they should carry. Where that is zero, all ones do
as well, which is the other zero of ones' complement. -/
theorem internetChecksum_encode_eq_zero_iff (h : Ipv4Header) :
    internetChecksum h.encode = 0 ↔
      h.checksum = h.computedChecksum ∨ h.computedChecksum = 0 ∧ h.checksum = 65535 := by
  have positive := h.otherWords_positive
  have bound : h.checksum.toNat < 65536 := h.checksum.toNat_lt
  have nonempty : h.encode ≠ [] := List.ne_nil_of_length_pos (by have := h.checksum_inside; omega)
  have verified : (internetChecksum h.encode).toNat =
      65535 - ((h.otherWords + h.checksum.toNat - 1) % 65535 + 1) := by
    rw [internetChecksum_toNat nonempty, h.wordSum_encode, InternetChecksum.fold_eq,
      if_neg (by omega)]
  have computed : h.computedChecksum.toNat = 65535 - ((h.otherWords - 1) % 65535 + 1) := by
    rw [computedChecksum, internetChecksumWithout_toNat nonempty, InternetChecksum.fold_eq]
    exact congrArg (65535 - ·) (if_neg (by rw [← otherWords]; omega))
  rw [← UInt16.toNat_inj, ← UInt16.toNat_inj, ← UInt16.toNat_inj, ← UInt16.toNat_inj, verified,
    computed]
  show _ = 0 ↔ _ ∨ _ = 0 ∧ _ = 65535
  omega

end Ipv4Header

end Switchyard
