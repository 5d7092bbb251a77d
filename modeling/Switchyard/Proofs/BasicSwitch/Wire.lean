import Switchyard.Proofs.BasicSwitch.Program
import Switchyard.Proofs.InternetChecksum

/-!
# Frames of the basic switch as bytes

What the parser of the basic switch finds in a frame can be said of the bytes alone: which headers are
there, how far the IPv4 checksum reaches and what it should be. `corrected` puts the right checksum in
place, and does nothing the second time. Changing the time to live, the hop limit or the checksum leaves
the `shape` of a frame alone: what the parser goes by.
-/

namespace Switchyard

namespace BasicSwitch

/-- The bytes hold an IPv4 header behind an Ethernet header. -/
def HoldsIpv4 (b : Bytes) : Prop := BigEndian.read b 12 2 = 0x0800 ∧ 34 ≤ b.length

/-- The bytes hold an IPv6 header behind an Ethernet header. -/
def HoldsIpv6 (b : Bytes) : Prop := BigEndian.read b 12 2 = 0x86dd ∧ 54 ≤ b.length

instance (b : Bytes) : Decidable (HoldsIpv4 b) := inferInstanceAs (Decidable (_ ∧ _))

instance (b : Bytes) : Decidable (HoldsIpv6 b) := inferInstanceAs (Decidable (_ ∧ _))

/-- The length of the IPv4 header that the header itself gives, in 32-bit words. -/
def headerWords (b : Bytes) : Nat := BigEndian.read b 14 1 % 16

/-- The IPv4 header with its options, as far as there are bytes. -/
def covered (b : Bytes) : Bytes := (b.drop 14).take (max 20 (4 * headerWords b))

/-- The checksum that an IPv4 header carries. -/
def storedChecksum (b : Bytes) : Nat := BigEndian.read b 24 2

/-- The checksum that an IPv4 header should carry. -/
def computedChecksum (b : Bytes) : Nat :=
  (internetChecksum (covered (Bytes.patch b 24 [0, 0]))).toNat

/-- The bytes with the right checksum in their IPv4 header, if they hold one. -/
def corrected (b : Bytes) : Bytes :=
  if HoldsIpv4 b then Bytes.patch b 24 (BigEndian.encode 2 (computedChecksum b)) else b

/-- The transport header behind an internet header. -/
def transportIn (b : Bytes) (protocol offset : Nat) : List HeaderId :=
  if protocol = 6 then if offset + 20 ≤ b.length then [tcpHeader] else []
  else if protocol = 17 then if offset + 8 ≤ b.length then [udpHeader] else []
  else []

/-- The headers behind the Ethernet type of IPv4. Behind options the parser looks for no transport
header. -/
def ipv4In (b : Bytes) : List HeaderId :=
  if 34 ≤ b.length then
    [ethernetHeader, ipv4Header] ++
      if headerWords b = 5 then transportIn b (BigEndian.read b 23 1) 34 else []
  else [ethernetHeader]

/-- The headers behind the Ethernet type of IPv6. -/
def ipv6In (b : Bytes) : List HeaderId :=
  if 54 ≤ b.length then
    [ethernetHeader, ipv6Header] ++ transportIn b (BigEndian.read b 20 1) 54
  else [ethernetHeader]

/-- The headers that the parser finds. -/
def headersIn (b : Bytes) : List HeaderId :=
  if b.length < 14 then []
  else if BigEndian.read b 12 2 = 0x0800 then ipv4In b
  else if BigEndian.read b 12 2 = 0x86dd then ipv6In b
  else [ethernetHeader]

/-! ## Shape -/

/-- What the parser goes by: the length, and the fields that it selects on. -/
def shape (b : Bytes) : List Nat :=
  [b.length, BigEndian.read b 12 2, BigEndian.read b 14 1, BigEndian.read b 20 1,
    BigEndian.read b 23 1]

variable {b c new : Bytes} {start : Nat}

/-- A patch between the selecting fields leaves the shape alone. -/
theorem shape_patch (inside : start + new.length ≤ b.length) (behind : 20 < start)
    (apart : start + new.length ≤ 23 ∨ 23 < start) : shape (Bytes.patch b start new) = shape b := by
  unfold shape
  rw [Bytes.length_patch inside, Bytes.read_patch_of_disjoint inside (by omega),
    Bytes.read_patch_of_disjoint inside (by omega), Bytes.read_patch_of_disjoint inside (by omega),
    Bytes.read_patch_of_disjoint inside (by omega)]

theorem holdsIpv4_congr (same : shape b = shape c) : HoldsIpv4 b ↔ HoldsIpv4 c := by
  simp only [shape, List.cons.injEq, and_true] at same
  obtain ⟨length, etherType, -⟩ := same
  rw [HoldsIpv4, HoldsIpv4, length, etherType]

theorem headerWords_congr (same : shape b = shape c) : headerWords b = headerWords c := by
  simp only [shape, List.cons.injEq, and_true] at same
  obtain ⟨-, -, version, -⟩ := same
  rw [headerWords, headerWords, version]

/-- Bytes of the same shape have the same headers. -/
theorem headersIn_congr (same : shape b = shape c) : headersIn b = headersIn c := by
  have fields := same
  simp only [shape, List.cons.injEq, and_true] at fields
  obtain ⟨length, etherType, -, next, protocol⟩ := fields
  simp only [headersIn, ipv4In, ipv6In, transportIn, headerWords_congr same, length, etherType, next,
    protocol]

/-- The two address families exclude each other. -/
theorem not_holdsIpv6_of_holdsIpv4 (holds : HoldsIpv4 b) : ¬HoldsIpv6 b := by
  rintro ⟨other, -⟩
  rw [holds.1] at other
  contradiction

/-! ## Headers -/

/-- The stacks of headers that the parser can find. -/
def headerStacks : List (List HeaderId) :=
  [[], [ethernetHeader], [ethernetHeader, ipv4Header], [ethernetHeader, ipv4Header, tcpHeader],
    [ethernetHeader, ipv4Header, udpHeader], [ethernetHeader, ipv6Header],
    [ethernetHeader, ipv6Header, tcpHeader], [ethernetHeader, ipv6Header, udpHeader]]

theorem headersIn_mem (b : Bytes) : headersIn b ∈ headerStacks := by
  unfold headersIn ipv4In ipv6In transportIn
  repeat' split
  all_goals decide

theorem headersIn_onWire (b : Bytes) : ∀ h ∈ headersIn b, ethernetHeader ≤ h := by
  have every : ∀ stack ∈ headerStacks, ∀ h ∈ stack, ethernetHeader ≤ h := by decide
  exact every _ (headersIn_mem b)

theorem headersIn_nodup (b : Bytes) : (headersIn b).Nodup := by
  have every : ∀ stack ∈ headerStacks, stack.Nodup := by decide
  exact every _ (headersIn_mem b)

/-- The headers begin with Ethernet and IPv4 just where the bytes hold IPv4. -/
theorem headersIn_ipv4 (holds : HoldsIpv4 b) :
    ∃ rest, headersIn b = [ethernetHeader, ipv4Header] ++ rest := by
  obtain ⟨etherType, long⟩ := holds
  rw [headersIn, if_neg (by omega), if_pos etherType, ipv4In, if_pos long]
  exact ⟨_, rfl⟩

/-- Behind options there is no further header. -/
theorem headersIn_options (holds : HoldsIpv4 b) (options : headerWords b ≠ 5) :
    headersIn b = [ethernetHeader, ipv4Header] := by
  obtain ⟨etherType, long⟩ := holds
  rw [headersIn, if_neg (by omega), if_pos etherType, ipv4In, if_pos long, if_neg options,
    List.append_nil]

theorem headersIn_ipv6 (holds : HoldsIpv6 b) :
    ∃ rest, headersIn b = [ethernetHeader, ipv6Header] ++ rest := by
  obtain ⟨etherType, long⟩ := holds
  rw [headersIn, if_neg (by omega), if_neg (by omega), if_pos etherType, ipv6In, if_pos long]
  exact ⟨_, rfl⟩

theorem mem_headersIn_ipv4 : ipv4Header ∈ headersIn b ↔ HoldsIpv4 b := by
  constructor
  · intro member
    unfold headersIn ipv4In ipv6In transportIn at member
    repeat' split at member
    all_goals first | exact ⟨‹_›, ‹_›⟩ | exact absurd member (by decide)
  · intro holds
    obtain ⟨rest, stack⟩ := headersIn_ipv4 holds
    rw [stack]
    exact List.mem_append_left _ (by decide)

theorem mem_headersIn_ipv6 : ipv6Header ∈ headersIn b ↔ HoldsIpv6 b := by
  constructor
  · intro member
    unfold headersIn ipv4In ipv6In transportIn at member
    repeat' split at member
    all_goals first | exact ⟨‹_›, ‹_›⟩ | exact absurd member (by decide)
  · intro holds
    obtain ⟨rest, stack⟩ := headersIn_ipv6 holds
    rw [stack]
    exact List.mem_append_left _ (by decide)

/-! ## The checksum -/

theorem shape_patch_checksum (holds : HoldsIpv4 b) (n : Nat) :
    shape (Bytes.patch b 24 (BigEndian.encode 2 n)) = shape b := by
  have long := holds.2
  have length := BigEndian.length_encode 2 n
  exact shape_patch (by omega) (by decide) (Or.inr (by decide))

/-- The checksum covers a change inside the fixed part of the header at its place. -/
theorem covered_patch (long : 34 ≤ b.length) (same : shape (Bytes.patch b start new) = shape b)
    (behind : 14 ≤ start) (inside : start + new.length ≤ 34) :
    covered (Bytes.patch b start new) = Bytes.patch (covered b) (start - 14) new := by
  rw [covered, covered, headerWords_congr same, Bytes.drop_patch_of_le (by omega) behind,
    Bytes.take_patch_of_le (by rw [List.length_drop]; omega) (by omega)]

theorem computedChecksum_lt (b : Bytes) : computedChecksum b < 65536 := UInt16.toNat_lt _

theorem length_corrected (b : Bytes) : (corrected b).length = b.length := by
  unfold corrected
  split
  case isTrue holds =>
    have long := holds.2
    exact Bytes.length_patch (by rw [BigEndian.length_encode]; omega)
  case isFalse => rfl

/-- Only the checksum is corrected. -/
theorem getElem?_corrected {i : Nat} (high : i ≠ 24) (low : i ≠ 25) :
    (corrected b)[i]? = b[i]? := by
  unfold corrected
  split
  case isTrue holds =>
    have long := holds.2
    have length := BigEndian.length_encode 2 (computedChecksum b)
    rw [Bytes.getElem?_patch (by omega), if_neg (by omega)]
  case isFalse => rfl

theorem shape_corrected (b : Bytes) : shape (corrected b) = shape b := by
  unfold corrected
  split
  case isTrue holds => exact shape_patch_checksum holds _
  case isFalse => rfl

/-- Correcting twice is correcting once. -/
theorem corrected_corrected (b : Bytes) : corrected (corrected b) = corrected b := by
  by_cases holds : HoldsIpv4 b
  · have long := holds.2
    have length := BigEndian.length_encode 2 (computedChecksum b)
    have zeroed : computedChecksum (corrected b) = computedChecksum b := by
      rw [corrected, if_pos holds, computedChecksum, computedChecksum,
        Bytes.patch_patch (by rw [List.length_cons, List.length_singleton]; omega) length]
    have again := (holdsIpv4_congr (shape_corrected b)).mpr holds
    rw [corrected, if_pos again, zeroed, corrected, if_pos holds,
      Bytes.patch_patch (by omega) rfl]
  · have not : corrected b = b := if_neg holds
    rw [not, not]

/-- Correcting changes nothing exactly if there is no wrong checksum. -/
theorem corrected_eq_self_iff :
    corrected b = b ↔ (HoldsIpv4 b → storedChecksum b = computedChecksum b) := by
  by_cases holds : HoldsIpv4 b
  · have long := holds.2
    rw [corrected, if_pos holds]
    constructor
    · intro same _
      have small : computedChecksum b < Nat.pow 256 2 := computedChecksum_lt b
      have written : BigEndian.read
          (Bytes.patch b 24 (BigEndian.encode 2 (computedChecksum b))) 24 2 =
            computedChecksum b % Nat.pow 256 2 :=
        Bytes.read_patch_encode (by omega)
      rwa [same, Nat.mod_eq_of_lt small] at written
    · intro correct
      rw [← correct holds, storedChecksum, Bytes.patch_encode_read (by omega)]
  · rw [corrected, if_neg holds]
    exact ⟨fun _ other => absurd other holds, fun _ => rfl⟩

/-- A corrected IPv4 header verifies. -/
theorem internetChecksum_corrected (holds : HoldsIpv4 b) :
    internetChecksum (covered (corrected b)) = 0 := by
  have long := holds.2
  have fixed : 12 ≤ (covered b).length := by
    rw [covered, List.length_take, List.length_drop]
    omega
  have zeros : ([0, 0] : Bytes) = BigEndian.encode 2 0 := rfl
  have inside (n : Nat) : 24 + (BigEndian.encode 2 n).length ≤ 34 := by
    rw [BigEndian.length_encode]
    decide
  rw [corrected, if_pos holds, covered_patch long (shape_patch_checksum holds _) (by decide)
    (inside _), computedChecksum, zeros, covered_patch long (shape_patch_checksum holds _)
    (by decide) (inside _), ← zeros]
  exact internetChecksum_patch (by decide) fixed

end BasicSwitch

end Switchyard
