import Switchyard.Frame.Header
import Switchyard.Proofs.Bytes

/-!
# Reading a header keeps its bytes

Every header that is read from the front of a byte string is written back as the bytes that it was
read from: no reserved bit, flag or option is lost, whatever the bytes say.
-/

namespace Switchyard

namespace BigEndian

variable {bs : Bytes} {start : Nat}

theorem encode_uint16_read (inside : start + 2 ≤ bs.length) :
    encode 2 (UInt16.ofNat (read bs start 2)).toNat = (bs.drop start).take 2 := by
  have bound : read bs start 2 < 65536 := read_lt bs start 2
  rw [UInt16.toNat_ofNat', Nat.mod_eq_of_lt bound, encode_read inside]

theorem encode_uint32_read (inside : start + 4 ≤ bs.length) :
    encode 4 (UInt32.ofNat (read bs start 4)).toNat = (bs.drop start).take 4 := by
  have bound : read bs start 4 < 4294967296 := read_lt bs start 4
  rw [UInt32.toNat_ofNat', Nat.mod_eq_of_lt bound, encode_read inside]

theorem singleton_uint8_read (inside : start + 1 ≤ bs.length) :
    [UInt8.ofNat (read bs start 1)] = (bs.drop start).take 1 := by
  rw [← encode_read inside]
  simp [encode]

/-- An address of `k` bytes keeps its bytes. -/
theorem encode_bitVec_value {k w : Nat} {bs : Bytes} (length : bs.length = k)
    (width : Nat.pow 256 k = Nat.pow 2 w) : encode k (BitVec.ofNat w (value bs)).toNat = bs := by
  have bound := value_lt bs
  rw [length, width, Nat.pow_eq] at bound
  rw [BitVec.toNat_ofNat, Nat.mod_eq_of_lt bound, ← length, encode_value]

end BigEndian

theorem MacAddr.toBytes_ofBytes {bs : Bytes} (length : bs.length = 6) :
    (MacAddr.ofBytes bs).toBytes = bs :=
  BigEndian.encode_bitVec_value length (by decide)

theorem Ipv4Addr.toBytes_ofBytes {bs : Bytes} (length : bs.length = 4) :
    (Ipv4Addr.ofBytes bs).toBytes = bs :=
  BigEndian.encode_bitVec_value length (by decide)

theorem Ipv6Addr.toBytes_ofBytes {bs : Bytes} (length : bs.length = 16) :
    (Ipv6Addr.ofBytes bs).toBytes = bs :=
  BigEndian.encode_bitVec_value length (by decide)

/-- Reading a header takes the bytes that the header is written as. -/
def Header.ReadFrom (h : Header) (bs : Bytes) : Prop :=
  h.size ≤ bs.length ∧ h.encode = bs.take h.size

theorem length_take_drop {bs : Bytes} {start count : Nat} (inside : start + count ≤ bs.length) :
    ((bs.drop start).take count).length = count := by
  rw [List.length_take, List.length_drop]
  omega

theorem EthernetHeader.readFrom_of_decode? {bs : Bytes} {h : EthernetHeader}
    (decoded : decode? bs = some h) : (Header.ethernet h).ReadFrom bs := by
  unfold decode? at decoded
  split at decoded
  case isTrue => contradiction
  case isFalse long =>
    have inside : 14 ≤ bs.length := Nat.le_of_not_lt long
    obtain rfl := Option.some.inj decoded
    refine ⟨inside, ?_⟩
    have dst : (bs.take 6).length = 6 := by
      rw [List.length_take]
      omega
    simp only [Header.encode, Header.size, encode, size]
    rw [MacAddr.toBytes_ofBytes dst, MacAddr.toBytes_ofBytes (length_take_drop (by omega)),
      BigEndian.encode_uint16_read (by omega), ← List.take_add, ← List.take_add]

theorem UdpHeader.readFrom_of_decode? {bs : Bytes} {h : UdpHeader}
    (decoded : decode? bs = some h) : (Header.udp h).ReadFrom bs := by
  unfold decode? at decoded
  split at decoded
  case isTrue => contradiction
  case isFalse long =>
    have inside : 8 ≤ bs.length := Nat.le_of_not_lt long
    obtain rfl := Option.some.inj decoded
    refine ⟨inside, ?_⟩
    simp only [Header.encode, Header.size, encode, size]
    rw [BigEndian.encode_uint16_read (by omega), BigEndian.encode_uint16_read (by omega),
      BigEndian.encode_uint16_read (by omega), BigEndian.encode_uint16_read (by omega),
      List.drop_zero, ← List.take_add, ← List.take_add, ← List.take_add]

theorem Ipv6Header.readFrom_of_decode? {bs : Bytes} {h : Ipv6Header}
    (decoded : decode? bs = some h) : (Header.ipv6 h).ReadFrom bs := by
  simp only [decode?] at decoded
  split at decoded
  case isTrue => contradiction
  case isFalse fits =>
    have inside : 40 ≤ bs.length := by
      have long : ¬bs.length < 40 := fun short => fits (.inl short)
      omega
    have version : BigEndian.read bs 0 4 / 0x10000000 = 6 := by
      by_cases six : BigEndian.read bs 0 4 / 0x10000000 = 6
      · exact six
      · exact absurd (.inr six) fits
    obtain rfl := Option.some.inj decoded
    refine ⟨inside, ?_⟩
    -- version, traffic class and flow label are the whole first word
    have lead : 6 * 0x10000000 + BigEndian.read bs 0 4 / 0x100000 % 0x100 % 256 * 0x100000 +
        BigEndian.read bs 0 4 % 0x100000 % 4294967296 % 0x100000 = BigEndian.read bs 0 4 := by
      omega
    simp only [Header.encode, Header.size, encode, size, Ipv6Header.lead, UInt8.toNat_ofNat',
      UInt32.toNat_ofNat', Nat.reducePow]
    rw [lead, BigEndian.encode_read (by omega), BigEndian.encode_uint16_read (by omega),
      ← List.singleton_append, BigEndian.singleton_uint8_read (by omega),
      BigEndian.singleton_uint8_read (by omega),
      Ipv6Addr.toBytes_ofBytes (length_take_drop (by omega)),
      Ipv6Addr.toBytes_ofBytes (length_take_drop (by omega)), List.drop_zero,
      ← List.append_assoc (bs.take 4 ++ _), ← List.take_add, ← List.take_add, ← List.take_add,
      ← List.take_add, ← List.take_add]

theorem Ipv4Header.readFrom_of_decode? {bs : Bytes} {h : Ipv4Header}
    (decoded : decode? bs = some h) : (Header.ipv4 h).ReadFrom bs := by
  simp only [decode?] at decoded
  split at decoded
  case isFalse => contradiction
  case isTrue fits =>
    simp only [minSize] at fits decoded
    obtain ⟨version, long, inside⟩ := fits
    have byte : BigEndian.read bs 0 1 < 256 := BigEndian.read_lt bs 0 1
    obtain ⟨options, count⟩ := Nat.exists_eq_add_of_le long
    obtain rfl := Option.some.inj decoded
    have kept : ((bs.drop 20).take (BigEndian.read bs 0 1 % 16 * 4 - 20)).length = options := by
      rw [length_take_drop (by omega)]
      omega
    -- the length field of the written header is the one that was read
    have lead : 4 * 16 + (20 + options) / 4 % 16 = BigEndian.read bs 0 1 := by omega
    have taken : BigEndian.read bs 0 1 % 16 * 4 - 20 = options := by omega
    refine ⟨?_, ?_⟩
    · simp only [Header.size, size, minSize, kept]
      omega
    · simp only [Header.encode, Header.size, encode, size, minSize, Ipv4Header.lead, kept, lead]
      rw [BigEndian.encode_uint16_read (by omega), BigEndian.encode_uint16_read (by omega),
        BigEndian.encode_uint16_read (by omega), BigEndian.encode_uint16_read (by omega),
        Ipv4Addr.toBytes_ofBytes (length_take_drop (by omega)),
        Ipv4Addr.toBytes_ofBytes (length_take_drop (by omega)), taken,
        ← List.singleton_append, BigEndian.singleton_uint8_read (by omega),
        BigEndian.singleton_uint8_read (by omega),
        ← List.singleton_append, BigEndian.singleton_uint8_read (by omega),
        BigEndian.singleton_uint8_read (by omega), List.drop_zero]
      simp only [← List.append_assoc]
      simp only [← List.take_add, Nat.reduceAdd]

theorem TcpHeader.readFrom_of_decode? {bs : Bytes} {h : TcpHeader}
    (decoded : decode? bs = some h) : (Header.tcp h).ReadFrom bs := by
  simp only [decode?] at decoded
  split at decoded
  case isFalse => contradiction
  case isTrue fits =>
    simp only [minSize] at fits decoded
    obtain ⟨-, long, inside⟩ := fits
    have word : BigEndian.read bs 12 2 < 65536 := BigEndian.read_lt bs 12 2
    obtain ⟨options, count⟩ := Nat.exists_eq_add_of_le long
    obtain rfl := Option.some.inj decoded
    have kept : ((bs.drop 20).take (BigEndian.read bs 12 2 / 0x1000 * 4 - 20)).length =
        options := by
      rw [length_take_drop (by omega)]
      omega
    have lengthFlags : (20 + options) / 4 % 16 * 0x1000 +
        BigEndian.read bs 12 2 % 0x1000 % 65536 % 0x1000 = BigEndian.read bs 12 2 := by omega
    have taken : BigEndian.read bs 12 2 / 0x1000 * 4 - 20 = options := by omega
    refine ⟨?_, ?_⟩
    · simp only [Header.size, size, minSize, kept]
      omega
    · simp only [Header.encode, Header.size, encode, size, minSize, TcpHeader.lengthFlags, kept,
        UInt16.toNat_ofNat' (n := BigEndian.read bs 12 2 % 0x1000), Nat.reducePow, lengthFlags]
      rw [BigEndian.encode_uint16_read (by omega), BigEndian.encode_uint16_read (by omega),
        BigEndian.encode_uint32_read (by omega), BigEndian.encode_uint32_read (by omega),
        BigEndian.encode_read (by omega), BigEndian.encode_uint16_read (by omega),
        BigEndian.encode_uint16_read (by omega), BigEndian.encode_uint16_read (by omega), taken,
        List.drop_zero]
      simp only [← List.take_add, Nat.reduceAdd]

end Switchyard
