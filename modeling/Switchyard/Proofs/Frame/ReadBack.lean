import Switchyard.Frame.Header
import Switchyard.Proofs.Bytes

/-!
# A written header is read back

Reading goes through a written header field by field: a field in front is the one that was written,
and a field further back is found behind the fields before it. So every header whose fields fit the
wire is read back from the bytes that it is written as, whatever comes behind them.
-/

namespace Switchyard

namespace BigEndian

variable {rest : Bytes} {k n start count : Nat}

theorem drop_encode_append (behind : k ≤ start) :
    (encode k n ++ rest).drop start = rest.drop (start - k) := by
  have front : (encode k n).length ≤ start := by rwa [length_encode]
  rw [List.drop_append, List.drop_of_length_le front, List.nil_append, length_encode]

/-- A number behind a written number is found behind its bytes. -/
theorem read_encode_append (behind : k ≤ start) :
    read (encode k n ++ rest) start count = read rest (start - k) count := by
  rw [read, drop_encode_append behind, read]

theorem read_cons (b : UInt8) (behind : 1 ≤ start) :
    read (b :: rest) start count = read rest (start - 1) count := by
  obtain ⟨position, rfl⟩ := Nat.exists_eq_add_of_le behind
  rw [Nat.add_comm, read, List.drop_succ_cons, Nat.add_sub_cancel, read]

theorem read_front (k n : Nat) (rest : Bytes) :
    read (encode k n ++ rest) 0 k = n % Nat.pow 256 k := by
  rw [read, List.drop_zero, List.take_left' (length_encode k n), value_encode]

theorem uint8_front (b : UInt8) (rest : Bytes) : read (b :: rest) 0 1 = b.toNat := by
  simp [read, value]

theorem uint16_front (x : UInt16) (rest : Bytes) :
    UInt16.ofNat (read (encode 2 x.toNat ++ rest) 0 2) = x := by
  have bound : x.toNat < Nat.pow 256 2 := x.toNat_lt
  rw [read_front, Nat.mod_eq_of_lt bound, UInt16.ofNat_toNat]

theorem uint32_front (x : UInt32) (rest : Bytes) :
    UInt32.ofNat (read (encode 4 x.toNat ++ rest) 0 4) = x := by
  have bound : x.toNat < Nat.pow 256 4 := x.toNat_lt
  rw [read_front, Nat.mod_eq_of_lt bound, UInt32.ofNat_toNat]

/-- The address of `k` bytes in front is the one that was written. -/
theorem bitVec_front {w : Nat} (x : BitVec w) (width : Nat.pow 256 k = Nat.pow 2 w) (rest : Bytes) :
    BitVec.ofNat w (value ((encode k x.toNat ++ rest).take k)) = x := by
  rw [List.take_left' (length_encode k x.toNat), value_encode, width, Nat.pow_eq,
    Nat.mod_eq_of_lt x.isLt, BitVec.ofNat_toNat, BitVec.setWidth_eq]

end BigEndian

open BigEndian

theorem MacAddr.ofBytes_front (a : MacAddr) (rest : Bytes) :
    MacAddr.ofBytes ((encode 6 a.bits.toNat ++ rest).take 6) = a :=
  congrArg MacAddr.mk (bitVec_front a.bits (by decide) rest)

theorem Ipv4Addr.ofBytes_front (a : Ipv4Addr) (rest : Bytes) :
    Ipv4Addr.ofBytes ((encode 4 a.toNat ++ rest).take 4) = a :=
  congrArg Ipv4Addr.mk (bitVec_front a.bits (by decide) rest)

theorem Ipv6Addr.ofBytes_front (a : Ipv6Addr) (rest : Bytes) :
    Ipv6Addr.ofBytes ((encode 16 a.toNat ++ rest).take 16) = a :=
  congrArg Ipv6Addr.mk (bitVec_front a.bits (by decide) rest)

/-- Options that the four-bit header length can count: whole words, and no more than ten. -/
def OptionsFit (options : Bytes) : Prop := options.length % 4 = 0 ∧ options.length ≤ 40

/-- A header all of whose fields reach the wire. -/
def Header.Fits : Header → Prop
  | ethernet _ => True
  | ipv4 h => OptionsFit h.options
  | ipv6 h => h.flowLabel.toNat < 0x100000
  | tcp h => OptionsFit h.options ∧ h.flags.toNat < 0x1000
  | udp _ => True

instance (options : Bytes) : Decidable (OptionsFit options) := inferInstanceAs (Decidable (_ ∧ _))

instance : (h : Header) → Decidable h.Fits
  | .ethernet _ => inferInstanceAs (Decidable True)
  | .ipv4 h => inferInstanceAs (Decidable (OptionsFit h.options))
  | .ipv6 h => inferInstanceAs (Decidable (h.flowLabel.toNat < 0x100000))
  | .tcp h => inferInstanceAs (Decidable (OptionsFit h.options ∧ h.flags.toNat < 0x1000))
  | .udp _ => inferInstanceAs (Decidable True)

theorem Header.size_le_length_encode_append (h : Header) (rest : Bytes) :
    h.size ≤ (h.encode ++ rest).length := by
  rw [List.length_append, length_encode]
  exact Nat.le_add_right _ _

theorem EthernetHeader.decode?_encode_append (h : EthernetHeader) (rest : Bytes) :
    decode? (h.encode ++ rest) = some h := by
  have long : size ≤ (h.encode ++ rest).length :=
    Header.size_le_length_encode_append (.ethernet h) rest
  rw [decode?, if_neg (Nat.not_lt.mpr long)]
  simp (disch := decide) only [encode, MacAddr.toBytes, List.append_assoc, drop_encode_append,
    read_encode_append, Nat.reduceSub, List.drop_zero, MacAddr.ofBytes_front, uint16_front]

theorem UdpHeader.decode?_encode_append (h : UdpHeader) (rest : Bytes) :
    decode? (h.encode ++ rest) = some h := by
  have long : size ≤ (h.encode ++ rest).length :=
    Header.size_le_length_encode_append (.udp h) rest
  rw [decode?, if_neg (Nat.not_lt.mpr long)]
  simp (disch := decide) only [encode, List.append_assoc, read_encode_append, Nat.reduceSub,
    uint16_front]

theorem Ipv6Header.decode?_encode_append {h : Ipv6Header} (fits : (Header.ipv6 h).Fits)
    (rest : Bytes) : decode? (h.encode ++ rest) = some h := by
  have long : size ≤ (h.encode ++ rest).length :=
    Header.size_le_length_encode_append (.ipv6 h) rest
  have trafficClassBound := h.trafficClass.toNat_lt
  have flowLabelBound : h.flowLabel.toNat < 0x100000 := fits
  have lead : read (h.encode ++ rest) 0 4 = h.lead := by
    have bound : h.lead < Nat.pow 256 4 := by
      simp only [Ipv6Header.lead, Nat.pow_eq, Nat.reducePow]
      omega
    simp only [encode, List.append_assoc]
    rw [read_front, Nat.mod_eq_of_lt bound]
  have version : h.lead / 0x10000000 = 6 := by
    simp only [Ipv6Header.lead]
    omega
  have trafficClass : h.lead / 0x100000 % 0x100 = h.trafficClass.toNat := by
    simp only [Ipv6Header.lead]
    omega
  have flowLabel : h.lead % 0x100000 = h.flowLabel.toNat := by
    simp only [Ipv6Header.lead]
    omega
  simp only [decode?, lead]
  rw [if_neg (by omega), trafficClass, flowLabel, UInt8.ofNat_toNat, UInt32.ofNat_toNat]
  simp (disch := decide) only [encode, Ipv6Addr.toBytes, List.append_assoc, List.cons_append,
    List.nil_append, drop_encode_append, read_encode_append, read_cons, Nat.reduceSub,
    List.drop_succ_cons, List.drop_zero, uint8_front, UInt8.ofNat_toNat, uint16_front,
    Ipv6Addr.ofBytes_front]

/-- With fitting options the header length in words stays below sixteen. -/
theorem OptionsFit.words {options : Bytes} (fits : OptionsFit options) :
    (20 + options.length) / 4 % 16 * 4 = 20 + options.length := by
  obtain ⟨whole, few⟩ := fits
  omega

/-- The first byte, whatever the options are. -/
theorem Ipv4Header.read_lead (h : Ipv4Header) (rest : Bytes) :
    read (h.encode ++ rest) 0 1 = 4 * 16 + (20 + h.options.length) / 4 % 16 := by
  simp only [encode, List.append_assoc, List.cons_append]
  rw [uint8_front, Ipv4Header.lead, UInt8.toNat_ofNat', size, minSize]
  omega

theorem Ipv4Header.decode?_encode_append {h : Ipv4Header} (fits : (Header.ipv4 h).Fits)
    (rest : Bytes) : decode? (h.encode ++ rest) = some h := by
  have long : h.size ≤ (h.encode ++ rest).length :=
    Header.size_le_length_encode_append (.ipv4 h) rest
  have words := OptionsFit.words fits
  have lead := h.read_lead rest
  have headerSize : read (h.encode ++ rest) 0 1 % 16 * 4 = 20 + h.options.length := by
    rw [lead]
    omega
  simp only [size, minSize] at long
  simp only [decode?, headerSize, minSize]
  rw [if_pos (by omega)]
  simp (disch := decide) only [encode, Ipv4Addr.toBytes, List.append_assoc, List.cons_append,
    List.nil_append, drop_encode_append, read_encode_append, read_cons, Nat.reduceSub,
    List.drop_succ_cons, List.drop_zero, uint8_front, UInt8.ofNat_toNat, uint16_front,
    Ipv4Addr.ofBytes_front, Nat.add_sub_cancel_left, List.take_left]

theorem TcpHeader.decode?_encode_append {h : TcpHeader} (fits : (Header.tcp h).Fits)
    (rest : Bytes) : decode? (h.encode ++ rest) = some h := by
  have long : h.size ≤ (h.encode ++ rest).length :=
    Header.size_le_length_encode_append (.tcp h) rest
  obtain ⟨optionsFit, flagsBound⟩ := fits
  have words := optionsFit.words
  have lengthFlags : read (h.encode ++ rest) 12 2 =
      (20 + h.options.length) / 4 % 16 * 0x1000 + h.flags.toNat := by
    have bound : h.lengthFlags < Nat.pow 256 2 := by
      simp only [TcpHeader.lengthFlags, Nat.pow_eq, Nat.reducePow]
      omega
    simp (disch := decide) only [encode, List.append_assoc, read_encode_append, Nat.reduceSub]
    rw [read_front, Nat.mod_eq_of_lt bound, TcpHeader.lengthFlags, size, minSize,
      Nat.mod_eq_of_lt flagsBound]
  have headerSize : read (h.encode ++ rest) 12 2 / 0x1000 * 4 = 20 + h.options.length := by
    rw [lengthFlags]
    omega
  have flags : read (h.encode ++ rest) 12 2 % 0x1000 = h.flags.toNat := by
    rw [lengthFlags]
    omega
  simp only [size, minSize] at long
  simp only [decode?, headerSize, flags, minSize]
  rw [if_pos (by omega)]
  simp (disch := decide) only [encode, List.append_assoc, drop_encode_append, read_encode_append,
    Nat.reduceSub, List.drop_zero, uint16_front, uint32_front, UInt16.ofNat_toNat,
    Nat.add_sub_cancel_left, List.take_left]

end Switchyard
