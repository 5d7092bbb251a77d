import Switchyard.Proofs.Checked
import Switchyard.Proofs.Frame.Canonical
import Switchyard.Proofs.Frame.Recovery

/-!
# Frames written and recovered, checked

On the way in, a header is written into a buffer of its own size, options copied behind the fixed part. On
the way out, headers are read from the bytes behind an offset that moves on by what each header takes; every
number of a header and its options are slices. All of this comes through whatever the bytes: a reader asks
first how many there are, and no header takes more than that.
-/

namespace Switchyard

namespace Checked

open Sequencing

/-! ## Writing -/

/-- Writes bytes over a buffer from a position on. -/
def overwrite (buffer : Bytes) (start : Nat) (source : Bytes) : Checked Bytes := do
  let _ ← slice buffer start (start + source.length)
  return buffer.take start ++ source ++ buffer.drop (start + source.length)

/-- Copies bytes into all that a buffer has from a position on. -/
def copyBehind (buffer : Bytes) (start : Nat) (source : Bytes) : Checked Bytes := do
  let room ← rest buffer start
  require (.lengths room.length source.length) (room.length = source.length)
  return buffer.take start ++ source

/-- A header in a buffer of its size: options behind the fixed part, and the fixed part in front. -/
def encodeWithOptions (size minSize : Nat) (fixed options : Bytes) : Checked Bytes := do
  let buffer ← copyBehind (List.replicate size 0) minSize options
  overwrite buffer 0 fixed

def encode : Header → Checked Bytes
  | .ethernet h => overwrite (List.replicate EthernetHeader.size 0) 0 h.encode
  | .ipv4 h => encodeWithOptions h.size Ipv4Header.minSize (h.encode.take Ipv4Header.minSize) h.options
  | .ipv6 h => overwrite (List.replicate Ipv6Header.size 0) 0 h.encode
  | .tcp h => encodeWithOptions h.size TcpHeader.minSize (h.encode.take TcpHeader.minSize) h.options
  | .udp h => overwrite (List.replicate UdpHeader.size 0) 0 h.encode

/-- The bytes of a frame, header by header. -/
def toBytes (f : Frame) : Checked Bytes := do
  let headers ← f.headers.mapM encode
  return headers.flatten ++ f.payload.toBytes

/-- The packet that a frame enters as. -/
def enter (b : Boundary) (frame : Frame) (id port : Nat) (layout : Layout) :
    Checked (Except PipelineError Packet) :=
  if b.maxFrame < frame.length then .ok (.error (.frameTooLarge frame.length b.maxFrame))
  else do return .ok (Packet.new id port (← toBytes frame) layout)

theorem overwrite_all {buffer source : Bytes} (fits : source.length = buffer.length) :
    overwrite buffer 0 source = .ok source := by
  have all : 0 + source.length = buffer.length := by omega
  have room := slice_ok (Nat.zero_le (0 + source.length)) (Nat.le_of_eq all)
  refine bind_eq_ok.mpr ⟨_, room, ?_⟩
  rw [all, List.drop_length, List.take_zero, List.nil_append, List.append_nil]
  rfl

theorem encodeWithOptions_ok {minSize : Nat} {fixed options : Bytes} (length : fixed.length = minSize) :
    encodeWithOptions (minSize + options.length) minSize fixed options = .ok (fixed ++ options) := by
  have buffer : copyBehind (List.replicate (minSize + options.length) 0) minSize options =
      .ok (List.replicate minSize 0 ++ options) := by
    refine bind_eq_ok.mpr ⟨_, rest_ok (by rw [List.length_replicate]; omega), ?_⟩
    refine bind_eq_ok.mpr ⟨_, require_ok ?_, ?_⟩
    · rw [List.length_drop, List.length_replicate, Nat.add_sub_cancel_left]
    · rw [List.take_replicate, Nat.min_eq_left (Nat.le_add_right _ _)]
      rfl
  refine bind_eq_ok.mpr ⟨_, buffer, ?_⟩
  have room : 0 + fixed.length ≤ (List.replicate minSize 0 ++ options : Bytes).length := by
    rw [List.length_append, List.length_replicate]
    omega
  refine bind_eq_ok.mpr ⟨_, slice_ok (Nat.zero_le _) room, ?_⟩
  rw [Nat.zero_add, List.drop_left' (by rw [List.length_replicate, length]), List.take_zero,
    List.nil_append]
  rfl

/-- A header whose bytes behind the fixed part are its options is written as its bytes. -/
theorem encodeWithOptions_all {minSize : Nat} {bytes options : Bytes}
    (length : bytes.length = minSize + options.length) (behind : bytes.drop minSize = options) :
    encodeWithOptions (minSize + options.length) minSize (bytes.take minSize) options = .ok bytes := by
  have fixed : (bytes.take minSize).length = minSize := by
    rw [List.length_take]
    omega
  rw [encodeWithOptions_ok fixed, ← behind, List.take_append_drop]

theorem encode_ok (h : Header) : encode h = .ok h.encode := by
  have length := h.length_encode
  cases h with
  | ethernet h => exact overwrite_all (length.trans List.length_replicate.symm)
  | ipv6 h => exact overwrite_all (length.trans List.length_replicate.symm)
  | udp h => exact overwrite_all (length.trans List.length_replicate.symm)
  | ipv4 h =>
    have options : h.encode.drop Ipv4Header.minSize = h.options :=
      List.drop_left' (by simp [Ipv4Header.minSize, Ipv4Addr.toBytes])
    exact encodeWithOptions_all length options
  | tcp h =>
    have options : h.encode.drop TcpHeader.minSize = h.options :=
      List.drop_left' (by simp [TcpHeader.minSize])
    exact encodeWithOptions_all length options

theorem toBytes_ok (f : Frame) : toBytes f = .ok f.toBytes := by
  refine bind_eq_ok.mpr ⟨_, mapM_eq_ok_map fun h _ => encode_ok h, ?_⟩
  rw [Frame.toBytes, List.flatMap_def]
  rfl

theorem enter_ok (b : Boundary) (frame : Frame) (id port : Nat) (layout : Layout) :
    enter b frame id port layout = .ok (b.enter frame id port layout) := by
  unfold enter Boundary.enter
  split
  case isTrue => rfl
  case isFalse => exact bind_eq_ok.mpr ⟨_, toBytes_ok frame, rfl⟩

/-! ## Reading -/

/-- The number spelled by some of the bytes. -/
def number (bs : Bytes) (start count : Nat) : Checked Nat := do
  return BigEndian.value (← slice bs start (start + count))

def decodeEthernet (bs : Bytes) : Checked (Option (EthernetHeader × Nat)) :=
  if bs.length < EthernetHeader.size then .ok none
  else do
    let dst ← slice bs 0 6
    let src ← slice bs 6 12
    let etherType ← number bs 12 2
    return some (⟨MacAddr.ofBytes dst, MacAddr.ofBytes src, UInt16.ofNat etherType⟩, EthernetHeader.size)

def decodeIpv4 (bs : Bytes) : Checked (Option (Ipv4Header × Nat)) :=
  if bs.length < Ipv4Header.minSize then .ok none
  else do
    let lead ← number bs 0 1
    let headerSize := lead % 16 * 4
    if lead / 16 = 4 ∧ Ipv4Header.minSize ≤ headerSize ∧ headerSize ≤ bs.length then
      let tos ← number bs 1 1
      let totalLength ← number bs 2 2
      let identification ← number bs 4 2
      let flagsFragment ← number bs 6 2
      let ttl ← number bs 8 1
      let protocol ← number bs 9 1
      let checksum ← number bs 10 2
      let src ← slice bs 12 16
      let dst ← slice bs 16 20
      let options ← slice bs Ipv4Header.minSize headerSize
      return some (
        { tos := UInt8.ofNat tos
          totalLength := UInt16.ofNat totalLength
          identification := UInt16.ofNat identification
          flagsFragment := UInt16.ofNat flagsFragment
          ttl := UInt8.ofNat ttl
          protocol := UInt8.ofNat protocol
          checksum := UInt16.ofNat checksum
          src := Ipv4Addr.ofBytes src
          dst := Ipv4Addr.ofBytes dst
          options := options },
        headerSize)
    else return none

def decodeIpv6 (bs : Bytes) : Checked (Option (Ipv6Header × Nat)) :=
  if bs.length < Ipv6Header.size then .ok none
  else do
    let lead ← number bs 0 4
    if lead / 0x10000000 = 6 then
      let payloadLength ← number bs 4 2
      let nextHeader ← number bs 6 1
      let hopLimit ← number bs 7 1
      let src ← slice bs 8 24
      let dst ← slice bs 24 40
      return some (
        { trafficClass := UInt8.ofNat (lead / 0x100000 % 0x100)
          flowLabel := UInt32.ofNat (lead % 0x100000)
          payloadLength := UInt16.ofNat payloadLength
          nextHeader := UInt8.ofNat nextHeader
          hopLimit := UInt8.ofNat hopLimit
          src := Ipv6Addr.ofBytes src
          dst := Ipv6Addr.ofBytes dst },
        Ipv6Header.size)
    else return none

def decodeTcp (bs : Bytes) : Checked (Option (TcpHeader × Nat)) :=
  if bs.length < TcpHeader.minSize then .ok none
  else do
    let lengthFlags ← number bs 12 2
    let headerSize := lengthFlags / 0x1000 * 4
    if TcpHeader.minSize ≤ headerSize ∧ headerSize ≤ bs.length then
      let srcPort ← number bs 0 2
      let dstPort ← number bs 2 2
      let seq ← number bs 4 4
      let ack ← number bs 8 4
      let window ← number bs 14 2
      let checksum ← number bs 16 2
      let urgent ← number bs 18 2
      let options ← slice bs TcpHeader.minSize headerSize
      return some (
        { srcPort := UInt16.ofNat srcPort
          dstPort := UInt16.ofNat dstPort
          seq := UInt32.ofNat seq
          ack := UInt32.ofNat ack
          flags := UInt16.ofNat (lengthFlags % 0x1000)
          window := UInt16.ofNat window
          checksum := UInt16.ofNat checksum
          urgent := UInt16.ofNat urgent
          options := options },
        headerSize)
    else return none

def decodeUdp (bs : Bytes) : Checked (Option (UdpHeader × Nat)) :=
  if bs.length < UdpHeader.size then .ok none
  else do
    let srcPort ← number bs 0 2
    let dstPort ← number bs 2 2
    let length ← number bs 4 2
    let checksum ← number bs 6 2
    return some (
      { srcPort := UInt16.ofNat srcPort
        dstPort := UInt16.ofNat dstPort
        length := UInt16.ofNat length
        checksum := UInt16.ofNat checksum },
      UdpHeader.size)

theorem number_ok {bs : Bytes} {start count : Nat} (inside : start + count ≤ bs.length) :
    number bs start count = .ok (BigEndian.read bs start count) := by
  refine bind_eq_ok.mpr ⟨_, slice_ok (Nat.le_add_right _ _) inside, ?_⟩
  rw [Nat.add_sub_cancel_left]
  rfl

theorem ok_bind {α β : Type} (a : α) (f : α → Checked β) : ((.ok a : Checked α) >>= f) = f a := rfl

theorem decodeEthernet_ok (bs : Bytes) :
    decodeEthernet bs = .ok ((EthernetHeader.decode? bs).map fun h => (h, EthernetHeader.size)) := by
  unfold decodeEthernet EthernetHeader.decode?
  split
  case isTrue => rfl
  case isFalse short =>
    have long : 14 ≤ bs.length := Nat.le_of_not_lt short
    simp (disch := omega) only [slice_ok, number_ok, ok_bind]
    rfl

theorem decodeUdp_ok (bs : Bytes) :
    decodeUdp bs = .ok ((UdpHeader.decode? bs).map fun h => (h, UdpHeader.size)) := by
  unfold decodeUdp UdpHeader.decode?
  split
  case isTrue => rfl
  case isFalse short =>
    have long : 8 ≤ bs.length := Nat.le_of_not_lt short
    simp (disch := omega) only [number_ok, ok_bind]
    rfl

theorem decodeIpv6_ok (bs : Bytes) :
    decodeIpv6 bs = .ok ((Ipv6Header.decode? bs).map fun h => (h, Ipv6Header.size)) := by
  unfold decodeIpv6 Ipv6Header.decode?
  dsimp only
  by_cases short : bs.length < Ipv6Header.size
  · rw [if_pos short, if_pos (.inl short)]
    rfl
  · have long : 40 ≤ bs.length := Nat.le_of_not_lt short
    rw [if_neg short]
    simp (disch := omega) only [slice_ok, number_ok, ok_bind]
    by_cases version : BigEndian.read bs 0 4 / 0x10000000 = 6
    · rw [if_pos version, if_neg (not_or.mpr ⟨short, not_not_intro version⟩)]
      rfl
    · rw [if_neg version, if_pos (.inr version)]
      rfl

/-- The options that a header length leaves room for make up the header length. -/
theorem length_options {bs : Bytes} {minSize headerSize : Nat} (least : minSize ≤ headerSize)
    (inside : headerSize ≤ bs.length) :
    minSize + ((bs.drop minSize).take (headerSize - minSize)).length = headerSize := by
  rw [List.length_take, List.length_drop]
  omega

theorem decodeIpv4_ok (bs : Bytes) :
    decodeIpv4 bs = .ok ((Ipv4Header.decode? bs).map fun h => (h, h.size)) := by
  unfold decodeIpv4 Ipv4Header.decode?
  dsimp only
  by_cases short : bs.length < Ipv4Header.minSize
  · rw [if_pos short, if_neg fun all => Nat.not_lt.mpr (all.2.1.trans all.2.2) short]
    rfl
  · have long : 20 ≤ bs.length := Nat.le_of_not_lt short
    rw [if_neg short]
    simp (disch := omega) only [slice_ok, number_ok, ok_bind]
    split
    case isFalse => rfl
    case isTrue readable =>
      obtain ⟨-, least, inside⟩ := readable
      rw [slice_ok least inside, ok_bind, Option.map_some, Ipv4Header.size, length_options least inside]
      rfl

theorem decodeTcp_ok (bs : Bytes) :
    decodeTcp bs = .ok ((TcpHeader.decode? bs).map fun h => (h, h.size)) := by
  unfold decodeTcp TcpHeader.decode?
  dsimp only
  by_cases short : bs.length < TcpHeader.minSize
  · rw [if_pos short, if_neg fun all => Nat.not_lt.mpr all.1 short]
    rfl
  · have long : 20 ≤ bs.length := Nat.le_of_not_lt short
    rw [if_neg short]
    simp (disch := omega) only [number_ok, ok_bind]
    by_cases readable : TcpHeader.minSize ≤ BigEndian.read bs 12 2 / 0x1000 * 4 ∧
        BigEndian.read bs 12 2 / 0x1000 * 4 ≤ bs.length
    · obtain ⟨least, inside⟩ := readable
      rw [if_pos ⟨least, inside⟩, if_pos ⟨long, least, inside⟩, slice_ok least inside, ok_bind,
        Option.map_some, TcpHeader.size, length_options least inside]
      rfl
    · rw [if_neg readable, if_neg fun all => readable all.2]
      rfl

/-! ## Recovery -/

/-- A rule of recovery with checked reading. -/
structure Rule where
  applies : RecoveryState → Bool
  decode : Bytes → RecoveryState → Checked (Option Recovered)

namespace Rule

/-- The rule that reads one kind of header where a plain rule applies. -/
def reading {α : Type} (plain : RecoveryRule) (decode : Bytes → Checked (Option (α × Nat)))
    (header : α → Header) (next : RecoveryState → α → RecoveryState) : Rule where
  applies := plain.applies
  decode bs s := do return (← decode bs).map fun (h, used) => ⟨header h, used, next s h⟩

/-- The rules that every recovery starts with. -/
def standard : List Rule :=
  [reading .ethernet decodeEthernet .ethernet fun s h => s.afterEthernet h,
    reading .ipv4 decodeIpv4 .ipv4 fun s h => s.afterInternet h.protocol,
    reading .ipv6 decodeIpv6 .ipv6 fun s h => s.afterInternet h.nextHeader,
    reading .tcp decodeTcp .tcp fun s _ => s.afterTransport,
    reading .udp decodeUdp .udp fun s _ => s.afterTransport]

/-- The rule comes through and reads what a plain rule reads, which takes no more than there is. -/
structure Mirrors (rule : Rule) (plain : RecoveryRule) : Prop where
  applies : rule.applies = plain.applies
  decode : ∀ bs s, rule.decode bs s = .ok (plain.decode bs s)
  inside : ∀ bs s r, plain.decode bs s = some r → r.used ≤ bs.length

theorem mirrors_reading {α : Type} {plain : RecoveryRule} {decode : Bytes → Checked (Option (α × Nat))}
    {decode? : Bytes → Option α} {size : α → Nat} {header : α → Header}
    {next : RecoveryState → α → RecoveryState}
    (reads : ∀ bs s, plain.decode bs s = (decode? bs).map fun h => ⟨header h, size h, next s h⟩)
    (comesThrough : ∀ bs, decode bs = .ok ((decode? bs).map fun h => (h, size h)))
    (lossless : plain.Lossless) : (reading plain decode header next).Mirrors plain := by
  refine ⟨rfl, fun bs s => ?_, fun bs s r read => (lossless bs s r read).1⟩
  refine bind_eq_ok.mpr ⟨_, comesThrough bs, ?_⟩
  rw [reads, Option.map_map]
  rfl

theorem standard_mirrors : List.Forall₂ Mirrors standard RecoveryRule.standard := by
  refine .cons ?ethernet (.cons ?ipv4 (.cons ?ipv6 (.cons ?tcp (.cons ?udp .nil))))
  case ethernet =>
    exact mirrors_reading (RecoveryRule.decode_reading _ _ _) decodeEthernet_ok RecoveryRule.ethernet_lossless
  case ipv4 => exact mirrors_reading (RecoveryRule.decode_reading _ _ _) decodeIpv4_ok RecoveryRule.ipv4_lossless
  case ipv6 => exact mirrors_reading (RecoveryRule.decode_reading _ _ _) decodeIpv6_ok RecoveryRule.ipv6_lossless
  case tcp => exact mirrors_reading (RecoveryRule.decode_reading _ _ _) decodeTcp_ok RecoveryRule.tcp_lossless
  case udp => exact mirrors_reading (RecoveryRule.decode_reading _ _ _) decodeUdp_ok RecoveryRule.udp_lossless

end Rule

/-- What the first rule reads that applies and takes bytes. -/
def step? (s : RecoveryState) (bs : Bytes) : List Rule → Checked (Option Recovered)
  | [] => .ok none
  | rule :: rules =>
    if rule.applies s then do
      match ← rule.decode bs s with
      | none => step? s bs rules
      | some r => if r.used = 0 then step? s bs rules else return some r
    else step? s bs rules

variable {rules : List Rule} {plain : List RecoveryRule} {s : RecoveryState} {bs : Bytes}

theorem step?_ok (mirrors : List.Forall₂ Rule.Mirrors rules plain) :
    step? s bs rules = .ok (Recovery.step? plain s bs) := by
  induction mirrors with
  | nil => rfl
  | @cons rule first rules others own _ ih =>
    rw [step?, own.applies, Recovery.step?, List.findSome?_cons, RecoveryRule.attempt?]
    split
    case isFalse => exact ih
    case isTrue =>
      refine bind_eq_ok.mpr ⟨_, own.decode bs s, ?_⟩
      cases read : first.decode bs s with
      | none => exact ih
      | some r =>
        have inside := own.inside bs s r read
        dsimp only
        rw [Option.filter_some]
        by_cases nothing : r.used = 0
        · rw [if_pos nothing, if_neg (by simp [nothing])]
          exact ih
        · have takes : 0 < r.used := Nat.pos_of_ne_zero nothing
          rw [if_neg nothing, if_pos (by simp [takes, inside])]
          rfl

/-- What is taken is something. -/
theorem used_of_step? {r : Recovered} (read : step? s bs rules = .ok (some r)) : r.used ≠ 0 := by
  induction rules with
  | nil => cases read
  | cons rule rules ih =>
    rw [step?] at read
    split at read
    case isFalse => exact ih read
    case isTrue =>
      obtain ⟨found, -, read⟩ := bind_eq_ok.mp read
      cases found with
      | none => exact ih read
      | some other =>
        dsimp only at read
        split at read
        case isTrue => exact ih read
        case isFalse some =>
          cases read
          exact some

/-- The headers that the rules find behind an offset, and the bytes behind them. -/
def recover (rules : List Rule) (s : RecoveryState) (bytes : Bytes) (offset : Nat) :
    Checked (List Header × Bytes) :=
  match _inside : rest bytes offset with
  | .error breach => .error breach
  | .ok left =>
    match _read : step? s left rules with
    | .error breach => .error breach
    | .ok none => .ok ([], left)
    | .ok (some r) => do
      let (headers, payload) ← recover rules r.next bytes (offset + r.used)
      return (r.header :: headers, payload)
termination_by bytes.length + 1 - offset
decreasing_by
  have := rest_eq_ok _inside
  have := used_of_step? _read
  omega

/-- One step of a recovery, from an offset inside the bytes. -/
theorem recover_eq {bytes : Bytes} {offset : Nat} {found : Option Recovered}
    (inside : offset ≤ bytes.length) (read : step? s (bytes.drop offset) rules = .ok found) :
    recover rules s bytes offset = found.elim (.ok ([], bytes.drop offset)) fun r => do
      let (headers, payload) ← recover rules r.next bytes (offset + r.used)
      return (r.header :: headers, payload) := by
  rw [recover]
  split
  case h_1 breach broken =>
    rw [rest_ok inside] at broken
    cases broken
  case h_2 left taken =>
    obtain ⟨-, rfl⟩ := rest_eq_ok taken
    split <;> rename_i same <;> rw [read] at same <;> cases same <;> rfl

/-- A recovery comes through, as the plain recovery of the bytes behind the offset. -/
theorem recover_ok (mirrors : List.Forall₂ Rule.Mirrors rules plain) {bytes : Bytes} {offset : Nat}
    (inside : offset ≤ bytes.length) :
    recover rules s bytes offset = .ok (Recovery.run plain s (bytes.drop offset)) := by
  generalize behind : bytes.drop offset = left
  fun_induction Recovery.run plain s left generalizing offset with
  | case1 s left stop =>
    subst behind
    rw [recover_eq inside (step?_ok mirrors), stop, Option.elim_none]
  | case2 s left r read headers payload run ih =>
    subst behind
    have used := (Recovery.used_of_step? read).2
    rw [List.length_drop] at used
    have further : recover rules r.next bytes (offset + r.used) =
        .ok (Recovery.run plain r.next ((bytes.drop offset).drop r.used)) :=
      ih (by omega) (by rw [List.drop_drop])
    rw [recover_eq inside (step?_ok mirrors), read, Option.elim_some]
    exact bind_eq_ok.mpr ⟨_, further, by rw [run]; rfl⟩

/-- The frame that a packet leaves as, in answer to the frame `origin`. -/
def leave (rules : List Rule) (pkt : Packet) (origin : Frame) : Checked Frame := do
  let (headers, payload) ← recover rules .initial pkt.data 0
  let frame := Frame.new pkt.id headers (.bytes payload)
  return { frame with
    packetTags := origin.packetTags
    byteTags := origin.byteTags.map fun t => ByteTag.covering frame.length t.tag }

theorem leave_ok (maxFrame : Nat) (pkt : Packet) (origin : Frame) :
    leave Rule.standard pkt origin = .ok ((Boundary.standard maxFrame).leave pkt origin) :=
  bind_eq_ok.mpr ⟨_, recover_ok Rule.standard_mirrors (Nat.zero_le _), rfl⟩

end Checked

end Switchyard
