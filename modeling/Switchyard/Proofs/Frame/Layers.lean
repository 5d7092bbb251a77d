import Switchyard.Proofs.Frame.Canonical
import Switchyard.Proofs.Frame.Recovery

/-!
# The layers of a frame

The bytes themselves say which headers stand in front of them. Fourteen bytes are an Ethernet header, its
type announces an internet header, and the protocol of that a transport header. An announced header is
there if its own first bytes agree and there are enough bytes for all of it; a layer that is not there
leaves its bytes to the payload. This is stated here layer by layer, without rules and without a search.
Recovery by the standard rules finds exactly these layers.
-/

namespace Switchyard

/-! ## Headers in front of bytes -/

/-- So many bytes in front are an Ethernet header. -/
def EthernetHeader.Spans (bs : Bytes) (size : Nat) : Prop := size = 14 ∧ size ≤ bs.length

/-- The first byte holds the version, and the number of words of the header, at least five. -/
def Ipv4Header.Spans (bs : Bytes) (size : Nat) : Prop :=
  ∃ first, bs[0]? = some first ∧ first.toNat / 16 = 4 ∧ 5 ≤ first.toNat % 16 ∧
    size = 4 * (first.toNat % 16) ∧ size ≤ bs.length

def Ipv6Header.Spans (bs : Bytes) (size : Nat) : Prop :=
  ∃ first, bs[0]? = some first ∧ first.toNat / 16 = 6 ∧ size = 40 ∧ size ≤ bs.length

/-- The data offset, in the high half of the thirteenth byte, counts the words of the header. -/
def TcpHeader.Spans (bs : Bytes) (size : Nat) : Prop :=
  ∃ offset, bs[12]? = some offset ∧ 5 ≤ offset.toNat / 16 ∧ size = 4 * (offset.toNat / 16) ∧
    size ≤ bs.length

def UdpHeader.Spans (bs : Bytes) (size : Nat) : Prop := size = 8 ∧ size ≤ bs.length

namespace Header

/-- The bytes in front are a header of this kind. -/
def Spans : Header → Bytes → Nat → Prop
  | ethernet _ => EthernetHeader.Spans
  | ipv4 _ => Ipv4Header.Spans
  | ipv6 _ => Ipv6Header.Spans
  | tcp _ => TcpHeader.Spans
  | udp _ => UdpHeader.Spans

/-- The bytes in front are this header: there is one of its kind, all of its fields reach the wire, and it
is written as these bytes. -/
structure Stands (h : Header) (bs : Bytes) (size : Nat) : Prop where
  spans : h.Spans bs size
  fits : h.Fits
  written : h.encode = bs.take size

variable {h : Header} {bs : Bytes} {size : Nat}

theorem Spans.inside (spans : h.Spans bs size) : size ≤ bs.length := by
  cases h with
  | ethernet => exact spans.2
  | ipv4 => exact spans.choose_spec.2.2.2.2
  | ipv6 => exact spans.choose_spec.2.2.2
  | tcp => exact spans.choose_spec.2.2.2
  | udp => exact spans.2

theorem Stands.size_eq (stands : h.Stands bs size) : h.size = size := by
  rw [← h.length_encode, stands.written, List.length_take, Nat.min_eq_left stands.spans.inside]

/-- The header, and behind it the rest of the bytes. -/
theorem Stands.append (stands : h.Stands bs size) : h.encode ++ bs.drop size = bs := by
  rw [stands.written, List.take_append_drop]

/-- A reader of one kind of header that reads what stands in front of the bytes, whenever one does. -/
structure Exact {α : Type} (decode? : Bytes → Option α) (header : α → Header)
    (spans : Bytes → Nat → Prop) : Prop where
  some_iff : ∀ bs a, decode? bs = some a ↔ ∃ size, (header a).Stands bs size
  none_iff : ∀ bs, decode? bs = none ↔ ∀ size, ¬spans bs size

/-- Such a reader finds the size that the bytes announce, keeps the bytes and reads back what is written. -/
theorem exact_of {α : Type} {decode? : Bytes → Option α} {header : α → Header}
    {spans : Bytes → Nat → Prop} (kind : ∀ a, (header a).Spans = spans)
    (complete : ∀ bs size, spans bs size → (decode? bs).isSome)
    (sound : ∀ bs a, decode? bs = some a → spans bs (header a).size ∧ (header a).Fits)
    (keeps : ∀ bs a, decode? bs = some a → (header a).ReadFrom bs)
    (readBack : ∀ a rest, (header a).Fits → decode? ((header a).encode ++ rest) = some a) :
    Exact decode? header spans where
  some_iff bs a := by
    constructor
    · intro read
      obtain ⟨spanned, fits⟩ := sound bs a read
      exact ⟨_, by rw [kind]; exact spanned, fits, (keeps bs a read).2⟩
    · rintro ⟨size, stands⟩
      rw [← stands.append]
      exact readBack a _ stands.fits
  none_iff bs := by
    rw [← Option.not_isSome_iff_eq_none]
    constructor
    · intro unread size spanned
      exact unread (complete bs size spanned)
    · intro nothing some
      obtain ⟨a, read⟩ := Option.isSome_iff_exists.mp some
      exact nothing _ (sound bs a read).1

end Header

open BigEndian

/-- Bytes that are there can be looked at. -/
theorem exists_byte {bs : Bytes} {start size : Nat} (inside : size ≤ bs.length) (early : start < size) :
    ∃ b, bs[start]? = some b :=
  ⟨_, List.getElem?_eq_getElem (Nat.lt_of_lt_of_le early inside)⟩

theorem EthernetHeader.exact : Header.Exact decode? .ethernet Spans := by
  refine Header.exact_of (fun _ => rfl) ?_ ?_ (fun _ _ => readFrom_of_decode?)
    fun h rest _ => h.decode?_encode_append rest
  case refine_1 =>
    rintro bs size ⟨rfl, inside⟩
    rw [decode?, EthernetHeader.size, if_neg (Nat.not_lt.mpr inside)]
    rfl
  case refine_2 =>
    intro bs h read
    exact ⟨⟨rfl, (readFrom_of_decode? read).1⟩, trivial⟩

theorem UdpHeader.exact : Header.Exact decode? .udp Spans := by
  refine Header.exact_of (fun _ => rfl) ?_ ?_ (fun _ _ => readFrom_of_decode?)
    fun h rest _ => h.decode?_encode_append rest
  case refine_1 =>
    rintro bs size ⟨rfl, inside⟩
    rw [decode?, UdpHeader.size, if_neg (Nat.not_lt.mpr inside)]
    rfl
  case refine_2 =>
    intro bs h read
    exact ⟨⟨rfl, (readFrom_of_decode? read).1⟩, trivial⟩

/-- The version stands in the high half of the first byte. -/
theorem Ipv6Header.read_version {bs : Bytes} {first : UInt8} (there : bs[0]? = some first)
    (inside : 4 ≤ bs.length) : read bs 0 4 / 0x10000000 = first.toNat / 16 := by
  have low : read bs (0 + 1) 3 < Nat.pow 256 3 := read_lt bs 1 3
  rw [read_succ there inside]
  simp only [Nat.pow_eq] at low ⊢
  omega

theorem Ipv6Header.exact : Header.Exact decode? .ipv6 Spans := by
  refine Header.exact_of (fun _ => rfl) ?_ ?_ (fun _ _ => readFrom_of_decode?)
    fun h rest fits => decode?_encode_append fits rest
  case refine_1 =>
    rintro bs size ⟨first, there, version, rfl, inside⟩
    have read := (read_version there (by omega)).trans version
    have readable : ¬(bs.length < Ipv6Header.size ∨ BigEndian.read bs 0 4 / 0x10000000 ≠ 6) :=
      not_or.mpr ⟨Nat.not_lt.mpr inside, not_not_intro read⟩
    simp only [decode?]
    rw [if_neg readable]
    rfl
  case refine_2 =>
    intro bs h read
    have inside : 40 ≤ bs.length := (readFrom_of_decode? read).1
    obtain ⟨first, there⟩ := exists_byte inside (show 0 < 40 by decide)
    have version := read_version there (by omega)
    simp only [decode?] at read
    split at read
    case isTrue => contradiction
    case isFalse readable =>
      have six : BigEndian.read bs 0 4 / 0x10000000 = 6 := not_not.mp fun other => readable (.inr other)
      obtain rfl := Option.some.inj read
      refine ⟨⟨first, there, version.symm.trans six, rfl, inside⟩, ?_⟩
      show (UInt32.ofNat (BigEndian.read bs 0 4 % 0x100000)).toNat < 0x100000
      rw [UInt32.toNat_ofNat']
      omega

theorem Ipv4Header.exact : Header.Exact decode? .ipv4 Spans := by
  refine Header.exact_of (fun _ => rfl) ?_ ?_ (fun _ _ => readFrom_of_decode?)
    fun h rest fits => decode?_encode_append fits rest
  case refine_1 =>
    rintro bs size ⟨first, there, version, words, rfl, inside⟩
    simp only [decode?, read_one there]
    rw [if_pos ⟨version, by simp only [minSize]; omega, by omega⟩]
    rfl
  case refine_2 =>
    intro bs h read
    obtain ⟨inside, -⟩ := readFrom_of_decode? read
    have least : 20 ≤ (Header.ipv4 h).size := Nat.le_add_right _ _
    obtain ⟨first, there⟩ := exists_byte inside (show 0 < _ by omega)
    simp only [decode?, read_one there, minSize] at read
    split at read
    case isFalse => contradiction
    case isTrue readable =>
      obtain ⟨version, long, enough⟩ := readable
      obtain rfl := Option.some.inj read
      have options : ((bs.drop 20).take (first.toNat % 16 * 4 - 20)).length =
          first.toNat % 16 * 4 - 20 := length_take_drop (by omega)
      refine ⟨⟨first, there, version, by omega, ?_, inside⟩, ?_⟩
      · simp only [Header.size, size, minSize, options]
        omega
      · simp only [Header.Fits, OptionsFit, options]
        omega

theorem TcpHeader.exact : Header.Exact decode? .tcp Spans := by
  have word {bs : Bytes} {offset : UInt8} (there : bs[12]? = some offset) (inside : 20 ≤ bs.length) :
      read bs 12 2 / 0x1000 = offset.toNat / 16 := by
    have low : read bs (12 + 1) 1 < Nat.pow 256 1 := read_lt bs 13 1
    rw [read_succ there (by omega)]
    simp only [Nat.pow_eq] at low ⊢
    omega
  refine Header.exact_of (fun _ => rfl) ?_ ?_ (fun _ _ => readFrom_of_decode?)
    fun h rest fits => decode?_encode_append fits rest
  case refine_1 =>
    rintro bs size ⟨offset, there, words, rfl, inside⟩
    simp only [decode?, word there (by omega), minSize]
    rw [if_pos ⟨by omega, by omega, by omega⟩]
    rfl
  case refine_2 =>
    intro bs h read
    obtain ⟨inside, -⟩ := readFrom_of_decode? read
    have least : 20 ≤ (Header.tcp h).size := Nat.le_add_right _ _
    obtain ⟨offset, there⟩ := exists_byte inside (show 12 < _ by omega)
    simp only [decode?, word there (by omega), minSize] at read
    split at read
    case isFalse => contradiction
    case isTrue readable =>
      obtain ⟨-, long, enough⟩ := readable
      obtain rfl := Option.some.inj read
      have options : ((bs.drop 20).take (offset.toNat / 16 * 4 - 20)).length =
          offset.toNat / 16 * 4 - 20 := length_take_drop (by omega)
      have byte := offset.toNat_lt
      refine ⟨⟨offset, there, by omega, ?_, inside⟩, ?_, ?_⟩
      · simp only [Header.size, size, minSize, options]
        omega
      · simp only [OptionsFit, options]
        omega
      · rw [UInt16.toNat_ofNat']
        omega

/-! ## Layers -/

/-- What stands behind an internet header with the given protocol: a transport header of that protocol,
or nothing but payload. -/
inductive TransportLayer (protocol : UInt8) (bs : Bytes) : List Header → Bytes → Prop where
  | tcp (h : TcpHeader) (size : Nat) (announced : protocol = 6) (stands : (Header.tcp h).Stands bs size) :
      TransportLayer protocol bs [.tcp h] (bs.drop size)
  | udp (h : UdpHeader) (size : Nat) (announced : protocol = 17) (stands : (Header.udp h).Stands bs size) :
      TransportLayer protocol bs [.udp h] (bs.drop size)
  | none (noTcp : protocol = 6 → ∀ size, ¬TcpHeader.Spans bs size)
      (noUdp : protocol = 17 → ∀ size, ¬UdpHeader.Spans bs size) : TransportLayer protocol bs [] bs

/-- What stands behind an Ethernet header with the given type: an internet header of that type with its
transport layer, or nothing but payload. -/
inductive InternetLayer (etherType : UInt16) (bs : Bytes) : List Header → Bytes → Prop where
  | ipv4 (h : Ipv4Header) (size : Nat) {headers : List Header} {payload : Bytes}
      (announced : etherType = 0x0800) (stands : (Header.ipv4 h).Stands bs size)
      (behind : TransportLayer h.protocol (bs.drop size) headers payload) :
      InternetLayer etherType bs (.ipv4 h :: headers) payload
  | ipv6 (h : Ipv6Header) (size : Nat) {headers : List Header} {payload : Bytes}
      (announced : etherType = 0x86dd) (stands : (Header.ipv6 h).Stands bs size)
      (behind : TransportLayer h.nextHeader (bs.drop size) headers payload) :
      InternetLayer etherType bs (.ipv6 h :: headers) payload
  | none (noIpv4 : etherType = 0x0800 → ∀ size, ¬Ipv4Header.Spans bs size)
      (noIpv6 : etherType = 0x86dd → ∀ size, ¬Ipv6Header.Spans bs size) :
      InternetLayer etherType bs [] bs

/-- What stands in front of a byte string: an Ethernet header with what is behind it, or nothing. -/
inductive LinkLayer (bs : Bytes) : List Header → Bytes → Prop where
  | ethernet (h : EthernetHeader) (size : Nat) {headers : List Header} {payload : Bytes}
      (stands : (Header.ethernet h).Stands bs size)
      (behind : InternetLayer h.etherType (bs.drop size) headers payload) :
      LinkLayer bs (.ethernet h :: headers) payload
  | none (short : bs.length < 14) : LinkLayer bs [] bs

/-- The names of headers that can stand one behind another. -/
def layerings : List (List String) :=
  [[], ["ethernet"], ["ethernet", "ipv4"], ["ethernet", "ipv4", "tcp"], ["ethernet", "ipv4", "udp"],
    ["ethernet", "ipv6"], ["ethernet", "ipv6", "tcp"], ["ethernet", "ipv6", "udp"]]

section Names

variable {bs payload : Bytes} {headers : List Header}

theorem TransportLayer.names {protocol : UInt8} (layer : TransportLayer protocol bs headers payload) :
    headers.map Header.name ∈ [[], ["tcp"], ["udp"]] := by
  cases layer <;> simp [Header.name]

theorem InternetLayer.names {etherType : UInt16} (layer : InternetLayer etherType bs headers payload) :
    "ethernet" :: headers.map Header.name ∈ layerings := by
  cases layer with
  | ipv4 _ _ _ _ behind =>
    have further := behind.names
    simp only [List.mem_cons, List.not_mem_nil, or_false] at further
    rcases further with names | names | names <;> simp [Header.name, names, layerings]
  | ipv6 _ _ _ _ behind =>
    have further := behind.names
    simp only [List.mem_cons, List.not_mem_nil, or_false] at further
    rcases further with names | names | names <;> simp [Header.name, names, layerings]
  | none => simp [layerings]

theorem LinkLayer.names (layer : LinkLayer bs headers payload) :
    headers.map Header.name ∈ layerings := by
  cases layer with
  | ethernet _ _ _ behind => exact behind.names
  | none => exact List.mem_cons_self

/-- There are at most three headers. -/
theorem LinkLayer.length_le (layer : LinkLayer bs headers payload) : headers.length ≤ 3 := by
  have short : ∀ names ∈ layerings, names.length ≤ 3 := by decide
  have bound := short _ layer.names
  rwa [List.length_map] at bound

end Names

section Unique

variable {α : Type} {decode? : Bytes → Option α} {header : α → Header} {spans : Bytes → Nat → Prop}
  {bs payload rest : Bytes} {headers others : List Header} {a b : α} {size other : Nat}

/-- At most one header of a kind stands in front of bytes. -/
theorem Header.Exact.unique (exact : Exact decode? header spans) (first : (header a).Stands bs size)
    (second : (header b).Stands bs other) : a = b ∧ size = other := by
  have read := (exact.some_iff bs a).mpr ⟨size, first⟩
  obtain rfl := Option.some.inj (read.symm.trans ((exact.some_iff bs b).mpr ⟨other, second⟩))
  exact ⟨rfl, first.size_eq.symm.trans second.size_eq⟩

theorem TransportLayer.unique {protocol : UInt8} (first : TransportLayer protocol bs headers payload)
    (second : TransportLayer protocol bs others rest) : headers = others ∧ payload = rest := by
  cases first with
  | tcp h size announced stands =>
    cases second with
    | tcp _ _ _ same =>
      obtain ⟨rfl, rfl⟩ := TcpHeader.exact.unique stands same
      exact ⟨rfl, rfl⟩
    | udp _ _ other => exact absurd (announced.symm.trans other) (by decide)
    | none noTcp _ => exact absurd stands.spans (noTcp announced size)
  | udp h size announced stands =>
    cases second with
    | tcp _ _ other => exact absurd (announced.symm.trans other) (by decide)
    | udp _ _ _ same =>
      obtain ⟨rfl, rfl⟩ := UdpHeader.exact.unique stands same
      exact ⟨rfl, rfl⟩
    | none _ noUdp => exact absurd stands.spans (noUdp announced size)
  | none noTcp noUdp =>
    cases second with
    | tcp _ size announced stands => exact absurd stands.spans (noTcp announced size)
    | udp _ size announced stands => exact absurd stands.spans (noUdp announced size)
    | none => exact ⟨rfl, rfl⟩

theorem InternetLayer.unique {etherType : UInt16} (first : InternetLayer etherType bs headers payload)
    (second : InternetLayer etherType bs others rest) : headers = others ∧ payload = rest := by
  cases first with
  | ipv4 h size announced stands behind =>
    cases second with
    | ipv4 _ _ _ same further =>
      obtain ⟨rfl, rfl⟩ := Ipv4Header.exact.unique stands same
      obtain ⟨rfl, rfl⟩ := behind.unique further
      exact ⟨rfl, rfl⟩
    | ipv6 _ _ other => exact absurd (announced.symm.trans other) (by decide)
    | none noIpv4 _ => exact absurd stands.spans (noIpv4 announced size)
  | ipv6 h size announced stands behind =>
    cases second with
    | ipv4 _ _ other => exact absurd (announced.symm.trans other) (by decide)
    | ipv6 _ _ _ same further =>
      obtain ⟨rfl, rfl⟩ := Ipv6Header.exact.unique stands same
      obtain ⟨rfl, rfl⟩ := behind.unique further
      exact ⟨rfl, rfl⟩
    | none _ noIpv6 => exact absurd stands.spans (noIpv6 announced size)
  | none noIpv4 noIpv6 =>
    cases second with
    | ipv4 _ size announced stands => exact absurd stands.spans (noIpv4 announced size)
    | ipv6 _ size announced stands => exact absurd stands.spans (noIpv6 announced size)
    | none => exact ⟨rfl, rfl⟩

/-- A byte string has its layers in one way. -/
theorem LinkLayer.unique (first : LinkLayer bs headers payload) (second : LinkLayer bs others rest) :
    headers = others ∧ payload = rest := by
  cases first with
  | ethernet h size stands behind =>
    cases second with
    | ethernet _ _ same further =>
      obtain ⟨rfl, rfl⟩ := EthernetHeader.exact.unique stands same
      obtain ⟨rfl, rfl⟩ := behind.unique further
      exact ⟨rfl, rfl⟩
    | none short =>
      obtain ⟨rfl, inside⟩ := stands.spans
      exact absurd short (Nat.not_lt.mpr inside)
  | none short =>
    cases second with
    | ethernet _ _ stands _ =>
      obtain ⟨rfl, inside⟩ := stands.spans
      exact absurd short (Nat.not_lt.mpr inside)
    | none => exact ⟨rfl, rfl⟩

end Unique

/-! ## Recovery -/

namespace Recovery

open RecoveryRule

variable {rules : List RecoveryRule} {s : RecoveryState} {bs : Bytes}

/-- Rules that do not apply do not matter. -/
theorem step?_filter (rules : List RecoveryRule) (s : RecoveryState) (bs : Bytes) :
    step? (rules.filter (·.applies s)) s bs = step? rules s bs := by
  induction rules with
  | nil => rfl
  | cons rule rules ih =>
    cases applies : rule.applies s with
    | false => rw [List.filter_cons_of_neg (by simp [applies]), ih, step?_cons_of_idle applies]
    | true =>
      rw [List.filter_cons_of_pos (by exact applies), step?, step?, List.findSome?_cons,
        List.findSome?_cons]
      cases rule.attempt? s bs with
      | none => exact ih
      | some => rfl

/-- Where no rule applies, all bytes are payload. -/
theorem run_of_idle (idle : rules.filter (·.applies s) = []) (bs : Bytes) :
    run rules s bs = ([], bs) := by
  apply run_of_none
  rw [← step?_filter, idle]
  rfl

/-- Where one rule applies, and it reads one kind of header, the header stands in front if there is one. -/
theorem run_of_single {α : Type} {rule : RecoveryRule} {decode? : Bytes → Option α} {header : α → Header}
    {spans : Bytes → Nat → Prop} {next : RecoveryState → α → RecoveryState}
    (single : rules.filter (·.applies s) = [rule])
    (reads : ∀ bs s, rule.decode bs s =
      (decode? bs).map fun a => ⟨header a, (header a).size, next s a⟩)
    (exact : Header.Exact decode? header spans) (bs : Bytes) :
    (∃ a size, (header a).Stands bs size ∧ run rules s bs =
        (header a :: (run rules (next s a) (bs.drop size)).1,
          (run rules (next s a) (bs.drop size)).2)) ∨
      (∀ size, ¬spans bs size) ∧ run rules s bs = ([], bs) := by
  have applies : rule.applies s = true := by
    have member : rule ∈ rules.filter (·.applies s) := by rw [single]; exact List.mem_singleton_self _
    exact (List.mem_filter.mp member).2
  have only : step? rules s bs = rule.attempt? s bs := by
    rw [← step?_filter, single, step?, List.findSome?_singleton]
  cases read : decode? bs with
  | none =>
    refine .inr ⟨(exact.none_iff bs).mp read, run_of_none ?_⟩
    rw [only, attempt?, if_pos applies, reads, read]
    rfl
  | some a =>
    obtain ⟨size, stands⟩ := (exact.some_iff bs a).mp read
    have inside : (header a).size ≤ bs.length := stands.size_eq ▸ stands.spans.inside
    have step : step? rules s bs = some ⟨header a, (header a).size, next s a⟩ := by
      rw [only]
      exact attempt?_eq_some applies (by rw [reads, read]; rfl) (header a).size_pos inside
    refine .inl ⟨a, size, stands, ?_⟩
    rw [run_of_some step, stands.size_eq]

/-- Behind an internet header no rules apply but those for TCP and UDP, by its protocol. -/
theorem applying_network {protocol : UInt8} (layer : s.layer = .network)
    (announced : s.ipProtocol = some protocol) : standard.filter (·.applies s) =
      if protocol = 6 then [tcp] else if protocol = 17 then [udp] else [] := by
  have noLink : (s.layer == .start) = false := by simp [layer]
  have noInternet (t : UInt16) : s.expectsInternet t = false := by
    simp [RecoveryState.expectsInternet, layer]
  have expects (p : UInt8) : s.expectsProtocol p = (protocol == p) := by
    simp [RecoveryState.expectsProtocol, layer, announced]
  by_cases isTcp : protocol = 6
  · simp [standard, ethernet, ipv4, ipv6, tcp, udp, noLink, noInternet, expects, isTcp, IpProtocol.tcp,
      IpProtocol.udp]
  · by_cases isUdp : protocol = 17 <;>
      simp [standard, ethernet, ipv4, ipv6, tcp, udp, noLink, noInternet, expects, isTcp, isUdp,
        IpProtocol.tcp, IpProtocol.udp]

/-- Behind an Ethernet header no rules apply but those for IPv4 and IPv6, by its type. -/
theorem applying_link {etherType : UInt16} (layer : s.layer = .link)
    (announced : s.etherType = some etherType) : standard.filter (·.applies s) =
      if etherType = 0x0800 then [ipv4] else if etherType = 0x86dd then [ipv6] else [] := by
  have noLink : (s.layer == .start) = false := by simp [layer]
  have noTransport (p : UInt8) : s.expectsProtocol p = false := by
    simp [RecoveryState.expectsProtocol, layer]
  have expects (t : UInt16) : s.expectsInternet t = (etherType == t) := by
    simp [RecoveryState.expectsInternet, layer, announced]
  by_cases isIpv4 : etherType = 0x0800
  · simp [standard, ethernet, ipv4, ipv6, tcp, udp, noLink, noTransport, expects, isIpv4,
      EtherType.ipv4, EtherType.ipv6]
  · by_cases isIpv6 : etherType = 0x86dd <;>
      simp [standard, ethernet, ipv4, ipv6, tcp, udp, noLink, noTransport, expects, isIpv4, isIpv6,
        EtherType.ipv4, EtherType.ipv6]

theorem run_transport {protocol : UInt8} (layer : s.layer = .network)
    (announced : s.ipProtocol = some protocol) (bs : Bytes) :
    TransportLayer protocol bs (run standard s bs).1 (run standard s bs).2 := by
  have last (s : RecoveryState) (bs : Bytes) : run standard s.afterTransport bs = ([], bs) :=
    run_of_idle rfl bs
  have applying := applying_network layer announced
  by_cases isTcp : protocol = 6
  · subst isTcp
    rcases run_of_single applying (decode_reading _ _ _) TcpHeader.exact bs with
      ⟨h, size, stands, found⟩ | ⟨nothing, found⟩
    · rw [found, last]
      exact .tcp h size rfl stands
    · rw [found]
      exact .none (fun _ => nothing) nofun
  by_cases isUdp : protocol = 17
  · subst isUdp
    rcases run_of_single applying (decode_reading _ _ _) UdpHeader.exact bs with
      ⟨h, size, stands, found⟩ | ⟨nothing, found⟩
    · rw [found, last]
      exact .udp h size rfl stands
    · rw [found]
      exact .none nofun fun _ => nothing
  · rw [if_neg isTcp, if_neg isUdp] at applying
    rw [run_of_idle applying]
    exact .none (fun same => absurd same isTcp) fun same => absurd same isUdp

theorem run_internet {etherType : UInt16} (layer : s.layer = .link)
    (announced : s.etherType = some etherType) (bs : Bytes) :
    InternetLayer etherType bs (run standard s bs).1 (run standard s bs).2 := by
  have applying := applying_link layer announced
  by_cases isIpv4 : etherType = 0x0800
  · subst isIpv4
    rcases run_of_single applying (decode_reading _ _ _) Ipv4Header.exact bs with
      ⟨h, size, stands, found⟩ | ⟨nothing, found⟩
    · rw [found]
      exact .ipv4 h size rfl stands (run_transport rfl rfl _)
    · rw [found]
      exact .none (fun _ => nothing) nofun
  by_cases isIpv6 : etherType = 0x86dd
  · subst isIpv6
    rcases run_of_single applying (decode_reading _ _ _) Ipv6Header.exact bs with
      ⟨h, size, stands, found⟩ | ⟨nothing, found⟩
    · rw [found]
      exact .ipv6 h size rfl stands (run_transport rfl rfl _)
    · rw [found]
      exact .none nofun fun _ => nothing
  · rw [if_neg isIpv4, if_neg isIpv6] at applying
    rw [run_of_idle applying]
    exact .none (fun same => absurd same isIpv4) fun same => absurd same isIpv6

/-- In front of all bytes only the rule for Ethernet applies. -/
theorem run_link (bs : Bytes) :
    LinkLayer bs (run standard .initial bs).1 (run standard .initial bs).2 := by
  have applying : standard.filter (·.applies .initial) = [ethernet] := rfl
  rcases run_of_single applying (decode_reading _ _ _) EthernetHeader.exact bs with
    ⟨h, size, stands, found⟩ | ⟨nothing, found⟩
  · rw [found]
    exact .ethernet h size stands (run_internet rfl rfl _)
  · rw [found]
    exact .none (Nat.lt_of_not_le fun inside => nothing 14 ⟨rfl, inside⟩)

end Recovery

namespace Boundary

/-- Recovery by the standard rules finds the layers of a byte string, and nothing else: there is one way to
read the bytes layer by layer, and the frame has its headers and its payload, and no tags. There are at most
three headers, no layer comes without the one before it, and no byte is lost. -/
theorem recover_layers (maxFrame uid : Nat) (bytes : Bytes) : ∃ headers payload,
    (standard maxFrame).recover uid bytes = Frame.new uid headers (.bytes payload) ∧
      (∀ others rest, LinkLayer bytes others rest ↔ others = headers ∧ rest = payload) ∧
      headers.length ≤ 3 ∧ headers.map Header.name ∈ layerings ∧
      headers.flatMap Header.encode ++ payload = bytes := by
  have layers := Recovery.run_link bytes
  refine ⟨_, _, rfl, ?_, layers.length_le, layers.names,
    Recovery.run_lossless RecoveryRule.standard_lossless .initial bytes⟩
  intro others rest
  constructor
  · exact fun other => other.unique layers
  · rintro ⟨rfl, rfl⟩
    exact layers

end Boundary

end Switchyard
