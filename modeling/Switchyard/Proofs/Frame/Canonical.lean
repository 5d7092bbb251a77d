import Mathlib.Data.List.Chain
import Switchyard.Pipeline.Boundary
import Switchyard.Proofs.Frame.ReadBack

/-!
# Canonical frames are recovered as they are

In a canonical chain of headers an Ethernet header comes first, and each header announces the next
one: by its Ethernet type an internet header, by its protocol number a transport header. Recovery
follows what the headers announce, so it finds the headers of such a chain again, one after another,
and stops behind the last one unless the payload looks like a further header.
-/

namespace Switchyard

/-- Does the first header say that the second one comes next? -/
def Header.Announces : Header → Header → Prop
  | .ethernet e, .ipv4 _ => e.etherType = EtherType.ipv4
  | .ethernet e, .ipv6 _ => e.etherType = EtherType.ipv6
  | .ipv4 h, .tcp _ => h.protocol = IpProtocol.tcp
  | .ipv4 h, .udp _ => h.protocol = IpProtocol.udp
  | .ipv6 h, .tcp _ => h.nextHeader = IpProtocol.tcp
  | .ipv6 h, .udp _ => h.nextHeader = IpProtocol.udp
  | _, _ => False

theorem Header.size_pos (h : Header) : 0 < h.size := by
  cases h with
  | ethernet _ => exact Nat.succ_pos 13
  | ipv4 h => exact Nat.add_pos_left (Nat.succ_pos 19) _
  | ipv6 _ => exact Nat.succ_pos 39
  | tcp h => exact Nat.add_pos_left (Nat.succ_pos 19) _
  | udp _ => exact Nat.succ_pos 7

/-- An Ethernet header, and behind it headers each of which was announced, all with fields that fit
the wire. -/
structure Header.Canonical (headers : List Header) : Prop where
  link : ∃ e inner, headers = .ethernet e :: inner
  announced : headers.IsChain Header.Announces
  fits : ∀ h ∈ headers, h.Fits

namespace RecoveryState

/-- What is known after a header. -/
def after (s : RecoveryState) : Header → RecoveryState
  | .ethernet h => s.afterEthernet h
  | .ipv4 h => s.afterInternet h.protocol
  | .ipv6 h => s.afterInternet h.nextHeader
  | .tcp _ => s.afterTransport
  | .udp _ => s.afterTransport

/-- What is known after the headers of a frame. -/
def afterAll (headers : List Header) : RecoveryState := headers.foldl after initial

/-- Does a header of this kind come next? -/
def Expects (s : RecoveryState) : Header → Prop
  | .ethernet _ => s.layer = .start
  | .ipv4 _ => s.layer = .link ∧ s.etherType = some EtherType.ipv4
  | .ipv6 _ => s.layer = .link ∧ s.etherType = some EtherType.ipv6
  | .tcp _ => s.layer = .network ∧ s.ipProtocol = some IpProtocol.tcp
  | .udp _ => s.layer = .network ∧ s.ipProtocol = some IpProtocol.udp

/-- A header that was announced is expected. -/
theorem expects_of_announces {first second : Header} (announced : first.Announces second)
    (s : RecoveryState) : (s.after first).Expects second := by
  cases first <;> cases second <;> first
    | exact announced.elim
    | exact ⟨rfl, congrArg some announced⟩

end RecoveryState

namespace RecoveryRule

variable {rule : RecoveryRule} {s : RecoveryState} {bs : Bytes} {r : Recovered}

theorem attempt?_eq_none (idle : rule.applies s = false) : rule.attempt? s bs = none := by
  rw [attempt?, idle]
  rfl

theorem attempt?_eq_some (applies : rule.applies s = true) (decoded : rule.decode bs s = some r)
    (positive : 0 < r.used) (inside : r.used ≤ bs.length) : rule.attempt? s bs = some r := by
  rw [attempt?, if_pos applies, decoded, Option.filter_some, if_pos]
  simp [positive, inside]

end RecoveryRule

namespace Recovery

open RecoveryRule

theorem step?_cons_of_idle {rule : RecoveryRule} {rules : List RecoveryRule} {s : RecoveryState}
    {bs : Bytes} (idle : rule.applies s = false) : step? (rule :: rules) s bs = step? rules s bs := by
  rw [step?, List.findSome?_cons, attempt?_eq_none idle, step?]

theorem step?_cons_of_some {rule : RecoveryRule} {rules : List RecoveryRule} {s : RecoveryState}
    {bs : Bytes} {r : Recovered} (attempted : rule.attempt? s bs = some r) :
    step? (rule :: rules) s bs = some r := by
  rw [step?, List.findSome?_cons, attempted]

/-- The standard rule for a kind of header. -/
def ruleFor : Header → RecoveryRule
  | .ethernet _ => ethernet
  | .ipv4 _ => ipv4
  | .ipv6 _ => ipv6
  | .tcp _ => tcp
  | .udp _ => udp

theorem decode_encode_append {h : Header} (fits : h.Fits) (rest : Bytes) (s : RecoveryState) :
    (ruleFor h).decode (h.encode ++ rest) s = some ⟨h, h.size, s.after h⟩ := by
  cases h with
  | ethernet h =>
    simp only [ruleFor, ethernet, decode_reading, decodeEthernet, Header.encode,
      h.decode?_encode_append, Option.map_some]
    rfl
  | ipv4 h =>
    simp only [ruleFor, ipv4, decode_reading, decodeIpv4, Header.encode,
      Ipv4Header.decode?_encode_append fits, Option.map_some]
    rfl
  | ipv6 h =>
    simp only [ruleFor, ipv6, decode_reading, decodeIpv6, Header.encode,
      Ipv6Header.decode?_encode_append fits, Option.map_some]
    rfl
  | tcp h =>
    simp only [ruleFor, tcp, decode_reading, decodeTcp, Header.encode,
      TcpHeader.decode?_encode_append fits, Option.map_some]
    rfl
  | udp h =>
    simp only [ruleFor, udp, decode_reading, decodeUdp, Header.encode, h.decode?_encode_append, Option.map_some]
    rfl

theorem applies_of_expects {s : RecoveryState} {h : Header} (expected : s.Expects h) :
    (ruleFor h).applies s = true := by
  cases h <;> simpa [ruleFor, ethernet, ipv4, ipv6, tcp, udp, RecoveryState.expectsInternet,
    RecoveryState.expectsProtocol, RecoveryState.Expects] using expected

/-- The rule for a header reads what was written of it. -/
theorem attempt?_encode_append {s : RecoveryState} {h : Header} (expected : s.Expects h)
    (fits : h.Fits) (rest : Bytes) :
    (ruleFor h).attempt? s (h.encode ++ rest) = some ⟨h, h.size, s.after h⟩ :=
  attempt?_eq_some (applies_of_expects expected) (decode_encode_append fits rest s) h.size_pos
    (h.size_le_length_encode_append rest)

/-- Where one kind of header is expected, no other rule applies, so the expected header is read. -/
theorem step?_encode_append {s : RecoveryState} {h : Header} (expected : s.Expects h) (fits : h.Fits)
    (rest : Bytes) :
    step? standard s (h.encode ++ rest) = some ⟨h, h.size, s.after h⟩ := by
  have read := attempt?_encode_append expected fits rest
  unfold standard
  cases h with
  | ethernet h => exact step?_cons_of_some read
  | ipv4 h =>
    obtain ⟨layer, etherType⟩ := expected
    rw [step?_cons_of_idle (by simp [ethernet, layer])]
    exact step?_cons_of_some read
  | ipv6 h =>
    obtain ⟨layer, etherType⟩ := expected
    rw [step?_cons_of_idle (by simp [ethernet, layer]),
      step?_cons_of_idle (by
        simp [ipv4, RecoveryState.expectsInternet, etherType, EtherType.ipv4, EtherType.ipv6])]
    exact step?_cons_of_some read
  | tcp h =>
    obtain ⟨layer, protocol⟩ := expected
    rw [step?_cons_of_idle (by simp [ethernet, layer]),
      step?_cons_of_idle (by simp [ipv4, RecoveryState.expectsInternet, layer]),
      step?_cons_of_idle (by simp [ipv6, RecoveryState.expectsInternet, layer])]
    exact step?_cons_of_some read
  | udp h =>
    obtain ⟨layer, protocol⟩ := expected
    rw [step?_cons_of_idle (by simp [ethernet, layer]),
      step?_cons_of_idle (by simp [ipv4, RecoveryState.expectsInternet, layer]),
      step?_cons_of_idle (by simp [ipv6, RecoveryState.expectsInternet, layer]),
      step?_cons_of_idle (by
        simp [tcp, RecoveryState.expectsProtocol, protocol, IpProtocol.tcp, IpProtocol.udp])]
    exact step?_cons_of_some read

theorem run_of_some {rules : List RecoveryRule} {s : RecoveryState} {bs : Bytes} {r : Recovered}
    (read : step? rules s bs = some r) :
    run rules s bs =
      (r.header :: (run rules r.next (bs.drop r.used)).1, (run rules r.next (bs.drop r.used)).2) := by
  rw [run]
  split
  case h_1 stop => rw [read] at stop; contradiction
  case h_2 other found =>
    rw [read] at found
    obtain rfl := Option.some.inj found
    rfl

theorem run_of_none {rules : List RecoveryRule} {s : RecoveryState} {bs : Bytes}
    (stop : step? rules s bs = none) : run rules s bs = ([], bs) := by
  rw [run]
  split
  case h_1 => rfl
  case h_2 r read => rw [stop] at read; contradiction

/-- Headers that announce one another are found again in front of whatever comes behind them. -/
theorem run_encode_append {headers : List Header} {s : RecoveryState}
    (first : ∀ h ∈ headers.head?, s.Expects h) (announced : headers.IsChain Header.Announces)
    (fits : ∀ h ∈ headers, h.Fits) (rest : Bytes) :
    run standard s (headers.flatMap Header.encode ++ rest) =
      (headers ++ (run standard (headers.foldl RecoveryState.after s) rest).1,
        (run standard (headers.foldl RecoveryState.after s) rest).2) := by
  induction headers generalizing s with
  | nil => rfl
  | cons h headers ih =>
    obtain ⟨next, inner⟩ := List.isChain_cons.mp announced
    have found := ih (s := s.after h) (fun second member => RecoveryState.expects_of_announces
      (next second member) s) inner (fun other member => fits other (List.mem_cons_of_mem h member))
    have read := step?_encode_append (first h rfl) (fits h List.mem_cons_self)
      (headers.flatMap Header.encode ++ rest)
    have behind : (h.encode ++ (headers.flatMap Header.encode ++ rest)).drop h.size =
        headers.flatMap Header.encode ++ rest := List.drop_left' h.length_encode
    rw [List.flatMap_cons, List.append_assoc, run_of_some read]
    simp only [behind, found, List.foldl_cons, List.cons_append]

end Recovery

namespace Boundary

/-- The bytes of a frame with canonical headers are recovered as exactly that frame, if no standard
rule finds a further header in its payload. -/
theorem recover_canonical {f : Frame} (canonical : Header.Canonical f.headers)
    (stops : ∀ rule ∈ RecoveryRule.standard, rule.applies (.afterAll f.headers) = true →
      rule.decode f.payload.toBytes (.afterAll f.headers) = none) (maxFrame uid : Nat) :
    ((standard maxFrame).recover uid f.toBytes).headers = f.headers ∧
      ((standard maxFrame).recover uid f.toBytes).payload.toBytes = f.payload.toBytes := by
  have expected : ∀ h ∈ f.headers.head?, RecoveryState.initial.Expects h := by
    obtain ⟨e, inner, headers⟩ := canonical.link
    rw [headers]
    rintro h ⟨⟩
    rfl
  have stop : Recovery.step? RecoveryRule.standard (.afterAll f.headers) f.payload.toBytes = none := by
    apply List.findSome?_eq_none_iff.mpr
    intro rule member
    cases applies : rule.applies (.afterAll f.headers) with
    | false => exact RecoveryRule.attempt?_eq_none applies
    | true =>
      rw [RecoveryRule.attempt?, if_pos applies, stops rule member applies]
      rfl
  have found := Recovery.run_encode_append expected canonical.announced canonical.fits
    f.payload.toBytes
  have none := Recovery.run_of_none stop
  rw [RecoveryState.afterAll] at none
  rw [none, List.append_nil] at found
  have recovered : (standard maxFrame).recover uid f.toBytes =
      Frame.new uid f.headers (.bytes f.payload.toBytes) := by
    show Frame.recover RecoveryRule.standard uid f.toBytes = _
    rw [Frame.recover, Frame.toBytes, found]
  rw [recovered]
  exact ⟨rfl, rfl⟩

/-- An IPv4 packet with options that announces a TCP header, but goes on with zeros. -/
def headless : Frame :=
  Frame.new 5
    [.ethernet ⟨.broadcast, .ofIndex 1, EtherType.ipv4⟩,
      .ipv4 {
        tos := 0xff, totalLength := 44, identification := 7, flagsFragment := 0xa001, ttl := 1
        protocol := IpProtocol.tcp, checksum := 0xbeef, src := .ofNat 0x0a000001
        dst := .ofNat 0x0a000002, options := [1, 2, 3, 0] }]
    (.zeros 20)

theorem recover_canonical_headless :
    Header.Canonical headless.headers ∧
      (∀ rule ∈ RecoveryRule.standard, rule.applies (.afterAll headless.headers) = true →
        rule.decode headless.payload.toBytes (.afterAll headless.headers) = none) ∧
      ((standard 9000).recover 8 headless.toBytes).headers = headless.headers ∧
      ((standard 9000).recover 8 headless.toBytes).payload.toBytes = List.replicate 20 0 := by
  have canonical : Header.Canonical headless.headers :=
    ⟨⟨_, _, rfl⟩, List.isChain_cons_cons.mpr ⟨rfl, List.isChain_singleton _⟩, by decide⟩
  have stops : ∀ rule ∈ RecoveryRule.standard,
      rule.applies (.afterAll headless.headers) = true →
        rule.decode headless.payload.toBytes (.afterAll headless.headers) = none := by decide
  exact ⟨canonical, stops, recover_canonical canonical stops 9000 8⟩

end Boundary

end Switchyard
