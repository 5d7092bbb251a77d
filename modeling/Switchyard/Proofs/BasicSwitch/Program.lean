import Switchyard.BasicSwitch
import Switchyard.Proofs.Pipeline.Forwarding

/-!
# The loaded program of the basic switch

Loading the description gives `BasicSwitch.program`, in which all names are positions. The positions
that matter for the bytes on the wire have names here, so do the facts about the layout that the parser
and the deparser rest on.
-/

namespace Switchyard

namespace BasicSwitch

/-! ## Positions -/

abbrev ethernetHeader : HeaderId := 3

abbrev ipv4Header : HeaderId := 4

abbrev ipv6Header : HeaderId := 5

abbrev tcpHeader : HeaderId := 6

abbrev udpHeader : HeaderId := 7

abbrev etherTypeField : FieldId := 15

abbrev ihlField : FieldId := 17

abbrev ttlField : FieldId := 23

abbrev protocolField : FieldId := 24

abbrev checksumField : FieldId := 25

abbrev ipv4DestinationField : FieldId := 27

abbrev nextHeaderField : FieldId := 32

abbrev hopLimitField : FieldId := 33

abbrev ipv6DestinationField : FieldId := 35

def layout : Layout := headers.foldl Layout.extend .empty

/-- Where the parser goes from a header that announces a transport protocol. -/
def transportStates : List (Nat × Target) := [(6, .state 4), (17, .state 5)]

def states : List ParseState :=
  [ ⟨[ethernetHeader], some etherTypeField, [(0x0800, .state 1), (0x86dd, .state 3)], some .accept⟩,
    ⟨[ipv4Header], some ihlField, [(5, .state 2)], some .accept⟩,
    ⟨[], some protocolField, transportStates, some .accept⟩,
    ⟨[ipv6Header], some nextHeaderField, transportStates, some .accept⟩,
    ⟨[tcpHeader], none, [], none⟩,
    ⟨[udpHeader], none, [], none⟩ ]

/-- The checksum of an IPv4 header covers its options too. -/
def ipv4Checksum : ChecksumRule := ⟨ipv4Header, checksumField, some ihlField⟩

/-- A table of address prefixes without entries. -/
def emptyPrefixTable (name : String) (field : FieldId) (bits : Nat) : Table :=
  ⟨name, [⟨field, bits, .lpm⟩], ["forward", "multicast", "drop"], [], 0, some ⟨"drop", []⟩⟩

def program : Program :=
  { description := description
    layout := layout
    states := states
    deparseOrder := [ethernetHeader, ipv4Header, ipv6Header, tcpHeader, udpHeader]
    checksums := [ipv4Checksum]
    tables := ⟨[
      emptyPrefixTable "ipv4_lpm" 27 32,
      emptyPrefixTable "ipv6_lpm" 35 128,
      ⟨"rid_filter", [⟨10, 16, .exact⟩], ["drop"], [], 0, none⟩]⟩ }

theorem load_description : Program.load description = .ok program := by
  have loaded : (Program.load description).toOption = some program := by decide +kernel
  cases result : Program.load description with
  | error e =>
    rw [result] at loaded
    cases loaded
  | ok other =>
    rw [result] at loaded
    exact congrArg Except.ok (Option.some.inj loaded)

/-- The standard fields of the program. -/
def fields : StandardFields :=
  { ingressPort := 0
    packetLength := 4
    instanceType := 3
    egressSpec := 1
    egressPort := 2
    ingressTime := some 7
    egressTime := some 8
    parserError := some 5
    checksumError := some 6
    group := some 9
    rid := some 10 }

theorem fields_ofLayout : StandardFields.ofLayout layout = .ok fields := by rfl

/-- What the controls of the basic switch use of the program. -/
def positions : BasicSwitch :=
  { ingressPort := 0
    egressSpec := 1
    egressPort := 2
    instanceType := 3
    checksumError := 6
    group := 9
    ipv4 := ipv4Header
    ttl := ttlField
    ipv6 := ipv6Header
    hopLimit := hopLimitField }

theorem positions_ofLayout : ofLayout layout = .ok positions := by rfl

theorem wellFormed_layout : layout.WellFormed := Program.wellFormed_of_load load_description

/-! ## The headers of the wire -/

theorem places_etherType : layout.Places [ethernetHeader] etherTypeField (8 * 12) (8 * 2) :=
  ⟨[13, 14], [], by decide, by decide, by decide⟩

theorem places_ihl : layout.Places [ethernetHeader, ipv4Header] ihlField (8 * 14 + 4) 4 :=
  ⟨List.range' 13 4, List.range' 18 10, by decide, by decide, by decide⟩

theorem places_ttl : layout.Places [ethernetHeader, ipv4Header] ttlField (8 * 22) (8 * 1) :=
  ⟨List.range' 13 10, List.range' 24 4, by decide, by decide, by decide⟩

theorem places_protocol :
    layout.Places [ethernetHeader, ipv4Header] protocolField (8 * 23) (8 * 1) :=
  ⟨List.range' 13 11, List.range' 25 3, by decide, by decide, by decide⟩

theorem places_checksum :
    layout.Places [ethernetHeader, ipv4Header] checksumField (8 * 24) (8 * 2) :=
  ⟨List.range' 13 12, List.range' 26 2, by decide, by decide, by decide⟩

theorem places_ipv4Destination :
    layout.Places [ethernetHeader, ipv4Header] ipv4DestinationField (8 * 30) (8 * 4) :=
  ⟨List.range' 13 14, [], by decide, by decide, by decide⟩

theorem places_nextHeader :
    layout.Places [ethernetHeader, ipv6Header] nextHeaderField (8 * 20) (8 * 1) :=
  ⟨[13, 14, 15, 28, 29, 30, 31], List.range' 33 3, by decide, by decide, by decide⟩

theorem places_hopLimit :
    layout.Places [ethernetHeader, ipv6Header] hopLimitField (8 * 21) (8 * 1) :=
  ⟨[13, 14, 15, 28, 29, 30, 31, 32], [34, 35], by decide, by decide, by decide⟩

theorem places_ipv6Destination :
    layout.Places [ethernetHeader, ipv6Header] ipv6DestinationField (8 * 38) (8 * 16) :=
  ⟨[13, 14, 15, 28, 29, 30, 31, 32, 33, 34], [], by decide, by decide, by decide⟩

/-- The metadata fields belong to no header of the wire. -/
theorem metadata_apart {headers : List HeaderId} (onWire : ∀ h ∈ headers, ethernetHeader ≤ h)
    {id : Nat} (metadata : id < 13) : id ∉ layout.fieldsOf headers := by
  intro member
  obtain ⟨h, inHeaders, inHeader⟩ := List.mem_flatMap.mp member
  have owned : ∀ id < 13, id ∈ layout.fieldsOf [0, 1, 2] := by decide
  obtain ⟨g, early, inEarly⟩ := List.mem_flatMap.mp (owned id metadata)
  have before : ∀ g ∈ [0, 1, 2], g < ethernetHeader := by decide
  have different : g ≠ h := Nat.ne_of_lt (Nat.lt_of_lt_of_le (before g early) (onWire h inHeaders))
  exact wellFormed_layout.fieldIds_disjoint different id inEarly id inHeader rfl

end BasicSwitch

end Switchyard
