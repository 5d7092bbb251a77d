import Switchyard.Program.Description

/-!
# The program of the basic switch

Ethernet frames that hold IPv4 or IPv6 packets, with TCP or UDP inside. Behind an IPv4 header with
options the parser stops, and leaves the options to the payload. Each address family has a table of
prefixes, and a third table can filter the copies of a multicast packet by replication number.
-/

namespace Switchyard

namespace BasicSwitch

/-- A metadata header with the given fields and widths. -/
def metadata (name : String) (fields : List (String × Nat)) : HeaderDecl :=
  ⟨name, true, fields.map fun (field, bits) => ⟨field, bits⟩⟩

/-- A header of the packet with the given fields and widths. -/
def header (name : String) (fields : List (String × Nat)) : HeaderDecl :=
  ⟨name, false, fields.map fun (field, bits) => ⟨field, bits⟩⟩

def headers : List HeaderDecl :=
  [ metadata "standard_metadata"
      [("ingress_port", 9), ("egress_spec", 9), ("egress_port", 9), ("instance_type", 32),
        ("packet_length", 32), ("parser_error", 32), ("checksum_error", 1)],
    metadata "intrinsic_metadata"
      [("ingress_global_timestamp", 48), ("egress_global_timestamp", 48), ("mcast_grp", 16),
        ("egress_rid", 16)],
    metadata "queueing_metadata" [("enq_timestamp", 48), ("deq_timedelta", 32)],
    header "ethernet" [("dst_addr", 48), ("src_addr", 48), ("ether_type", 16)],
    header "ipv4"
      [("version", 4), ("ihl", 4), ("diffserv", 8), ("total_len", 16), ("identification", 16),
        ("flags", 3), ("frag_offset", 13), ("ttl", 8), ("protocol", 8), ("hdr_checksum", 16),
        ("src_addr", 32), ("dst_addr", 32)],
    header "ipv6"
      [("version", 4), ("traffic_class", 8), ("flow_label", 20), ("payload_len", 16),
        ("next_hdr", 8), ("hop_limit", 8), ("src_addr", 128), ("dst_addr", 128)],
    header "tcp"
      [("src_port", 16), ("dst_port", 16), ("seq_no", 32), ("ack_no", 32), ("data_offset", 4),
        ("flags", 12), ("window", 16), ("checksum", 16), ("urgent_ptr", 16)],
    header "udp" [("src_port", 16), ("dst_port", 16), ("length", 16), ("checksum", 16)] ]

/-- A state that extracts headers and goes on by the value of a field, or accepts. -/
def selecting (name : String) (extract : List String) (field : String)
    (transitions : List (Nat × String)) : StateDecl :=
  { name := name
    extract := extract
    select := some field
    transitions := transitions.map fun (value, next) => ⟨value, next⟩
    fallback := some "accept" }

/-- A state that extracts a header and accepts. -/
def last (name header : String) : StateDecl :=
  { name := name, extract := [header], select := none, transitions := [], fallback := none }

/-- Where the two transport protocols are parsed. -/
def transport : List (Nat × String) := [(6, "parse_tcp"), (17, "parse_udp")]

def parser : List StateDecl :=
  [ selecting "start" ["ethernet"] "ethernet.ether_type"
      [(0x0800, "parse_ipv4"), (0x86dd, "parse_ipv6")],
    selecting "parse_ipv4" ["ipv4"] "ipv4.ihl" [(5, "parse_ipv4_l4")],
    selecting "parse_ipv4_l4" [] "ipv4.protocol" transport,
    selecting "parse_ipv6" ["ipv6"] "ipv6.next_hdr" transport,
    last "parse_tcp" "tcp",
    last "parse_udp" "udp" ]

/-- A table of address prefixes. -/
def prefixTable (name field : String) : TableDecl :=
  { name := name
    keys := [⟨field, .lpm⟩]
    actions := ["forward", "multicast", "drop"]
    defaultAction := some "drop" }

def tables : List TableDecl :=
  [ prefixTable "ipv4_lpm" "ipv4.dst_addr",
    prefixTable "ipv6_lpm" "ipv6.dst_addr",
    { name := "rid_filter"
      keys := [⟨"intrinsic_metadata.egress_rid", .exact⟩]
      actions := ["drop"]
      defaultAction := none } ]

/-- The program of the basic switch. -/
def description : Description :=
  { name := some "basic_switch"
    headers := headers
    parser := parser
    deparser := ["ethernet", "ipv4", "ipv6", "tcp", "udp"]
    tables := tables
    checksums := [⟨"ipv4", "hdr_checksum", some "ihl"⟩] }

end BasicSwitch

end Switchyard
