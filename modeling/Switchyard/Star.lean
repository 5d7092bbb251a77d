import Switchyard.Address.Printer
import Switchyard.Network

/-!
# Star networks

One switch in the middle and hosts around it, each on a link of its own: host number `i` is on port
`i + 1` of the switch and has the address that goes with its number. The commands that go with a
star send each address to its port, and the multicast addresses to all ports.
-/

namespace Switchyard

/-- What can be set for a star. The bandwidth of its links is in gigabits a second. -/
structure StarOptions where
  hosts : Nat
  linkGbps : Nat
  latency : Time
  ipv6 : Bool
  deriving DecidableEq, Inhabited

/-- Four hosts on fast links. -/
def StarOptions.default : StarOptions := ⟨4, 10, .ofMicros 2, false⟩

/-- The largest bandwidth of a link. -/
def StarOptions.maxBandwidth : Nat := UInt64.size - 1

/-- The bandwidth of the links in bits a second, or the largest. -/
def StarOptions.bandwidth (options : StarOptions) : Nat :=
  min (options.linkGbps * 1000000000) maxBandwidth

/-- The nodes of a star, and the ports of the switch in the order of the hosts. -/
structure Star where
  switch : NodeId
  hosts : List NodeId
  switchPorts : List Nat
  deriving DecidableEq, Inhabited

namespace Star

/-- The address of a host. Its number counts from one and has 16 bits. -/
def hostIp (index : Nat) (ipv6 : Bool) : IpAddr :=
  let n := (index + 1) % 65536
  if ipv6 then .v6 (.ofGroups [0x2001, 0xdb8, 0, 0, 0, 0, 0, n]) else .v4 (.ofNat (0x0a000000 + n))

/-- The addresses of the first hosts. -/
def hostIps (count : Nat) (ipv6 : Bool) : List IpAddr :=
  (List.range count).map fun i => hostIp i ipv6

/-- The bytes that the address of a host takes in memory, with its family. -/
def addressBytes : Nat := 17

/-- The most hosts whose addresses fit the memory. -/
def maxHosts : Nat := Network.maxBytes / addressBytes

/-- Refuses more hosts than there is room for. -/
def requireRoom (hosts : Nat) : Except Fault Unit :=
  if maxHosts < hosts then .error (.tooManyHosts hosts) else .ok ()

/-- The group of all hosts. -/
def group : Nat := 1

/-- The addresses of the group of all hosts. -/
def groupPrefixV4 : String := "10.0.255.0/24"

def groupPrefixV6 : String := "ff0e::/16"

/-- The command that sends an address to a port. -/
def forwardCommand (ip : IpAddr) (port : Nat) : String :=
  match ip with
  | .v4 a => s!"table_add ipv4_lpm forward {a}/32 => {port}"
  | .v6 a => s!"table_add ipv6_lpm forward {a}/128 => {port}"

/-- The commands of a star whose hosts have the given addresses. -/
def commandList (ips : List IpAddr) : List String :=
  let numbers := List.range ips.length
  (ips.zipIdx.map fun (ip, i) => forwardCommand ip (i + 1)) ++
    [s!"mc_mgrp_create {group}"] ++
    (numbers.map fun i => s!"mc_node_create {i + 1} {i + 1}") ++
    (numbers.map fun i => s!"mc_node_associate {group} {i}") ++
    [s!"table_add ipv4_lpm multicast {groupPrefixV4} => {group}",
      s!"table_add ipv6_lpm multicast {groupPrefixV6} => {group}"]

/-- The commands of a star, one a line. -/
def commands (ips : List IpAddr) : String := String.join ((commandList ips).map (· ++ "\n"))

/-- Adds host number `i` of a star, and answers its node and its port at the switch. -/
def addHost (options : StarOptions) (switch : NodeId) (i : Nat) :
    EStateM Fault Network (NodeId × Nat) := do
  let host ← modifyGet (Network.addHost s!"h{i}" (hostIp i options.ipv6))
  let (_, port) ← Network.connect host switch options.latency options.bandwidth
  return (host, port)

/-- Adds a star around a pipeline to a network. -/
def build (pipeline : Pipeline) (options : StarOptions) : EStateM Fault Network Star := do
  MonadExcept.ofExcept (requireRoom options.hosts)
  let switch ← modifyGet (Network.addSwitch "s0" pipeline)
  let hosts ← (List.range options.hosts).mapM (addHost options switch)
  return ⟨switch, hosts.map (·.1), hosts.map (·.2)⟩

end Star

end Switchyard
