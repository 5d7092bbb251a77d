import Switchyard.Bytes
import Switchyard.Bits
import Switchyard.InternetChecksum
import Switchyard.Text
import Switchyard.Numeral
import Switchyard.Address
import Switchyard.Address.Reader
import Switchyard.Address.Printer
import Switchyard.Program.Description
import Switchyard.Error
import Switchyard.Program.Layout
import Switchyard.Control.Literal
import Switchyard.Control.Table
import Switchyard.Control.Multicast
import Switchyard.Control.Command
import Switchyard.Control.Plane
import Switchyard.Json
import Switchyard.Json.Token
import Switchyard.Json.Reader
import Switchyard.Json.Printer
import Switchyard.Program.Reader
import Switchyard.Program
import Switchyard.Packet
import Switchyard.Packet.Checksum
import Switchyard.Packet.Parse
import Switchyard.Packet.Deparse
import Switchyard.Time
import Switchyard.Frame.Ethernet
import Switchyard.Frame.Ipv4
import Switchyard.Frame.Ipv6
import Switchyard.Frame.Tcp
import Switchyard.Frame.Udp
import Switchyard.Frame.Header
import Switchyard.Frame.Tag
import Switchyard.Frame.Payload
import Switchyard.Frame
import Switchyard.Frame.Recovery
import Switchyard.Pipeline.Control
import Switchyard.Pipeline.Numbering
import Switchyard.Pipeline.Boundary
import Switchyard.Pipeline.Standard
import Switchyard.Pipeline
import Switchyard.Pipeline.Script
import Switchyard.BasicSwitch.Description
import Switchyard.BasicSwitch
import Switchyard.Simulation.Scheduler
import Switchyard.Simulation.Probe
import Switchyard.Network.Link
import Switchyard.Network.Stats
import Switchyard.Network
import Switchyard.Network.Traffic
import Switchyard.Network.Simulation
import Switchyard.Star
import Switchyard.CommandLine.Options
import Switchyard.CommandLine.Summary
import Switchyard.CommandLine.Scenario
import Switchyard.CommandLine.FileTree
import Switchyard.CommandLine
import Switchyard.Main
import Switchyard.Program.Printer
import Switchyard.Proofs.Bytes
import Switchyard.Proofs.Bits
import Switchyard.Proofs.InternetChecksum
import Switchyard.Proofs.Frame.Codec
import Switchyard.Proofs.Frame.Recovery
import Switchyard.Proofs.Frame.ReadBack
import Switchyard.Proofs.Frame.Canonical
import Switchyard.Proofs.Sequencing
import Switchyard.Proofs.Keyed
import Switchyard.Proofs.Program.Layout
import Switchyard.Proofs.Packet
import Switchyard.Proofs.Packet.Deparse
import Switchyard.Proofs.Packet.Holding
import Switchyard.Proofs.Packet.Extraction
import Switchyard.Proofs.Pipeline.Standard
import Switchyard.Proofs.Pipeline.Forwarding
import Switchyard.Proofs.BasicSwitch.Program
import Switchyard.Proofs.BasicSwitch.Wire
import Switchyard.Proofs.BasicSwitch.Parsing
import Switchyard.Proofs.BasicSwitch.Representation
import Switchyard.Proofs.BasicSwitch.Stages
import Switchyard.Proofs.BasicSwitch.Transparency
import Switchyard.Proofs.BasicSwitch.Controls
import Switchyard.Proofs.BasicSwitch.Rewriting
import Switchyard.Proofs.Control.Distinct
import Switchyard.Proofs.Control.Atomicity
import Switchyard.Proofs.Simulation.Run
import Switchyard.Proofs.Simulation.Order
import Switchyard.Proofs.Simulation.Split
import Switchyard.Proofs.Network.Balance
import Switchyard.Proofs.Network.Conservation
import Switchyard.Proofs.Control.Matching
import Switchyard.Proofs.Control.Literals
import Switchyard.Proofs.Control.Lookup
import Switchyard.Proofs.Control.Replication
import Switchyard.Proofs.Program.Resolution
import Switchyard.Proofs.Packet.Walk
import Switchyard.Proofs.Packet.Parsing
import Switchyard.Proofs.Packet.RoundTrip
import Switchyard.Proofs.Control.Tables
import Switchyard.Proofs.Control.Entries
import Switchyard.Proofs.BasicSwitch.Decision
import Switchyard.Proofs.BasicSwitch.DropPort
import Switchyard.Proofs.Pipeline.DropPort
import Switchyard.Proofs.Network.Transmission
import Switchyard.Proofs.Network.LinkOrder
import Switchyard.Proofs.Address
import Switchyard.Proofs.Address.Ipv6
import Switchyard.Proofs.Text
import Switchyard.Proofs.Control.Syntax
import Switchyard.Proofs.Control.Spelling
import Switchyard.Proofs.Star.Script
import Switchyard.Proofs.Star.Plane
import Switchyard.Proofs.Star.Lookup
import Switchyard.Proofs.Network.FlowFrames
import Switchyard.Proofs.BasicSwitch.Datagram
import Switchyard.Proofs.BasicSwitch.HeaderChecksum
import Switchyard.Proofs.Network.Execution
import Switchyard.Proofs.Network.HostCounts
import Switchyard.Proofs.Network.Ports
import Switchyard.Proofs.Network.HostSide
import Switchyard.Proofs.Network.Receipts
import Switchyard.Proofs.Simulation.Agenda
import Switchyard.Proofs.Star.Building
import Switchyard.Proofs.Star.Answer
import Switchyard.Proofs.Star.Emission
import Switchyard.Proofs.Star.Passage
import Switchyard.Proofs.Star.Tally
import Switchyard.Proofs.Star.Progress
import Switchyard.Proofs.Star.Course
import Switchyard.Proofs.Star.Start
import Switchyard.Proofs.Star.Unicast
import Switchyard.Proofs.Star.Commands
import Switchyard.Proofs.Star.Multicast
import Switchyard.Proofs.Checked
import Switchyard.Proofs.Checked.Fields
import Switchyard.Proofs.Checked.Extraction
import Switchyard.Proofs.Checked.Headers
import Switchyard.Proofs.Checked.Frame
import Switchyard.Proofs.Checked.Pipeline
import Switchyard.Proofs.Frame.Layers
import Switchyard.Proofs.Packet.Settling
import Switchyard.Proofs.Packet.PayloadOffset
import Switchyard.Proofs.Packet.StepLimit
import Switchyard.Proofs.Control.Matchable
import Switchyard.Proofs.Control.InsertionOrder
import Switchyard.Proofs.Pipeline.Batches
import Switchyard.Proofs.Control.Readback
import Switchyard.Proofs.Control.Undoing
import Switchyard.Proofs.Network.Turns
import Switchyard.Proofs.Network.FrameNumbers
import Switchyard.Proofs.Network.Injection
import Switchyard.Proofs.Network.LatencyTotal
import Switchyard.Proofs.Program.Declaring
import Switchyard.Proofs.Program.Loading
import Switchyard.Proofs.Program.Names
import Switchyard.Proofs.Frame.DatagramLength
import Switchyard.Proofs.Frame.RuleOrder
import Switchyard.Proofs.Program.Growth
import Switchyard.Proofs.Pipeline.Sharing
import Switchyard.Proofs.Packet.Filling
import Switchyard.Proofs.Checked.Coverage
import Switchyard.Proofs.Pipeline.Reaching
import Switchyard.Proofs.Pipeline.FieldValues
