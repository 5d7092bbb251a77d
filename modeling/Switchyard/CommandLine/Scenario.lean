import Switchyard.BasicSwitch
import Switchyard.CommandLine.Options
import Switchyard.CommandLine.Summary
import Switchyard.Network.Simulation
import Switchyard.Program.Reader
import Switchyard.Star

/-!
# The scenario of the command line

A star of hosts around a basic switch, in which the first host sends one flow. The options choose
the program, its commands, the star and the flow. They are looked at in a fixed order, and the first
that does not work out ends the scenario before anything is simulated.
-/

namespace Switchyard

/-- Reads a file, or tells why not. -/
abbrev FileReader := String → Except String String

/-- Why a scenario came to nothing. -/
inductive ScenarioFault where
  | tooFewHosts (hosts : Nat)
  | program (error : Error)
  | pipeline (error : PipelineError)
  | unreadable (path reason : String)
  | wrongFamily (destination : IpAddr)
  | crashed (fault : RunFault Fault)
  deriving DecidableEq

def ScenarioFault.message : ScenarioFault → String
  | tooFewHosts hosts => s!"--hosts must be at least 2, got {hosts}"
  | program error => error.message
  | pipeline error => error.message
  | unreadable path reason => s!"failed to read {path}: {reason}"
  | wrongFamily destination => s!"--dst {destination} does not match the host address family"
  | crashed (.event fault) => fault.message
  | crashed .tooManyEvents => "the number of events does not fit 64 bits"

namespace Scenario

/-- The program of a scenario. -/
def description (read : FileReader) (options : Options) : Except ScenarioFault Description :=
  match options.program with
  | none => .ok BasicSwitch.description
  | some path =>
    match read path with
    | .error reason => .error (.program (.unreadable path reason))
    | .ok text => (Description.ofText text).mapError .program

/-- The commands of a scenario. -/
def commands (read : FileReader) (options : Options) : Except ScenarioFault String :=
  match options.commands with
  | none => .ok (Star.commands (Star.hostIps options.hosts options.ipv6))
  | some path => (read path).mapError (.unreadable path)

/-- The address that the flow goes to: that of the last host, unless another one is asked for. -/
def destination (options : Options) : Except ScenarioFault IpAddr :=
  let ip := options.destination.getD (Star.hostIp (options.hosts - 1) options.ipv6)
  if ip.isV4 = options.ipv6 then .error (.wrongFamily ip) else .ok ip

def starOptions (options : Options) : StarOptions :=
  ⟨options.hosts, options.linkGbps, .ofMicros options.linkLatencyMicros, options.ipv6⟩

/-- Builds the star, lets the first host send, and runs to the end of the time. -/
def simulate (options : Options) (pipeline : Pipeline) (ip : IpAddr) : NetworkSimulationM Unit := do
  let star ← fun s =>
    match NetworkSimulation.onNetwork (Star.build pipeline (starOptions options)) s with
    | .ok star s => .ok star s
    | .error fault s => .error (.event fault) s
  NetworkSimulation.schedule Time.zero (.inject {
    id := 1
    source := star.hosts.headD 0
    destination := ip
    frameBytes := options.packetBytes
    remaining := options.packets
    gap := .ofMicros options.gapMicros })
  NetworkSimulation.runUntil (.ofMillis options.untilMillis)

/-- What a simulation came to. -/
def summarize (s : NetworkSimulation) : Summary :=
  { now := s.scheduler.now
    executedEvents := s.scheduler.executed
    pipelinePackets := s.network.numbering.packets
    sentFrames := ((s.network.stats.host? "h0").map (·.sentFrames)).getD 0
    stats := s.network.stats }

/-- The switch of a scenario with its commands carried out, and the numbering after that. -/
def prepare (read : FileReader) (options : Options) :
    Except ScenarioFault (Pipeline × Numbering) := do
  let description ← description read options
  match BasicSwitch.pipeline description (PipelineConfig.named "s0") Numbering.initial with
  | .error e _ => throw (.pipeline e)
  | .ok pipeline numbering =>
    (Star.requireRoom options.hosts).mapError fun fault => .crashed (.event fault)
    match Pipeline.runBatch (← commands read options) pipeline with
    | .error e _ => throw (.program e)
    | .ok _ pipeline => return (pipeline, numbering)

/-- Runs the scenario of the options. -/
def run (read : FileReader) (options : Options) : Except ScenarioFault Summary := do
  if options.hosts < 2 then throw (.tooFewHosts options.hosts)
  let (pipeline, numbering) ← prepare read options
  let ip ← destination options
  let start := NetworkSimulation.initial
  let start := { start with network := { start.network with numbering := numbering } }
  match simulate options pipeline ip start with
  | .error fault _ => throw (.crashed fault)
  | .ok _ s => return summarize s

end Scenario

end Switchyard
