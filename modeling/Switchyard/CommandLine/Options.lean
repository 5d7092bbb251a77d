import Switchyard.Address.Reader
import Switchyard.Numeral

/-!
# Command line options

Every option has a long name. A value follows as the next argument or after an equals sign; the next
argument is no value if it starts with a dash, unless it is a dash alone. No option may be given
twice, and nothing but options may be given. Arguments are read from left to right, and the first
that asks for help or is wrong decides.
-/

namespace Switchyard

/-- The options of a run. -/
structure Options where
  program : Option String
  commands : Option String
  hosts : Nat
  packets : Nat
  packetBytes : Nat
  gapMicros : Nat
  linkGbps : Nat
  linkLatencyMicros : Nat
  destination : Option IpAddr
  ipv6 : Bool
  untilMillis : Nat
  summary : Option String
  deriving DecidableEq

/-- The options that take a value. -/
inductive ValueOption where
  | program
  | commands
  | hosts
  | packets
  | packetBytes
  | gapMicros
  | linkGbps
  | linkLatencyMicros
  | destination
  | untilMillis
  | summary
  deriving DecidableEq

/-- Why arguments make no run. -/
inductive OptionStop where
  | help
  | usage
  deriving DecidableEq

namespace ValueOption

def name : ValueOption → String
  | program => "program"
  | commands => "commands"
  | hosts => "hosts"
  | packets => "pkts"
  | packetBytes => "pkt-bytes"
  | gapMicros => "gap-us"
  | linkGbps => "link-gbps"
  | linkLatencyMicros => "link-latency-us"
  | destination => "dst"
  | untilMillis => "until-ms"
  | summary => "summary-json"

def all : List ValueOption :=
  [program, commands, hosts, packets, packetBytes, gapMicros, linkGbps, linkLatencyMicros,
    destination, untilMillis, summary]

def ofName? (text : String) : Option ValueOption := all.find? (·.name == text)

end ValueOption

namespace Options

/-- What holds where no option says otherwise. -/
def default : Options :=
  { program := none
    commands := none
    hosts := 4
    packets := 100
    packetBytes := 1000
    gapMicros := 10
    linkGbps := 10
    linkLatencyMicros := 2
    destination := none
    ipv6 := false
    untilMillis := 50
    summary := none }

/-- A number of 64 bits. -/
def number? (text : String) : Option Nat := Numeral.bounded? 10 UInt64.size text.toList

/-- The name of a file, which is not empty. -/
def path? (text : String) : Option String := if text.isEmpty then none else some text

/-- Sets an option to a value, if the value fits the option. -/
def assign? (options : Options) (option : ValueOption) (text : String) : Option Options :=
  match option with
  | .program => (path? text).map fun p => { options with program := some p }
  | .commands => (path? text).map fun p => { options with commands := some p }
  | .hosts => (number? text).map fun n => { options with hosts := n }
  | .packets => (number? text).map fun n => { options with packets := n }
  | .packetBytes => (number? text).map fun n => { options with packetBytes := n }
  | .gapMicros => (number? text).map fun n => { options with gapMicros := n }
  | .linkGbps => (number? text).map fun n => { options with linkGbps := n }
  | .linkLatencyMicros => (number? text).map fun n => { options with linkLatencyMicros := n }
  | .destination =>
    (AddressReader.ip? text.toList).map fun a => { options with destination := some a }
  | .untilMillis => (number? text).map fun n => { options with untilMillis := n }
  | .summary => (path? text).map fun p => { options with summary := some p }

/-- What has been read of the arguments: the options so far, and those given already. -/
structure Progress where
  options : Options
  given : List ValueOption

/-- Takes an option with its value. -/
def give (p : Progress) (option : ValueOption) (text : String) : Except OptionStop Progress :=
  if option ∈ p.given then .error .usage
  else
    match p.options.assign? option text with
    | none => .error .usage
    | some options => .ok ⟨options, option :: p.given⟩

/-- A long option as written: its name, and the value after an equals sign if there is one. -/
def splitName (text : List Char) : String × Option String :=
  let name := String.ofList (text.takeWhile (· != '='))
  match text.dropWhile (· != '=') with
  | [] => (name, none)
  | _ :: value => (name, some (String.ofList value))

/-- May the argument be the value of the option before it? -/
def isValue (argument : String) : Bool := argument == "-" || argument.toList.head? != some '-'

/-- Takes an option that has no value in its own argument. -/
def giveNext (p : Progress) (option : ValueOption) (arguments : List String) :
    Except OptionStop (Progress × List String) :=
  match arguments with
  | [] => .error .usage
  | value :: rest =>
    if isValue value then (give p option value).map (·, rest) else .error .usage

/-- Takes an argument that starts with two dashes, without the dashes. -/
def takeLong (p : Progress) (text : List Char) (rest : List String) :
    Except OptionStop (Progress × List String) :=
  match splitName text with
  | ("help", none) => .error .help
  | ("ipv6", none) =>
    if p.options.ipv6 then .error .usage
    else .ok ({ p with options := { p.options with ipv6 := true } }, rest)
  | (name, value) =>
    match ValueOption.ofName? name, value with
    | none, _ => .error .usage
    | some option, some value => (give p option value).map (·, rest)
    | some option, none => giveNext p option rest

/-- Takes an argument and, if it needs one, its value. Two dashes alone end the options, and nothing
may follow them. -/
def take (p : Progress) (argument : String) (rest : List String) :
    Except OptionStop (Progress × List String) :=
  match argument.toList with
  | ['-', '-'] => if rest.isEmpty then .ok (p, []) else .error .usage
  | '-' :: '-' :: text => takeLong p text rest
  | '-' :: 'h' :: _ => .error .help
  | _ => .error .usage

theorem length_of_take {p q : Progress} {argument : String} {rest left : List String}
    (h : take p argument rest = .ok (q, left)) : left.length ≤ rest.length := by
  unfold take at h
  split at h
  · split at h <;> simp_all
  · rename_i text _
    unfold takeLong at h
    split at h
    · contradiction
    · split at h <;> simp_all
    · split at h
      · contradiction
      · simp only [Except.map] at h
        split at h <;> simp_all
      · unfold giveNext at h
        split at h
        · contradiction
        · split at h
          · simp only [Except.map] at h
            split at h
            · contradiction
            · simp only [Except.ok.injEq, Prod.mk.injEq] at h
              simp [← h.2]
          · contradiction
  · contradiction
  · contradiction

/-- Takes all arguments. -/
def takeAll (p : Progress) (arguments : List String) : Except OptionStop Options :=
  match arguments with
  | [] => .ok p.options
  | argument :: rest =>
    match _h : take p argument rest with
    | .error stop => .error stop
    | .ok (p, left) => takeAll p left
termination_by arguments.length
decreasing_by
  have := length_of_take ‹take _ argument rest = .ok (_, left)›
  simp only [List.length_cons]
  omega

/-- The options that arguments spell. -/
def ofArguments (arguments : List String) : Except OptionStop Options :=
  takeAll ⟨default, []⟩ arguments

end Options

end Switchyard
