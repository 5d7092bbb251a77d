import Switchyard.CommandLine.FileTree
import Switchyard.CommandLine.Scenario

/-!
# The command line

What a call of the program prints, writes and answers, as a function of its arguments and of the
files that it reads. The exit code is 0 if all went well, 1 if the scenario or the writing of its
summary did not work out, 2 if the arguments are wrong, and 101 if the simulation broke down.
-/

namespace Switchyard

/-- How a call ends: its exit code and the lines on its two outputs. -/
structure Ending where
  exitCode : Nat
  out : List String
  err : List String
  deriving DecidableEq

/-- A call that has done its work, and the file that is left to write, with its text. -/
structure Call where
  ending : Ending
  file : Option (String × String)
  deriving DecidableEq

namespace CommandLine

/-- What is printed for help. -/
def usage : List String :=
  ["Simulates a star of hosts around a switch: the first host sends one flow.", "", "Options:"] ++
    (ValueOption.all.map fun option => "  --" ++ option.name ++ " <value>") ++
    ["  --ipv6", "  --help"]

/-- The lines that a message is printed on. -/
def printed (message : String) : List String := (Text.lines message.toList).map String.ofList

/-- The call of arguments that make no run. -/
def stop : OptionStop → Call
  | .help => ⟨⟨0, usage, []⟩, none⟩
  | .usage => ⟨⟨2, [], "error: wrong arguments" :: usage⟩, none⟩

/-- The call of a scenario that came to nothing. -/
def fail : ScenarioFault → Call
  | .crashed fault => ⟨⟨101, [], printed (ScenarioFault.crashed fault).message⟩, none⟩
  | fault => ⟨⟨1, [], printed ("error: " ++ fault.message)⟩, none⟩

/-- The call of the given arguments. -/
def call (read : FileReader) (arguments : List String) : Call :=
  match Options.ofArguments arguments with
  | .error reason => stop reason
  | .ok options =>
    match Scenario.run read options with
    | .error fault => fail fault
    | .ok summary => ⟨⟨0, [summary.line], []⟩, options.summary.map (·, summary.text)⟩

/-- The end of a call after its file has been written, or could not be. -/
def conclude (ending : Ending) (path : String) (written : Except String Unit) : Ending :=
  match written with
  | .ok _ => { ending with err := ending.err ++ printed ("wrote summary to " ++ path) }
  | .error reason =>
    { ending with
      exitCode := 1
      err := ending.err ++ printed s!"error: failed to write {path}: {reason}" }

/-- A call in a tree of files: how it ends, and the tree after it. -/
def callIn (t : FileTree) (arguments : List String) : Ending × FileTree :=
  let result := call (fun path => (t.read path).mapError FileFault.message) arguments
  match result.file with
  | none => (result.ending, t)
  | some (path, text) =>
    match t.write path text with
    | .ok written => (conclude result.ending path (.ok ()), written)
    | .error fault => (conclude result.ending path (.error fault.message), t)

end CommandLine

end Switchyard
