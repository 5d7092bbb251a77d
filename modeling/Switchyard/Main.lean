import Switchyard.CommandLine

/-!
# The program

Reads the files that the options name, makes the call, and writes what comes of it.
-/

namespace Switchyard

namespace CommandLine

/-- The words of the system for a failure. -/
def describe (e : IO.Error) : String :=
  match e with
  | .noFileOrDirectory .. => FileFault.noSuchFile.message
  | .inappropriateType _ _ details =>
    if details.toLower = "is a directory" then FileFault.isADirectory.message
    else FileFault.notADirectory.message
  | .invalidArgument .. => FileFault.nameTooLong.message
  | e => toString e

/-- The text of a file, or why it cannot be read. -/
def readText (path : String) : IO (String × Except String String) := do
  match ← (IO.FS.readFile path).toBaseIO with
  | .ok text => return (path, .ok text)
  | .error e => return (path, .error (describe e))

/-- The files that arguments name to be read. -/
def filesToRead (arguments : List String) : List String :=
  match Options.ofArguments arguments with
  | .ok options => options.program.toList ++ options.commands.toList
  | .error _ => []

end CommandLine

end Switchyard

open Switchyard.CommandLine

/-- Makes the call of the arguments. -/
def main (arguments : List String) : IO UInt32 := do
  let texts ← (filesToRead arguments).mapM readText
  let missing := Switchyard.FileFault.noSuchFile.message
  let read (path : String) := (texts.lookup path).getD (.error missing)
  let result := call read arguments
  result.ending.out.forM IO.println
  let ending ← match result.file with
    | none => pure result.ending
    | some (path, text) =>
      let written ← (IO.FS.writeFile path text).toBaseIO
      pure (conclude result.ending path (written.mapError describe))
  ending.err.forM IO.eprintln
  return UInt32.ofNat ending.exitCode
