import TickEconomy.CommandLine

/-!
# The simulator as a program

The outermost layer: it reads the files that a call names, hands what they hold to
`CommandLine.run`, and writes what the run left behind.
-/

set_option autoImplicit false
set_option relaxedAutoImplicit false

namespace TickEconomy

/-- What a file holds, unless it cannot be read. -/
def readContents (path : String) : IO (Option ByteArray) := do
  try
    return some (← IO.FS.readBinFile path)
  catch _ =>
    return none

/-- The sentence for a run that did not end by itself. -/
def Breakdown.message : Breakdown → String
  | .fileMissing path => s!"no file {path}"
  | .fileUndecodable path => s!"file {path} is not UTF-8"
  | .catalogRefused clash => clash.message
  | .numberTooLong => s!"a number has more than {Text.numeralDigitLimit} digits"

/-- Writes what a run left behind and gives its exit code. -/
def finishRun (run : Run) : IO UInt32 := do
  for (path, text) in run.files do
    IO.FS.writeFile path text
  IO.print run.output
  IO.eprint run.errors
  match run.ending with
  | .exit code => return code.toUInt32
  | .breakdown cause =>
    IO.eprintln cause.message
    return 1

end TickEconomy

open TickEconomy in
/-- Simulates the scenario that the arguments name. -/
def main (arguments : List String) : IO UInt32 := do
  let paths := (Request.ofArguments arguments).paths
  let held ← paths.mapM readContents
  let contents : FileContents := fun path ↦ ((paths.zip held).lookup path).join
  finishRun (CommandLine.run 1 contents (CommandLine.simulatorName :: arguments))
