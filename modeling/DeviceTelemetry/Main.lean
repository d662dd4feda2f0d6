import DeviceTelemetry.CommandLine.Report
import DeviceTelemetry.Json.Standard

/-!
# The command line

Reads the file that a command names and prints the command's report.
-/

set_option autoImplicit false

namespace DeviceTelemetry

def readContent (path : String) : IO (Except String ByteArray) := do
  try
    return .ok (← IO.FS.readBinFile path)
  catch e =>
    return .error e.toString

def Report.print (r : Report) : IO UInt32 := do
  (← IO.getStdout).putStr r.output
  (← IO.getStderr).putStr r.errors
  return r.exitCode

end DeviceTelemetry

def main (args : List String) : IO UInt32 :=
  match DeviceTelemetry.Command.parse args with
  | none => DeviceTelemetry.Report.usage.print
  | some command => do
    let content ← DeviceTelemetry.readContent command.path
    (DeviceTelemetry.Report.ofCommand DeviceTelemetry.Json.standard command content).print
