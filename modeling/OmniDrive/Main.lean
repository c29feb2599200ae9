import OmniDrive.CommandLine
import OmniDrive.Json.Form
import OmniDrive.Session.Run

/-! The program: a session with the host on a serial port, with the motors on the bench.
Telemetry goes back over the port and, where publishing is on, as JSON to standard output. -/
namespace OmniDrive

namespace Program

/-- How the program is called. -/
def usage : String :=
  "Usage: omnidrive [-p PORT] [-b BAUDRATE] [--loop-hz HZ] [--law pd|pid] [--no-publish]"

def versionText : String := "omnidrive 0.1.0"

/-- What is wrong with a command line. -/
def explain : CommandLine.Refusal → String
  | .unknownArgument => "unexpected argument"
  | .repeated => "an argument is given twice"
  | .invalidValue => "a value is missing or not one of those possible"
  | .invalidNumber => "a value is not a number in range"
  | .needlessValue => "a switch takes no value"
  | .help | .version => ""

/-- Write the notices that are worth it to standard error. -/
def log (notices : List Notice) : IO Unit := do
  for n in notices do
    if n.severity.rank ≤ Severity.info.rank then
      IO.eprintln (n.severity.label ++ " " ++ n.text)

/-- Result of a step, with its notices logged; a fault ends the program. -/
def perform {α : Type} (step : Act Notice α) : IO α := do
  match step.outcome with
  | .ok (notices, a) =>
    log notices
    return a
  | .error _ => throw (IO.userError "arithmetic fault")

/-- Collect what arrives on the port. -/
partial def listen (port : IO.FS.Handle) (inbox : IO.Ref (List UInt8)) : IO Unit := do
  let chunk ← port.read 256
  if chunk.isEmpty then return
  inbox.modify fun bytes => bytes ++ chunk.toList
  listen port inbox

/-- Period after period until the host's exit. -/
partial def serve (settings : Settings) (port : IO.FS.Handle) (inbox : IO.Ref (List UInt8))
    (rig : Rig Session Bench LogBoard) : IO Unit := do
  let bytes ← inbox.modifyGet fun bytes => (bytes, [])
  let rig ← perform (Session.stageOn rig bytes)
  let (rig, _, cycle) ← perform (Session.cycleOn rig)
  port.write ⟨cycle.frame.toArray⟩
  port.flush
  if settings.publish then
    IO.println (JsonForm.text cycle.report)
    IO.println (JsonForm.text rig.core.health)
  if rig.core.isRunning then
    IO.sleep (settings.tickPeriod / 1000).toUInt32
    serve settings port inbox rig

/-- Open the port and serve the host. -/
def run (settings : Settings) : IO Unit := do
  let input ← IO.FS.Handle.mk settings.port .read
  let output ← IO.FS.Handle.mk settings.port .append
  let inbox ← IO.mkRef []
  let _ ← IO.asTask (listen input inbox)
  serve settings output inbox (← perform (Session.onBench settings.law))

end Program

end OmniDrive

open OmniDrive in
/-- Exit code 2 for a wrong command line, 1 for a fault while running. -/
def main (arguments : List String) : IO UInt32 := do
  match CommandLine.parse arguments with
  | .error .help => IO.println Program.usage; return 0
  | .error .version => IO.println Program.versionText; return 0
  | .error refusal =>
    IO.eprintln ("error: " ++ Program.explain refusal)
    IO.eprintln Program.usage
    return 2
  | .ok settings =>
    try
      Program.run settings
      return 0
    catch e =>
      IO.eprintln ("Runtime error: " ++ e.toString)
      return 1
