import Telemetry.Agent.HostFiles
import Telemetry.Agent.Startup
import Telemetry.Collector.Startup

/-!
# The two programs

Each program takes the path of its settings, or reads the ones in the directory it is
run in, and works on its standard input and output; whoever starts it joins them to a
connection.

* `collector` answers the requests of its input, and makes its last snapshot when the
  input ends. A database that it is told to use lasts as long as it runs.
* `agent` polls its machine once and writes the request of a first report.

A program that cannot start, or fails at its end, says so and exits with one.
-/

namespace Telemetry

/-- Everything that is left of an input. -/
partial def readToEnd (input : IO.FS.Stream) (sofar : ByteArray) : IO Octets := do
  let more ← input.read 65536
  if more.isEmpty then return sofar.toList else readToEnd input (sofar ++ more)

/-- The disk with those files on it that the machine has. -/
def copyFiles (paths : List String) (d : Disk) : IO Disk :=
  paths.foldlM (fun d (path : String) => do
    try
      let content ← IO.FS.readBinFile path
      let d := (d.makeDirectories ((parentPath path).getD "")).2
      return (d.write path content.toList).toOption.getD d
    catch _ => return d) d

/-- The first number of random octets. -/
def drawNumber : IO Nat := do
  return Rsa.ofBigEndian (← IO.getRandomBytes 8).toList / Nat.pow 2 11

/-- The text of a file, if the machine has it. -/
def readIfThere (path : String) : IO (Option String) := do
  try return some (← IO.FS.readFile path) catch _ => return none

/-- The files in which the machine tells of itself. -/
def readHost : IO HostFiles := do
  return {
    memory := (← readIfThere "/proc/meminfo").getD ""
    processors := (← readIfThere "/proc/stat").getD ""
    process := ← readIfThere "/proc/self/statm" }

/-- Answers the requests of the input. -/
def runCollector (arguments : List String) : IO (Except Failure Unit) := do
  let path := arguments.head?.getD collectorSettingsPath
  let d ← copyFiles [path] (.blank [])
  let named := match CollectorSettings.load path d with
    | .ok s => s.server.cryptoKey.toList ++ (s.storage.file.map (·.path)).toList
    | .error _ => []
  match Collector.start arguments (fun _ => .ok ()) 0 (← copyFiles named d) with
  | (.error e, _) => return .error e
  | (.ok (settings, c, backend), d) =>
    let (answers, site) := c.converse (← readToEnd (← IO.getStdin) .empty) ⟨backend, d, 0⟩
    let output ← IO.getStdout
    output.write ⟨answers.toArray⟩
    output.flush
    let (stopped, site) := site.stop
    if let some snapshots := settings.storage.file then
      if let .ok content := site.disk.read snapshots.path then
        IO.FS.writeBinFile snapshots.path ⟨content.toArray⟩
    return stopped

/-- Writes the request of a first report to the output. -/
def runAgent (arguments : List String) : IO (Except Failure Unit) := do
  let path := arguments.head?.getD agentSettingsPath
  let d ← copyFiles [path] (.blank [])
  let named := match AgentSettings.load path d with
    | .ok s => s.agent.cryptoKey.toList
    | .error _ => []
  match startAgent arguments (← copyFiles named d) with
  | .error e => return .error e
  | .ok (_, delivery) =>
    let reading := (← readHost).reading (← drawNumber)
    let seed := (← IO.getRandomBytes 65536).toList
    let seedOf (n : Nat) : Octets := (seed.drop (Rsa.hashSize * n)).take Rsa.hashSize
    match delivery.sealer.encodeBatch seedOf (firstBatch reading) with
    | none => return .ok ()
    | some envelope =>
      match delivery.request envelope with
      | .error fault => return .error (.transport fault.message)
      | .ok request =>
        let output ← IO.getStdout
        output.write ⟨request.octets.toArray⟩
        output.flush
        return .ok ()

end Telemetry

/-- One of the two programs, by its name. -/
def main (arguments : List String) : IO UInt32 := do
  let program ← match arguments with
    | "collector" :: rest => Telemetry.runCollector rest
    | "agent" :: rest => Telemetry.runAgent rest
    | _ => do
      IO.eprintln "usage: (collector | agent) [settings]"
      return 2
  match program with
  | .ok () => return 0
  | .error e =>
    IO.eprintln ("error=" ++ e.message)
    return 1
