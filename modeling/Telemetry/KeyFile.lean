import Telemetry.Rsa.Cipher
import Telemetry.Settings.Agent
import Telemetry.Settings.Collector
import Telemetry.Store.Disk

/-!
# Settings and keys in files

The two kinds of file that a program reads when it starts. One that cannot be read
stops it, and so does one that is not what it should be.
-/

namespace Telemetry

/-- The text of a file that a program cannot do without. -/
def readNeeded (what path : String) (d : Disk) : Except Failure String :=
  match d.readText path with
  | .ok text => .ok text
  | .error e => .error (.config ("read " ++ what ++ " " ++ path ++ " failed: " ++ e.message))

/-- The settings of a collector in a file. -/
def CollectorSettings.load (path : String) (d : Disk) : Except Failure CollectorSettings := do
  parse (← readNeeded "config" path d)

/-- The settings of an agent in a file. -/
def AgentSettings.load (path : String) (d : Disk) : Except Failure AgentSettings := do
  parse (← readNeeded "config" path d)

/-- The public key in a file. -/
def Rsa.Encryptor.load (path : String) (d : Disk) : Except Failure Rsa.Encryptor := do
  ofText (octetsOf (← readNeeded "key" path d))

/-- The private key in a file. -/
def Rsa.Decryptor.load (path : String) (d : Disk) : Except Failure Rsa.Decryptor := do
  ofText (octetsOf (← readNeeded "key" path d))

/-- What a file that may be named is loaded to. -/
def loadIfNamed {α : Type} (load : String → Disk → Except Failure α) (path : Option String)
    (d : Disk) : Except Failure (Option α) :=
  match path with
  | none => .ok none
  | some path => (load path d).map some

end Telemetry
