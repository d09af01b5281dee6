import Telemetry.Main
import Telemetry.Station
import Telemetry.Proofs.Exchange
import Telemetry.Proofs.Retry
import Telemetry.Proofs.Accounting
import Telemetry.Proofs.JsonNumber
import Telemetry.Proofs.RealText
import Telemetry.Proofs.RecordText
import Telemetry.Proofs.Snapshot
import Telemetry.Proofs.Readability
import Telemetry.Proofs.Paths
import Telemetry.Proofs.Calls
import Telemetry.Proofs.Restart
import Telemetry.Proofs.Ranks
import Telemetry.Proofs.Rounding
import Telemetry.Proofs.Shortest
import Telemetry.Proofs.Cells
import Telemetry.Proofs.Rows
import Telemetry.Proofs.AllOrNothing
import Telemetry.Proofs.Agreement
import Telemetry.Proofs.Signing
import Telemetry.Proofs.Padding
import Telemetry.Proofs.KeyPairs
import Telemetry.Proofs.Blocks
import Telemetry.Proofs.Envelopes
import Telemetry.Proofs.Requests
import Telemetry.Proofs.Authentication
import Telemetry.Proofs.Batches
import Telemetry.Proofs.Landing
import Telemetry.Proofs.Durability
import Telemetry.Proofs.Listing
import Telemetry.Proofs.FiniteMap
import Telemetry.Proofs.Queries
import Telemetry.Proofs.SignedAnswers
import Telemetry.Proofs.Stopping
import Telemetry.Proofs.Histories
import Telemetry.Proofs.JsonNumerals
import Telemetry.Proofs.JsonGrammar
import Telemetry.Proofs.JsonTrees
import Telemetry.Proofs.RecordGrammar
import Telemetry.Proofs.Nearest
import Telemetry.Proofs.RoundingSteps
import Telemetry.Proofs.WorkingOut
import Telemetry.Proofs.Drift
import Telemetry.Proofs.Schedule
import Telemetry.Proofs.Framing
import Telemetry.Proofs.PuttingBack
import Telemetry.Proofs.Restoring
import Telemetry.Proofs.Upserts
import Telemetry.Proofs.PlainNumbers
import Telemetry.Proofs.PlainText
import Telemetry.Proofs.Timetable
import Telemetry.Proofs.Destination
