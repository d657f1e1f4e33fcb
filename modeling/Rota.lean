import Rota.Expectation
import Rota.Site
import Rota.Proofs.Cadence
import Rota.Proofs.Queues
import Rota.Proofs.Run
import Rota.Proofs.Board
import Rota.Proofs.Annals
import Rota.Proofs.Execution
import Rota.Proofs.Ledger
import Rota.Proofs.Sound
import Rota.Proofs.Steps
import Rota.Proofs.Desk
import Rota.Proofs.Precedence
import Rota.Proofs.Agenda
import Rota.Proofs.Due
import Rota.Proofs.Custody
import Rota.Proofs.Slots
import Rota.Proofs.Advance
import Rota.Proofs.Finality
import Rota.Proofs.Standing
import Rota.Proofs.Dispatching
import Rota.Proofs.Occurrences
import Rota.Proofs.Retries
import Rota.Proofs.Sweeps
import Rota.Proofs.Owners
import Rota.Proofs.Cancellation
import Rota.Proofs.Supplies
import Rota.Proofs.Openings
import Rota.Proofs.Instances
import Rota.Proofs.Census
import Rota.Proofs.Conservation
import Rota.Proofs.Seats
import Rota.Proofs.Site
import Rota.Proofs.Submission
import Rota.Proofs.Wakefulness
import Rota.Proofs.Routing
import Rota.Proofs.Disposal
import Rota.Proofs.Renaming
import Rota.Proofs.Isolation
import Rota.Proofs.Levels
import Rota.Proofs.Docket
import Rota.Proofs.Choice
import Rota.Proofs.Calendar
import Rota.Proofs.Haste
import Rota.Proofs.Ascent
import Rota.Proofs.Dates
import Rota.Proofs.Planning
import Rota.Proofs.Jitter
import Rota.Proofs.Waits
import Rota.Proofs.Calls
import Rota.Proofs.AnyState
import Rota.Proofs.Formula
import Rota.Proofs.Startup
import Rota.Proofs.Trial
import Rota.Proofs.Performances
import Rota.Proofs.Aftermath
import Rota.Proofs.Verdicts
