import ReviewStream.Text.Basic
import ReviewStream.Text.Quoted
import ReviewStream.Json.Parser
import ReviewStream.Json.Basic
import ReviewStream.Calendar.Timestamp
import ReviewStream.Event.Parser
import ReviewStream.Wire
import ReviewStream.Ledger.Basic
import ReviewStream.Work.Service
import ReviewStream.Tracker
import ReviewStream.Gate.Basic
import ReviewStream.Site
import ReviewStream.Switchboard
import ReviewStream.Reporter
import ReviewStream.Diagnostics
import ReviewStream.Watchdog.Basic
import ReviewStream.Settings.Basic
import ReviewStream.Connection.Backoff
import ReviewStream.Connection.Rehearsal
import ReviewStream.Main
import ReviewStream.Work.Queue
import ReviewStream.Work.Pool
import ReviewStream.Proofs.Ledger.Entries
import ReviewStream.Proofs.Ledger.Lookup
import ReviewStream.Proofs.Ledger.Reachable
import ReviewStream.Proofs.Tracker.Step
import ReviewStream.Proofs.Ledger.ArrivalOrder
import ReviewStream.Proofs.Tracker.Acceptance
import ReviewStream.Proofs.Tracker.Completion
import ReviewStream.Proofs.Ledger.KeyOrder
import ReviewStream.Proofs.Tracker.Conservation
import ReviewStream.Proofs.Ledger.Building
import ReviewStream.Proofs.Gate.Directory
import ReviewStream.Proofs.Gate.Verdict
import ReviewStream.Proofs.Gate.OverLedger
import ReviewStream.Proofs.Gate.Progress
import ReviewStream.Proofs.Gate.Scans
import ReviewStream.Proofs.Connection.Step
import ReviewStream.Proofs.Connection.Listeners
import ReviewStream.Proofs.Connection.Sessions
import ReviewStream.Proofs.Text.Basic
import ReviewStream.Proofs.Connection.Lines
import ReviewStream.Proofs.Work.Order
import ReviewStream.Proofs.Work.Handing
import ReviewStream.Proofs.Text.Numeral
import ReviewStream.Proofs.Json.Written
import ReviewStream.Proofs.Json.Printed
import ReviewStream.Proofs.Event.Forms
import ReviewStream.Proofs.Event.RoundTrip
import ReviewStream.Proofs.Ledger.Residents
import ReviewStream.Proofs.Ledger.WellFormed
import ReviewStream.Proofs.Ledger.Commutation
import ReviewStream.Proofs.Calendar.Date
import ReviewStream.Proofs.Calendar.Timestamp
import ReviewStream.Proofs.Json.Record
import ReviewStream.Proofs.Wire.RoundTrip
import ReviewStream.Proofs.Json.Moves
import ReviewStream.Proofs.Json.Embedding
import ReviewStream.Proofs.Event.Sources
import ReviewStream.Proofs.Event.Classified
import ReviewStream.Proofs.Watchdog.Window
import ReviewStream.Proofs.Watchdog.Requests
import ReviewStream.Proofs.Work.Accounts
import ReviewStream.Proofs.Gate.Configured
import ReviewStream.Proofs.Settings.Dependencies
import ReviewStream.Proofs.Fanout
import ReviewStream.Proofs.Gate.Lifting
import ReviewStream.Proofs.Ledger.Seeding
import ReviewStream.Proofs.Ledger.Restart
import ReviewStream.Proofs.Tracker.Verdicts
import ReviewStream.Proofs.Tracker.Removal
import ReviewStream.Proofs.Work.Bound
import ReviewStream.Proofs.Connection.Pacing
import ReviewStream.Proofs.Tracker.Frame
import ReviewStream.Proofs.Switchboard
import ReviewStream.Proofs.Watchdog.WindowText
import ReviewStream.Proofs.Settings.Fields
import ReviewStream.Proofs.Diagnostics
