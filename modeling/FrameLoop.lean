import FrameLoop.Main
import FrameLoop.Proofs.StepOrder
import FrameLoop.Proofs.Drain
import FrameLoop.Proofs.Zipper
import FrameLoop.Proofs.Service
import FrameLoop.Proofs.Interchange
import FrameLoop.Proofs.Shutdown
import FrameLoop.Proofs.Discipline
import FrameLoop.Proofs.Handshake.Completion
import FrameLoop.Proofs.Handshake.Joining
import FrameLoop.Rehearsal.Cast
import FrameLoop.Rehearsal.Journal
import FrameLoop.Rehearsal.Scopes
import FrameLoop.Proofs.History
import FrameLoop.Proofs.Newest
import FrameLoop.Proofs.Writes
import FrameLoop.Proofs.LaggedReports
import FrameLoop.Proofs.PhaseRecords
import FrameLoop.Proofs.Blind
import FrameLoop.Proofs.Counterparts
import FrameLoop.Proofs.TaskLog
import FrameLoop.Proofs.CounterpartRuns
import FrameLoop.Proofs.Sparing
import FrameLoop.Proofs.Observation
import FrameLoop.Proofs.Binary.Around
import FrameLoop.Proofs.Decimal.Shortest
import FrameLoop.Proofs.Binary.Operations
import FrameLoop.Proofs.Json.Scaling
import FrameLoop.Proofs.Decimal.Separation
import FrameLoop.Proofs.Json.Narrowing
import FrameLoop.Proofs.Settings.Accepted
import FrameLoop.Proofs.Settings.Rereading
import FrameLoop.Proofs.Settings.Members
import FrameLoop.Proofs.Settings.SaveLoad
import FrameLoop.Proofs.Headless.WholeRun
import FrameLoop.Proofs.Json.Grammar
import FrameLoop.Proofs.Json.Skipping
import FrameLoop.Proofs.Unwinding
import FrameLoop.Proofs.Json.Settling
import FrameLoop.Proofs.Json.Spelling
import FrameLoop.Proofs.Settings.Values
import FrameLoop.Proofs.Settings.Documents
import FrameLoop.Proofs.Settings.MemberByMember
import FrameLoop.Proofs.WriterCalls
import FrameLoop.Proofs.Tenures
import FrameLoop.Proofs.CutOff
import FrameLoop.Proofs.Json.Utf8
import FrameLoop.Proofs.LineText
import FrameLoop.Proofs.LineReading
import FrameLoop.Proofs.ReportLines
import FrameLoop.Proofs.Handshake.Afterwards
import FrameLoop.Proofs.Pacing
import FrameLoop.Proofs.SessionEnd
import FrameLoop.Proofs.Settings.Meaning
import FrameLoop.Proofs.Handshake.Requests
import FrameLoop.Proofs.Launches
