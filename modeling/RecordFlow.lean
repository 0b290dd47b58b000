import RecordFlow.Event.Bus
import RecordFlow.Http.Service
import RecordFlow.Log.Message
import RecordFlow.Proofs.Session.Command
import RecordFlow.Store.Edit
import RecordFlow.Proofs.Approval.Trail
import RecordFlow.Proofs.Blueprint.History
import RecordFlow.Proofs.Blueprint.Agreement
import RecordFlow.Proofs.Record.Context
import RecordFlow.Proofs.Blueprint.Faithful
import RecordFlow.Proofs.Run.Upheld
import RecordFlow.Proofs.Cadence.Timetable
import RecordFlow.Proofs.Cadence.Paced
import RecordFlow.Proofs.Cadence.Serving
import RecordFlow.Proofs.Cadence.Titles
import RecordFlow.Proofs.Session.Timekeeping
import RecordFlow.Proofs.Session.Closing
import RecordFlow.Proofs.Job.Pool
import RecordFlow.Proofs.Job.Backoff
import RecordFlow.Proofs.Run.Resumed
import RecordFlow.Proofs.Run.Trial
import RecordFlow.Proofs.Run.Undone
import RecordFlow.Proofs.Approval.Lockstep
import RecordFlow.Proofs.Approval.Solo
import RecordFlow.Proofs.Approval.Approvers
import RecordFlow.Proofs.Record.Writers
import RecordFlow.Proofs.Assignment.Turns
import RecordFlow.Proofs.Assignment.Balance
import RecordFlow.Proofs.Workflow.Watched
import RecordFlow.Proofs.Session.Scheduling
import RecordFlow.Proofs.Job.Sweeping
import RecordFlow.Proofs.Event.Delivery
import RecordFlow.Proofs.Condition.Grammar
import RecordFlow.Proofs.Schema.Drafts
import RecordFlow.Proofs.Catalog.Faithful
import RecordFlow.Proofs.Run.Accounting
import RecordFlow.Proofs.Run.Balanced
import RecordFlow.Proofs.Session.Accounting
import RecordFlow.Proofs.Workflow.Cooling
import RecordFlow.Proofs.Session.Cooling
import RecordFlow.Proofs.Workflow.Retried
import RecordFlow.Proofs.Session.Keyed
import RecordFlow.Proofs.Condition.Texts
import RecordFlow.Proofs.Condition.Referenced
import RecordFlow.Proofs.Condition.Readable
import RecordFlow.Proofs.Run.Told
import RecordFlow.Proofs.Session.Repeated
import RecordFlow.Proofs.Workflow.Batch
import RecordFlow.Proofs.Http.Labels
