import RecordFlow.Calendar.Instant
import RecordFlow.Condition.Path
import RecordFlow.Http.Fault
import RecordFlow.Run.Budget
import RecordFlow.Schema.Issue
import RecordFlow.Store.Cell
import RecordFlow.Store.TableName
import RecordFlow.Value.Shape

/-! # Failures

Why an operation stops, by cause, and the wording of each cause.
-/
namespace RecordFlow

inductive EnrollmentRefusal where
  | disabled (cadence : Uuid)
  | noSteps (cadence : Uuid)
  | alreadyEnrolled (record cadence : Uuid)
  | cannotPause (status : String)
  | cannotResume (status : String)
  deriving DecidableEq, Inhabited

def EnrollmentRefusal.message : EnrollmentRefusal → String
  | .disabled cadence => s!"cadence {cadence.text} is disabled"
  | .noSteps cadence => s!"cadence {cadence.text} has no steps"
  | .alreadyEnrolled record cadence =>
    s!"record {record.text} is already enrolled in cadence {cadence.text}"
  | .cannotPause status => s!"cannot pause enrollment in status {status}"
  | .cannotResume status => s!"cannot resume enrollment in status {status}"

inductive Misconfiguration where
  | assignTarget
  | draftNotExplicit
  | noCadences
  | noScheduler
  | noRecipients
  | noRecipient (kind : String)
  | delayField (field : Option String)
  deriving DecidableEq, Inhabited

def Misconfiguration.message : Misconfiguration → String
  | .assignTarget => "assign_owner requires rule_id or user_id"
  | .draftNotExplicit => "create_enrollment_draft requires explicit=true"
  | .noCadences => "cadence engine is not configured"
  | .noScheduler => "scheduler is not configured"
  | .noRecipients => "notify resolved no recipients"
  | .noRecipient kind => kind ++ " has no recipient"
  | .delayField field => "delay field " ++ field.getD "None" ++ " is not a date"

inductive JobFault where
  | noHandler (kind : String)
  | ended (what status : String)
  | reported (error : String)
  deriving DecidableEq, Inhabited

def JobFault.message : JobFault → String
  | .noHandler kind => "no handler registered for job type " ++ kind
  | .ended what status => s!"{what} ended {status}"
  | .reported error => error

inductive Failure where
  | notFound (table : TableName) (id : Uuid)
  | stale (record : Uuid) (version : Int)
  | enrollment (cause : EnrollmentRefusal)
  | misconfigured (cause : Misconfiguration)
  | job (cause : JobFault)
  | limit (reached : LimitReached)
  | processDisabled (process : Uuid)
  | dispatch (error : String)
  | notification (recipient error : String)
  | numeral (cause : BadNumeral)
  | identifier (cause : Uuid.Unreadable)
  | missingKey (key : String)
  | noStep
  | time (cause : Calendar.OutOfRange)
  | notConvertible (kind : String)
  | shape (cause : ShapeFault)
  | infinite
  | invalid (issues : List Schema.Issue)
  | constraint
  | tooLarge
  | request (cause : Http.RequestFault)
  | connection (text : String)
  | crash (text : String)
  deriving DecidableEq, Inhabited

def CellFault.failure : CellFault → Failure
  | .unfit => .constraint
  | .tooLarge => .tooLarge

def Failure.message : Failure → String
  | .notFound table id => s!"{table.name} not found: {id.text}"
  | .stale record version => s!"record {record.text} changed since version {version}"
  | .enrollment cause => cause.message
  | .misconfigured cause => cause.message
  | .job cause => cause.message
  | .limit _ => LimitReached.code
  | .processDisabled process => s!"approval process {process.text} is disabled"
  | .dispatch error => error
  | .notification recipient error => s!"notification to {recipient} failed: {error}"
  | .numeral cause => cause.message
  | .identifier cause => cause.message
  | .missingKey key => Text.quoted key
  | .noStep => "list index out of range"
  | .time cause => cause.message
  | .notConvertible kind =>
    "int() argument must be a string, a bytes-like object or a real number, not '" ++ kind ++ "'"
  | .shape cause => cause.message
  | .infinite => Calendar.OutOfRange.infinity.message
  | .invalid issues => s!"{issues.length} issues"
  | .constraint => "constraint violated"
  | .tooLarge => "Python int too large to convert to SQLite INTEGER"
  | .request cause => cause.message
  | .connection text => text
  | .crash text => text

end RecordFlow
