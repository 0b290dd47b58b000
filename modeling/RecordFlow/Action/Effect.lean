import RecordFlow.Run.Context
import RecordFlow.Run.Result

/-! # Effects of actions

What an action brought about: what it reports, what it left behind, and, if it did not succeed
although nothing broke off, why.
-/
namespace RecordFlow

structure Effect where
  output : Fields
  error : Option String
  sideEffect : Option String
  endsRun : Bool
  delayedJob : Option Uuid
  deriving Inhabited

namespace Effect

def report (output : Fields) : Effect := ⟨output, none, none, false, none⟩

def leaving (output : Fields) (sideEffect : String) : Effect :=
  ⟨output, none, some sideEffect, false, none⟩

/-- What a trial run reports instead of acting. -/
def planned (output : Fields) : Effect :=
  .report (Fields.put "dry_run" (.bool true) output)

def unchanged (output : Fields) : Effect :=
  .report (Fields.put "unchanged" (.bool true) output)

def result (e : Effect) (a : Action) : ActionResult where
  actionId := a.id
  kind := a.kind
  status := if e.error.isSome then .failed else .success
  output := e.output
  error := e.error
  sideEffect := e.sideEffect
  endsRun := e.endsRun
  delayedJob := e.delayedJob

end Effect

namespace ActionResult

def passedOver (a : Action) : ActionResult :=
  ⟨a.id, a.kind, .skipped, [("reason", .str "condition_not_met")], none, none, false, none⟩

def brokenOff (a : Action) (cause : Failure) : ActionResult :=
  ⟨a.id, a.kind, .failed, [], some cause.message, none, false, none⟩

end ActionResult

end RecordFlow
