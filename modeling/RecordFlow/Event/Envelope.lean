import RecordFlow.Log.Entry

/-! # Event envelopes

An event is published in an envelope, an object that also says what it correlates with and in which
run it was made.
-/
namespace RecordFlow.Event

/-- What is said about an event itself; anything but an object counts as nothing. -/
def metaOf (envelope : Fields) : Fields :=
  match envelope.get? "meta" with
  | some (.obj fields) => fields
  | _ => []

def withRun (run : Option String) (about : Fields) : Fields :=
  match run with
  | some run =>
    if about.has "automation_run_id" then about else about.put "automation_run_id" (.str run)
  | none => about

def complete (ambient : Ambient) (envelope : Fields) : Fields :=
  let envelope :=
    if (envelope.getD "correlation_id").isNull then
      envelope.put "correlation_id" (.ofOption ambient.correlation)
    else envelope
  let about := withRun ambient.run (metaOf envelope)
  if about.isEmpty then envelope else envelope.put "meta" (.obj about)

end RecordFlow.Event
