import RecordFlow.Record.Basic

/-! # Records as values -/
namespace RecordFlow

def Record.encode (r : Record) : Value := .obj [
  ("id", .str r.id.text),
  ("module", r.module),
  ("owner_id", r.ownerId),
  ("stage", r.stage),
  ("fields", .obj r.fields),
  ("version", .int r.version),
  ("created_by", r.createdBy),
  ("title", r.title),
  ("is_open", r.isOpen)]

end RecordFlow
