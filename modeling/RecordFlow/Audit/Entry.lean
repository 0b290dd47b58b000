import RecordFlow.Value.Form

/-! # Audit entries

Who did what to which entity, with its state before and after.
-/
namespace RecordFlow

structure AuditEntry where
  actor : Value
  entityType : String
  entityId : String
  action : String
  before : Value
  after : Value
  correlation : Option String
  deriving Inhabited

namespace AuditEntry

def encode (e : AuditEntry) : Value := .obj [
  ("actor_user_id", e.actor),
  ("entity_type", .str e.entityType),
  ("entity_id", .str e.entityId),
  ("action", .str e.action),
  ("before", e.before),
  ("after", e.after),
  ("correlation_id", .ofOption e.correlation)]

def concerns (e : AuditEntry) (entityType : String) (entityId : Option String) : Bool :=
  e.entityType = entityType && entityId.all (· = e.entityId)

/-- The actor of what nobody did in person. -/
def automation : String := "automation"

/-- An actor that does not count as given is nobody. -/
def actorName (actor : Value) : Value := actor.orElse (.str automation)

end AuditEntry

end RecordFlow
