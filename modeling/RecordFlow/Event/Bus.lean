/-! # Event bus

Handlers subscribe to an event by its name, or to every event. A handler that fails is passed over
and not counted; the others still get the event.
-/
namespace RecordFlow.Event
variable {η : Type} [DecidableEq η]

structure Bus (η : Type) where
  handlers : String → List η

/-- The name under which every event is seen. -/
def everyEvent : String := "*"

namespace Bus

def empty : Bus η := ⟨fun _ => []⟩

def set (bus : Bus η) (name : String) (handlers : List η) : Bus η :=
  ⟨fun other => if other = name then handlers else bus.handlers other⟩

/-- A handler is listed once under a name. -/
def subscribe (bus : Bus η) (name : String) (handler : η) : Bus η :=
  if handler ∈ bus.handlers name then bus
  else bus.set name (bus.handlers name ++ [handler])

def unsubscribe (bus : Bus η) (name : String) (handler : η) : Bus η :=
  bus.set name ((bus.handlers name).erase handler)

def recipients (bus : Bus η) (name : String) : List η :=
  bus.handlers name ++ bus.handlers everyEvent

/-- The number of handlers that take an event without failing. -/
def delivered (bus : Bus η) (fails : η → Bool) (name : String) : Nat :=
  ((bus.recipients name).filter (!fails ·)).length

end Bus

end RecordFlow.Event
