import RecordFlow.Value.Form

/-! # Messages

A request for a message, and the message as it waits for delivery.
-/
namespace RecordFlow

structure MessageRequest where
  recipient : Value
  subject : Value
  body : Value
  template : Value
  record : Option Uuid
  metadata : Fields
  deriving Inhabited

structure Message where
  id : Uuid
  channel : String
  recipient : String
  subject : Option String
  body : Option String
  record : Option Uuid
  payload : Value
  status : String
  deriving Inhabited

def Message.queued : String := "queued"

def Message.encode (m : Message) : Value := .present [
  ("id", .uuid m.id),
  ("channel", .str m.channel),
  ("recipient", .str m.recipient),
  ("subject", .ofOption m.subject),
  ("body", .ofOption m.body),
  ("record_id", .opt .uuid m.record),
  ("payload_json", m.payload),
  ("status", .str m.status)]

inductive Dispatch where
  | sent (message : Uuid)
  | refused (error : String)
  deriving DecidableEq, Inhabited

namespace Dispatch

def encode : Dispatch → Value
  | .sent message => .obj [
      ("success", .bool true), ("message_id", .uuid message), ("error", .null)]
  | .refused error => .obj [
      ("success", .bool false), ("message_id", .null), ("error", .str error)]

end Dispatch

end RecordFlow
