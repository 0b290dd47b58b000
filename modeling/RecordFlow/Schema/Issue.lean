/-! # Issues of a request

What is wrong with a piece of data, and where. The place is a path of field names and list
positions; the faults are those of single values, and the rules are those of whole definitions.
-/
namespace RecordFlow.Schema

inductive Step where
  | field (name : String)
  | item (position : Nat)
  deriving DecidableEq, Inhabited

inductive Rule where
  | conditionNotObject
  | notAList (key : String)
  | unsupportedLogic (name : String)
  | assignTarget
  | emailContent
  | smsContent
  | delayField
  | watchFields
  | interval
  | fixedOwner
  | candidates (strategy : String)
  | territoryCandidates
  | emailStep
  | approvalProcess
  | stageKeys
  | unknownStage (source target : String)
  | approverValue (kind : String)
  deriving DecidableEq, Inhabited

def Rule.message : Rule → String
  | .conditionNotObject => "condition must be an object"
  | .notAList key => key ++ " must be a list"
  | .unsupportedLogic name => "unsupported logic: " ++ name
  | .assignTarget => "assign_owner requires rule_id or user_id"
  | .emailContent => "send_email requires template_id, subject or body"
  | .smsContent => "send_sms requires template_id or body"
  | .delayField => "relative delay requires delay_field"
  | .watchFields => "trigger_config.watch_fields must be a list of field paths"
  | .interval => "trigger_config.interval_minutes must be a positive integer"
  | .fixedOwner => "fixed strategy requires owner_id"
  | .candidates strategy => strategy ++ " strategy requires candidates"
  | .territoryCandidates => "territory strategy requires candidates or fallback_owner_id"
  | .emailStep => "email steps require template_id, subject or body"
  | .approvalProcess => "requires_approval transitions need approval_process_id"
  | .stageKeys => "stage keys must be unique"
  | .unknownStage source target => s!"transition from {source} targets unknown stage {target}"
  | .approverValue kind => kind ++ " approval steps require a value"

inductive Fault where
  | missing
  | model
  | attributes
  | tagNotFound
  | tagInvalid
  | string
  | stringTooShort
  | stringPattern
  | literal
  | int
  | intParsing
  | intSize
  | intFromFloat
  | finite
  | tooSmall
  | bool
  | boolParsing
  | uuid
  | uuidParsing
  | date
  | dateInexact
  | dateParsing
  | dateYear
  | list
  | dict
  | tooShort
  | rule (r : Rule)
  deriving DecidableEq, Inhabited

def Fault.code : Fault → String
  | .missing => "missing"
  | .model => "model_type"
  | .attributes => "model_attributes_type"
  | .tagNotFound => "union_tag_not_found"
  | .tagInvalid => "union_tag_invalid"
  | .string => "string_type"
  | .stringTooShort => "string_too_short"
  | .stringPattern => "string_pattern_mismatch"
  | .literal => "literal_error"
  | .int => "int_type"
  | .intParsing => "int_parsing"
  | .intSize => "int_parsing_size"
  | .intFromFloat => "int_from_float"
  | .finite => "finite_number"
  | .tooSmall => "greater_than_equal"
  | .bool => "bool_type"
  | .boolParsing => "bool_parsing"
  | .uuid => "uuid_type"
  | .uuidParsing => "uuid_parsing"
  | .date => "date_type"
  | .dateInexact => "date_from_datetime_inexact"
  | .dateParsing => "date_from_datetime_parsing"
  | .dateYear => "date_parsing"
  | .list => "list_type"
  | .dict => "dict_type"
  | .tooShort => "too_short"
  | .rule _ => "value_error"

structure Issue where
  place : List Step
  fault : Fault
  deriving DecidableEq, Inhabited

def Issue.under (step : Step) (issue : Issue) : Issue := ⟨step :: issue.place, issue.fault⟩

/-! ## Named choices

A closed choice is written by one of a few names, which a table lists.
-/

def nameIn {α : Type} [DecidableEq α] (table : List (String × α)) (a : α) : String :=
  match table.find? (·.2 = a) with
  | some entry => entry.1
  | none => ""

end RecordFlow.Schema
