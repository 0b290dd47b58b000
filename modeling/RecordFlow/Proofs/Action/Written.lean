import RecordFlow.Action.Decode
import RecordFlow.Action.Encode
import RecordFlow.Proofs.Condition.Written

/-! # Actions that are read again

The actions that a run has left are handed to a job in written form, which fills in every default.
Whatever was read as an action is read as the same action from its written form: with its
identifier, its condition and all of its settings.
-/
namespace RecordFlow
open Schema

namespace Schema.Rereads

theorem text : Rereads (Schema.nullable Schema.string) .ofOption :=
  fun _ s _ => nullable_ofOption s

theorem texts : Rereads (Schema.listOf Schema.string) .strings := string.listOf

theorem nullableUuid : Rereads (Schema.nullable Schema.uuid) (.opt .uuid) :=
  uuid.nullable fun _ => Value.noConfusion

theorem nullableInt (least : Int) : Rereads (Schema.nullable (Schema.intFrom least)) (.opt .int) :=
  (intFrom least).nullable fun _ => Value.noConfusion

theorem nullableDate : Rereads (Schema.nullable Schema.date) (.opt .date) :=
  date.nullable fun _ => Value.noConfusion

theorem nullableOneOf {α : Type} {table : List (String × α)} {name : α → String}
    (h : ∀ a, table.lookup (name a) = some a) :
    Rereads (Schema.nullable (Schema.oneOf table)) (.opt (.str ∘ name)) :=
  (oneOf h).nullable fun _ => Value.noConfusion

end Schema.Rereads

theorem Priority.lookup_name (p : Priority) : table.lookup p.name = some p := by
  cases p <;> rfl

theorem ActivityKind.lookup_name (k : ActivityKind) : table.lookup k.name = some k := by
  cases k <;> rfl

theorem CallDirection.lookup_name (d : CallDirection) : table.lookup d.name = some d := by
  cases d <;> rfl

theorem MeetingKind.lookup_name (k : MeetingKind) : table.lookup k.name = some k := by
  cases k <;> rfl

theorem HttpMethod.lookup_name (m : HttpMethod) : table.lookup m.name = some m := by
  cases m <;> rfl

theorem Strategy.lookup_name (s : Strategy) : table.lookup s.name = some s := by
  cases s <;> rfl

namespace Operation

def delayName (isRelative : Bool) : String := if isRelative then "relative" else "fixed"

theorem lookup_delayName (isRelative : Bool) :
    delayTypes.lookup (delayName isRelative) = some isRelative := by
  cases isRelative <;> rfl

def heading (id : String) (condition : Value) (kind : String) : Fields :=
  [("id", .str id), ("condition", condition), ("type", .str kind)]

/-- What a decoder reads under a type is of that type, and is read again from its written form. -/
def Restores (kind : String) (decode : Fields → Checked Operation) : Prop :=
  ∀ f op, decode f = .valid op →
    op.kind = kind ∧ ∀ id condition, decode (heading id condition kind ++ op.encode) = .valid op

theorem restores_updateFields : Restores "update_fields" decodeUpdateFields := by
  intro f op h
  obtain ⟨fields, hfields, rfl⟩ := Checked.map_eq_valid.mp h
  refine ⟨rfl, fun id condition => ?_⟩
  rw [decodeUpdateFields, Rereads.nonEmptyDict.required hfields rfl]
  rfl

theorem restores_assignOwner : Restores "assign_owner" decodeAssignOwner := by
  intro f op h
  simp only [decodeAssignOwner, Checked.seq_eq_valid, Checked.map_eq_valid] at h
  obtain ⟨_, ⟨_, ⟨rule, hrule, rfl⟩, strategy, hstrategy, rfl⟩, user, huser, rfl⟩ := h
  refine ⟨rfl, fun id condition => ?_⟩
  unfold decodeAssignOwner
  dsimp only
  rw [Rereads.nullableUuid.optional hrule rfl rfl,
    (Rereads.nullableOneOf Strategy.lookup_name).optional hstrategy rfl rfl,
    Rereads.text.optional huser rfl rfl]
  rfl

theorem restores_createTask : Restores "create_task" decodeCreateTask := by
  intro f op h
  simp only [decodeCreateTask, Checked.seq_eq_valid, Checked.map_eq_valid] at h
  obtain ⟨_, ⟨_, ⟨_, ⟨_, ⟨_, ⟨title, htitle, rfl⟩, description, hdescription, rfl⟩, days, hdays, rfl⟩,
    priority, hpriority, rfl⟩, assignedTo, hassignedTo, rfl⟩, rfl⟩ := h
  refine ⟨rfl, fun id condition => ?_⟩
  unfold decodeCreateTask
  rw [Rereads.nonEmpty.required htitle rfl, Rereads.text.optional hdescription rfl rfl,
    (Rereads.intFrom 0).optional hdays rfl rfl,
    (Rereads.oneOf Priority.lookup_name).optional hpriority rfl rfl,
    Rereads.string.optional hassignedTo rfl rfl]
  rfl

theorem restores_createActivity : Restores "create_activity" decodeCreateActivity := by
  intro f op h
  simp only [decodeCreateActivity, Checked.seq_eq_valid, Checked.map_eq_valid] at h
  obtain ⟨_, ⟨_, ⟨_, ⟨_, ⟨_, ⟨_, ⟨_, ⟨_, ⟨_, ⟨_, ⟨_, ⟨kind, hkind, rfl⟩, title, htitle, rfl⟩,
    description, hdescription, rfl⟩, days, hdays, rfl⟩, hours, hhours, rfl⟩,
    priority, hpriority, rfl⟩, assignedTo, hassignedTo, rfl⟩, call, hcall, rfl⟩,
    meeting, hmeeting, rfl⟩, location, hlocation, rfl⟩, attendees, hattendees, rfl⟩, rfl⟩ := h
  refine ⟨rfl, fun id condition => ?_⟩
  unfold decodeCreateActivity
  rw [(Rereads.oneOf ActivityKind.lookup_name).required hkind rfl,
    Rereads.nonEmpty.required htitle rfl, Rereads.text.optional hdescription rfl rfl,
    (Rereads.nullableInt 0).optional hdays rfl rfl, (Rereads.nullableInt 0).optional hhours rfl rfl,
    (Rereads.oneOf Priority.lookup_name).optional hpriority rfl rfl,
    Rereads.string.optional hassignedTo rfl rfl,
    (Rereads.nullableOneOf CallDirection.lookup_name).optional hcall rfl rfl,
    (Rereads.nullableOneOf MeetingKind.lookup_name).optional hmeeting rfl rfl,
    Rereads.text.optional hlocation rfl rfl, Rereads.texts.optional hattendees rfl rfl]
  rfl

theorem restores_addNote : Restores "add_note" decodeAddNote := by
  intro f op h
  simp only [decodeAddNote, Checked.seq_eq_valid, Checked.map_eq_valid] at h
  obtain ⟨_, ⟨body, hbody, rfl⟩, isPinned, hpinned, rfl⟩ := h
  refine ⟨rfl, fun id condition => ?_⟩
  unfold decodeAddNote
  rw [Rereads.nonEmpty.required hbody rfl, Rereads.bool.optional hpinned rfl rfl]
  rfl

theorem restores_notify : Restores "notify" decodeNotify := by
  intro f op h
  simp only [decodeNotify, Checked.seq_eq_valid, Checked.map_eq_valid] at h
  obtain ⟨_, ⟨_, ⟨_, ⟨_, ⟨recipients, hrecipients, rfl⟩, title, htitle, rfl⟩, body, hbody, rfl⟩,
    href, hhref, rfl⟩, rfl⟩ := h
  refine ⟨rfl, fun id condition => ?_⟩
  unfold decodeNotify
  rw [Rereads.string.nonEmptyListOf.required hrecipients rfl, Rereads.nonEmpty.required htitle rfl,
    Rereads.text.optional hbody rfl rfl, Rereads.text.optional hhref rfl rfl]
  rfl

theorem restores_moveStage : Restores "move_stage" decodeMoveStage := by
  intro f op h
  obtain ⟨stage, hstage, rfl⟩ := Checked.map_eq_valid.mp h
  refine ⟨rfl, fun id condition => ?_⟩
  rw [decodeMoveStage, Rereads.nonEmpty.required hstage rfl]
  rfl

theorem restores_startCadence : Restores "start_cadence" decodeStartCadence := by
  intro f op h
  obtain ⟨cadence, hcadence, rfl⟩ := Checked.map_eq_valid.mp h
  refine ⟨rfl, fun id condition => ?_⟩
  rw [decodeStartCadence, Rereads.uuid.required hcadence rfl]
  rfl

theorem restores_stopCadence : Restores "stop_cadence" decodeStopCadence := by
  intro f op h
  obtain ⟨cadence, hcadence, rfl⟩ := Checked.map_eq_valid.mp h
  refine ⟨rfl, fun id condition => ?_⟩
  rw [decodeStopCadence, Rereads.nullableUuid.optional hcadence rfl rfl]
  rfl

theorem restores_draftEnrollment : Restores "create_enrollment_draft" decodeDraftEnrollment := by
  intro f op h
  simp only [decodeDraftEnrollment, Checked.seq_eq_valid, Checked.map_eq_valid] at h
  obtain ⟨_, ⟨_, ⟨_, ⟨_, ⟨isExplicit, hexplicit, rfl⟩, plan, hplan, rfl⟩, effective, heffective, rfl⟩,
    additional, hadditional, rfl⟩, rfl⟩ := h
  refine ⟨rfl, fun id condition => ?_⟩
  unfold decodeDraftEnrollment
  rw [Rereads.bool.optional hexplicit rfl rfl, Rereads.text.optional hplan rfl rfl,
    Rereads.nullableDate.optional heffective rfl rfl, Rereads.dict.optional hadditional rfl rfl]
  rfl

theorem restores_sendEmail : Restores "send_email" decodeSendEmail := by
  intro f op h
  simp only [decodeSendEmail, Checked.seq_eq_valid, Checked.map_eq_valid] at h
  obtain ⟨_, ⟨_, ⟨_, ⟨_, ⟨template, htemplate, rfl⟩, subject, hsubject, rfl⟩, body, hbody, rfl⟩,
    recipient, hrecipient, rfl⟩, rfl⟩ := h
  refine ⟨rfl, fun id condition => ?_⟩
  unfold decodeSendEmail
  rw [Rereads.text.optional htemplate rfl rfl, Rereads.text.optional hsubject rfl rfl,
    Rereads.text.optional hbody rfl rfl, Rereads.text.optional hrecipient rfl rfl]
  rfl

theorem restores_sendSms : Restores "send_sms" decodeSendSms := by
  intro f op h
  simp only [decodeSendSms, Checked.seq_eq_valid, Checked.map_eq_valid] at h
  obtain ⟨_, ⟨_, ⟨_, ⟨template, htemplate, rfl⟩, body, hbody, rfl⟩, recipient, hrecipient, rfl⟩,
    rfl⟩ := h
  refine ⟨rfl, fun id condition => ?_⟩
  unfold decodeSendSms
  rw [Rereads.text.optional htemplate rfl rfl, Rereads.text.optional hbody rfl rfl,
    Rereads.text.optional hrecipient rfl rfl]
  rfl

theorem restores_delayWait : Restores "delay_wait" decodeDelayWait := by
  intro f op h
  simp only [decodeDelayWait, Checked.seq_eq_valid, Checked.map_eq_valid] at h
  obtain ⟨_, ⟨_, ⟨_, ⟨_, ⟨_, ⟨_, ⟨seconds, hseconds, rfl⟩, minutes, hminutes, rfl⟩, hours, hhours, rfl⟩,
    days, hdays, rfl⟩, isRelative, hrelative, rfl⟩, field, hfield, rfl⟩, rfl⟩ := h
  refine ⟨rfl, fun id condition => ?_⟩
  unfold decodeDelayWait
  rw [(Rereads.intFrom 0).optional hseconds rfl rfl, (Rereads.intFrom 0).optional hminutes rfl rfl,
    (Rereads.intFrom 0).optional hhours rfl rfl, (Rereads.intFrom 0).optional hdays rfl rfl,
    (Rereads.oneOf lookup_delayName).optional hrelative rfl rfl,
    Rereads.text.optional hfield rfl rfl]
  rfl

theorem restores_postWebhook : Restores "post_webhook" decodePostWebhook := by
  intro f op h
  simp only [decodePostWebhook, Checked.seq_eq_valid, Checked.map_eq_valid] at h
  obtain ⟨_, ⟨_, ⟨_, ⟨_, ⟨_, ⟨_, ⟨url, hurl, rfl⟩, method, hmethod, rfl⟩, headers, hheaders, rfl⟩,
    includeRecord, hinclude, rfl⟩, template, htemplate, rfl⟩, retries, hretries, rfl⟩, rfl⟩ := h
  refine ⟨rfl, fun id condition => ?_⟩
  unfold decodePostWebhook
  rw [Rereads.link.required hurl rfl, (Rereads.oneOf HttpMethod.lookup_name).optional hmethod rfl rfl,
    Rereads.string.dictOf.optional hheaders rfl rfl, Rereads.bool.optional hinclude rfl rfl,
    Rereads.text.optional htemplate rfl rfl, Rereads.bool.optional hretries rfl rfl]
  rfl

/-- Every type of action is read again from its written form. -/
theorem restores_of_lookup {kind : String} {decode : Fields → Checked Operation}
    (h : decoders.lookup kind = some decode) : Restores kind decode := by
  have member : (kind, decode) ∈ decoders := by
    obtain ⟨before, after, hsplit, _⟩ := List.lookup_eq_some_iff.mp h
    rw [hsplit]
    exact List.mem_append_right before List.mem_cons_self
  have every : ∀ entry ∈ decoders, Restores entry.1 entry.2 := by
    simp only [decoders, List.forall_mem_cons, List.not_mem_nil, false_imp_iff, implies_true,
      and_true]
    exact ⟨restores_updateFields, restores_assignOwner, restores_createTask,
      restores_createActivity, restores_addNote, restores_notify, restores_moveStage,
      restores_startCadence, restores_stopCadence, restores_draftEnrollment, restores_sendEmail,
      restores_sendSms, restores_delayWait, restores_postWebhook⟩
  exact every (kind, decode) member

end Operation

namespace Action
open Operation

/-- The decoder of the fields of an action takes what was read from others when it is written. -/
theorem decodeFields_encode {kind : String} {decodeOperation : Fields → Checked Operation}
    (hrestores : Restores kind decodeOperation) {f : Fields} {a : Action}
    (h : decodeFields decodeOperation f = .valid a) : a.kind = kind ∧
      decodeFields decodeOperation
        (heading a.id (Condition.encode? a.condition) kind ++ a.operation.encode) = .valid a := by
  obtain ⟨b, hread, hrule⟩ := Checked.andThen_eq_valid.mp h
  obtain ⟨_, hf, op, hop, rfl⟩ := Checked.seq_eq_valid.mp hread
  obtain ⟨_, hg, condition, hcondition, rfl⟩ := Checked.seq_eq_valid.mp hf
  obtain ⟨id, hid, rfl⟩ := Checked.map_eq_valid.mp hg
  dsimp only at hrule
  split at hrule
  · next hkept =>
    obtain rfl := Checked.valid.inj hrule
    obtain ⟨hkind, hwritten⟩ := hrestores f op hop
    refine ⟨hkind, ?_⟩
    unfold decodeFields
    dsimp only
    rw [Rereads.string.optional hid rfl rfl, Condition.rereads_parse.optional hcondition rfl rfl,
      hwritten]
    simp only [Checked.map_valid, Checked.seq_valid, Checked.andThen_valid, hkept]
  · cases hrule

/-- Whatever is read as an action is read as the same action from its written form. -/
theorem rereads_decode : Rereads decode encode := by
  intro v a h
  cases v with
  | obj f =>
    rw [decode] at h
    split at h
    · cases h
    · next kind hkind =>
      split at h
      · next decodeOperation hlookup =>
        obtain ⟨rfl, hwritten⟩ :=
          decodeFields_encode (restores_of_lookup hlookup) (Checked.under_eq_valid.mp h)
        have type : (heading a.id (Condition.encode? a.condition) a.kind
            ++ a.operation.encode).get? "type" = some (.str a.kind) := rfl
        have form : a.encode = .obj (heading a.id (Condition.encode? a.condition) a.kind
            ++ a.operation.encode) := rfl
        rw [form, decode, type]
        simp only [hlookup, hwritten, Checked.under_valid]
      · cases h
    · cases h
  | _ => cases h

def IsRead (a : Action) : Prop := ∃ v, decode v = .valid a

theorem IsRead.decode_encode {a : Action} (h : a.IsRead) : decode a.encode = .valid a := by
  obtain ⟨v, hv⟩ := h
  exact rereads_decode v a hv

end Action

theorem isRead_of_itemsFrom {position : Nat} {items : List Value} {actions : List Action}
    (h : itemsFrom Action.decode position items = .valid actions) : ∀ a ∈ actions, a.IsRead := by
  induction items generalizing position actions with
  | nil =>
    obtain rfl := Checked.valid.inj h
    intro a ha
    cases ha
  | cons v rest ih =>
    obtain ⟨_, hf, more, hmore, rfl⟩ := Checked.seq_eq_valid.mp h
    obtain ⟨b, hb, rfl⟩ := Checked.map_eq_valid.mp hf
    intro a ha
    rcases List.mem_cons.mp ha with rfl | ha
    · exact ⟨v, Checked.under_eq_valid.mp hb⟩
    · exact ih hmore a ha

theorem isRead_of_decodeActions {v : Value} {actions : List Action}
    (h : decodeActions v = .valid actions) : ∀ a ∈ actions, a.IsRead := by
  cases v with
  | list items => exact isRead_of_itemsFrom h
  | _ => cases h

/-- A list of actions that were read is read as the same list from its written form: in the same
order, with the same identifiers, settings and conditions. -/
theorem decodeActions_encodeActions {actions : List Action} (h : ∀ a ∈ actions, a.IsRead) :
    decodeActions (encodeActions actions) = .valid actions := by
  have items (position : Nat) :
      itemsFrom Action.decode position (actions.map Action.encode) = .valid actions := by
    induction actions generalizing position with
    | nil => rfl
    | cons a rest ih =>
      have head := (h a List.mem_cons_self).decode_encode
      have tail := ih (fun b hb => h b (List.mem_cons_of_mem a hb)) (position + 1)
      rw [List.map_cons, itemsFrom, head, tail]
      rfl
  exact items 0

theorem storedActions_encodeActions {actions : List Action} (h : ∀ a ∈ actions, a.IsRead) :
    storedActions (encodeActions actions) = .valid actions := by
  cases actions with
  | nil => rfl
  | cons a rest => exact decodeActions_encodeActions h

end RecordFlow
