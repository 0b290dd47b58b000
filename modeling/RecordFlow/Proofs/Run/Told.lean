import RecordFlow.Proofs.Record.Differing
import RecordFlow.Proofs.Record.Patch
import RecordFlow.Proofs.Run.Undone

/-! # What is told of a write

An action that writes to its record tells so in an event, before anyone reacts to the write. Of the keys
that stand for themselves, the event names exactly those under which something else is stored than
before. An event is not taken back, even where the write is undone.
-/
namespace RecordFlow
open RecordFlow.Flow Scoped

/-! ## Events that stay -/

structure Publishes (w v : World) : Prop where
  wiring : v.wiring = w.wiring
  events : w.journal.events <+: v.journal.events

theorem Publishes.refl (w : World) : Publishes w w := ⟨rfl, List.prefix_rfl⟩

instance : IsPreorder World Publishes where
  refl := .refl
  trans _ _ _ h h' := ⟨h'.wiring.trans h.wiring, h.events.trans h'.events⟩

instance : Lenient Publishes where
  numbered _ _ := ⟨rfl, List.prefix_rfl⟩
  unstored _ _ h _ := ⟨h.wiring, h.events⟩

instance {ρ : Type} [Stored ρ] : Indifferent Publishes ρ := ⟨fun _ _ => ⟨rfl, List.prefix_rfl⟩⟩

instance : Undoes World.rolledBack Publishes where
  undone _ := ⟨rfl, List.prefix_rfl⟩

instance : Tolerant Publishes where
  records := inferInstance
  children := inferInstance
  cooldowns := inferInstance
  rules := inferInstance
  messages := inferInstance
  cadences := inferInstance
  workflows := inferInstance
  schedule := incidental_schedule
  outside _ _ h := ⟨h.wiring, h.events⟩
  amongst _ _ _ h := ⟨h.wiring, h.events⟩
  commits _ := ⟨rfl, List.prefix_rfl⟩
  undone := Undoes.undone
  opens c w := by
    refine ((Run.openRun_ends c w).and (Run.openRun_refused c w)).mono ?_ ?_
    · rintro row v ⟨hopens, -⟩
      rw [hopens.world]
      exact ⟨rfl, List.prefix_rfl⟩
    · rintro e v ⟨-, rfl⟩
      exact ⟨rfl, List.prefix_rfl⟩
  savesRun _ _ _ _ := ⟨rfl, List.prefix_rfl⟩
  enrolls cadence record by_ := (incidental_enroll cadence record by_).upholds
  unenrolls record cadence reason actor := (incidental_unenroll record cadence reason actor).upholds

/-! ## What an event tells -/

def Event.ofWrite (ambient : Ambient) (actor : Value) (after : Record) (changed : List String) :
    Fields :=
  complete ambient [
    ("event_type", .str "crm.record.updated"),
    ("actor_user_id", actor),
    ("version", .int 1),
    ("payload", .obj [
      ("record_id", .uuid after.id),
      ("module", after.module),
      ("changed_fields", .strings changed),
      ("row_version", .int after.version)])]

/-- Names are told in order and once each. A plain key is told if and only if what is stored there
differs, and then it is among the changes, unless the missing number is stored there, which differs from
itself. -/
structure TrueOf (changes : Fields) (before after : Record) (changed : List String) : Prop where
  sorted : changed.Pairwise (· < ·)
  told : ∀ key, IsPlainKey key →
    (key ∈ changed ↔ (before.storedAt key).same (after.storedAt key) = false)
  kept : ∀ key ∉ Fields.keys changes, after.storedAt key = before.storedAt key
  among : ∀ key ∈ changed, IsPlainKey key → (before.storedAt key).IsKeyed →
    (before.storedAt key).isDefinite = true → key ∈ Fields.keys changes

theorem Record.storedAt_version (r : Record) (version : Int) (key : String) :
    Record.storedAt { r with version } key = r.storedAt key := by
  unfold storedAt
  cases SystemField.ofName? key with
  | none => rfl
  | some f => cases f <;> rfl

theorem Record.storedAt_patched {changes : Fields} {before after : Record}
    (h : before.patched? changes = some after) {key : String} (hkey : key ∉ Fields.keys changes) :
    after.storedAt key = before.storedAt key := by
  unfold patched? at h
  split at h
  · obtain ⟨kept, hkept, rfl⟩ := Option.map_eq_some_iff.mp h
    rw [storedAt_version, storedAt_merged]
    rwa [Fields.keys_kept hkept]
  · cases h

theorem trueOf_patched {changes : Fields} {before after : Record} {changed : List String}
    (hpatched : before.patched? changes = some after)
    (hchanged : changedPaths before.context after.context (allFields before after) = .ok changed) :
    TrueOf changes before after changed where
  sorted := changed_sorted hchanged
  told _ := mem_changed_iff hchanged
  kept _ := Record.storedAt_patched hpatched
  among key htold hplain hkeyed hdefinite := by
    by_contra hkey
    have hdiffers := (mem_changed_iff hchanged hplain).mp htold
    rw [Record.storedAt_patched hpatched hkey, Value.same_self hkeyed hdefinite] at hdiffers
    cases hdiffers

def ToldOf (c : Context) (changes : Fields) (w v : World) : Prop :=
  ∃ after ambient changed earlier, c.record.patched? changes = some after
    ∧ TrueOf changes c.record after changed
    ∧ w.journal.events ++ earlier ++ [Event.ofWrite ambient c.actor after changed] <+: v.journal.events

theorem ToldOf.later {c : Context} {changes : Fields} {w v u : World} (h : ToldOf c changes w v)
    (hlater : Publishes v u) : ToldOf c changes w u := by
  obtain ⟨after, ambient, changed, earlier, hpatched, htrue, hevents⟩ := h
  exact ⟨after, ambient, changed, earlier, hpatched, htrue, hevents.trans hlater.events⟩

/-! ## Reactions that tell -/

def Announced (actor : Value) (before after : Record) (w v : World) : Prop :=
  ∃ ambient changed,
    changedPaths before.context after.context (allFields before after) = .ok changed
      ∧ w.journal.events ++ [Event.ofWrite ambient actor after changed] <+: v.journal.events

/-- A reaction tells what differs, unless that cannot be read, and then it does nothing. -/
def Tells (react : Reaction) : Prop := ∀ before after (f : Frame),
  Ends (react before after) f (fun _ g => Announced f.context.actor before after f.world g.world)
    fun e g => e.isLimit = false ∧ g.world = f.world
      ∨ Announced f.context.actor before after f.world g.world

namespace Workflow

theorem tells_onWrite {react : Reaction} (hruns : UpholdsRuns Publishes react) :
    Tells (onWrite react) := fun before after f => by
  unfold onWrite
  dsimp only
  cases hchanged : changedPaths before.context after.context (allFields before after) with
  | error cause => exact .of_error (e := .numeral cause) (bind_error (lift_error rfl) _) (.inl ⟨rfl, rfl⟩)
  | ok changed =>
    refine .step (a := changed) (lift_ok rfl) (.step (context_eq f) (.step (a := ()) (lift_ok rfl) ?_))
    -- whatever the workflows do that are triggered, the event stays
    have follows := steady_announced (S := InWorlds Publishes)
      (fun t _ => upholdsIn_executeNested hruns t.name after) (fun f _ _ => refl_of Publishes f.world)
      before
    exact (follows _).mono (fun _ _ h => ⟨_, changed, hchanged, h.events⟩) fun _ _ h =>
      .inr ⟨_, changed, hchanged, h.events⟩

theorem tells_reaction (levels : Nat) : Tells (reaction levels) := by
  cases levels with
  | zero => exact tells_onWrite (Run.upholdsIn_runActions fun _ _ => .pure _)
  | succ levels => exact tells_onWrite (upholdsRuns_reaction levels)

end Workflow

namespace Action
variable {react : Reaction} {a : Action} {α β : Type} {f g : Frame} {may : Fields → Prop}

/-! ## Parts of actions -/

/-- A run whose record is as it is stored, if that has the same version, and whose writes are reacted
to. -/
structure Informed (f : Frame) : Prop where
  distinct : f.world.tables.RecordsDistinct
  shows : f.world.tables.Shows f.context.record
  wired : f.world.wiring.reactions = true

structure Aside (f g : Frame) : Prop where
  record : g.context.record = f.context.record
  actor : g.context.actor = f.context.actor
  records : g.world.tables.records = f.world.tables.records
  saved : g.world.saved = f.world.saved
  publishes : Publishes f.world g.world

theorem Informed.aside (h : Informed f) (haside : Aside f g) : Informed g where
  distinct := by
    rw [Tables.RecordsDistinct, haside.records]
    exact h.distinct
  shows := by
    rw [Tables.Shows, haside.record]
    simp only [Tables.Holds, haside.records]
    exact h.shows
  wired := by
    rw [haside.publishes.wiring]
    exact h.wired

/-- A patch that is not refused is told of. -/
theorem applyPatch_told (htells : Tells react) (hf : Informed f) {changes : Fields}
    (hkeys : (Fields.keys changes).Nodup) :
    Ends (applyPatch react changes) f (fun _ g => ToldOf f.context changes f.world g.world) fun e g =>
      e.isLimit = false ∧ g.world.saved = f.world.saved
        ∨ ToldOf f.context changes f.world g.world := by
  unfold applyPatch
  refine .step (context_eq f) ?_
  refine (Ends.lift (Record.patch_seen hf.distinct hf.shows hkeys)).bind (fun _ _ h => .inl h) ?_
  rintro after ⟨v, _⟩ - ⟨⟨hpatched, rows, rfl⟩, rfl⟩
  refine .step (a := ()) rfl (.step (lift_ok rfl) (.ite (fun _ => ?_) fun h => absurd hf.wired h))
  have told {u : World} (h : Announced f.context.actor f.context.record after
      (f.world.setRows rows) u) : ToldOf f.context changes f.world u := by
    obtain ⟨ambient, changed, hchanged, hevents⟩ := h
    refine ⟨after, ambient, changed, [], hpatched, trueOf_patched hpatched hchanged, ?_⟩
    rwa [List.append_nil]
  refine (htells _ _ _).mono (fun _ _ => told) fun _ _ h => h.imp (fun h => ⟨h.1, ?_⟩) told
  rw [h.2]
  rfl

def Told (may : Fields → Prop) (f : Frame) (v : World) : Prop :=
  ∃ changes, may changes ∧ ToldOf f.context changes f.world v

/-- The record was not written to, or the write is undone, or the truth was told of it. -/
def TellsTruth (may : Fields → Prop) (f : Frame) (v : World) : Prop :=
  (v.tables.records = f.world.tables.records ∨ v.tables = f.world.saved) ∨ Told may f v

theorem Told.since {v : World} (h : Told may g v) (haside : Aside f g) : Told may f v := by
  obtain ⟨changes, hmay, after, ambient, changed, earlier, hpatched, htrue, hevents⟩ := h
  obtain ⟨more, hmore⟩ := haside.publishes.events
  rw [haside.record] at hpatched htrue
  rw [haside.actor, ← hmore, List.append_assoc _ more] at hevents
  exact ⟨changes, hmay, after, ambient, changed, more ++ earlier, hpatched, htrue, hevents⟩

theorem TellsTruth.since {v : World} (h : TellsTruth may g v) (haside : Aside f g) :
    TellsTruth may f v := by
  refine h.imp (fun h => h.imp ?_ ?_) fun h => h.since haside
  · exact fun h => h.trans haside.records
  · exact fun h => h.trans haside.saved

/-- A part of an action tells the truth, or it breaks off while nothing is saved. -/
def Honest (may : Fields → Prop) (part : Scoped α) (f : Frame) : Prop :=
  Ends part f (fun _ g => TellsTruth may f g.world) fun e g =>
    e.isLimit = false ∧ g.world.saved = f.world.saved ∨ Told may f g.world

namespace Honest
variable {x : Scoped α}

theorem idle {a : α} : Honest may (pure a : Scoped α) f := Ends.pure (.inl (.inl rfl))

theorem seen {rest : Context → Scoped α} (h : Honest may (rest f.context) f) :
    Honest may (context >>= rest) f :=
  Ends.step (context_eq f) h

theorem ite {c : Prop} [Decidable c] {y : Scoped α} (hx : Honest may x f) (hy : Honest may y f) :
    Honest may (if c then x else y) f :=
  Ends.ite (fun _ => hx) fun _ => hy

theorem readable {v : Except BadNumeral β} {rest : β → Scoped α}
    (h : ∀ b, v = .ok b → Honest may (rest b) f) :
    Honest may ((liftM (Flow.readable v) : Scoped β) >>= rest) f := by
  cases v with
  | error cause =>
    exact Ends.of_error (e := .numeral cause) (bind_error (lift_error rfl) _) (.inl ⟨rfl, rfl⟩)
  | ok b => exact Ends.step (a := b) (lift_ok rfl) (h b rfl)

theorem after {part : Scoped β} {rest : β → Scoped α}
    (hpart : Ends part f (fun _ g => Aside f g) fun e g =>
      e.isLimit = false ∧ g.world.saved = f.world.saved)
    (h : ∀ b g, Aside f g → Honest may (rest b) g) : Honest may (part >>= rest) f :=
  hpart.bind (fun _ _ hg => .inl hg) fun b g _ haside => (h b g haside).mono
    (fun _ _ hk => hk.since haside) fun _ _ hk =>
      hk.imp (fun hk => ⟨hk.1, hk.2.trans haside.saved⟩) fun hk => hk.since haside

/-- A write is told of, whatever is done after it. -/
theorem write (htells : Tells react) (hf : Informed f) {changes : Fields} (hmay : may changes)
    (hkeys : (Fields.keys changes).Nodup) {rest : Unit → Scoped α}
    (hrest : ∀ u, UpholdsIn Publishes (rest u)) : Honest may (applyPatch react changes >>= rest) f := by
  have told {v : World} (h : ToldOf f.context changes f.world v) : Told may f v := ⟨changes, hmay, h⟩
  refine (applyPatch_told htells hf hkeys).bind (fun _ _ h => h.imp_right told) fun _ g _ hg => ?_
  exact (hrest () g).mono (fun _ _ h => .inr (told (hg.later h))) fun _ _ h =>
    .inr (told (hg.later ⟨h.wiring, h.events⟩))

end Honest

/-! ## Actions on the record -/

def Writes (a : Action) (record : Record) (changes : Fields) : Prop :=
  match a.operation with
  | .updateFields fields => renderChanges record.context fields = .ok changes
  | .moveStage stage => changes = [("stage", .str stage)]
  | .assignOwner _ _ _ => ∃ owner, changes = [("owner_id", owner)]
  | _ => False

theorem chooseOwner_aside (rule : Option Uuid) (strategy : Option Strategy) (user : Option String) :
    Ends (chooseOwner rule strategy user) f (fun _ g => Aside f g) fun e g =>
      e.isLimit = false ∧ g.world.saved = f.world.saved := by
  have beside := incidentalIn_chooseOwner (R := Beside false) rule strategy user f
  have publishes := incidentalIn_chooseOwner (R := Publishes) rule strategy user f
  refine (beside.and publishes).mono (fun _ g h => ?_) fun _ g h => ⟨h.1.1, h.1.2.world.saved⟩
  exact ⟨by rw [h.1.context], by rw [h.1.context], h.1.world.records rfl, h.1.world.saved, h.2.world⟩

/-- An action on the record tells the truth of what it writes. -/
theorem carryOut_honest (htells : Tells react) (hf : Informed f) (h : a.writesRecord = true)
    (hkeys : ∀ fields, a.operation = .updateFields fields → (Fields.keys fields).Nodup) :
    Honest (a.Writes f.context.record) (carryOut react a) f := by
  obtain ⟨id, condition, operation⟩ := a
  cases operation with
  | updateFields fields =>
    show Honest _ (updateFields react fields) f
    unfold updateFields
    refine .seen (.readable fun changes hchanges => .readable fun before _ => .ite .idle ?_)
    refine .write htells hf hchanges ?_ fun _ => .pure _
    rw [renderChanges_keys hchanges]
    exact hkeys fields rfl
  | moveStage stage =>
    show Honest _ (moveStage react stage) f
    unfold moveStage
    refine .seen (.ite .idle (.ite .idle ?_))
    have hmay : Writes ⟨id, condition, .moveStage stage⟩ f.context.record [("stage", .str stage)] := rfl
    exact .write htells hf hmay (List.nodup_singleton _) fun _ => .pure _
  | assignOwner rule strategy user =>
    show Honest _ (assignOwner react rule strategy user) f
    unfold assignOwner
    refine .seen (.after (chooseOwner_aside rule strategy user) fun choice g haside => ?_)
    refine .ite .idle (.ite .idle (.ite .idle ?_))
    have hmay : Writes ⟨id, condition, .assignOwner rule strategy user⟩ f.context.record
        [("owner_id", choice.owner)] := ⟨choice.owner, rfl⟩
    refine .write htells (hf.aside haside) hmay (List.nodup_singleton _) fun _ => ?_
    refine .bind (incidentalIn_lift (R := Publishes)
      (incidental_note (by decide) (.inl (by decide)))).steady fun _ => ?_
    exact .bind (Upholds.lift (.looks (.valid anyCause _))) fun _ => .pure _
  | _ => cases h

theorem attempt_told (htells : Tells react) (hf : Informed f) (h : a.writesRecord = true)
    (hkeys : ∀ fields, a.operation = .updateFields fields → (Fields.keys fields).Nodup) :
    Ends (attempt react a) f (fun _ g => TellsTruth (a.Writes f.context.record) f g.world)
      fun _ g => TellsTruth (a.Writes f.context.record) f g.world := by
  unfold attempt
  cases hc : f.context.budget.consume a.kind with
  | error l => exact .of_error (bind_error (consume_error hc) _) (.inl (.inl rfl))
  | ok b =>
    refine .step (consume_ok hc) ?_
    let started : Frame := { f with context := { f.context with budget := b } }
    have aside : Aside f started := ⟨rfl, rfl, rfl, rfl, .refl _⟩
    have honest : Honest (a.Writes f.context.record) (carryOut react a) started :=
      carryOut_honest htells (hf.aside aside) h hkeys
    refine (orFailure_ends honest).bind ?_ ?_
    · rintro e g ⟨hlimit, ⟨hother, -⟩ | htold⟩
      · rw [hlimit] at hother
        cases hother
      · exact .inr (htold.since aside)
    · rintro (cause | effect) g - hg
      · -- what was done is undone, but not what was told
        refine Ends.of_ok rfl ?_
        rcases hg.2 with ⟨-, hsaved⟩ | htold
        · exact .inl (.inr hsaved)
        · exact .inr (htold.since aside)
      · exact .pure (hg.since aside)

/-- An action on the record tells the truth of what it writes, whatever others do in reaction to it. An
event tells the changed fields, in order and each once, and of the keys that stand for themselves exactly
those under which something else is stored in the record with the changes than before; a key that has no
change is stored as before. Where nothing is told, nothing was written, or all is as it was saved
before. -/
theorem perform_told (levels : Nat) (hf : Informed f) (h : a.writesRecord = true)
    (hkeys : ∀ fields, a.operation = .updateFields fields → (Fields.keys fields).Nodup) :
    Ends (perform (Workflow.reaction levels) a) f
      (fun _ g => TellsTruth (a.Writes f.context.record) f g.world)
      fun _ g => TellsTruth (a.Writes f.context.record) f g.world :=
  perform_of_attempt (.inl (.inl rfl)) (attempt_told (Workflow.tells_reaction levels) hf h hkeys)
    fun _ _ _ hg => hg

def worthyDeal : StoredRecord where
  id := TableName.record.rowId 1
  module := "deals"
  ownerId := none
  stage := none
  title := none
  isOpen := true
  data := .obj [("amount", .int 1)]
  createdBy := none
  version := 1
  createdAt := ⟨0⟩

@[irreducible]
def worthyDeals : World :=
  let tables := { Tables.empty with records := [worthyDeal] }
  { World.initial ⟨⟨0⟩, 0⟩ .standard .complete [] with tables := tables, saved := tables }

def worthy : Frame where
  world := worthyDeals
  context := .root {
    id := TableName.record.rowId 1
    module := .str "deals"
    ownerId := .null
    stage := .null
    fields := [("amount", .int 1)]
    version := 1
    createdBy := .null
    title := .null
    isOpen := .bool true } Trigger.manual.name 2

theorem worthy_informed : Informed worthy where
  distinct := by simp [worthy, worthyDeals, Tables.RecordsDistinct]
  shows := Tables.Holds.shows
    ⟨worthyDeal, by simp [worthy, worthyDeals, worthyDeal, Context.root], rfl⟩
  wired := by
    simp only [worthy, worthyDeals]
    rfl

def closing : Action :=
  ⟨"close", none, .updateFields [("stage", .str "won"), ("note", .null), ("a.b", .int 1),
    ("created_by", .str "bob"), ("amount", .int 1)]⟩

theorem closing_keys (fields : Fields) (h : closing.operation = .updateFields fields) :
    (Fields.keys fields).Nodup := by
  cases h
  decide

theorem closing_worthy : passes (perform (Workflow.reaction 2) closing) worthy
    (fun r g => r.status = .success && g.world.tables.records.map (·.version) == [2]) = true := by
  decide +kernel

/-- The deal is written to, and the truth is told of it. -/
theorem perform_told_worthy : Informed worthy ∧ closing.writesRecord = true
    ∧ (∀ fields, closing.operation = .updateFields fields → (Fields.keys fields).Nodup)
    ∧ Ends (perform (Workflow.reaction 2) closing) worthy
      (fun r g => r.status = .success ∧ Told (closing.Writes worthy.context.record) worthy g.world)
      fun _ _ => False := by
  have told := perform_told (a := closing) 2 worthy_informed rfl closing_keys
  refine ⟨worthy_informed, rfl, closing_keys, ((Ends.of_passes closing_worthy).and told).mono ?_ ?_⟩
  · rintro r g ⟨hwritten, hunwritten | htold⟩
    · have versions : g.world.tables.records.map (·.version) = [1] := by
        rcases hunwritten with hsame | hsaved
        · simp [hsame, worthy, worthyDeals, worthyDeal]
        · simp [hsaved, worthy, worthyDeals, worthyDeal]
      rw [versions, Bool.and_eq_true] at hwritten
      exact absurd hwritten.2 (by decide)
    · rw [Bool.and_eq_true, decide_eq_true_iff] at hwritten
      exact ⟨hwritten.1, htold⟩
  · exact fun _ _ h => h.1

def toldFields (event : Fields) : List Value :=
  ((event.getD "payload").fields.getD "changed_fields").items?.getD []

/-- Whoever leaves something else than before under a key tells so; to leave null where there was
nothing counts. -/
def AlwaysTold (key : String) : Prop :=
  ∀ (a : Action) (f : Frame), Informed f → a.writesRecord = true →
    (∀ fields, a.operation = .updateFields fields → (Fields.keys fields).Nodup) →
    Yields (perform f.context.reaction a) f fun r g => r.status = .success →
      ∀ row ∈ g.world.tables.records, row.id = f.context.record.id →
        Fields.get? row.data.fields key ≠ Fields.get? f.context.record.fields key →
          ∃ event ∈ g.world.journal.events, .str key ∈ toldFields event

def leavesUntold (key : String) (r : ActionResult) (g : Frame) : Bool :=
  r.status = .success
    && g.world.tables.records.any (fun row => row.id = worthy.context.record.id
      && (Fields.get? row.data.fields key).isSome)
    && g.world.journal.events.all fun event => (toldFields event).all fun v => v.text? ≠ some key

/-- Keys that are missing from the deal, of which one is read as a path, and one names what is seen of
every record. -/
def missingKeys : List String := ["note", "a.b", "created_by"]

theorem missing_worthy : ∀ key ∈ missingKeys, Fields.get? worthy.context.record.fields key = none := by
  decide

theorem closing_untold : passes (perform worthy.context.reaction closing) worthy
    (fun r g => missingKeys.all fun key => leavesUntold key r g) = true := by decide +kernel

theorem not_alwaysTold {key : String} (hkey : key ∈ missingKeys) : ¬ AlwaysTold key := by
  intro told
  have ends := (Ends.of_passes closing_untold).and
    (told closing worthy worthy_informed rfl closing_keys)
  cases hx : perform worthy.context.reaction closing worthy with
  | error e g => exact (ends.bad_of hx).1
  | ok r g =>
    obtain ⟨htests, htold⟩ := ends.ok_of hx
    have htest := List.all_eq_true.mp htests key hkey
    simp only [leavesUntold, Bool.and_eq_true, decide_eq_true_iff, List.any_eq_true,
      List.all_eq_true] at htest
    obtain ⟨⟨hsuccess, row, hrow, hid, hthere⟩, huntold⟩ := htest
    have hdiffers : Fields.get? row.data.fields key ≠ Fields.get? worthy.context.record.fields key := by
      intro hsame
      rw [hsame, missing_worthy key hkey] at hthere
      cases hthere
    obtain ⟨event, hevent, hmem⟩ := htold hsuccess row hrow hid hdiffers
    exact huntold event hevent _ hmem rfl

/-- Null is not told under a key that was missing, nor anything under a key that is read as a path, or
that names what is seen of every record. -/
theorem not_alwaysTold_closing :
    ¬ AlwaysTold "note" ∧ ¬ AlwaysTold "a.b" ∧ ¬ AlwaysTold "created_by" :=
  ⟨not_alwaysTold (by decide), not_alwaysTold (by decide), not_alwaysTold (by decide)⟩

end Action

end RecordFlow
