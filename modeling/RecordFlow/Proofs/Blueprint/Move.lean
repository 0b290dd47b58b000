import RecordFlow.Proofs.Approval.Filing
import RecordFlow.Proofs.Blueprint.Apply

/-! # Moves and their history

A move that succeeds is in the history, once; one that does not succeed leaves the history alone, and
of its updates either all or nothing. It does not take back updates that were written before the move
itself was refused, nor what runs did that they triggered.
-/
namespace RecordFlow
open RecordFlow.Flow

def Ledger.tell (l : Ledger) (change : StageChange) : Ledger :=
  { l with stageChanges := l.stageChanges ++ [change] }

namespace Blueprint

/-- What a move is to do: with a record as it was read, for whom, and by which approval. -/
structure Aim where
  record : Record
  toStage : String
  updates : Fields
  actor : Option String
  approval : Option Uuid

structure Tells (aim : Aim) (blueprint : Uuid) (run : Option Uuid) (change : StageChange) : Prop where
  blueprint : change.blueprint = blueprint
  record : change.record = aim.record.id
  fromStage : Cell.text aim.record.stage = .ok change.fromStage
  toStage : change.toStage = aim.toStage
  changedBy : change.changedBy = aim.actor
  approval : change.approval = aim.approval
  run : change.run = run

/-- A move is entered into the history and saved, if its blueprint is stored. -/
theorem recordMove_ends (aim : Aim) (blueprint run : Option Uuid) {source : Option String}
    (hsource : Cell.text aim.record.stage = .ok source) (w : World) :
    Ends (recordMove blueprint aim.record.id aim.record.stage aim.toStage aim.actor aim.approval run)
      w
      (fun _ v => ∃ id change, blueprint = some id ∧ Tells aim id run change
        ∧ v.tables = { w.tables with stageChanges := w.tables.stageChanges ++ [change] }
        ∧ v.saved = v.tables ∧ v.numbers = (w.useNumber .stageHistory).numbers)
      fun _ v => blueprint = none ∧ Beside false w v := by
  have numbered : Incidental (Beside false) (modify fun w => w.useNumber .stageHistory) :=
    incidental_useNumber _
  unfold recordMove
  rw [hsource]
  refine .step rfl ?_
  cases blueprint with
  | none => exact .of_error rfl ⟨rfl, numbered.ok (a := ()) rfl⟩
  | some id =>
    exact .of_ok (a := ()) rfl ⟨id, _, rfl, ⟨rfl, rfl, hsource, rfl, rfl, rfl, rfl⟩, rfl, rfl, rfl⟩

/-- How a transition was applied. One that succeeded is in the history, one that did not left the
history alone. -/
structure Applied (b : Blueprint) (aim : Aim) (w : World) (m : MoveResult) (v : World) : Prop where
  free : v.RunsFree
  settled : w.Settled → v.Settled
  numbers : ∀ t, w.nextNumber t ≤ v.nextNumber t
  run : m.run.isSome
  untold : m.success = false → v.tables.ledger = w.tables.ledger
  kept : m.success = false → v.tables.runs.length ≤ w.tables.runs.length + 1 →
    Kept aim.record aim.updates w v.tables.records
  told : m.success = true → ∃ id change, b.id = some id
    ∧ Tells aim id (m.run.bind RunResult.run) change
    ∧ v.tables.ledger = w.tables.ledger.tell change

/-- A transition is applied, unless its blueprint is not stored. -/
theorem applyMove_ends (b : Blueprint) (t : Transition) (aim : Aim) {source : Option String}
    (hsource : Cell.text aim.record.stage = .ok source) (v : Validation) {w : World}
    (hfree : w.RunsFree) :
    Ends (b.applyMove t aim.record aim.toStage aim.updates aim.actor v aim.approval) w
      (Applied b aim w)
      fun _ u => b.id = none ∧ u.tables.ledger = w.tables.ledger := by
  let c : Context := { Context.root aim.record "stage_transition" w.settings.maxActions with
    actor := .ofOption aim.actor, source := "blueprint" }
  have start := start_moveActions t aim.toStage aim.updates (c := c) rfl rfl
    (show Cell.fits 0 = true by decide) rfl hfree
  unfold applyMove
  generalize moveActions t aim.toStage aim.updates = listed at start ⊢
  obtain ⟨actions, position⟩ := listed
  refine .step (a := .root aim.record "stage_transition" w.settings.maxActions) (t := w) rfl ?_
  refine start.bind (fun _ _ h => h.elim) fun run u _ hu => ?_
  obtain ⟨hufree, hsettled, hledger, hnumbers, hkept⟩ := hu
  dsimp only
  cases hm : hasMoved run position with
  | false =>
    exact .pure ⟨hufree, hsettled, hnumbers, rfl, fun _ => hledger, fun _ => hkept hm,
      fun h => absurd h Bool.false_ne_true⟩
  | true =>
    refine (recordMove_ends aim b.id run.run hsource u).bind
      (fun _ x h => ⟨h.1, h.2.ledger.trans hledger⟩) fun _ x _ hx => ?_
    obtain ⟨id, change, hid, htells, htables, hsaved, hused⟩ := hx
    have hlater (t : TableName) : u.nextNumber t ≤ x.nextNumber t := by
      rw [World.nextNumber.eq_def x, hused]
      exact u.nextNumber_le_useNumber _ t
    have htold : x.tables.ledger = w.tables.ledger.tell change := by
      rw [htables, ← hledger]
      rfl
    have hxfree : x.RunsFree := fun n hn s hs =>
      hufree n (Nat.le_trans (hlater .run) hn) s (by rw [htables] at hs; exact hs)
    have untold : true = false → False := fun h => absurd h.symm Bool.false_ne_true
    exact .pure ⟨hxfree, fun _ => ⟨by rw [hsaved], by rw [hsaved], hxfree⟩,
      fun t => Nat.le_trans (hnumbers t) (hlater t), rfl, fun h => (untold h).elim,
      fun h => (untold h).elim, fun _ => ⟨id, change, hid, htells, htold⟩⟩

end Blueprint

/-! ## Approved moves -/

theorem Record.get?_ends (id : Uuid) (w : World) :
    Ends (Record.get? id) w
      (fun found v => v = w ∧ ∀ r, found = some r →
        ∃ row ∈ w.tables.records, row.id = id ∧ row.toRecord = .ok r)
      fun _ v => v = w := by
  unfold Record.get?
  refine .step (find?_eq id w) ?_
  cases hf : (Stored.rows w.tables).find? fun row : StoredRecord => Stored.id row = id with
  | none => exact .pure ⟨rfl, nofun⟩
  | some row =>
    refine Ends.map ?_
    cases hr : row.toRecord with
    | error cause => exact .of_error rfl rfl
    | ok r =>
      refine .pure ⟨rfl, fun s hs => ⟨row, List.mem_of_find?_eq_some hf, id_of_find? hf, ?_⟩⟩
      rw [hr, Option.some.inj hs]

theorem StoredRecord.toRecord_eq {row : StoredRecord} {r : Record} (h : row.toRecord = .ok r) :
    r.id = row.id ∧ r.stage = .ofOption row.stage := by
  unfold toRecord at h
  cases hm : row.data.mapping with
  | error cause => rw [hm] at h; cases h
  | ok fields => rw [hm] at h; cases h; exact ⟨rfl, rfl⟩

theorem Cell.text_ofOption (s : Option String) : Cell.text (.ofOption s) = .ok s := by
  cases s <;> rfl

theorem StoredBlueprint.definition_id {row : StoredBlueprint} {b : Blueprint}
    (h : row.definition = .valid b) : b.id = some row.id := by
  unfold definition at h
  cases hs : (Schema.listOf Stage.decode row.stages).under (.field "stages") with
  | invalid issues => rw [hs] at h; cases h
  | valid stages => rw [hs] at h; cases h; rfl

namespace Blueprint

/-- A blueprint that a move follows is stored, unless it was given as it is. -/
theorem resolve_ends (ref : BlueprintRef) (module : Value) (w : World) :
    Ends (resolve ref module) w
      (fun found v => v = w ∧ ∀ b, found = some b → ref = .given b
        ∨ ∃ row ∈ w.tables.blueprints, row.definition = .valid b)
      fun _ v => v = w := by
  have defined (row : StoredBlueprint) (hrow : row ∈ w.tables.blueprints) :
      Ends (do return some (← valid row.definition) : Flow (Option Blueprint)) w
        (fun found v => v = w ∧ ∀ b, found = some b → ref = .given b
          ∨ ∃ row ∈ w.tables.blueprints, row.definition = .valid b) fun _ v => v = w := by
    cases hd : row.definition with
    | invalid issues => exact .of_error rfl rfl
    | valid b =>
      refine .step (a := b) (t := w) rfl (.pure ⟨rfl, fun b' hb => .inr ⟨row, hrow, ?_⟩⟩)
      rw [hd, Option.some.inj hb]
  unfold resolve
  cases ref with
  | given b => exact .pure ⟨rfl, fun b' hb => .inl (by rw [Option.some.inj hb])⟩
  | byId id =>
    refine (fetch_ends id w).bind (fun _ _ h => h.1) fun row v _ h => ?_
    obtain ⟨rfl, hf⟩ := h
    exact defined row (List.mem_of_find?_eq_some hf)
  | ofModule =>
    unfold ofModule?
    refine .step (a := w.tables.blueprints) (t := w) rfl ?_
    dsimp only
    split
    · exact .pure ⟨rfl, nofun⟩
    · next row rest h =>
      have hmem : row ∈ row :: rest := List.mem_cons_self
      rw [← h] at hmem
      exact defined row (List.mem_filter.mp (mem_sorted.mp hmem)).1

end Blueprint

def World.setExecuted (w : World) (id : Uuid) (executed : Bool) (test : Approval → Bool) : World :=
  let approvals := w.tables.approvals.map fun a =>
    if a.id = id && test a then { a with executed := executed } else a
  { w with
    tables := { w.tables with approvals := approvals }
    saved := { w.tables with approvals := approvals } }

namespace Approval

theorem setExecuted_eq (id : Uuid) (executed : Bool) (test : Approval → Bool) (w : World) :
    setExecuted id executed test w = .ok
      (w.tables.approvals.filter fun a => a.id = id && test a).length
      (w.setExecuted id executed test) := rfl

/-- An approval that still is to be carried out, with all that its move needs. -/
structure Due (w : World) (id : Uuid) (a : Approval) (about : Fields) (r : Record)
    (row : StoredBlueprint) (b : Blueprint) (t : Transition) : Prop where
  found : w.tables.approvals.find? (fun a => a.id = id) = some a
  context : a.context.mapping = .ok about
  approved : a.status = .approved
  untouched : a.executed = false
  moves : aboutMove about = true
  record : Record.get? a.record w = .ok (some r) w
  stage : r.stage.same (sourceOf about) = true
  stored : row ∈ w.tables.blueprints
  blueprint : row.definition = .valid b
  transition : b.findTransition r.stage (targetOf about) = some t

def claimed (id : Uuid) (w : World) : World := w.setExecuted id true fun a => !a.executed

/-- A move that was not begun, as a check refused it or somebody else had claimed it. -/
def NotBegun (id : Uuid) (w : World) (m : MoveResult) (v : World) : Prop :=
  m.success = false ∧ m.run = none ∧ (v = w ∨ v = claimed id w
    ∧ (w.tables.approvals.filter fun a => a.id = id && !a.executed).length ≠ 1)

/-- The move of an approval as it was carried out. If it did not succeed, it may be tried again. -/
def CarriedOut (id : Uuid) (about : Fields) (b : Blueprint) (r : Record) (actor : Option String)
    (w : World) (m : MoveResult) (v : World) : Prop :=
  ∃ updates u, updatesOf about = .ok updates
    ∧ b.Applied ⟨r, targetOf about, updates, actor, some id⟩ (claimed id w) m u
    ∧ v = if m.success then u else u.setExecuted id false fun _ => true

theorem carryOutMove_ends (id : Uuid) (about : Fields) {b : Blueprint} {t : Transition} {r : Record}
    {source : Option String} (hsource : Cell.text r.stage = .ok source) (actor : Option String)
    {w : World} (hfree : w.RunsFree) (hstored : b.id.isSome) :
    Ends (carryOutMove id about b t r actor) w
      (fun m v => NotBegun id w m v ∨ CarriedOut id about b r actor w m v) fun _ v => v = w := by
  unfold carryOutMove
  dsimp only
  cases hu : updatesOf about with
  | error cause => exact .of_error rfl rfl
  | ok updates =>
    refine .step (a := updates) (t := w) rfl ?_
    cases hc : t.check (r.merged updates) with
    | error cause => exact .of_error rfl rfl
    | ok check =>
      refine .step (a := check) (t := w) rfl ?_
      split
      · exact .pure (.inl ⟨rfl, rfl, .inl rfl⟩)
      · refine .step (setExecuted_eq id true _ w) ?_
        split
        · next hn => exact .pure (.inl ⟨rfl, rfl, .inr ⟨rfl, hn⟩⟩)
        · let aim : Blueprint.Aim := ⟨r, targetOf about, updates, actor, some id⟩
          have hclaimed : (claimed id w).RunsFree := hfree
          refine (b.applyMove_ends t aim hsource check hclaimed).bind ?_ fun m u _ hm => ?_
          · rintro e u ⟨hnone, -⟩
            rw [hnone] at hstored
            cases hstored
          · cases hs : m.success with
            | true => exact .pure (.inr ⟨updates, u, hu, hm, by rw [hs]; rfl⟩)
            | false =>
              refine .step (setExecuted_eq id false _ u) (.pure (.inr ⟨updates, u, hu, hm, ?_⟩))
              rw [hs]
              rfl

theorem refuseMove_ends (id : Uuid) (about : Fields) (error : String) (w : World) :
    Ends (refuseMove id about error) w (NotBegun id w) fun _ v => v = w := by
  unfold refuseMove
  cases (Schema.nullable Schema.string (sourceOf about)).under (.field "from_stage") with
  | invalid issues => exact .of_error rfl rfl
  | valid source => exact .of_ok rfl ⟨rfl, rfl, .inl rfl⟩

/-- The move of an approval is carried out only if it is due. -/
theorem executeMove_ends (id : Uuid) (actor : Option String) {w : World} (hfree : w.RunsFree) :
    Ends (executeMove id actor) w
      (fun m v => NotBegun id w m v ∨ ∃ a about r row b t, Due w id a about r row b t
        ∧ CarriedOut id about b r actor w m v)
      fun _ v => v = w := by
  have refused (about : Fields) (error : String) : Ends (refuseMove id about error) w
      (fun m v => NotBegun id w m v ∨ ∃ a about r row b t, Due w id a about r row b t
        ∧ CarriedOut id about b r actor w m v) fun _ v => v = w :=
    (refuseMove_ends id about error w).mono (fun _ _ h => .inl h) fun _ _ h => h
  unfold executeMove
  refine .step (find?_eq id w) ?_
  split
  · exact .pure (.inl ⟨rfl, rfl, .inl rfl⟩)
  · next a hfound =>
    cases hc : a.context.mapping with
    | error cause => exact .of_error rfl rfl
    | ok about =>
      refine .step (a := about) (t := w) rfl ?_
      dsimp only
      split
      · exact refused about _
      split
      · exact refused about _
      split
      · exact refused about _
      next happroved huntouched hmoves =>
      refine (Record.get?_ends a.record w).bind (fun _ _ h => h) fun found v hget h => ?_
      obtain ⟨rfl, hread⟩ := h
      cases found with
      | none => exact refused about _
      | some r =>
        dsimp only
        split
        · exact refused about _
        next hstage =>
        obtain ⟨held, -, -, hrow⟩ := hread r rfl
        have hsource : Cell.text r.stage = .ok held.stage := by
          rw [(StoredRecord.toRecord_eq hrow).2, Cell.text_ofOption]
        refine (looks_orThrow _ v).bind (fun _ _ h => h.2.symm) fun blueprint u _ hu => ?_
        obtain rfl : v = u := hu
        refine (Blueprint.resolve_ends (.byId blueprint) r.module v).bind (fun _ _ h => h)
          fun found u _ h => ?_
        obtain ⟨rfl, hdefined⟩ := h
        cases found with
        | none => exact refused about _
        | some b =>
          obtain hgiven | ⟨row, hstored, hdef⟩ := hdefined b rfl
          · cases hgiven
          dsimp only
          cases htransition : b.findTransition r.stage (targetOf about) with
          | none => exact refused about _
          | some t =>
            have hid : b.id.isSome := by rw [StoredBlueprint.definition_id hdef]; rfl
            have due : Due u id a about r row b t :=
              ⟨hfound, hc, Decidable.not_not.mp happroved, Bool.eq_false_iff.mpr huntouched,
                by simpa using hmoves, hget, by simpa using hstage, hstored, hdef, htransition⟩
            refine (carryOutMove_ends id about hsource actor hfree hid).mono ?_ fun _ _ h => h
            exact fun m x h => h.imp (fun h => h) fun h => ⟨a, about, r, row, b, t, due, h⟩

end Approval

/-! ## Requested moves -/

namespace Blueprint

def Requested (b : Blueprint) (aim : Aim) (w : World) (m : MoveResult) (v : World) : Prop :=
  ∃ process a u, Approval.submit process aim.record.id aim.actor
      (b.moveContext aim.record.stage aim.toStage aim.updates) w = .ok a u
    ∧ m.success = true ∧ m.run = none
    ∧ v.tables = u.tables ∧ v.saved = u.tables ∧ v.numbers = u.numbers

def Moved (ref : BlueprintRef) (record : Uuid) (toStage : String) (updates : Fields)
    (actor : Option String) (w : World) (m : MoveResult) (v : World) : Prop :=
  (m.success = false ∧ m.run = none ∧ v = w)
    ∨ ∃ r b t, Record.get? record w = .ok (some r) w
      ∧ (ref = .given b ∨ ∃ row ∈ w.tables.blueprints, row.definition = .valid b)
      ∧ b.findTransition r.stage toStage = some t
      ∧ (b.Requested ⟨r, toStage, updates, actor, none⟩ w m v
        ∨ t.requiresApproval = false ∧ b.Applied ⟨r, toStage, updates, actor, none⟩ w m v)

theorem requestMove_ends (b : Blueprint) (t : Transition) (aim : Aim) (v : Validation) (w : World) :
    Ends (b.requestMove t aim.record aim.toStage aim.updates aim.actor v) w
      (fun m u => m.success = false ∧ m.run = none ∧ u = w ∨ b.Requested aim w m u)
      fun _ u => Filing w u := by
  unfold requestMove
  refine .step (a := w.wiring) (t := w) rfl ?_
  split
  · next process _ _ =>
    have files : Files (Approval.submit process aim.record.id aim.actor
        (b.moveContext aim.record.stage aim.toStage aim.updates)) := incidental_submit _ _ _ _
    cases hs : Approval.submit process aim.record.id aim.actor
        (b.moveContext aim.record.stage aim.toStage aim.updates) w with
    | error e u => exact .of_error (bind_error hs _) (files.error hs).2
    | ok a u =>
      refine .step hs (.of_ok rfl (.inr ?_))
      exact ⟨process, a, u, hs, rfl, rfl, rfl, rfl, rfl⟩
  · exact .pure (.inl ⟨rfl, rfl, rfl⟩)

/-- A move fails before it was submitted, or as its blueprint is not stored. -/
theorem move_ends (ref : BlueprintRef) (record : Uuid) (toStage : String) (updates : Fields)
    (actor : Option String) {w : World} (hfree : w.RunsFree) :
    Ends (move ref record toStage updates actor) w (Moved ref record toStage updates actor w)
      fun _ v => Filing w v
        ∨ (∃ b, ref = .given b ∧ b.id = none) ∧ v.tables.ledger = w.tables.ledger := by
  have unsaid {v : World} (h : v = w) : Filing w v
      ∨ (∃ b, ref = .given b ∧ b.id = none) ∧ v.tables.ledger = w.tables.ledger :=
    .inl (h ▸ .refl w)
  unfold move
  refine (Record.get?_ends record w).bind (fun _ _ h => unsaid h) fun found v hget h => ?_
  obtain ⟨rfl, hread⟩ := h
  cases found with
  | none => exact .pure (.inl ⟨rfl, rfl, rfl⟩)
  | some r =>
    obtain ⟨held, -, -, hrow⟩ := hread r rfl
    have hsource : Cell.text r.stage = .ok held.stage := by
      rw [(StoredRecord.toRecord_eq hrow).2, Cell.text_ofOption]
    refine (resolve_ends ref r.module v).bind (fun _ _ h => unsaid h) fun found u _ h => ?_
    obtain ⟨rfl, hdefined⟩ := h
    cases found with
    | none => exact .pure (.inl ⟨rfl, rfl, rfl⟩)
    | some b =>
      dsimp only
      split
      · exact .pure (.inl ⟨rfl, rfl, rfl⟩)
      cases ht : b.findTransition r.stage toStage with
      | none => exact .pure (.inl ⟨rfl, rfl, rfl⟩)
      | some t =>
        let aim : Aim := ⟨r, toStage, updates, actor, none⟩
        have begun {m : MoveResult} {v : World} (h : b.Requested aim u m v
            ∨ t.requiresApproval = false ∧ b.Applied aim u m v) :
            Moved ref record toStage updates actor u m v :=
          .inr ⟨r, b, t, hget, hdefined b rfl, ht, h⟩
        dsimp only
        split
        · refine (b.requestMove_ends t aim _ u).mono (fun m v h => ?_) fun e v h => ?_
          · exact h.elim .inl fun h => begun (.inl h)
          · exact .inl h
        · next happroval =>
          refine (b.applyMove_ends t aim hsource _ hfree).mono (fun m v h => ?_) fun e v h => ?_
          · exact begun (.inr ⟨Bool.eq_false_iff.mpr happroval, h⟩)
          · obtain hgiven | ⟨row, -, hdef⟩ := hdefined b rfl
            · exact .inr ⟨⟨b, hgiven, h.1⟩, h.2⟩
            · rw [StoredBlueprint.definition_id hdef] at h
              cases h.1

end Blueprint

/-! ## Attempts -/

open Blueprint

inductive Attempt where
  | transition (ref : BlueprintRef) (record : Uuid) (toStage : String) (updates : Fields)
    (actor : Option String)
  | approved (approval : Uuid) (actor : Option String)

namespace Attempt

def run : Attempt → Flow MoveResult
  | transition ref record toStage updates actor => move ref record toStage updates actor
  | approved approval actor => Approval.executeMove approval actor

/-- What an attempt is to do; an approval was told the target and the updates. -/
def Aims (w : World) : Attempt → Aim → Prop
  | transition _ record toStage updates actor, aim =>
    Record.get? record w = .ok (some aim.record) w
      ∧ aim = ⟨aim.record, toStage, updates, actor, none⟩
  | approved approval actor, aim => ∃ a about,
    w.tables.approvals.find? (fun a => a.id = approval) = some a ∧ a.context.mapping = .ok about
      ∧ Record.get? a.record w = .ok (some aim.record) w
      ∧ Approval.updatesOf about = .ok aim.updates
      ∧ aim = ⟨aim.record, Approval.targetOf about, aim.updates, actor, some approval⟩

/-- What an attempt leaves behind. One that does not succeed leaves the history alone, and also the
records, but for the updates of its record or for what another run did that was triggered. One that
succeeds is in the history, once, unless the move was only submitted for approval. -/
structure Leaves (x : Attempt) (w : World) (m : MoveResult) (v : World) : Prop where
  untold : m.success = false → v.tables.stageChanges = w.tables.stageChanges
  kept : m.success = false → v.tables.runs.length ≤ w.tables.runs.length + 1 →
    v.tables.records = w.tables.records
      ∨ ∃ aim, x.Aims w aim ∧ Action.Updated aim.record aim.updates w v.tables.records
  told : m.success = true → ∀ run, m.run = some run →
    ∃ aim blueprint change, x.Aims w aim ∧ Tells aim blueprint run.run change
      ∧ v.tables.stageChanges = w.tables.stageChanges ++ [change]
  submitted : m.success = true → m.run = none →
    v.tables.stageChanges = w.tables.stageChanges ∧ v.tables.records = w.tables.records

variable {x : Attempt} {w v : World} {m : MoveResult}

theorem leaves_of_unsaid (hm : m.success = false)
    (hchanges : v.tables.stageChanges = w.tables.stageChanges)
    (hrecords : v.tables.records = w.tables.records) : x.Leaves w m v where
  untold _ := hchanges
  kept _ _ := .inl hrecords
  told h := by rw [hm] at h; cases h
  submitted h := by rw [hm] at h; cases h

theorem leaves_of_applied {b : Blueprint} {aim : Aim} {u : World} (haim : x.Aims w aim)
    (h : b.Applied aim u m v) (hrecords : u.tables.records = w.tables.records)
    (hchanges : u.tables.stageChanges = w.tables.stageChanges)
    (hruns : u.tables.runs = w.tables.runs) (hrivals : u.rivalWrites = w.rivalWrites) :
    x.Leaves w m v where
  untold hm := (congrArg Ledger.stageChanges (h.untold hm)).trans hchanges
  kept hm hle := by
    have kept : Kept aim.record aim.updates w v.tables.records :=
      (h.kept hm (hruns ▸ hle)).congr hrecords hrivals
    exact kept.imp (fun hsame => hsame) fun hupdated => ⟨aim, haim, hupdated.2⟩
  told hm run hrun := by
    obtain ⟨id, change, -, htells, hledger⟩ := h.told hm
    rw [hrun] at htells
    refine ⟨aim, id, change, haim, htells, ?_⟩
    rw [← hchanges]
    exact congrArg Ledger.stageChanges hledger
  submitted _ hrun := by
    have hsome := h.run
    rw [hrun] at hsome
    cases hsome

theorem transition_leaves (ref : BlueprintRef) (record : Uuid) (toStage : String)
    (updates : Fields) (actor : Option String)
    (h : Moved ref record toStage updates actor w m v) :
    (transition ref record toStage updates actor).Leaves w m v := by
  rcases h with ⟨hm, -, rfl⟩ | ⟨r, b, t, hget, -, -, h⟩
  · exact leaves_of_unsaid hm rfl rfl
  · have haim : (transition ref record toStage updates actor).Aims w
        ⟨r, toStage, updates, actor, none⟩ := ⟨hget, rfl⟩
    rcases h with ⟨process, a, u, hs, hm, hrun, htables, -⟩ | ⟨-, h⟩
    · have submits : Files (Approval.submit process r.id actor
          (b.moveContext r.stage toStage updates)) := incidental_submit _ _ _ _
      have files : Filing w u := submits.ok hs
      refine ⟨?_, ?_, ?_, fun _ _ => ?_⟩
      · exact fun h => by rw [hm] at h; cases h
      · exact fun h => by rw [hm] at h; cases h
      · exact fun _ run h => by rw [hrun] at h; cases h
      · rw [htables]
        exact ⟨files.stageChanges, files.records⟩
    · exact leaves_of_applied haim h rfl rfl rfl rfl

theorem approved_leaves (id : Uuid) (actor : Option String)
    (h : Approval.NotBegun id w m v ∨ ∃ a about r row b t, Approval.Due w id a about r row b t
      ∧ Approval.CarriedOut id about b r actor w m v) : (approved id actor).Leaves w m v := by
  rcases h with ⟨hm, -, rfl | ⟨rfl, -⟩⟩ | ⟨a, about, r, row, b, t, due, updates, u, hu, h, hv⟩
  · exact leaves_of_unsaid hm rfl rfl
  · exact leaves_of_unsaid hm rfl rfl
  · have haim : (approved id actor).Aims w ⟨r, Approval.targetOf about, updates, actor, some id⟩ :=
      ⟨a, about, due.found, due.context, due.record, hu, rfl⟩
    have leaves : (approved id actor).Leaves w m u := leaves_of_applied haim h rfl rfl rfl rfl
    cases hm : m.success with
    | true =>
      rw [hm] at hv
      exact hv ▸ leaves
    | false =>
      -- Setting the flag back touches approvals only.
      rw [hm] at hv
      subst hv
      exact ⟨leaves.untold, leaves.kept, leaves.told, leaves.submitted⟩

/-- Whatever is attempted, what it leaves behind agrees with its answer. Also an attempt that fails
leaves the history alone. -/
theorem run_leaves (x : Attempt) (w : World) (hfree : w.RunsFree) :
    Ends x.run w (x.Leaves w) fun _ v => v.tables.stageChanges = w.tables.stageChanges := by
  cases x with
  | transition ref record toStage updates actor =>
    refine (move_ends ref record toStage updates actor hfree).mono
      (fun _ _ => transition_leaves ref record toStage updates actor) fun _ _ h => ?_
    exact h.elim Filing.stageChanges fun h => congrArg Ledger.stageChanges h.2
  | approved id actor =>
    refine (Approval.executeMove_ends id actor hfree).mono
      (fun _ _ => approved_leaves id actor) fun _ _ h => ?_
    rw [h]

@[irreducible]
def winnableDeals : World :=
  let deal : StoredRecord := {
    id := TableName.record.rowId 1
    module := "deals"
    ownerId := none
    stage := some "new"
    title := none
    isOpen := true
    data := .obj [("amount", .int 1)]
    createdBy := none
    version := 1
    createdAt := ⟨0⟩ }
  let winning : StoredBlueprint := {
    id := TableName.blueprint.rowId 1
    name := "winning"
    module := "deals"
    isEnabled := true
    stages := .list [
      .obj [("key", .str "new"), ("transitions", .list [.obj [("to_stage", .str "won")]])],
      .obj [("key", .str "won")]]
    createdAt := ⟨0⟩ }
  let tables := { Tables.empty with records := [deal], blueprints := [winning] }
  { World.initial ⟨⟨0⟩, 0⟩ { Settings.standard with maxActions := 1 } .complete [] with
    tables := tables, saved := tables }

theorem winnableDeals_runsFree : winnableDeals.RunsFree := fun _ _ _ hr => absurd hr (by
  simp [winnableDeals, World.initial, Tables.empty])

def win (updates : Fields) : Attempt :=
  transition .ofModule (TableName.record.rowId 1) "won" updates none

set_option maxRecDepth 10000 in
theorem win_succeeds : passes (win []).run winnableDeals
    (fun m v => m.success && m.run.isSome && decide (v.tables.stageChanges.length = 1)) = true := by
  decide +kernel

/-- The deal is won, and the history tells of it. -/
theorem run_leaves_win : winnableDeals.RunsFree ∧ Ends (win []).run winnableDeals
    (fun m v => m.success = true ∧ (win []).Leaves winnableDeals m v) fun _ _ => False := by
  refine ⟨winnableDeals_runsFree, ?_⟩
  have ends := run_leaves (win []) winnableDeals winnableDeals_runsFree
  refine ((Ends.of_passes win_succeeds).and ends).mono (fun m v h => ⟨?_, h.2⟩) fun _ _ h => h.1
  have htest := h.1
  simp only [Bool.and_eq_true] at htest
  exact htest.1.1

set_option maxRecDepth 10000 in
theorem win_refused : passes (win [("amount", .int 2)]).run winnableDeals
    (fun m v => !m.success && decide (v.tables.records.map StoredRecord.version = [2])) = true := by
  decide +kernel

theorem winnableDeals_versions : winnableDeals.tables.records.map StoredRecord.version = [1] := by
  decide +kernel

/-- With room for one action only the updates are written, and they stay when the move is refused. -/
theorem run_not_undone : ¬ ∀ (x : Attempt) (w : World), w.RunsFree → Ends x.run w
    (fun m v => m.success = false → v.tables.records = w.tables.records) fun _ _ => True := by
  intro h
  have ends := h (win [("amount", .int 2)]) winnableDeals winnableDeals_runsFree
  have both := (Ends.of_passes win_refused).and ends
  have impossible : Ends (win [("amount", .int 2)]).run winnableDeals (fun _ _ => False)
      fun _ _ => False := by
    refine both.mono (fun m v hm => ?_) fun _ _ h => h.1
    obtain ⟨htest, hundone⟩ := hm
    simp only [Bool.and_eq_true, Bool.not_eq_true', decide_eq_true_eq] at htest
    have hversions := htest.2
    rw [hundone htest.1, winnableDeals_versions] at hversions
    cases hversions
  cases hx : (win [("amount", .int 2)]).run winnableDeals with
  | ok _ _ => exact impossible.ok_of hx
  | error _ _ => exact impossible.bad_of hx

end Attempt

end RecordFlow
