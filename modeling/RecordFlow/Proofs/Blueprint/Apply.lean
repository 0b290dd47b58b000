import RecordFlow.Blueprint.Move
import RecordFlow.Proofs.Run.Launch

/-! # Moves as runs

A move is applied as a run that updates fields first and then moves the record. Each action is saved
by itself: one that fails leaves nothing behind, but it does not take back the one before.
-/
namespace RecordFlow
open RecordFlow.Flow Scoped
variable {workflows : List StoredWorkflow} {levels : Nat} {high : Int} {react : Reaction}

namespace Action

/-- The records after the updates of fields were written over the version of a record that is
given, and nothing else was. -/
def Updated (r : Record) (fields : Fields) (w : World) (records : List StoredRecord) : Prop :=
  ∃ changes u after v, renderChanges r.context fields = .ok changes
    ∧ u.tables.records = w.tables.records ∧ u.rivalWrites = w.rivalWrites
    ∧ Record.patch r.id changes r.version u = .ok after v ∧ records = v.tables.records

theorem Updated.congr {r : Record} {fields : Fields} {w w' : World} {records : List StoredRecord}
    (h : Updated r fields w records) (hrecords : w.tables.records = w'.tables.records)
    (hrivals : w.rivalWrites = w'.rivalWrites) : Updated r fields w' records := by
  obtain ⟨changes, u, after, v, hc, hu, hr, hp, hv⟩ := h
  exact ⟨changes, u, after, v, hc, hu.trans hrecords, hr.trans hrivals, hp, hv⟩

/-- A write leaves nothing else behind in the records unless it triggers a run. -/
theorem applyPatch_ends (hb : Bounded levels high workflows react react) (changes : Fields)
    {f : Frame} (hf : Ready 1 levels high workflows f) (hrun : f.context.run.isSome) :
    Ends (applyPatch react changes) f
      (fun _ g => g.world.tables.runs.length ≤ f.world.tables.runs.length → ∃ after v,
        Record.patch f.context.record.id changes f.context.record.version f.world = .ok after v
          ∧ g.world.tables.records = v.tables.records)
      fun _ _ => True := by
  unfold applyPatch
  refine .step (context_eq f) ?_
  have patched : Incidental (Beside true)
      (Record.patch f.context.record.id changes f.context.record.version) :=
    incidental_patch _ _ _
  cases hp : Record.patch f.context.record.id changes f.context.record.version f.world with
  | error e v => exact .of_error (bind_error (lift_error hp) _) trivial
  | ok after v =>
    have hv : Beside true f.world v := patched.ok hp
    let k : Frame := { world := v, context := { f.context with record := after } }
    have hk : Ready 1 levels high workflows k :=
      hf.later (hf.settled.beside hv) hv.ledger ⟨rfl, rfl, rfl, .refl _⟩
    refine .step (lift_ok hp) (.step (a := ()) (t := k) rfl (.step (t := k) rfl ?_))
    split
    · refine (hb f.context.record after k hk hrun).ends.mono (fun _ g hg hle => ?_)
        fun _ _ _ => trivial
      exact ⟨after, v, rfl, hg.records_eq (hv.runs ▸ hle)⟩
    · exact .pure fun _ => ⟨after, v, rfl, rfl⟩

theorem updateFields_ends (hb : Bounded levels high workflows react react) (fields : Fields)
    {f : Frame} (hf : Ready 1 levels high workflows f) (hrun : f.context.run.isSome)
    (hdry : f.context.isDry = false) :
    Ends (updateFields react fields) f
      (fun effect g => effect.error = none
        ∧ (g.world.tables.runs.length ≤ f.world.tables.runs.length →
          Updated f.context.record fields f.world g.world.tables.records))
      fun _ _ => True := by
  unfold updateFields
  refine .step (context_eq f) ?_
  cases hc : renderChanges f.context.record.context fields with
  | error cause => exact .of_error rfl trivial
  | ok changes =>
    refine .step (a := changes) (t := f) rfl ?_
    cases hv : valuesAt f.context.record.context (Fields.keys changes) with
    | error cause => exact .of_error rfl trivial
    | ok before =>
      refine .step (a := before) (t := f) rfl ?_
      rw [hdry]
      refine (applyPatch_ends hb changes hf hrun).bind (fun _ _ h => h) fun _ g _ hg => ?_
      refine .pure ⟨rfl, fun hle => ?_⟩
      obtain ⟨after, v, hp, hrecords⟩ := hg hle
      exact ⟨changes, f.world, after, v, hc, rfl, rfl, hp, hrecords⟩

theorem moveStage_ends (stage : String) (f : Frame) :
    Ends (moveStage react stage) f (fun effect _ => effect.error = none) fun _ _ => True := by
  unfold moveStage
  refine .step (context_eq f) ?_
  split
  · exact .pure rfl
  · split
    · exact .pure rfl
    · have anyway : Ends (applyPatch react [("stage", .str stage)]) f (fun _ _ => True)
          fun _ _ => True := by
        cases h : applyPatch react [("stage", .str stage)] f with
        | ok _ g => exact .of_ok h trivial
        | error e g => exact .of_error h trivial
      exact anyway.bind (fun _ _ h => h) fun _ _ _ _ => .pure rfl

/-- An action that reports no errors has a result that says success, or it broke off and left
nothing behind. -/
def Decided (P : Tables → Context → Prop) (r : ActionResult) (g : Frame) : Prop :=
  r.status = .success ∧ P g.world.tables g.context
    ∨ r.status = .failed ∧ g.world.tables = g.world.saved

variable {P : Tables → Context → Prop} {a : Action} {f : Frame}

theorem attempt_decided
    (h : ∀ b : Budget, f.context.budget.consume a.kind = .ok b →
      Ends (carryOut react a) { f with context := { f.context with budget := b } }
        (fun effect g => effect.error = none ∧ P g.world.tables g.context) fun _ _ => True) :
    Ends (attempt react a) f (Decided P) fun _ _ => True := by
  unfold attempt
  cases hc : f.context.budget.consume a.kind with
  | error l =>
    refine .of_error (bind_error (t := f) (e := .limit l) ?_ _) trivial
    rw [consume, bind_ok (context_eq f), hc]
    rfl
  | ok b =>
    refine .step (consume_ok hc) ?_
    refine (orFailure_ends (h b hc)).bind (fun _ _ _ => trivial) fun r g _ hg => ?_
    cases r with
    | ok effect =>
      obtain ⟨hnone, hdoes⟩ := hg
      refine .pure (.inl ⟨?_, hdoes⟩)
      rw [Effect.result, hnone]
      rfl
    | error cause => exact .of_ok rfl (.inr ⟨rfl, rfl⟩)

/-- An action without a condition is not passed over. -/
theorem perform_decided (ha : a.condition = none)
    (h : ∀ b : Budget, f.context.budget.consume a.kind = .ok b →
      Ends (carryOut react a) { f with context := { f.context with budget := b } }
        (fun effect g => effect.error = none ∧ P g.world.tables g.context) fun _ _ => True) :
    Ends (perform react a) f (Decided P) fun _ _ => True := by
  have counted (r : ActionResult) {g : Frame} (hg : Decided P r g) : Ends (do
      (count (.action a.kind r.status.name) : Flow Unit)
      return r : Scoped ActionResult) g (Decided P) fun _ _ => True :=
    .step (a := ()) rfl (.pure hg)
  have holds : a.isPassedOver f.context = false := by rw [isPassedOver, ha]; rfl
  unfold perform
  refine .step (context_eq f) ?_
  rw [holds]
  exact (attempt_decided h).bind (fun _ _ h => h) fun r g _ hg => counted r hg

/-- An action that writes to the record is decided, and opens no runs but nested ones. -/
theorem perform_grown (hb : Bounded levels high workflows react react)
    (hf : Ready 0 levels high workflows f) (hrun : f.context.run.isSome) (ha : a.condition = none)
    (h : ∀ b : Budget, f.context.budget.consume a.kind = .ok b →
      Ends (carryOut react a) { f with context := { f.context with budget := b } }
        (fun effect g => effect.error = none ∧ P g.world.tables g.context) fun _ _ => True) :
    Alike (perform react a) (perform react a) f
      (fun r g => Grown true high workflows f g ∧ Decided P r g)
      (Stops high workflows f) :=
  .refl (((perform_ends hb a hf hrun).ends.and (perform_decided ha h)).mono
    (fun _ _ h => ⟨h.1.2, h.2⟩) fun _ _ h => h.1)

end Action

namespace Run

theorem RowSaved.records {id : Uuid} {change : Run → Run} {w v : World} {notes : List AuditEntry}
    (h : RowSaved id change w v notes) : v.tables.records = w.tables.records := by
  rw [h.rows]
  rfl

theorem RowSaved.runs_length {id : Uuid} {change : Run → Run} {w v : World}
    {notes : List AuditEntry} (h : RowSaved id change w v notes) :
    v.tables.runs.length = w.tables.runs.length := by
  rw [h.rows]
  exact List.length_map _

variable {rest : List Action} {f g : Frame} {l : LimitReached} {v : World} {id : Uuid}
variable {change : Run → Run}

/-- Records that were saved before an action stand as they were saved when the action stops the
run, unless it triggered another run. -/
theorem records_of_stop (hsaved : f.world.saved.records = f.world.tables.records)
    (hstop : l.cappedRun = none ∧ l.TellsOf f.context.budget ∧ g = before rest f
      ∨ CutShort high workflows l (before rest f) g) :
    f.world.saved.runs = f.world.tables.runs →
    f.world.tables.runs.length ≤ (rolledBack g).world.tables.runs.length
      ∧ ((rolledBack g).world.tables.runs.length ≤ f.world.tables.runs.length →
        (rolledBack g).world.tables.records = f.world.tables.records) := by
  intro hruns
  rcases hstop with ⟨-, -, rfl⟩ | hcut
  · exact ⟨Nat.le_of_eq (congrArg List.length hruns.symm), fun _ => hsaved⟩
  · have hlt : f.world.tables.runs.length < g.world.tables.runs.length := hcut.runs_lt
    have hback : (rolledBack g).world.tables.runs = g.world.tables.runs := hcut.settled.saved
    rw [hback]
    exact ⟨Nat.le_of_lt hlt, fun hle => absurd hle (Nat.not_le_of_lt hlt)⟩

theorem records_of_failed (hsaved : f.world.saved.records = f.world.tables.records)
    (hgrown : Grown true high workflows (before rest f) g)
    (hback : g.world.tables = g.world.saved) (hv : RowSaved id change g.world v []) :
    f.world.tables.runs.length ≤ v.tables.runs.length
      ∧ (v.tables.runs.length ≤ f.world.tables.runs.length →
        v.tables.records = f.world.tables.records) := by
  rw [hv.runs_length, hv.records]
  refine ⟨hgrown.runs_le, fun hle => ?_⟩
  rw [hback, hgrown.saved_eq hle]
  exact hsaved

def succeeded (position : Nat) (executed : List ActionResult) : Bool :=
  executed[position]?.any (·.status = .success)

theorem succeeded_append {executed results all : List ActionResult} {r : ActionResult}
    (hr : r.status = .success) (h : all = executed ++ r :: results) :
    succeeded executed.length all = true := by
  rw [succeeded, h, List.getElem?_append_right (Nat.le_refl _), Nat.sub_self]
  simpa using hr

/-- The move and what follows it leave the records alone, unless the move succeeds or a run is
triggered. -/
theorem performFrom_move (hb : Bounded levels high workflows react react) {c : Context} {w : World}
    (hw : w.RunsFree) (taken : Int) (toStage : String) (p : Progress) {row : Run}
    {inner : List Run} {notes : List AuditEntry} (h : Going high c w f row inner notes)
    (hf : Ready 0 levels high workflows f) (hp : Uncut workflows p inner notes)
    (hout : p.output = []) (hsaved : f.world.saved.records = f.world.tables.records) :
    Ends (performFrom react row.id taken true (⟨defaultId, none, .moveStage toStage⟩ :: rest) p) f
      (fun q k => succeeded p.executed.length q.executed = false →
        f.world.tables.runs.length ≤ k.world.tables.runs.length
          ∧ (k.world.tables.runs.length ≤ f.world.tables.runs.length →
            k.world.tables.records = f.world.tables.records))
      fun _ _ => False := by
  have hf₁ : Ready 0 levels high workflows (before rest f) :=
    ⟨hf.settled, hf.workflows, hf.levels, hf.depth⟩
  have hrun : (before rest f).context.run.isSome := by rw [before, h.same.run, h.run]; rfl
  have hmove := Action.perform_grown (P := fun _ _ => True) hb hf₁ hrun
    (a := ⟨defaultId, none, .moveStage toStage⟩) rfl fun b _ =>
      (Action.moveStage_ends toStage _).mono (fun _ _ h => ⟨h, trivial⟩) fun _ _ _ => trivial
  refine (performFrom_cons hw taken true h hf hmove ?_ ?_).ends
  · exact fun l g hstop _ => records_of_stop hsaved hstop hf.settled.saved
  · intro r g v new more hdone hgrown hnew hquiet hv h₃ hf₃
    have done (hr : r.status = .success) : succeeded p.executed.length (p.add r).executed = true :=
      succeeded_append hr (p.executed_add r)
    have kept (hnot : succeeded p.executed.length (p.add r).executed = false) :
        f.world.tables.runs.length ≤ v.tables.runs.length
          ∧ (v.tables.runs.length ≤ f.world.tables.runs.length →
            v.tables.records = f.world.tables.records) := by
      rcases hdone with ⟨hr, -⟩ | ⟨-, hback⟩
      · rw [done hr] at hnot
        cases hnot
      · exact records_of_failed hsaved hgrown hback hv
    refine ⟨fun _ => kept, fun _ => kept, fun hgoes => ?_⟩
    -- The run goes on only after a move that succeeded.
    have hr : r.status = .success := by
      rcases hdone with ⟨hr, -⟩ | ⟨hr, -⟩
      · exact hr
      · exact absurd (by simp [ActionResult.isLast, hr]) hgoes
    refine (performFrom_ends hb hw taken true rest (p.add r) _ _ _ _ h₃ hf₃
      ((hp.grow hnew hquiet).add r) ((p.output_add r).trans hout)).mono ?_ fun _ _ h => h
    intro q k hk hnot
    have hall : ∃ results, q.executed = p.executed ++ r :: results := by
      rcases hk with ⟨-, -, -, -, ⟨-, results, -, hq⟩ | ⟨l, -, -, results, hq⟩⟩
      · exact ⟨results, p.executed_add_append hq⟩
      · exact ⟨results, p.executed_add_append hq⟩
    obtain ⟨results, hq⟩ := hall
    rw [succeeded_append hr hq] at hnot
    cases hnot

end Run

namespace Run

theorem goThrough_left {actions : List Action} {halts : Bool} {id : Uuid} {f : Frame}
    {P : List ActionResult → List StoredRecord → Nat → Prop}
    (h : Ends (performFrom react id f.context.budget.consumed halts actions .start) f
      (fun p k => IsOpen id k.world
        ∧ P p.executed k.world.tables.records k.world.tables.runs.length) fun _ _ => False) :
    Ends (goThrough react id actions halts) f
      (fun r g => P r.executed g.world.tables.records g.world.tables.runs.length)
      fun _ _ => True := by
  unfold goThrough
  refine .step (context_eq f) (h.bind (fun _ _ h => h.elim) fun p g _ hg => ?_)
  obtain ⟨hopen, hleft⟩ := hg
  obtain ⟨v, e, hv, -, hsaved⟩ := finish_ends hopen f.context.budget.consumed p g.context
  have hleft' : P p.executed v.tables.records v.tables.runs.length := by
    rw [hsaved.records, hsaved.runs_length]
    exact hleft
  refine .step (context_eq g) (.step (lift_ok hv) ?_)
  cases hp : p.limit with
  | none => exact .pure hleft'
  | some l =>
    -- Telling the limit writes to no table.
    have answer (k : Frame) (hk : k.world.tables = v.tables) : Ends (do
        if g.context.parent.isSome then throw (.limit l)
        return result id p g.context : Scoped RunResult) k
        (fun r g => P r.executed g.world.tables.records g.world.tables.runs.length)
        fun _ _ => True := by
      split
      · exact .throw trivial
      · exact .pure (by rw [hk]; exact hleft')
    dsimp only
    split
    · obtain ⟨u, told, hu, -, htables, -⟩ := tellLimit_ends l g.context v
      exact .step (lift_ok hu) (answer _ htables)
    · exact answer _ rfl

end Run

namespace Blueprint

/-- The records are as they were, or the updates of a move were written to its record. -/
def Kept (r : Record) (updates : Fields) (w : World) (records : List StoredRecord) : Prop :=
  records = w.tables.records ∨ updates.isEmpty = false ∧ Action.Updated r updates w records

open Run in
/-- A move that does not succeed leaves the records as they were, or with the updates that go before
it, unless a run is triggered. -/
theorem performFrom_moveActions (hb : Bounded levels high workflows react react) {c : Context}
    {w : World} (hw : w.RunsFree) (taken : Int) (t : Transition) (toStage : String)
    (updates : Fields) {f : Frame} {row : Run} (h : Going high c w f row [] [])
    (hf : Ready 0 levels high workflows f) (hdry : f.context.isDry = false)
    (hsaved : f.world.saved.records = f.world.tables.records) :
    Ends (performFrom react row.id taken true (moveActions t toStage updates).1 .start) f
      (fun q k => succeeded (moveActions t toStage updates).2 q.executed = false →
        k.world.tables.runs.length ≤ f.world.tables.runs.length →
          Kept f.context.record updates f.world k.world.tables.records)
      fun _ _ => False := by
  have hp : Uncut workflows .start [] [] := ⟨rfl, rfl, by simp, by simp⟩
  unfold moveActions
  cases hnone : updates.isEmpty with
  | true =>
    refine (performFrom_move hb hw taken toStage .start h hf hp rfl hsaved).mono ?_ fun _ _ h => h
    exact fun q k hk hnot hle => .inl ((hk hnot).2 hle)
  | false =>
    let rest : List Action := ⟨defaultId, none, .moveStage toStage⟩ :: t.actions
    have hf₁ : Ready 0 levels high workflows (before rest f) :=
      ⟨hf.settled, hf.workflows, hf.levels, hf.depth⟩
    have hrun : (before rest f).context.run.isSome := by rw [before, h.same.run, h.run]; rfl
    have hupdate := Action.perform_grown
      (P := fun t _ => t.runs.length ≤ f.world.tables.runs.length →
        Action.Updated f.context.record updates f.world t.records) hb hf₁ hrun
      (a := ⟨defaultId, none, .updateFields updates⟩) rfl fun b hconsume => by
        have hspent := Budget.remaining_consume hconsume
        have hl := hf₁.levels
        have hd := hf₁.depth
        refine Action.updateFields_ends hb updates ⟨hf.settled, hf.workflows, ?_, ?_⟩ hrun hdry
        · simp only
          omega
        · simp only
          omega
    refine (performFrom_cons hw taken true h hf hupdate ?_ ?_).ends
    · exact fun l g hstop _ hle => .inl ((records_of_stop hsaved hstop hf.settled.saved).2 hle)
    · intro r g v new more hdone hgrown hnew hquiet hv h₃ hf₃
      have hlength := hv.runs_length
      have kept (hle : v.tables.runs.length ≤ f.world.tables.runs.length) :
          Kept f.context.record updates f.world v.tables.records := by
        rcases hdone with ⟨-, hupdated⟩ | ⟨-, hback⟩
        · exact .inr ⟨hnone, hv.records ▸ hupdated (hlength ▸ hle)⟩
        · exact .inl ((records_of_failed hsaved hgrown hback hv).2 hle)
      refine ⟨fun _ _ => kept, fun _ _ => kept, fun hgoes => .refl ?_⟩
      have hsaved' : v.saved.records = v.tables.records := congrArg Tables.records hv.saved
      have hpos : (Progress.start.add r).executed.length = 1 := by
        rw [Progress.start.executed_add]
        rfl
      refine (performFrom_move hb hw taken toStage (.add .start r) h₃ hf₃
        ((hp.grow hnew hquiet).add r) ((Progress.start.output_add r).trans rfl) hsaved').mono ?_
        fun _ _ h => h
      intro q k hk hnot hle
      rw [hpos] at hk
      obtain ⟨hmore, hsame⟩ := hk hnot
      have hv' : v.tables.runs.length ≤ f.world.tables.runs.length := Nat.le_trans hmore hle
      have hgrown' : f.world.tables.runs.length ≤ v.tables.runs.length :=
        hlength ▸ hgrown.runs_le
      have hrecords := hsame (Nat.le_trans hle hgrown')
      rw [hrecords]
      exact kept hv'

theorem Kept.congr {r : Record} {updates : Fields} {w w' : World} {records : List StoredRecord}
    (h : Kept r updates w records) (hrecords : w.tables.records = w'.tables.records)
    (hrivals : w.rivalWrites = w'.rivalWrites) : Kept r updates w' records :=
  h.imp (fun hsame => hsame.trans hrecords) fun hupdated =>
    ⟨hupdated.1, hupdated.2.congr hrecords hrivals⟩

open Run in
/-- The run of a move that does not succeed leaves the records as they were, or with the updates,
unless it triggers another run. -/
theorem runActions_moveActions (hb : Bounded levels high workflows react react) (t : Transition)
    (toStage : String) (updates : Fields) {f : Frame} (hfree : f.world.RunsFree)
    (hworkflows : f.world.tables.workflows = workflows)
    (hlevels : f.context.budget.remaining ≤ levels)
    (hdepth : f.context.depth + f.context.budget.remaining ≤ high)
    (hdry : f.context.isDry = false) :
    Ends (runActions react (moveActions t toStage updates).1 true) f
      (fun r g => succeeded (moveActions t toStage updates).2 r.executed = false →
        g.world.tables.runs.length ≤ f.world.tables.runs.length + 1 →
          Kept f.context.record updates f.world g.world.tables.records)
      fun _ _ => True := by
  unfold runActions
  refine .step (context_eq f) ?_
  have ends := openRun_ends f.context f.world
  cases ho : openRun f.context f.world with
  | error e v => exact .of_error (bind_error (lift_error ho) _) trivial
  | ok row v =>
    have hrow := ends.ok_of ho
    let c : Context := { f.context with run := some row.id }
    let k : Frame := { world := v, context := c }
    have hk : Going high c f.world (k.mark (some row.id.text)) row [] [] :=
      (hrow.going hfree).mark _
    have hready : Ready 0 levels high workflows (k.mark (some row.id.text)) :=
      ⟨hk.settled, (congrArg Ledger.workflows hk.ledger).trans hworkflows, hlevels,
        (Int.add_zero _).symm ▸ hdepth⟩
    have hsaved : v.saved.records = v.tables.records := by rw [hrow.world]; rfl
    have hrecords : v.tables.records = f.world.tables.records := by rw [hrow.world]; rfl
    have hrivals : v.rivalWrites = f.world.rivalWrites := by rw [hrow.world]; rfl
    have hlength : v.tables.runs.length = f.world.tables.runs.length + 1 := by
      rw [hrow.world]
      exact List.length_append
    have hp : Uncut workflows .start [] [] := ⟨rfl, rfl, by simp, by simp⟩
    have loop := (performFrom_ends hb hfree f.context.budget.consumed true
      (moveActions t toStage updates).1 .start (k.mark (some row.id.text)) row [] [] hk hready hp
      rfl).ends.and (performFrom_moveActions hb hfree f.context.budget.consumed t toStage updates hk
        hready hdry hsaved)
    have left : Ends (goThrough react row.id (moveActions t toStage updates).1 true)
        (k.mark (some row.id.text))
        (fun r g => succeeded (moveActions t toStage updates).2 r.executed = false →
          g.world.tables.runs.length ≤ f.world.tables.runs.length + 1 →
            Kept f.context.record updates f.world g.world.tables.records) fun _ _ => True := by
      refine goThrough_left (P := fun executed records runs =>
        succeeded (moveActions t toStage updates).2 executed = false →
          runs ≤ f.world.tables.runs.length + 1 → Kept f.context.record updates f.world records)
        (loop.mono (fun p g hg => ⟨?_, fun hnot hle => ?_⟩) fun _ _ h => h.1)
      · obtain ⟨row', inner, notes, hgoing, -⟩ := hg.1
        have hid : row'.id = row.id := hgoing.id.trans hk.id.symm
        exact hid ▸ hgoing.isOpen
      · exact (hg.2 hnot (hlength.symm ▸ hle)).congr hrecords hrivals
    refine .step (lift_ok ho) (.step (a := ()) (t := k) rfl (marked_ends (.refl ?_)).ends)
    exact left.mono (fun r g hg _ => hg) fun _ _ _ _ => trivial

/-- The run by which a move is applied. -/
theorem start_moveActions (t : Transition) (toStage : String) (updates : Fields) {c : Context}
    {w : World} (hroot : c.parent = none) (hkey : c.key = none) (hfits : Cell.fits c.depth = true)
    (hdry : c.isDry = false) (hfree : w.RunsFree) :
    Ends (Run.start c (moveActions t toStage updates).1 true) w
      (fun r v => v.RunsFree ∧ (w.Settled → v.Settled) ∧ v.tables.ledger = w.tables.ledger
        ∧ (∀ t, w.nextNumber t ≤ v.nextNumber t)
        ∧ (hasMoved r (moveActions t toStage updates).2 = false →
          v.tables.runs.length ≤ w.tables.runs.length + 1 →
            Kept c.record updates w v.tables.records))
      fun _ _ => False := by
  let l : Launch := .actions (moveActions t toStage updates).1 true
  have hb := Workflow.bounded_reactionOn (fun _ _ => pure ()) (fun _ _ => pure ())
    (c.depth + c.budget.remaining) w.tables.workflows (Nat.le_succ c.budget.remaining)
    (Nat.le_succ c.budget.remaining)
  rw [← Launch.reaction_eq] at hb
  have opens : Ends (Run.runActions c.reaction (moveActions t toStage updates).1 true)
      { world := w, context := c } (fun _ _ => True) fun _ _ => False := by
    refine (Run.runActions_ends hb _ true hfree rfl (Nat.le_refl _) (Int.le_refl _)).ends.mono
      (fun _ _ _ => trivial) fun e g h => ?_
    rcases h with hunopened | ⟨hsome, -⟩
    · obtain ⟨row, v, ho⟩ := Run.openRun_ok hkey hfits w
      have hrefused := hunopened.refused
      rw [ho] at hrefused
      cases hrefused
    · rw [hroot] at hsome
      cases hsome
  have kept := runActions_moveActions hb t toStage updates (f := { world := w, context := c }) hfree
    rfl (Nat.le_refl _) (Int.le_refl _) hdry
  have kept' : Ends (l.run c) w (fun out v => hasMoved out.1 (moveActions t toStage updates).2 = false →
      v.tables.runs.length ≤ w.tables.runs.length + 1 → Kept c.record updates w v.tables.records)
      fun _ _ => False :=
    runIn_ends ((opens.and kept).mono (fun _ _ h => h.2) fun _ _ h => h.1)
  rw [Launch.start_eq]
  refine Ends.map (((l.leaves_ends hroot hfree).and kept').mono ?_ fun e v h => h.2)
  rintro out v ⟨⟨new, notes, h⟩, hkept⟩
  exact ⟨h.free, h.settled, h.ledger, h.numbers, hkept⟩

end Blueprint

end RecordFlow
