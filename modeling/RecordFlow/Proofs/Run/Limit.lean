import RecordFlow.Proofs.Run.Cascade

/-! # Runs that are cut short

A run that is under way has a row of its own, behind which the rows of the runs nested in it stand.
When the budget is used up, the run closes as capped; what the result of its actions says about that
is the same for all runs that were open then.
-/
namespace RecordFlow
open RecordFlow.Flow Scoped

/-- A run that is under way since a world: its row, the runs nested in it, and the notes so far. -/
structure Going (high : Int) (c : Context) (w : World) (f : Frame) (row : Run)
    (inner : List Run) (notes : List AuditEntry) : Prop where
  settled : f.world.Settled
  ledger : f.world.tables.ledger = w.tables.ledger
  runs : f.world.tables.runs = w.tables.runs ++ row :: inner
  numbers : ∀ t, w.nextNumber t ≤ f.world.nextNumber t
  number : w.nextNumber .run < f.world.nextNumber .run
  id : row.id = TableName.run.rowId (w.nextNumber .run)
  workflow : row.workflow = c.workflow
  parent : row.parent = c.parent
  depth : row.depth = .int c.depth
  given : ∀ r ∈ inner, ∃ n, w.nextNumber .run < n ∧ n < f.world.nextNumber .run ∧
    r.id = TableName.run.rowId n
  depths : ∀ r ∈ inner, ∃ d : Int, r.depth = .int d ∧ c.depth + 1 ≤ d ∧ d ≤ high
  audit : f.world.journal.audit = w.journal.audit ++ notes
  same : SameRun c f.context
  run : c.run = some row.id

namespace Going
variable {high : Int} {c : Context} {w : World} {f g : Frame} {row : Run}
variable {inner new : List Run} {notes more : List AuditEntry}

theorem inner_ne (h : Going high c w f row inner notes) : ∀ r ∈ inner, r.id ≠ row.id := by
  intro r hr heq
  obtain ⟨n, hn, -, hid⟩ := h.given r hr
  have hnumber := TableName.rowId_injective .run (hid.symm.trans (heq.trans h.id))
  omega

theorem isOpen (h : Going high c w f row inner notes) : Run.IsOpen row.id f.world :=
  ⟨row, by rw [h.runs]; simp, rfl⟩

theorem grow (h : Going high c w f row inner notes)
    (hs : Spread (f.context.depth + 1) high f.world g.world new more)
    (hc : SameRun f.context g.context) : Going high c w g row (inner ++ new) (notes ++ more) where
  settled := hs.settled
  ledger := hs.ledger.trans h.ledger
  runs := by rw [hs.runs, h.runs, List.append_assoc, List.cons_append]
  numbers t := Nat.le_trans (h.numbers t) (hs.numbers t)
  number := Nat.lt_of_lt_of_le h.number (hs.numbers .run)
  id := h.id
  workflow := h.workflow
  parent := h.parent
  depth := h.depth
  given r hr := by
    rcases List.mem_append.mp hr with hr | hr
    · obtain ⟨n, hn, hlt, hid⟩ := h.given r hr
      exact ⟨n, hn, Nat.lt_of_lt_of_le hlt (hs.numbers .run), hid⟩
    · obtain ⟨n, hn, hlt, hid⟩ := hs.given r hr
      exact ⟨n, Nat.lt_of_lt_of_le h.number hn, hlt, hid⟩
  depths r hr := by
    rcases List.mem_append.mp hr with hr | hr
    · exact h.depths r hr
    · exact h.same.depth ▸ hs.depths r hr
  audit := by rw [hs.audit, h.audit, List.append_assoc]
  same := h.same.trans hc
  run := h.run

theorem change (hw : w.RunsFree) (h : Going high c w f row inner notes) {v : World}
    {change : Run → Run} (hv : Run.RowSaved row.id change f.world v more)
    (hid : ∀ r, (change r).id = r.id) (hworkflow : (change row).workflow = row.workflow)
    (hparent : (change row).parent = row.parent) (hdepth : (change row).depth = row.depth) :
    Going high c w { f with world := v } (change row) inner (notes ++ more) := by
  have hnext := World.nextNumber_congr hv.numbers
  have hfresh : ∀ r ∈ w.tables.runs, r.id ≠ row.id := fun r hr => by
    rw [h.id]
    exact hw _ (Nat.le_refl _) r hr
  have hrows : v.tables.runs = w.tables.runs ++ change row :: inner := by
    rw [hv.rows, World.saveRuns, h.runs]
    exact Run.changeRow_split hfresh h.inner_ne
  have hledger : v.tables.ledger = f.world.tables.ledger := by rw [hv.rows]; rfl
  exact {
    settled := hv.settled hid h.settled.free
    ledger := hledger.trans h.ledger
    runs := hrows
    numbers := fun t => by rw [hnext]; exact h.numbers t
    number := by rw [hnext]; exact h.number
    id := (hid row).trans h.id
    workflow := hworkflow.trans h.workflow
    parent := hparent.trans h.parent
    depth := hdepth.trans h.depth
    given := fun r hr => by rw [hnext]; exact h.given r hr
    depths := h.depths
    audit := by rw [hv.audit, h.audit, List.append_assoc]
    same := h.same
    run := h.run.trans (congrArg some (hid row).symm) }

theorem rollback (h : Going high c w f row inner notes) :
    Going high c w { f with world := { f.world with tables := f.world.saved } } row inner notes :=
  { h with
    settled := h.settled.rollback
    ledger := h.settled.ledger.trans h.ledger
    runs := h.settled.saved.trans h.runs }

theorem spread (h : Going high c w f row inner notes) (hhigh : c.depth ≤ high) :
    Spread c.depth high w f.world (row :: inner) notes where
  settled := h.settled
  saved hnone := absurd hnone (List.cons_ne_nil row inner)
  ledger := h.ledger
  runs := h.runs
  numbers := h.numbers
  given r hr := by
    rcases List.mem_cons.mp hr with rfl | hr
    · exact ⟨_, Nat.le_refl _, h.number, h.id⟩
    · obtain ⟨n, hn, hlt, hid⟩ := h.given r hr
      exact ⟨n, Nat.le_of_lt hn, hlt, hid⟩
  depths r hr := by
    rcases List.mem_cons.mp hr with rfl | hr
    · exact ⟨c.depth, h.depth, Int.le_refl _, hhigh⟩
    · obtain ⟨d, hd, hlow, hle⟩ := h.depths r hr
      exact ⟨d, hd, by omega, hle⟩
  audit := h.audit

end Going

theorem Run.Opens.going {high : Int} {c : Context} {w v : World} {row : Run}
    (h : Opens c w row v) (hw : w.RunsFree) : Going high { c with run := some row.id } w
      { world := v, context := { c with run := some row.id } } row [] [] := by
  have settled := h.settled hw
  have hid := h.id
  have hworkflow := h.workflow
  obtain ⟨-, hparent, hdepth, rfl⟩ := h
  have hnext := w.nextNumber_used .run
  exact ⟨settled, rfl, rfl, w.nextNumber_le_useNumber .run, hnext ▸ Nat.lt_succ_self _, hid,
    hworkflow, hparent, hdepth, by simp, by simp, by simp [World.saveRuns, World.useNumber],
    .refl _, rfl⟩

/-! ## Actions of a run -/

structure Uncut (workflows : List StoredWorkflow) (p : Progress) (inner : List Run)
    (notes : List AuditEntry) : Prop where
  limit : p.limit = none
  status : p.status = ActionResult.overall p.executed
  done : ∀ r ∈ inner, r.IsDone workflows
  quiet : ∀ e ∈ notes, e.tellsLimit = false

/-- A run that met the limit: in an action of its own, or in one of a nested run. -/
structure Cut (workflows : List StoredWorkflow) (l : LimitReached) (id : Uuid) (p : Progress)
    (inner : List Run) (notes : List AuditEntry) : Prop where
  limit : p.limit = some l
  status : p.status = .capped
  output : p.output = [("limit", .obj l.encode)]
  place : l.cappedRun = some id ∧ (∀ r ∈ inner, r.IsDone workflows)
      ∧ (∀ e ∈ notes, e.tellsLimit = false)
    ∨ ∃ chain, Run.CutBy workflows l (some id) chain inner notes

namespace Progress

theorem executed_add (p : Progress) (r : ActionResult) :
    (p.add r).executed = p.executed ++ [r] := by
  unfold add
  split
  · rfl
  · rfl

theorem executed_add_append (p : Progress) {r : ActionResult} {all results : List ActionResult}
    (h : all = (p.add r).executed ++ results) : all = p.executed ++ r :: results := by
  rw [h, executed_add, List.append_assoc, List.singleton_append]

theorem output_add (p : Progress) (r : ActionResult) : (p.add r).output = p.output := by
  unfold add
  split
  · rfl
  · rfl

theorem limit_add (p : Progress) (r : ActionResult) : (p.add r).limit = p.limit := by
  unfold add
  split
  · rfl
  · rfl

theorem status_add {p : Progress} (h : p.status = ActionResult.overall p.executed)
    (r : ActionResult) : (p.add r).status = ActionResult.overall (p.add r).executed := by
  rw [executed_add, ActionResult.overall, List.any_append, add]
  split
  · next hr => simp [hr]
  · next hr => simpa [hr, ActionResult.overall] using h

end Progress

namespace Uncut
variable {workflows : List StoredWorkflow} {p : Progress} {inner new : List Run}
variable {notes more : List AuditEntry}

theorem add (h : Uncut workflows p inner notes) (r : ActionResult) :
    Uncut workflows (p.add r) inner notes where
  limit := (p.limit_add r).trans h.limit
  status := p.status_add h.status r
  done := h.done
  quiet := h.quiet

theorem grow (h : Uncut workflows p inner notes) (hdone : ∀ r ∈ new, r.IsDone workflows)
    (hquiet : ∀ e ∈ more, e.tellsLimit = false) :
    Uncut workflows p (inner ++ new) (notes ++ more) where
  limit := h.limit
  status := h.status
  done r hr := (List.mem_append.mp hr).elim (h.done r) (hdone r)
  quiet e he := (List.mem_append.mp he).elim (h.quiet e) (hquiet e)

end Uncut

namespace Run

variable {workflows : List StoredWorkflow}

def LoopEnds (high : Int) (workflows : List StoredWorkflow) (c : Context) (w : World)
    (actions : List Action) (halts : Bool) (before : List ActionResult) (p : Progress)
    (f : Frame) : Prop :=
  ∃ row inner notes, Going high c w f row inner notes
    ∧ ((Uncut workflows p inner notes ∧ ∃ results, Action.Performed halts actions results
        ∧ p.executed = before ++ results)
      ∨ ∃ l, Cut workflows l row.id p inner notes ∧ l.TellsOf f.context.budget
        ∧ ∃ results, p.executed = before ++ results)

theorem orLimit_ends {α : Type} {high : Int} {x y : Scoped α} {f : Frame}
    {ok : α → Frame → Prop} (h : Alike x y f ok (Action.Stops high workflows f)) :
    Alike (orLimit x) (orLimit y) f
      (fun r g => match r with
        | .ok a => ok a g
        | .error l => l.cappedRun = none ∧ l.TellsOf f.context.budget ∧ g = f
            ∨ CutShort high workflows l f g)
      fun _ _ => False := by
  refine ⟨by rw [orLimit, orLimit, h.same], (Action.orLimit_ends h.ends).mono ?_ ?_⟩
  · rintro (l | a) g hg
    · obtain ⟨l, hl, hg⟩ := hg
      cases hl
      exact hg
    · exact hg
  · rintro e g ⟨he, l, rfl, -⟩
    cases he

variable {levels : Nat} {high : Int} {react react' : Reaction}

/-- The limit that stops an action stops the run. -/
theorem cut_of_stop {c : Context} {w : World} {f g : Frame} {row : Run} {inner : List Run}
    {notes : List AuditEntry} {actions : List Action} {halts : Bool} {p : Progress}
    {l : LimitReached} (h : Going high c w f row inner notes)
    (hp : Uncut workflows p inner notes) (hout : p.output = [])
    (hstop : l.cappedRun = none ∧ l.TellsOf f.context.budget ∧ g = f
      ∨ CutShort high workflows l f g) :
    LoopEnds high workflows c w actions halts p.executed (p.cap (l.inRun row.id))
      { g with world := { g.world with tables := g.world.saved } } := by
  have output : (p.cap (l.inRun row.id)).output = [("limit", .obj (l.inRun row.id).encode)] := by
    rw [Progress.cap, hout]
    rfl
  have hbefore : (p.cap (l.inRun row.id)).executed = p.executed ++ [] := (List.append_nil _).symm
  have tells {b : Budget} (hl : l.TellsOf b) : (l.inRun row.id).TellsOf b :=
    ⟨hl.maxActions, hl.consumed, hl.usedUp⟩
  rcases hstop with ⟨hnone, hl, rfl⟩ | ⟨new, more, chain, hs, hc, hl, hcut⟩
  · refine ⟨row, inner, notes, h.rollback,
      .inr ⟨_, ⟨rfl, rfl, output, .inl ⟨?_, ?_⟩⟩, tells hl, [], hbefore⟩⟩
    · rw [LimitReached.inRun, hnone, Option.getD_none]
    · exact ⟨hp.done, hp.quiet⟩
  · have hsame : l.inRun row.id = l := by
      have hlast := List.getLast?_eq_some_getLast hcut.told.ne_nil
      rw [LimitReached.inRun, hcut.innermost, hlast]
      exact congrArg (fun run => { l with cappedRun := run })
        (hcut.innermost.trans (by rw [hlast])).symm
    refine ⟨row, inner ++ new, notes ++ more, h.grow hs.rollback hc,
      .inr ⟨_, ⟨rfl, rfl, output, .inr ⟨chain, ?_⟩⟩, tells hl, [], hbefore⟩⟩
    have hrun : f.context.run = some row.id := h.same.run.trans h.run
    rw [hrun] at hcut
    rw [hsame]
    exact hcut.after hp.done hp.quiet

def before (rest : List Action) (f : Frame) : Frame :=
  { f with context := { f.context with pending := rest } }

def rolledBack (f : Frame) : Frame :=
  { f with world := { f.world with tables := f.world.saved } }

/-- The first of the actions of a run stops it, is its last one, or is followed by the rest; what
the run did is saved in between. -/
theorem performFrom_cons {c : Context} {w : World} (hw : w.RunsFree) (taken : Int) (halts : Bool)
    {a : Action} {rest : List Action} {p : Progress} {f : Frame} {row : Run} {inner : List Run}
    {notes : List AuditEntry} (h : Going high c w f row inner notes)
    (hf : Ready 0 levels high workflows f) {does : ActionResult → Frame → Prop}
    {ok : Progress → Frame → Prop}
    (hperform : Alike (a.perform react) (a.perform react') (before rest f)
      (fun r g => Grown true high workflows (before rest f) g ∧ does r g)
      (Action.Stops high workflows (before rest f)))
    (hstop : ∀ l g, (l.cappedRun = none ∧ l.TellsOf f.context.budget ∧ g = before rest f
      ∨ CutShort high workflows l (before rest f) g) → ok (p.cap (l.inRun row.id)) (rolledBack g))
    (hnext : ∀ r g v new more, does r g → Grown true high workflows (before rest f) g →
      (∀ s ∈ new, s.IsDone workflows) → (∀ e ∈ more, e.tellsLimit = false) →
      RowSaved row.id (checkpointed (p.add r).executed (g.context.budget.consumed - taken)) g.world
        v [] →
      Going high c w { g with world := v } (checkpointed (p.add r).executed
        (g.context.budget.consumed - taken) row) (inner ++ new) (notes ++ more) →
      Ready 0 levels high workflows { g with world := v } →
      (r.status = .failed ∧ halts = true → ok (p.add r) { g with world := v })
        ∧ (r.endsRun = true → ok ((p.add r).handOver r) { g with world := v })
        ∧ (¬ r.isLast halts = true → Alike (performFrom react row.id taken halts rest (p.add r))
          (performFrom react' row.id taken halts rest (p.add r)) { g with world := v } ok
          fun _ _ => False)) :
    Alike (performFrom react row.id taken halts (a :: rest) p)
      (performFrom react' row.id taken halts (a :: rest) p) f ok fun _ _ => False := by
  unfold performFrom
  have h₁ : Going high c w (before rest f) row inner notes :=
    { h with same := h.same.trans ⟨rfl, rfl, rfl, .refl _⟩ }
  have hf₁ : Ready 0 levels high workflows (before rest f) :=
    ⟨hf.settled, hf.workflows, hf.levels, hf.depth⟩
  refine .step (a := ()) (t := before rest f) rfl ?_
  refine (orLimit_ends hperform).bind (fun _ _ h => h) ?_
  rintro (l | r) g hg
  · exact .refl (.of_ok rfl (hstop l g hg))
  · obtain ⟨hgrown, hdoes⟩ := hg
    have ⟨new, more, hs, hc, hdone, hquiet, _⟩ := hgrown
    have h₂ := h₁.grow hs hc
    obtain ⟨v, hv, hsaved⟩ := checkpoint_ends h₂.isOpen (p.add r).executed
      (g.context.budget.consumed - taken)
    have h₃ := h₂.change hw hsaved (fun _ => rfl) rfl rfl rfl
    rw [List.append_nil] at h₃
    have hledger : v.tables.ledger = f.world.tables.ledger := h₃.ledger.trans h.ledger.symm
    have hf₃ : Ready 0 levels high workflows { g with world := v } :=
      hf₁.later h₃.settled hledger hc
    obtain ⟨hhalt, hend, hrest⟩ := hnext r g v new more hdoes hgrown hdone hquiet hsaved h₃ hf₃
    refine .step (context_eq g) (.step (lift_ok hv) ?_)
    refine .ite (fun hhalts => .refl (.pure (hhalt hhalts))) fun hgoes => ?_
    refine .ite (fun hends => .refl (.pure (hend hends))) fun hstays => hrest ?_
    simp only [ActionResult.isLast, Bool.or_eq_true, Bool.and_eq_true, decide_eq_true_eq]
    exact fun h => h.elim hgoes hstays

/-- Carrying out the actions of a run never fails; it goes on until the last action, a failed one,
one that ends the run, or the limit. -/
theorem performFrom_ends (hb : Bounded levels high workflows react react') {c : Context} {w : World}
    (hw : w.RunsFree) (taken : Int) (halts : Bool) (actions : List Action) (p : Progress)
    (f : Frame) (row : Run) (inner : List Run) (notes : List AuditEntry)
    (h : Going high c w f row inner notes) (hf : Ready 0 levels high workflows f)
    (hp : Uncut workflows p inner notes) (hout : p.output = []) :
    Alike (performFrom react row.id taken halts actions p)
      (performFrom react' row.id taken halts actions p) f
      (LoopEnds high workflows c w actions halts p.executed) fun _ _ => False := by
  induction actions generalizing p f row inner notes with
  | nil =>
    exact .refl (.pure ⟨row, inner, notes, h, .inl ⟨hp, [], rfl, (List.append_nil _).symm⟩⟩)
  | cons a rest ih =>
    have h₁ : Going high c w (before rest f) row inner notes :=
      { h with same := h.same.trans ⟨rfl, rfl, rfl, .refl _⟩ }
    have hf₁ : Ready 0 levels high workflows (before rest f) :=
      ⟨hf.settled, hf.workflows, hf.levels, hf.depth⟩
    have hrun : (before rest f).context.run.isSome := by rw [h₁.same.run, h.run]; rfl
    have hperform := (Action.perform_ends hb a hf₁ hrun).mono (fun _ _ h => And.symm h)
      fun _ _ h => h
    refine performFrom_cons hw taken halts h hf hperform ?_ ?_
    · exact fun l g hg => cut_of_stop h₁ hp hout hg
    · intro r g v new more hr hgrown hdone hquiet hsaved h₃ hf₃
      have hp₃ := (hp.grow hdone hquiet).add r
      have last (hlast : r.isLast halts = true) : ∃ results,
          Action.Performed halts (a :: rest) results
            ∧ (p.add r).executed = p.executed ++ results :=
        ⟨[r], ⟨r, [], rfl, hr, by rw [if_pos hlast]⟩, p.executed_add r⟩
      refine ⟨fun hhalts => ?_, fun hends => ?_, fun hgoes => ?_⟩
      · have hlast : r.isLast halts = true := by simp [ActionResult.isLast, hhalts.1, hhalts.2]
        exact ⟨_, _, _, h₃, .inl ⟨hp₃, last hlast⟩⟩
      · have hlast : r.isLast halts = true := by simp [ActionResult.isLast, hends]
        exact ⟨_, _, _, h₃, .inl ⟨{ hp₃ with }, last hlast⟩⟩
      · have hrest := ih _ _ (checkpointed _ _ row) _ _ h₃ hf₃ hp₃ ((p.output_add r).trans hout)
        refine hrest.mono ?_ fun _ _ h => h
        rintro q k ⟨row', inner', notes', hk, ⟨hq, results, hresults, hexecuted⟩
          | ⟨l, hcut, hl, results, hexecuted⟩⟩
        · have hall := p.executed_add_append hexecuted
          have hperformed : Action.Performed halts (a :: rest) (r :: results) :=
            ⟨r, results, rfl, hr, by rw [if_neg hgoes]; exact hresults⟩
          exact ⟨row', inner', notes', hk, .inl ⟨hq, r :: results, hperformed, hall⟩⟩
        · exact ⟨row', inner', notes', hk, .inr ⟨l, hcut, hl, _, p.executed_add_append hexecuted⟩⟩

structure Through (high : Int) (workflows : List StoredWorkflow) (actions : List Action)
    (halts : Bool) (c : Context) (w : World) (r : RunResult) (g : Frame) (row : Run)
    (inner : List Run) (notes : List AuditEntry) : Prop where
  spread : Spread c.depth high w g.world (row :: inner) notes
  budget : Spent c.budget g.context.budget
  id : r.run = some row.id
  workflow : row.workflow = c.workflow
  parent : row.parent = c.parent
  depth : row.depth = .int c.depth
  status : row.status = r.status.name
  going : r.status = .completed ∨ r.status = .failed
  went : row.WentThrough actions halts
  done : ∀ s ∈ inner, s.IsDone workflows
  quiet : ∀ e ∈ notes, e.tellsLimit = false

/-- A run that was cut short, and with it a chain of runs nested in it. -/
structure Capped (high : Int) (workflows : List StoredWorkflow) (c : Context) (w : World)
    (l : LimitReached) (g : Frame) (row : Run) (inner : List Run) (notes : List AuditEntry)
    (chain : List Run) : Prop where
  spread : Spread c.depth high w g.world (row :: inner) notes
  budget : Spent c.budget g.context.budget
  tells : l.TellsOf g.context.budget
  depth : row.depth = .int c.depth
  cut : CutBy workflows l c.parent (row :: chain) (row :: inner) notes

/-- How an open run ends: it goes through, or it is cut short. A nested run passes the limit on, any
other answers with a result. -/
def RunEnds (high : Int) (workflows : List StoredWorkflow) (actions : List Action) (halts : Bool)
    (c : Context) (w : World) (r : RunResult) (g : Frame) : Prop :=
  (∃ row inner notes, Through high workflows actions halts c w r g row inner notes)
    ∨ c.parent = none ∧ r.status = .capped ∧ ∃ l row inner notes chain,
      Capped high workflows c w l g row inner notes chain ∧ r.run = some row.id

def RunFails (high : Int) (workflows : List StoredWorkflow) (c : Context) (w : World) (e : Failure)
    (g : Frame) : Prop :=
  c.parent.isSome ∧ ∃ l row inner notes chain, e = .limit l
    ∧ Capped high workflows c w l g row inner notes chain

theorem closed_cut {l : LimitReached} {id : Uuid} {p : Progress} {inner : List Run}
    {notes : List AuditEntry} (hp : Cut workflows l id p inner notes) (consumed : Int)
    (t : Calendar.Instant) (row : Run) :
    (closed p consumed t row).isCapped = true
      ∧ (closed p consumed t row).output = .obj [("limit", .obj l.encode)]
      ∧ (closed p consumed t row).finishedAt.isSome := by
  have hstatus : (closed p consumed t row).status = RunStatus.capped.name :=
    congrArg RunStatus.name hp.status
  refine ⟨?_, congrArg Value.obj hp.output, rfl⟩
  rw [isCapped, hstatus]
  decide

section Closing
variable {l : LimitReached} {parent : Option Uuid} {row : Run} {inner chain : List Run}
variable {notes : List AuditEntry} {closing told : AuditEntry}

/-- The run in which an action was refused is the innermost of those that are cut short. -/
theorem CutBy.start (hcapped : row.isCapped = true)
    (hclosed : row.output = .obj [("limit", .obj l.encode)] ∧ row.finishedAt.isSome)
    (hparent : row.parent = parent) (hown : l.cappedRun = some row.id)
    (hdone : ∀ r ∈ inner, r.IsDone workflows) (hquiet : ∀ e ∈ notes, e.tellsLimit = false)
    (hcloses : closing.Closes row.id RunStatus.capped.name) (htells : told.tellsLimit = true) :
    CutBy workflows l parent [row] (row :: inner) (notes ++ [closing, told]) where
  linked := ⟨hparent, trivial⟩
  innermost := hown
  closed := by simpa using hclosed
  capped := by rw [List.filter_cons_of_pos hcapped, filter_isCapped_of_done hdone]
  done := by
    rintro s (_ | ⟨_, hs⟩) hs'
    · rw [hcapped] at hs'
      cases hs'
    · exact hdone s hs
  told := .innermost hquiet hcloses htells

theorem CutBy.outer (hcapped : row.isCapped = true)
    (hclosed : row.output = .obj [("limit", .obj l.encode)] ∧ row.finishedAt.isSome)
    (hparent : row.parent = parent) (hcut : CutBy workflows l (some row.id) chain inner notes)
    (hcloses : closing.Closes row.id RunStatus.capped.name) :
    CutBy workflows l parent (row :: chain) (row :: inner) (notes ++ [closing]) where
  linked := ⟨hparent, hcut.linked⟩
  innermost := by rw [hcut.innermost, List.getLast?_cons_of_ne_nil hcut.told.ne_nil]
  closed := by
    rintro s (_ | ⟨_, hs⟩)
    · exact hclosed
    · exact hcut.closed s hs
  capped := by rw [List.filter_cons_of_pos hcapped, hcut.capped]
  done := by
    rintro s (_ | ⟨_, hs⟩) hs'
    · rw [hcapped] at hs'
      cases hs'
    · exact hcut.done s hs hs'
  told := .outer hcut.told hcloses

end Closing

/-- What follows once the limit is told: a nested run passes it on, the outermost one answers. -/
theorem passOn_ends {c : Context} {w : World} {l : LimitReached} {g : Frame} {row : Run}
    {inner : List Run} {notes : List AuditEntry} {chain : List Run} {actions : List Action}
    {halts : Bool} {p : Progress} {d : Context} {id : Uuid} (hid : id = row.id)
    (hparent : d.parent = c.parent) (hp : p.status = .capped)
    (h : Capped high workflows c w l g row inner notes chain) :
    Ends (do
        if d.parent.isSome then throw (.limit l)
        return result id p d : Scoped RunResult) g
      (RunEnds high workflows actions halts c w) (RunFails high workflows c w) := by
  rw [hparent, hid]
  split
  · next hsome => exact .throw ⟨hsome, l, row, inner, notes, chain, rfl, h⟩
  · next hnone =>
    have hparent : c.parent = none := Option.not_isSome_iff_eq_none.mp hnone
    exact .pure (.inr ⟨hparent, hp, l, row, inner, notes, chain, h, rfl⟩)

theorem goThrough_ends (hb : Bounded levels high workflows react react') {c : Context} {w : World}
    (hw : w.RunsFree) (actions : List Action) (halts : Bool) {f : Frame} {row : Run}
    (h : Going high c w f row [] []) (hf : Ready 0 levels high workflows f) :
    Alike (goThrough react row.id actions halts) (goThrough react' row.id actions halts) f
      (RunEnds high workflows actions halts c w) (RunFails high workflows c w) := by
  have hhigh : c.depth ≤ high := by
    have hd := hf.depth
    rw [h.same.depth] at hd
    omega
  have hp : Uncut workflows .start [] [] := ⟨rfl, rfl, by simp, by simp⟩
  unfold goThrough
  refine .step (context_eq f) ?_
  refine (performFrom_ends hb hw _ halts actions .start f row [] [] h hf hp rfl).bind
    (fun _ _ h => h.elim) fun p g hg => ?_
  obtain ⟨row', inner, notes, hgoing, hend⟩ := hg
  have hid : row'.id = row.id := hgoing.id.trans h.id.symm
  rw [← hid]
  obtain ⟨v, e, hv, hcloses, hsaved⟩ := finish_ends hgoing.isOpen f.context.budget.consumed p
    g.context
  refine .step (context_eq g) (.step (lift_ok hv) (.refl ?_))
  let row'' := closed p (g.context.budget.consumed - f.context.budget.consumed)
    g.world.clock.wall row'
  have hclosed : Going high c w { g with world := v } row'' inner (notes ++ [e]) :=
    hgoing.change hw hsaved (fun _ => rfl) rfl rfl rfl
  have hspread := hclosed.spread hhigh
  rcases hend with ⟨hp, results, hresults, hexecuted⟩ | ⟨l, hp, htold, -⟩
  · rw [hp.limit]
    have hstatus : p.status = ActionResult.overall results := by
      rw [hp.status, hexecuted]
      rfl
    have hencoded : row''.executed = ActionResult.encodeAll results :=
      congrArg ActionResult.encodeAll hexecuted
    refine .pure (.inl ⟨row'', inner, notes ++ [e], hspread, hclosed.same.budget, rfl,
      hclosed.workflow, hclosed.parent, hclosed.depth, rfl, ?_, ?_, hp.done, fun e' he' => ?_⟩)
    · have hcases := ActionResult.overall_cases results
      rwa [← hstatus] at hcases
    · exact ⟨results, hresults, hencoded, congrArg RunStatus.name hstatus, rfl⟩
    · rcases List.mem_append.mp he' with he' | he'
      · exact hp.quiet e' he'
      · rw [List.mem_singleton.mp he']
        exact hcloses.quiet
  · rw [hp.limit]
    obtain ⟨hcapped, hrow⟩ := closed_cut hp
      (g.context.budget.consumed - f.context.budget.consumed) g.world.clock.wall row'
    rw [hp.status] at hcloses
    dsimp only
    rcases hp.place with ⟨hown, hdone, hquiet⟩ | ⟨chain, hcut⟩
    · obtain ⟨u, told, hu, htells, htables, hsaved', hnumbers, haudit⟩ := tellLimit_ends l g.context v
      have hs : Spread c.depth high w u (row'' :: inner) (notes ++ [e] ++ [told]) :=
        hspread.noted htables hsaved' hnumbers haudit
      rw [List.append_assoc] at hs
      rw [if_pos hown]
      have hid : row'.id = row''.id := rfl
      have hcut : CutBy workflows l c.parent [row''] (row'' :: inner) (notes ++ ([e] ++ [told])) :=
        .start hcapped hrow hclosed.parent hown hdone hquiet hcloses htells
      exact .step (lift_ok hu) (passOn_ends (g := { g with world := u }) hid hgoing.same.parent
        hp.status ⟨hs, hclosed.same.budget, htold, hclosed.depth, hcut⟩)
    · have hne : l.cappedRun ≠ some row'.id := by
        rw [hcut.innermost, List.getLast?_eq_some_getLast hcut.told.ne_nil]
        intro heq
        have hmem := hcut.mem (List.getLast_mem hcut.told.ne_nil)
        exact hgoing.inner_ne _ hmem (Option.some.inj heq)
      rw [if_neg hne]
      have hid : row'.id = row''.id := rfl
      exact passOn_ends (g := { g with world := v }) hid hgoing.same.parent hp.status
        ⟨hspread, hclosed.same.budget, htold, hclosed.depth,
          .outer hcapped hrow hclosed.parent hcut hcloses⟩

end Run

def Frame.mark (mark : Option String) (f : Frame) : Frame :=
  { f with world := { f.world with ambient := { f.world.ambient with run := mark } } }

theorem Going.mark {high : Int} {c : Context} {w : World} {f : Frame} {row : Run}
    {inner : List Run} {notes : List AuditEntry} (h : Going high c w f row inner notes)
    (mark : Option String) : Going high c w (f.mark mark) row inner notes :=
  ⟨⟨h.settled.saved, h.settled.ledger, h.settled.free⟩, h.ledger, h.runs, h.numbers,
    h.number, h.id, h.workflow, h.parent, h.depth, h.given, h.depths, h.audit, h.same, h.run⟩

namespace Run

theorem marked_eq {α : Type} (run : Uuid) (part : Scoped α) (f : Frame) :
    marked run part f = match part (f.mark (some run.text)) with
      | .ok a g => .ok a (g.mark f.world.ambient.run)
      | .error e g => .error e (g.mark f.world.ambient.run) := by
  have opened : marked run part f = (tryFinally part (liftM (modify fun w : World =>
      { w with ambient := { w.ambient with run := f.world.ambient.run } } : Flow Unit)))
      (f.mark (some run.text)) := rfl
  rw [opened]
  simp only [tryFinally, tryFinally', Functor.map, EStateM.map]
  cases part (f.mark (some run.text)) with
  | ok a g => rfl
  | error e g => rfl

theorem marked_ends {α : Type} {run : Uuid} {x y : Scoped α} {f : Frame}
    {ok : α → Frame → Prop} {bad : Failure → Frame → Prop}
    (h : Alike x y (f.mark (some run.text)) (fun a g => ∀ mark, ok a (g.mark mark))
      fun e g => ∀ mark, bad e (g.mark mark)) :
    Alike (marked run x) (marked run y) f ok bad := by
  refine ⟨by rw [marked_eq, marked_eq, h.same], ?_⟩
  cases hx : x (f.mark (some run.text)) with
  | ok a g => exact .of_ok (by rw [marked_eq, hx]) (h.ends.ok_of hx _)
  | error e g => exact .of_error (by rw [marked_eq, hx]) (h.ends.bad_of hx _)

variable {workflows : List StoredWorkflow} {actions : List Action} {halts : Bool}
variable {c d : Context} {w v : World} {r : RunResult} {e : Failure} {g : Frame}

theorem RunEnds.told (h : RunEnds high workflows actions halts c w r g)
    (hworkflow : c.workflow = d.workflow) (hparent : c.parent = d.parent)
    (hdepth : c.depth = d.depth) (hbudget : c.budget = d.budget) :
    RunEnds high workflows actions halts d w r g := by
  rcases h with ⟨row, inner, notes, h⟩ | ⟨hnone, hr, l, row, inner, notes, chain, h, hid⟩
  · exact .inl ⟨row, inner, notes, hdepth ▸ h.spread, hbudget ▸ h.budget, h.id,
      hworkflow ▸ h.workflow, hparent ▸ h.parent, hdepth ▸ h.depth, h.status, h.going, h.went,
      h.done, h.quiet⟩
  · exact .inr ⟨hparent ▸ hnone, hr, l, row, inner, notes, chain,
      ⟨hdepth ▸ h.spread, hbudget ▸ h.budget, h.tells, hdepth ▸ h.depth, hparent ▸ h.cut⟩, hid⟩

theorem RunFails.told (h : RunFails high workflows c w e g) (hparent : c.parent = d.parent)
    (hdepth : c.depth = d.depth) (hbudget : c.budget = d.budget) :
    RunFails high workflows d w e g := by
  obtain ⟨hsome, l, row, inner, notes, chain, he, h⟩ := h
  exact ⟨hparent ▸ hsome, l, row, inner, notes, chain, he, hdepth ▸ h.spread, hbudget ▸ h.budget,
    h.tells, hdepth ▸ h.depth, hparent ▸ h.cut⟩

theorem RunEnds.mark (h : RunEnds high workflows actions halts c w r g) (mark : Option String) :
    RunEnds high workflows actions halts c w r (g.mark mark) := by
  rcases h with ⟨row, inner, notes, h⟩ | ⟨hnone, hr, l, row, inner, notes, chain, h, hid⟩
  · exact .inl ⟨row, inner, notes, { h with spread := h.spread.ambient _ }⟩
  · exact .inr ⟨hnone, hr, l, row, inner, notes, chain, { h with spread := h.spread.ambient _ }, hid⟩

theorem RunFails.mark (h : RunFails high workflows c w e g) (mark : Option String) :
    RunFails high workflows c w e (g.mark mark) := by
  obtain ⟨hsome, l, row, inner, notes, chain, he, h⟩ := h
  exact ⟨hsome, l, row, inner, notes, chain, he, { h with spread := h.spread.ambient _ }⟩

theorem RunEnds.after (hb : Beside true w v) (h : RunEnds high workflows actions halts c v r g) :
    RunEnds high workflows actions halts c w r g := by
  rcases h with ⟨row, inner, notes, h⟩ | ⟨hnone, hr, l, row, inner, notes, chain, h, hid⟩
  · obtain ⟨more, hs, hquiet⟩ := h.spread.after_beside hb
    refine .inl ⟨row, inner, more ++ notes, { h with spread := hs, quiet := fun e he => ?_ }⟩
    exact (List.mem_append.mp he).elim (hquiet e) (h.quiet e)
  · obtain ⟨more, hs, hquiet⟩ := h.spread.after_beside hb
    exact .inr ⟨hnone, hr, l, row, inner, more ++ notes, chain,
      { h with spread := hs, cut := h.cut.noted hquiet }, hid⟩

theorem RunFails.after (hb : Beside true w v) (h : RunFails high workflows c v e g) :
    RunFails high workflows c w e g := by
  obtain ⟨hsome, l, row, inner, notes, chain, he, h⟩ := h
  obtain ⟨more, hs, hquiet⟩ := h.spread.after_beside hb
  exact ⟨hsome, l, row, inner, more ++ notes, chain, he,
    { h with spread := hs, cut := h.cut.noted hquiet }⟩

structure Unopened (f : Frame) (e : Failure) (g : Frame) : Prop where
  refused : openRun f.context f.world = .error e g.world
  unlimited : e.isLimit = false
  beside : InContext (Beside false) f g

/-- A run is not opened, or it goes through, or it is cut short. -/
theorem runActions_ends (hb : Bounded levels high workflows react react') (actions : List Action)
    (halts : Bool) {f : Frame} (hfree : f.world.RunsFree)
    (hworkflows : f.world.tables.workflows = workflows)
    (hlevels : f.context.budget.remaining ≤ levels)
    (hdepth : f.context.depth + f.context.budget.remaining ≤ high) :
    Alike (runActions react actions halts) (runActions react' actions halts) f
      (RunEnds high workflows actions halts f.context f.world)
      (fun e g => Unopened f e g ∨ RunFails high workflows f.context f.world e g) := by
  unfold runActions
  refine .step (context_eq f) ?_
  have opened : Ends (liftM (openRun f.context) : Scoped Run) f
      (fun row g => Opens f.context f.world row g.world ∧ g.context = f.context)
      (Unopened f) := by
    have ends := openRun_ends f.context f.world
    cases ho : openRun f.context f.world with
    | ok row v => exact .of_ok (lift_ok ho) ⟨ends.ok_of ho, rfl⟩
    | error e v =>
      obtain ⟨hlimit, hbeside⟩ := ends.bad_of ho
      exact .of_error (lift_error ho) ⟨ho, hlimit, hbeside, rfl⟩
  refine (Alike.refl opened).bind (fun _ _ h => .inl h) ?_
  rintro row ⟨v, _⟩ ⟨hrow, rfl⟩
  let c : Context := { f.context with run := some row.id }
  let k : Frame := { world := v, context := c }
  have hk : Going high c f.world (k.mark (some row.id.text)) row [] [] := (hrow.going hfree).mark _
  have hworkflows' : (k.mark (some row.id.text)).world.tables.workflows = workflows :=
    (congrArg Ledger.workflows hk.ledger).trans hworkflows
  refine .step (a := ()) (t := k) rfl (marked_ends ?_)
  refine (goThrough_ends hb hfree actions halts hk ⟨hk.settled, hworkflows', hlevels, ?_⟩).mono ?_ ?_
  · exact (Int.add_zero _).symm ▸ hdepth
  · exact fun r g h mark => (h.told (d := f.context) rfl rfl rfl rfl).mark mark
  · exact fun e g h mark => .inr ((h.told (d := f.context) rfl rfl rfl).mark mark)

end Run

end RecordFlow
