import RecordFlow.Proofs.Action.Incidental
import RecordFlow.Proofs.Run.Row

/-! # What a run leaves behind

A part of a run opens runs of its own, which are closed when it ends. Unless an action was refused
for want of budget, every one of them went through its actions. If one was refused, the runs that
were still open then are closed as capped, from the innermost outwards, and the limit is told once,
by the innermost of them. These relations say so, and how they follow upon one another.
-/
namespace RecordFlow

namespace ActionResult

def IsOf (r : ActionResult) (a : Action) : Prop := r.actionId = a.id ∧ r.kind = a.kind

def isLast (halts : Bool) (r : ActionResult) : Bool := r.status = .failed && halts || r.endsRun

def overall (results : List ActionResult) : RunStatus :=
  if results.any (·.status = .failed) then .failed else .completed

theorem overall_cases (results : List ActionResult) :
    overall results = .completed ∨ overall results = .failed := by
  unfold overall
  split
  · exact .inr rfl
  · exact .inl rfl

end ActionResult

/-- The results of actions that were carried out in order, up to one that a run ends with: no action
before that one is without a result. -/
def Action.Performed (halts : Bool) : List Action → List ActionResult → Prop
  | [], results => results = []
  | a :: rest, results => ∃ r more, results = r :: more ∧ r.IsOf a
    ∧ if r.isLast halts then more = [] else Performed halts rest more

namespace Run

def WentThrough (actions : List Action) (halts : Bool) (r : Run) : Prop :=
  ∃ results, Action.Performed halts actions results
    ∧ r.executed = ActionResult.encodeAll results
    ∧ r.status = (ActionResult.overall results).name ∧ r.finishedAt.isSome

def IsDone (workflows : List StoredWorkflow) (r : Run) : Prop :=
  ∃ stored ∈ workflows, ∃ w : Workflow, stored.definition = .valid w ∧ r.workflow = w.id
    ∧ r.WentThrough w.actions w.haltOnFailure

def isCapped (r : Run) : Bool := r.status = RunStatus.capped.name

theorem WentThrough.not_isCapped {actions : List Action} {halts : Bool} {r : Run}
    (h : r.WentThrough actions halts) : r.isCapped = false := by
  obtain ⟨results, -, -, hstatus, -⟩ := h
  rcases ActionResult.overall_cases results with hr | hr
  · rw [isCapped, hstatus, hr]; decide
  · rw [isCapped, hstatus, hr]; decide

theorem IsDone.not_isCapped {workflows : List StoredWorkflow} {r : Run}
    (h : r.IsDone workflows) : r.isCapped = false := by
  obtain ⟨stored, -, w, -, -, hr⟩ := h
  exact hr.not_isCapped

/-- Every run is the parent of the next one; the first has the given parent. -/
def Linked : Option Uuid → List Run → Prop
  | _, [] => True
  | parent, r :: rest => r.parent = parent ∧ Linked (some r.id) rest

/-- How runs that were cut short are told of, in this order: one by one they are closed, the
innermost first, and the limit is told right after the innermost was closed. -/
inductive LimitTold : List Run → List AuditEntry → Prop
  | innermost {r : Run} {earlier : List AuditEntry} {closing told : AuditEntry}
      (quiet : ∀ e ∈ earlier, e.tellsLimit = false)
      (closes : closing.Closes r.id RunStatus.capped.name) (tells : told.tellsLimit = true) :
      LimitTold [r] (earlier ++ [closing, told])
  | outer {r : Run} {inner : List Run} {notes : List AuditEntry} {closing : AuditEntry}
      (before : LimitTold inner notes) (closes : closing.Closes r.id RunStatus.capped.name) :
      LimitTold (r :: inner) (notes ++ [closing])

namespace LimitTold
variable {chain : List Run} {notes : List AuditEntry}

theorem ne_nil (h : LimitTold chain notes) : chain ≠ [] := by
  cases h with
  | innermost => exact List.cons_ne_nil _ _
  | outer => exact List.cons_ne_nil _ _

theorem after (h : LimitTold chain notes) {earlier : List AuditEntry}
    (quiet : ∀ e ∈ earlier, e.tellsLimit = false) : LimitTold chain (earlier ++ notes) := by
  induction h with
  | @innermost r before closing told hbefore closes tells =>
    rw [← List.append_assoc]
    refine .innermost (fun e he => ?_) closes tells
    rcases List.mem_append.mp he with he | he
    · exact quiet e he
    · exact hbefore e he
  | outer before closes ih =>
    rw [← List.append_assoc]
    exact .outer ih closes

/-- The limit is told once. -/
theorem count_eq_one (h : LimitTold chain notes) : notes.countP AuditEntry.tellsLimit = 1 := by
  induction h with
  | @innermost r earlier closing told quiet closes tells =>
    have hearlier : earlier.countP AuditEntry.tellsLimit = 0 :=
      List.countP_eq_zero.mpr fun e he => by simp [quiet e he]
    simp [List.countP_append, hearlier, closes.quiet, tells]
  | outer before closes ih => simp [List.countP_append, ih, closes.quiet]

end LimitTold

variable {workflows : List StoredWorkflow} {l : LimitReached} {parent : Option Uuid}
variable {chain runs earlier : List Run} {notes entries : List AuditEntry}

/-- Runs of which those in `chain` were cut short by a limit, each nested in the one before. -/
structure CutBy (workflows : List StoredWorkflow) (l : LimitReached) (parent : Option Uuid)
    (chain runs : List Run) (notes : List AuditEntry) : Prop where
  linked : Linked parent chain
  innermost : l.cappedRun = chain.getLast?.map (·.id)
  closed : ∀ r ∈ chain, r.output = .obj [("limit", .obj l.encode)] ∧ r.finishedAt.isSome
  capped : runs.filter isCapped = chain
  done : ∀ r ∈ runs, r.isCapped = false → r.IsDone workflows
  told : LimitTold chain notes

theorem filter_isCapped_of_done (h : ∀ r ∈ runs, r.IsDone workflows) :
    runs.filter isCapped = [] :=
  List.filter_eq_nil_iff.mpr fun r hr => by rw [(h r hr).not_isCapped]; decide

namespace CutBy

/-- Notes of something else do not change who was cut short. -/
theorem noted (h : CutBy workflows l parent chain runs notes)
    (hquiet : ∀ e ∈ entries, e.tellsLimit = false) :
    CutBy workflows l parent chain runs (entries ++ notes) :=
  { h with told := h.told.after hquiet }

/-- Runs that went through before the limit was met do not change who was cut short. -/
theorem after (h : CutBy workflows l parent chain runs notes)
    (hdone : ∀ r ∈ earlier, r.IsDone workflows) (hquiet : ∀ e ∈ entries, e.tellsLimit = false) :
    CutBy workflows l parent chain (earlier ++ runs) (entries ++ notes) where
  linked := h.linked
  innermost := h.innermost
  closed := h.closed
  capped := by rw [List.filter_append, filter_isCapped_of_done hdone, h.capped, List.nil_append]
  done r hr hcapped := by
    rcases List.mem_append.mp hr with hr | hr
    · exact hdone r hr
    · exact h.done r hr hcapped
  told := h.told.after hquiet

theorem mem (h : CutBy workflows l parent chain runs notes) {r : Run} (hr : r ∈ chain) :
    r ∈ runs := by
  rw [← h.capped] at hr
  exact (List.mem_filter.mp hr).1

end CutBy

end Run

structure Spent (b c : Budget) : Prop where
  maxActions : c.maxActions = b.maxActions
  grows : b.consumed ≤ c.consumed
  bounded : c.consumed ≤ max b.consumed b.maxActions

namespace Spent
variable {a b c : Budget}

theorem refl (b : Budget) : Spent b b := ⟨rfl, by omega, by omega⟩

theorem trans (h : Spent a b) (h' : Spent b c) : Spent a c where
  maxActions := h'.maxActions.trans h.maxActions
  grows := Int.le_trans h.grows h'.grows
  bounded := by
    have hb := h.bounded
    have hc := h'.bounded
    rw [h.maxActions] at hc
    omega

theorem remaining_le (h : Spent b c) : c.remaining ≤ b.remaining := by
  have hm := h.maxActions
  have hg := h.grows
  simp only [Budget.remaining]
  omega

theorem consume {kind : String} (h : b.consume kind = .ok c) : Spent b c := by
  unfold Budget.consume at h
  split at h
  · cases h
  · cases h
    exact ⟨rfl, by simp only; omega, by simp only; omega⟩

end Spent

structure LimitReached.TellsOf (l : LimitReached) (b : Budget) : Prop where
  maxActions : l.maxActions = b.maxActions
  consumed : l.consumed = b.consumed
  usedUp : b.maxActions ≤ b.consumed

structure SameRun (c d : Context) : Prop where
  run : d.run = c.run
  parent : d.parent = c.parent
  depth : d.depth = c.depth
  budget : Spent c.budget d.budget

namespace SameRun
variable {b c d : Context}

theorem refl (c : Context) : SameRun c c := ⟨rfl, rfl, rfl, .refl c.budget⟩

theorem of_eq (h : d = c) : SameRun c d := h ▸ .refl c

theorem trans (h : SameRun b c) (h' : SameRun c d) : SameRun b d :=
  ⟨h'.run.trans h.run, h'.parent.trans h.parent, h'.depth.trans h.depth,
    h.budget.trans h'.budget⟩

end SameRun

/-- The runs that were opened between two worlds, at depths from `low` to `high`, and the notes
that were written. -/
structure Spread (low high : Int) (w v : World) (new : List Run) (notes : List AuditEntry) :
    Prop where
  settled : v.Settled
  saved : new = [] → v.saved = w.saved
  ledger : v.tables.ledger = w.tables.ledger
  runs : v.tables.runs = w.tables.runs ++ new
  numbers : ∀ t, w.nextNumber t ≤ v.nextNumber t
  given : ∀ r ∈ new, ∃ n, w.nextNumber .run ≤ n ∧ n < v.nextNumber .run ∧
    r.id = TableName.run.rowId n
  depths : ∀ r ∈ new, ∃ d : Int, r.depth = .int d ∧ low ≤ d ∧ d ≤ high
  audit : v.journal.audit = w.journal.audit ++ notes

namespace Spread
variable {low high : Int} {w v u : World} {new more : List Run} {notes told : List AuditEntry}

theorem trans (h : Spread low high w v new notes) (h' : Spread low high v u more told) :
    Spread low high w u (new ++ more) (notes ++ told) where
  settled := h'.settled
  saved hnone := by
    obtain ⟨hnew, hmore⟩ := List.append_eq_nil_iff.mp hnone
    exact (h'.saved hmore).trans (h.saved hnew)
  ledger := h'.ledger.trans h.ledger
  runs := by rw [h'.runs, h.runs, List.append_assoc]
  numbers t := Nat.le_trans (h.numbers t) (h'.numbers t)
  given r hr := by
    rcases List.mem_append.mp hr with hr | hr
    · obtain ⟨n, hn, hlt, hid⟩ := h.given r hr
      exact ⟨n, hn, Nat.lt_of_lt_of_le hlt (h'.numbers .run), hid⟩
    · obtain ⟨n, hn, hlt, hid⟩ := h'.given r hr
      exact ⟨n, Nat.le_trans (h.numbers .run) hn, hlt, hid⟩
  depths r hr := by
    rcases List.mem_append.mp hr with hr | hr
    · exact h.depths r hr
    · exact h'.depths r hr
  audit := by rw [h'.audit, h.audit, List.append_assoc]

theorem after_beside (hb : Beside true w v) (h : Spread low high v u new notes) :
    ∃ more, Spread low high w u new (more ++ notes) ∧ ∀ e ∈ more, e.tellsLimit = false := by
  obtain ⟨more, haudit, hquiet⟩ := hb.notes
  refine ⟨more, ⟨h.settled, fun hnone => (h.saved hnone).trans hb.saved,
    h.ledger.trans hb.ledger, by rw [h.runs, hb.runs], ?_, fun r hr => ?_, h.depths, ?_⟩, hquiet⟩
  · exact fun t => Nat.le_trans (hb.numbers t) (h.numbers t)
  · obtain ⟨n, hn, hlt, hid⟩ := h.given r hr
    exact ⟨n, Nat.le_trans (hb.numbers .run) hn, hlt, hid⟩
  · rw [h.audit, haudit, List.append_assoc]

theorem beside (hw : w.Settled) (h : Beside true w v) :
    ∃ notes, Spread low high w v [] notes ∧ ∀ e ∈ notes, e.tellsLimit = false := by
  obtain ⟨notes, haudit, hquiet⟩ := h.notes
  exact ⟨notes, ⟨hw.beside h, fun _ => h.saved, h.ledger, by rw [h.runs, List.append_nil],
    h.numbers, by simp, by simp, haudit⟩, hquiet⟩

theorem noted (h : Spread low high w v new notes) (htables : u.tables = v.tables)
    (hsaved : u.saved = v.saved) (hnumbers : u.numbers = v.numbers)
    (haudit : u.journal.audit = v.journal.audit ++ told) :
    Spread low high w u new (notes ++ told) := by
  have hnext := World.nextNumber_congr hnumbers
  exact {
    settled := {
      saved := by rw [htables, hsaved, h.settled.saved]
      ledger := by rw [htables, hsaved, h.settled.ledger]
      free := fun n hn r hr => h.settled.free n (hnext .run ▸ hn) r (htables ▸ hr) }
    saved := fun hnone => hsaved.trans (h.saved hnone)
    ledger := htables ▸ h.ledger
    runs := htables ▸ h.runs
    numbers := fun t => hnext t ▸ h.numbers t
    given := hnext .run ▸ h.given
    depths := h.depths
    audit := by rw [haudit, h.audit, List.append_assoc] }

theorem ambient (h : Spread low high w v new notes) (a : Ambient) :
    Spread low high w { v with ambient := a } new notes where
  settled := ⟨h.settled.saved, h.settled.ledger, h.settled.free⟩
  saved := h.saved
  ledger := h.ledger
  runs := h.runs
  numbers := h.numbers
  given := h.given
  depths := h.depths
  audit := h.audit

theorem rollback (h : Spread low high w v new notes) :
    Spread low high w { v with tables := v.saved } new notes where
  settled := h.settled.rollback
  saved := h.saved
  ledger := h.settled.ledger.trans h.ledger
  runs := h.settled.saved.trans h.runs
  numbers := h.numbers
  given := h.given
  depths := h.depths
  audit := h.audit

theorem runs_le (h : Spread low high w v new notes) :
    w.tables.runs.length ≤ v.tables.runs.length := by
  rw [h.runs, List.length_append]
  exact Nat.le_add_right _ _

/-- There are no new runs unless there are more runs. -/
theorem new_eq_nil (h : Spread low high w v new notes)
    (hle : v.tables.runs.length ≤ w.tables.runs.length) : new = [] := by
  rw [h.runs, List.length_append] at hle
  exact List.length_eq_zero_iff.mp (by omega)

end Spread

/-- What a part of a run leaves behind that was not cut short: all runs that it opened are done. One
that opened none has saved nothing; `writes` tells whether it may still have written to records. -/
def Grown (writes : Bool) (high : Int) (workflows : List StoredWorkflow) (f g : Frame) : Prop :=
  ∃ new notes, Spread (f.context.depth + 1) high f.world g.world new notes
    ∧ SameRun f.context g.context ∧ (∀ r ∈ new, r.IsDone workflows)
    ∧ (∀ e ∈ notes, e.tellsLimit = false)
    ∧ (writes = false → new = [] → g.world.tables.records = f.world.tables.records)

def CutShort (high : Int) (workflows : List StoredWorkflow) (l : LimitReached) (f g : Frame) :
    Prop :=
  ∃ new notes chain, Spread (f.context.depth + 1) high f.world g.world new notes
    ∧ SameRun f.context g.context ∧ l.TellsOf g.context.budget
    ∧ Run.CutBy workflows l f.context.run chain new notes

namespace Grown
variable {writes : Bool} {high : Int} {workflows : List StoredWorkflow} {f g h : Frame}

theorem beside (hf : f.world.Settled) (hworld : Beside writes f.world g.world)
    (hcontext : SameRun f.context g.context) : Grown writes high workflows f g := by
  obtain ⟨notes, hs, hquiet⟩ := Spread.beside hf hworld.writing
  exact ⟨[], notes, hs, hcontext, by simp, hquiet, fun hw _ => hworld.records hw⟩

theorem writing (hg : Grown writes high workflows f g) : Grown true high workflows f g := by
  obtain ⟨new, notes, hs, hc, hdone, hquiet, -⟩ := hg
  exact ⟨new, notes, hs, hc, hdone, hquiet, nofun⟩

theorem trans (hg : Grown writes high workflows f g) (hh : Grown writes high workflows g h) :
    Grown writes high workflows f h := by
  obtain ⟨new, notes, hs, hc, hdone, hquiet, hsame⟩ := hg
  obtain ⟨more, told, hs', hc', hdone', hquiet', hsame'⟩ := hh
  rw [hc.depth] at hs'
  refine ⟨_, _, hs.trans hs', hc.trans hc', fun r hr => ?_, fun e he => ?_, fun hw hnone => ?_⟩
  · exact (List.mem_append.mp hr).elim (hdone r) (hdone' r)
  · exact (List.mem_append.mp he).elim (hquiet e) (hquiet' e)
  · obtain ⟨hnew, hmore⟩ := List.append_eq_nil_iff.mp hnone
    exact (hsame' hw hmore).trans (hsame hw hnew)

theorem trans_cutShort {l : LimitReached} (hg : Grown writes high workflows f g)
    (hh : CutShort high workflows l g h) : CutShort high workflows l f h := by
  obtain ⟨new, notes, hs, hc, hdone, hquiet, -⟩ := hg
  obtain ⟨more, told, chain, hs', hc', hl, hcut⟩ := hh
  rw [hc.depth] at hs'
  rw [hc.run] at hcut
  exact ⟨_, _, chain, hs.trans hs', hc.trans hc', hl, hcut.after hdone hquiet⟩

theorem rollback (hg : Grown true high workflows f g) :
    Grown true high workflows f { g with world := { g.world with tables := g.world.saved } } := by
  obtain ⟨new, notes, hs, hc, hdone, hquiet, -⟩ := hg
  exact ⟨new, notes, hs.rollback, hc, hdone, hquiet, nofun⟩

theorem runs_le (hg : Grown writes high workflows f g) :
    f.world.tables.runs.length ≤ g.world.tables.runs.length := by
  obtain ⟨new, notes, hs, -⟩ := hg
  exact hs.runs_le

theorem saved_eq (hg : Grown writes high workflows f g)
    (hle : g.world.tables.runs.length ≤ f.world.tables.runs.length) :
    g.world.saved = f.world.saved := by
  obtain ⟨new, notes, hs, -⟩ := hg
  exact hs.saved (hs.new_eq_nil hle)

theorem records_eq (hg : Grown false high workflows f g)
    (hle : g.world.tables.runs.length ≤ f.world.tables.runs.length) :
    g.world.tables.records = f.world.tables.records := by
  obtain ⟨new, notes, hs, -, -, -, hsame⟩ := hg
  exact hsame rfl (hs.new_eq_nil hle)

end Grown

/-- A run that is cut short in a part was opened in it. -/
theorem CutShort.runs_lt {high : Int} {workflows : List StoredWorkflow} {l : LimitReached}
    {f g : Frame} (h : CutShort high workflows l f g) :
    f.world.tables.runs.length < g.world.tables.runs.length := by
  obtain ⟨new, notes, chain, hs, -, -, hcut⟩ := h
  have hnew : 0 < new.length := by
    refine List.length_pos_iff.mpr fun hnil => hcut.told.ne_nil ?_
    rw [← hcut.capped, hnil]
    rfl
  rw [hs.runs, List.length_append]
  omega

theorem CutShort.settled {high : Int} {workflows : List StoredWorkflow} {l : LimitReached}
    {f g : Frame} (h : CutShort high workflows l f g) : g.world.Settled := by
  obtain ⟨new, notes, chain, hs, -⟩ := h
  exact hs.settled

end RecordFlow
