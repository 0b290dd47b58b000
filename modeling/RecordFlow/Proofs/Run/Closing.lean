import RecordFlow.Proofs.Run.Upheld

/-! # Runs are closed

Every run that is opened is closed before anything goes on behind it: when its actions are done, when
one of them fails, or when the limit cuts it short. The trail tells of every run once that it was
closed. Only the run that is under way is written to; the rows that stood before it stay as they are.
A run that is nested in another one is closed before the other is, so its row stands behind that of the
other, but the trail tells of it first.
-/
namespace RecordFlow
open RecordFlow.Flow Scoped

/-! ## What the trail tells of runs -/

def AuditEntry.closing? (e : AuditEntry) : Option (String × Value) :=
  if e.tellsRun then some (e.entityId, e.after.fields.getD "status") else none

def closings (notes : List AuditEntry) : List (String × Value) := notes.filterMap (·.closing?)

theorem closings_append (notes more : List AuditEntry) :
    closings (notes ++ more) = closings notes ++ closings more :=
  List.filterMap_append

theorem closings_aside {notes : List AuditEntry} (h : ∀ e ∈ notes, e.tellsRun = false) :
    closings notes = [] :=
  List.filterMap_eq_nil_iff.mpr fun e he => by simp [AuditEntry.closing?, h e he]

namespace Run

def closing (r : Run) : String × Value := (r.id.text, .str r.status)

def finalStatuses : List RunStatus := [.completed, .failed, .capped]

structure IsClosed (r : Run) : Prop where
  status : ∃ s ∈ finalStatuses, r.status = s.name
  finished : r.finishedAt.isSome

theorem IsClosed.not_running {r : Run} (h : r.IsClosed) : r.status ≠ RunStatus.running.name := by
  obtain ⟨s, hs, hstatus⟩ := h.status
  have each : ∀ s ∈ finalStatuses, s.name ≠ RunStatus.running.name := by decide
  exact hstatus ▸ each s hs

end Run

theorem AuditEntry.Closes.closings_eq {e : AuditEntry} {id : Uuid} {status : String}
    (h : e.Closes id status) : closings [e] = [(id.text, .str status)] := by
  have htells : e.tellsRun = true := decide_eq_true h.type
  simp [closings, AuditEntry.closing?, htells, h.run, h.status]

/-! ## Rows behind others -/

structure World.RunsKept (w : World) : Prop where
  saved : w.saved.runs = w.tables.runs
  free : w.RunsFree

/-- Behind some rows there are new ones, numbered from some number on. All of them are closed, and
the trail tells it once of each. -/
structure Closures (rows : List Run) (next : Nat) (trail : List AuditEntry) (v : World)
    (new : List Run) (notes : List AuditEntry) : Prop where
  kept : v.RunsKept
  runs : v.tables.runs = rows ++ new
  numbers : next ≤ v.nextNumber .run
  given : ∀ r ∈ new, ∃ n, next ≤ n ∧ n < v.nextNumber .run ∧ r.id = TableName.run.rowId n
  distinct : (new.map (·.id)).Nodup
  closed : ∀ r ∈ new, r.IsClosed
  audit : v.journal.audit = trail ++ notes
  told : (closings notes).Perm (new.map Run.closing)

/-- The runs that were opened between two worlds are closed, and those that were there before stay as
they are. -/
def ClosesRuns (w v : World) : Prop :=
  w.RunsKept → ∃ new notes,
    Closures w.tables.runs (w.nextNumber .run) w.journal.audit v new notes

namespace Closures
variable {rows new : List Run} {next : Nat} {trail notes more : List AuditEntry} {v u : World}

theorem grow (h : Closures rows next trail v new notes) (hu : ClosesRuns v u) :
    ∃ new' notes', Closures rows next trail u (new ++ new') (notes ++ notes') := by
  obtain ⟨new', notes', h'⟩ := hu h.kept
  refine ⟨new', notes', h'.kept, ?_, Nat.le_trans h.numbers h'.numbers, ?_, ?_, ?_, ?_, ?_⟩
  · rw [h'.runs, h.runs, List.append_assoc]
  · intro r hr
    rcases List.mem_append.mp hr with hr | hr
    · obtain ⟨n, hle, hlt, hid⟩ := h.given r hr
      exact ⟨n, hle, Nat.lt_of_lt_of_le hlt h'.numbers, hid⟩
    · obtain ⟨n, hle, hlt, hid⟩ := h'.given r hr
      exact ⟨n, Nat.le_trans h.numbers hle, hlt, hid⟩
  · rw [List.map_append, List.nodup_append]
    refine ⟨h.distinct, h'.distinct, ?_⟩
    intro id hid id' hid' heq
    obtain ⟨r, hr, rfl⟩ := List.mem_map.mp hid
    obtain ⟨s, hs, rfl⟩ := List.mem_map.mp hid'
    obtain ⟨m, -, hlt, hm⟩ := h.given r hr
    obtain ⟨n, hle, -, hn⟩ := h'.given s hs
    have hnumber := TableName.rowId_injective .run (hm.symm.trans (heq.trans hn))
    omega
  · exact fun r hr => (List.mem_append.mp hr).elim (h.closed r) (h'.closed r)
  · rw [h'.audit, h.audit, List.append_assoc]
  · rw [closings_append, List.map_append]
    exact h.told.append h'.told

end Closures

/-! ## Relations about runs -/

/-- A relation that minds neither what the tables hold beside the runs nor what is noted of other
things. Rows of runs that are saved may be saved again, and may come back. -/
class AboutRuns (R : World → World → Prop) : Prop extends IsPreorder World R where
  beside : ∀ w v : World, w.nextNumber .run ≤ v.nextNumber .run →
    (∃ more, v.journal.audit = w.journal.audit ++ more ∧ ∀ e ∈ more, e.tellsRun = false) →
    (w.saved.runs = w.tables.runs →
      v.tables.runs = w.tables.runs ∧ v.saved.runs = w.tables.runs) → R w v

namespace AboutRuns
variable {R : World → World → Prop} [AboutRuns R] {w v : World}

theorem silent (hnumbers : w.nextNumber .run ≤ v.nextNumber .run)
    (haudit : v.journal.audit = w.journal.audit) (hruns : w.saved.runs = w.tables.runs →
      v.tables.runs = w.tables.runs ∧ v.saved.runs = w.tables.runs) : R w v :=
  beside w v hnumbers ⟨[], haudit.trans (List.append_nil _).symm, List.forall_mem_nil _⟩ hruns

theorem around (htables : v.tables = w.tables) (hsaved : v.saved = w.saved)
    (hnumbers : v.numbers = w.numbers)
    (hnotes : ∃ more, v.journal.audit = w.journal.audit ++ more ∧ ∀ e ∈ more, e.tellsRun = false) :
    R w v :=
  beside w v (Nat.le_of_eq (World.nextNumber_congr hnumbers .run).symm) hnotes fun h =>
    ⟨by rw [htables], by rw [hsaved, h]⟩

theorem commits (w : World) : R w w.committed := silent (Nat.le_refl _) rfl fun _ => ⟨rfl, rfl⟩

theorem undone (w : World) : R w w.rolledBack := silent (Nat.le_refl _) rfl fun h => ⟨h, h⟩

theorem indifferent {ρ : Type} [Stored ρ]
    (h : ∀ (rows : List ρ) (t : Tables), (Stored.setRows rows t).runs = t.runs) :
    Indifferent R ρ where
  setRows rows w := silent (Nat.le_refl _) rfl fun hsaved => ⟨h rows w.tables, hsaved⟩

instance : Lenient R where
  numbered w t := silent (w.nextNumber_le_useNumber t .run) rfl fun h => ⟨rfl, h⟩
  unstored _ _ h hnotes := around h.tables h.saved h.numbers
    (hnotes.imp fun _ h => h.imp_right fun haside e he => (haside e he).run)

instance : Timeless R where
  adjusts _ _ _ _ _ _ := silent (Nat.le_refl _) rfl fun h => ⟨rfl, h⟩

instance : Undoes World.rolledBack R where
  undone := undone

instance : Indifferent R StoredRecord := indifferent fun _ _ => rfl
instance : Indifferent R Child := indifferent fun _ _ => rfl
instance : Indifferent R Cooldown := indifferent fun _ _ => rfl
instance : Indifferent R AssignmentRule := indifferent fun _ _ => rfl
instance : Indifferent R Message := indifferent fun _ _ => rfl
instance : Indifferent R Cadence := indifferent fun _ _ => rfl
instance : Indifferent R StoredWorkflow := indifferent fun _ _ => rfl
instance : Indifferent R Enrollment := indifferent fun _ _ => rfl
instance : Indifferent R Job := indifferent fun _ _ => rfl

instance : Mild R where
  records := inferInstance
  children := inferInstance
  rules := inferInstance
  messages := inferInstance
  cadences := inferInstance
  apart _ _ h hnotes := around h.tables h.saved h.numbers hnotes
  amongst writes w v h := by
    have before : R w { w with rivalWrites := writes } := around rfl rfl rfl ⟨[], by simp⟩
    have after : R v { v with rivalWrites := 0 } := around rfl rfl rfl ⟨[], by simp⟩
    exact trans_of R before (trans_of R h after)
  commits := commits
  undone := undone
  enrolls cadence record by_ := Incidental.upholds (incidental_enroll cadence record by_)
  unenrolls record cadence reason actor :=
    Incidental.upholds (incidental_unenroll record cadence reason actor)

end AboutRuns

instance : AboutRuns ClosesRuns where
  refl w hw := ⟨[], [], hw, (List.append_nil _).symm, Nat.le_refl _, List.forall_mem_nil _,
    List.nodup_nil, List.forall_mem_nil _, (List.append_nil _).symm, .refl _⟩
  trans _ _ _ h h' hw := by
    obtain ⟨new, notes, hv⟩ := h hw
    obtain ⟨new', notes', hu⟩ := hv.grow h'
    exact ⟨new ++ new', notes ++ notes', hu⟩
  beside w v hnumbers haudit hruns hw := by
    obtain ⟨more, haudit, haside⟩ := haudit
    obtain ⟨htables, hsaved⟩ := hruns hw.saved
    refine ⟨[], more, ⟨hsaved.trans htables.symm, ?_⟩, ?_, hnumbers, List.forall_mem_nil _,
      List.nodup_nil, List.forall_mem_nil _, haudit, ?_⟩
    · exact fun n hn r hr => hw.free n (Nat.le_trans hnumbers hn) r (htables ▸ hr)
    · rw [htables, List.append_nil]
    · rw [closings_aside haside]
      exact .refl _

/-! ## A run that is under way -/

/-- Nothing but the want of budget stops an action. -/
theorem Action.perform_stops (react : Reaction) (a : Action) (f : Frame) :
    Ends (perform react a) f (fun _ _ => True) fun e _ => e.isLimit = true := by
  refine perform_of_attempt trivial ?_ fun _ _ _ _ => trivial
  unfold attempt
  cases hc : f.context.budget.consume a.kind with
  | error l => exact .of_error (bind_error (consume_error hc) _) rfl
  | ok b =>
    refine .step (consume_ok hc) ((orFailure_ends Ends.any).bind (fun _ _ h => h.1) ?_)
    rintro (cause | effect) g - -
    · exact .of_ok rfl trivial
    · exact .pure trivial

namespace Run
variable {w v u : World} {id : Uuid} {change : Run → Run} {notes : List AuditEntry}

/-- A write to the row of a run leaves the rows saved and the identifiers to come free. -/
theorem RowSaved.kept (h : RowSaved id change v u notes) (hchange : ∀ r, (change r).id = r.id)
    (hv : v.RunsKept) : u.RunsKept :=
  have settled := h.settled hchange hv.free
  ⟨settled.saved, settled.free⟩

theorem RowSaved.runs_eq (h : RowSaved id change v u notes) :
    u.tables.runs = changeRow id change v.tables.runs := by
  rw [h.rows]
  rfl

/-- A run is under way since a world: its row stands behind those that were there, and behind it stand
the runs that were nested in it, all of them closed. -/
def Underway (w v : World) : Prop :=
  ∃ row inner notes, row.id = TableName.run.rowId (w.nextNumber .run) ∧
    Closures (w.tables.runs ++ [row]) (w.nextNumber .run + 1) w.journal.audit v inner notes

def Over (w v : World) : Prop :=
  ∃ new notes, TableName.run.rowId (w.nextNumber .run) ∈ new.map (·.id) ∧
    Closures w.tables.runs (w.nextNumber .run) w.journal.audit v new notes

theorem Over.closesRuns (h : Over w v) : ClosesRuns w v := fun _ =>
  let ⟨new, notes, _, hv⟩ := h
  ⟨new, notes, hv⟩

theorem Over.later (h : Over w v) (hu : ClosesRuns v u) : Over w u := by
  obtain ⟨new, notes, hmem, hv⟩ := h
  obtain ⟨new', notes', hu⟩ := hv.grow hu
  exact ⟨_, _, by rw [List.map_append]; exact List.mem_append_left _ hmem, hu⟩

theorem Opens.underway {c : Context} {row : Run} (h : Opens c w row v) (hw : w.RunsFree) :
    Underway w v := by
  have settled := h.settled hw
  have hid := h.id
  obtain ⟨-, -, -, rfl⟩ := h
  refine ⟨row, [], [], hid, ⟨settled.saved, settled.free⟩, (List.append_nil _).symm, ?_,
    List.forall_mem_nil _, List.nodup_nil, List.forall_mem_nil _, (List.append_nil _).symm, .refl _⟩
  exact Nat.le_of_eq (w.nextNumber_used .run).symm

namespace Underway

theorem isOpen (h : Underway w v) : IsOpen (TableName.run.rowId (w.nextNumber .run)) v := by
  obtain ⟨row, inner, notes, hid, hv⟩ := h
  exact ⟨row, by rw [hv.runs]; simp, hid⟩

theorem later (h : Underway w v) (hu : ClosesRuns v u) : Underway w u := by
  obtain ⟨row, inner, notes, hid, hv⟩ := h
  obtain ⟨inner', notes', hu⟩ := hv.grow hu
  exact ⟨row, _, _, hid, hu⟩

theorem changed_rows {row : Run} {inner : List Run} {trail : List AuditEntry}
    (hw : w.RunsFree) (hid : row.id = TableName.run.rowId (w.nextNumber .run))
    (hv : Closures (w.tables.runs ++ [row]) (w.nextNumber .run + 1) trail v inner notes)
    {more : List AuditEntry}
    (hu : RowSaved (TableName.run.rowId (w.nextNumber .run)) change v u more) :
    u.tables.runs = w.tables.runs ++ change row :: inner := by
  have hbefore : ∀ r ∈ w.tables.runs, r.id ≠ row.id := fun r hr => hid ▸ hw _ (Nat.le_refl _) r hr
  have hafter : ∀ r ∈ inner, r.id ≠ row.id := by
    intro r hr heq
    obtain ⟨n, hle, -, hn⟩ := hv.given r hr
    have hnumber := TableName.rowId_injective .run (hn.symm.trans (heq.trans hid))
    omega
  rw [hu.runs_eq, hv.runs, ← hid, List.append_assoc]
  exact changeRow_split hbefore hafter

theorem saved (h : Underway w v) (hw : w.RunsFree)
    (hu : RowSaved (TableName.run.rowId (w.nextNumber .run)) change v u [])
    (hchange : ∀ r, (change r).id = r.id) : Underway w u := by
  obtain ⟨row, inner, notes, hid, hv⟩ := h
  have hnext := World.nextNumber_congr hu.numbers .run
  refine ⟨change row, inner, notes, (hchange row).trans hid, hu.kept hchange hv.kept, ?_, ?_, ?_,
    hv.distinct, hv.closed, ?_, hv.told⟩
  · rw [changed_rows hw hid hv hu, List.append_assoc]
    rfl
  · exact hnext ▸ hv.numbers
  · exact hnext ▸ hv.given
  · rw [hu.audit, hv.audit, List.append_nil]

/-- The run is closed, and told of after those that were nested in it. -/
theorem finished (h : Underway w v) (hw : w.RunsFree) {e : AuditEntry} {status : String}
    (hu : RowSaved (TableName.run.rowId (w.nextNumber .run)) change v u [e])
    (he : e.Closes (TableName.run.rowId (w.nextNumber .run)) status)
    (hchange : ∀ r, (change r).id = r.id) (hclosed : ∀ r, (change r).IsClosed)
    (hstatus : ∀ r, (change r).status = status) : Over w u := by
  obtain ⟨row, inner, notes, hid, hv⟩ := h
  have hnext := World.nextNumber_congr hu.numbers .run
  have hid' : (change row).id = TableName.run.rowId (w.nextNumber .run) := (hchange row).trans hid
  refine ⟨change row :: inner, notes ++ [e], ?_, hu.kept hchange hv.kept, changed_rows hw hid hv hu,
    ?_, ?_, ?_, ?_, ?_, ?_⟩
  · exact hid' ▸ List.mem_cons_self
  · rw [hnext]
    exact Nat.le_of_succ_le hv.numbers
  · rw [hnext]
    intro r hr
    rcases List.mem_cons.mp hr with rfl | hr
    · exact ⟨_, Nat.le_refl _, hv.numbers, hid'⟩
    · obtain ⟨n, hle, hlt, hn⟩ := hv.given r hr
      exact ⟨n, Nat.le_of_succ_le hle, hlt, hn⟩
  · rw [List.map_cons, List.nodup_cons]
    refine ⟨fun hmem => ?_, hv.distinct⟩
    obtain ⟨r, hr, heq⟩ := List.mem_map.mp hmem
    obtain ⟨n, hle, -, hn⟩ := hv.given r hr
    have hnumber := TableName.rowId_injective .run (hn.symm.trans (heq.trans hid'))
    omega
  · exact List.forall_mem_cons.mpr ⟨hclosed row, hv.closed⟩
  · rw [hu.audit, hv.audit, List.append_assoc]
  · have hrow : (change row).closing = ((TableName.run.rowId (w.nextNumber .run)).text, .str status) := by
      rw [closing, hid', hstatus]
    rw [closings_append, he.closings_eq, List.map_cons, hrow]
    exact (hv.told.append_right _).trans (List.perm_append_singleton _ _)

end Underway

end Run

/-! ## The course of a run -/

def Progress.IsFinal (p : Progress) : Prop := p.status ∈ Run.finalStatuses

namespace Progress

theorem isFinal_start : start.IsFinal := List.mem_cons_self

theorem isFinal_add {p : Progress} (h : p.IsFinal) (r : ActionResult) : (p.add r).IsFinal := by
  unfold add
  split
  · exact List.mem_cons_of_mem _ List.mem_cons_self
  · exact h

theorem isFinal_cap (p : Progress) (l : LimitReached) : (p.cap l).IsFinal := by
  simp [IsFinal, cap, Run.finalStatuses]

end Progress

namespace Run
variable {react : Reaction} {w : World}

theorem closed_isClosed {p : Progress} (h : p.IsFinal) (consumed : Int) (t : Calendar.Instant)
    (r : Run) : (closed p consumed t r).IsClosed :=
  ⟨⟨p.status, h, rfl⟩, rfl⟩

section Course
variable (hreact : UpholdsReaction ClosesRuns react) (hw : w.RunsFree)
include hreact hw

/-- Carrying out the actions of a run never fails; whatever the actions do, the run stays under way. -/
theorem performFrom_underway (taken : Int) (halts : Bool) (actions : List Action) {p : Progress}
    {f : Frame} (hp : p.IsFinal) (hf : Underway w f.world) :
    Ends (performFrom react (TableName.run.rowId (w.nextNumber .run)) taken halts actions p) f
      (fun p g => p.IsFinal ∧ Underway w g.world) fun _ _ => False := by
  induction actions generalizing p f with
  | nil => exact .pure ⟨hp, hf⟩
  | cons a rest ih =>
    unfold performFrom
    refine .step (a := ()) (t := before rest f) rfl ?_
    have performed : UpholdsIn ClosesRuns (a.perform react) := Action.upholdsIn_perform hreact a
    refine (Action.orLimit_ends ((performed (before rest f)).and
      (Action.perform_stops react a _))).bind (fun e g h => ?_) ?_
    · rw [h.1] at h
      exact Bool.false_ne_true h.2.2
    · rintro (l | r) g - ⟨hg, -⟩
      · exact .of_ok rfl ⟨p.isFinal_cap _, hf.later hg⟩
      · have hg : Underway w g.world := hf.later hg
        obtain ⟨v, hv, hsaved⟩ := checkpoint_ends hg.isOpen (p.add r).executed
          (g.context.budget.consumed - taken)
        have hv' : Underway w v := hg.saved hw hsaved fun _ => rfl
        have hadded : (p.add r).IsFinal := Progress.isFinal_add hp r
        refine .step (context_eq g) (.step (lift_ok hv) ?_)
        refine .ite (fun _ => .pure ⟨hadded, hv'⟩) fun _ => .ite (fun _ => ?_) fun _ => ?_
        · exact .pure ⟨hadded, hv'⟩
        · exact ih hadded hv'

theorem goThrough_over (actions : List Action) (halts : Bool) {f : Frame} (hf : Underway w f.world) :
    Ends (goThrough react (TableName.run.rowId (w.nextNumber .run)) actions halts) f
      (fun r g => r.run = some (TableName.run.rowId (w.nextNumber .run)) ∧ Over w g.world)
      fun _ g => Over w g.world := by
  unfold goThrough
  refine .step (context_eq f) ?_
  refine (performFrom_underway hreact hw _ halts actions Progress.isFinal_start hf).bind
    (fun _ _ h => h.elim) ?_
  rintro p g - ⟨hp, hg⟩
  obtain ⟨v, e, hv, hcloses, hsaved⟩ := finish_ends hg.isOpen f.context.budget.consumed p g.context
  have hover : Over w v := hg.finished hw hsaved hcloses (fun _ => rfl) (closed_isClosed hp _ _)
    fun _ => rfl
  refine .step (context_eq g) (.step (lift_ok hv) ?_)
  cases p.limit with
  | none => exact .pure ⟨rfl, hover⟩
  | some l =>
    have answered {u : World} (hu : Over w u) : Ends (do
        if g.context.parent.isSome then throw (.limit l)
        return result (TableName.run.rowId (w.nextNumber .run)) p g.context : Scoped RunResult)
        { g with world := u }
        (fun r g => r.run = some (TableName.run.rowId (w.nextNumber .run)) ∧ Over w g.world)
        fun _ g => Over w g.world :=
      .guarded (fun _ => hu) fun _ => .pure ⟨rfl, hu⟩
    dsimp only
    split
    · obtain ⟨u, told, hu, -⟩ := tellLimit_ends l g.context v
      have later : ClosesRuns v u := (upholds_tellLimit l g.context).ok hu
      exact .step (lift_ok hu) (answered (hover.later later))
    · exact answered hover

end Course

variable (hreact : UpholdsReaction ClosesRuns react)
include hreact

omit hreact in
theorem openRun_underway (c : Context) (hw : w.RunsKept) :
    Ends (openRun c) w (fun row v => row.id = TableName.run.rowId (w.nextNumber .run) ∧ Underway w v)
      fun _ v => ClosesRuns w v := by
  refine ((openRun_ends c w).and (openRun_refused c w)).mono (fun row v h => ?_) fun e v h => ?_
  · exact ⟨h.1.id, h.1.underway hw.free⟩
  · exact h.2 ▸ Lenient.numbered w .run

/-- A run that could be opened is closed, whether it gives a result or passes a limit on. -/
theorem runActions_over (actions : List Action) (halts : Bool) {f : Frame} (hf : f.world.RunsKept) :
    Ends (runActions react actions halts) f
      (fun r g => r.run = some (TableName.run.rowId (f.world.nextNumber .run)) ∧ Over f.world g.world)
      fun _ g => ClosesRuns f.world g.world := by
  unfold runActions
  refine .step (context_eq f) ((Ends.lift (openRun_underway f.context hf)).bind
    (fun _ _ h => h) ?_)
  rintro row g - ⟨⟨hid, hg⟩, -⟩
  let k : Frame := { g with context := { g.context with run := some row.id } }
  have marked {h : Frame} (hh : Over f.world h.world) (mark : Option String) :
      Over f.world (h.mark mark).world :=
    hh.later (AboutRuns.silent (Nat.le_refl _) rfl fun h => ⟨rfl, h⟩)
  have hk : Underway f.world (k.mark (some row.id.text)).world :=
    hg.later (AboutRuns.silent (Nat.le_refl _) rfl fun h => ⟨rfl, h⟩)
  refine .step (a := ()) (t := k) rfl (marked_ends (.refl ?_)).ends
  rw [hid] at hk ⊢
  exact (goThrough_over hreact hf.free actions halts hk).mono
    (fun r g h mark => ⟨h.1, marked h.2 mark⟩) fun e g h mark => (marked h mark).closesRuns

theorem upholdsRuns_closesRuns : UpholdsRuns ClosesRuns react := fun actions halts f => by
  have ends (hf : f.world.RunsKept) := runActions_over hreact actions halts hf
  cases hx : runActions react actions halts f with
  | ok r g => exact .of_ok hx fun hf => ((ends hf).ok_of hx).2.closesRuns hf
  | error e g =>
    exact .of_error hx fun hf =>
      trans_of ClosesRuns ((ends hf).bad_of hx) (AboutRuns.undone g.world) hf

/-! ## Runs that go on with others -/

def hung (parent : Uuid) (r : Run) : Run := { r with parent := some parent }

omit hreact in
/-- Hanging a run under another writes to its row, if it does anything at all. -/
theorem linkParent_ends (run : Uuid) (parent : Option Uuid) (w : World) :
    Ends (linkParent (some run) parent) w
      (fun _ v => v = w ∨ ∃ p, RowSaved run (hung p) w v []) fun _ _ => False := by
  unfold linkParent
  cases parent with
  | none => exact .pure (.inl rfl)
  | some p =>
    refine .step (find?_eq run w) (.ite (fun _ => ?_) fun _ => .pure (.inl rfl))
    refine .step (update_eq run (hung p) w) (.of_ok (a := ()) rfl (.inr ⟨p, ?_⟩))
    exact ⟨update_rows run (hung p) w ▸ rfl, rfl, rfl, (List.append_nil _).symm⟩

omit hreact in
/-- The rows that stood before a run stay as they are where the run is hung under another. -/
theorem Over.linked {v u : World} {parent : Uuid} (h : Over w v) (hw : w.RunsFree)
    (hu : RowSaved (TableName.run.rowId (w.nextNumber .run)) (hung parent) v u []) : Over w u := by
  obtain ⟨new, notes, hmem, hv⟩ := h
  have hnext := World.nextNumber_congr hu.numbers .run
  let link : Run → Run := fun r =>
    if r.id = TableName.run.rowId (w.nextNumber .run) then hung parent r else r
  have id_link (r : Run) : (link r).id = r.id := by
    unfold link
    split <;> rfl
  have closing_link (r : Run) : (link r).closing = r.closing := by
    unfold link
    split <;> rfl
  have hclosings : (new.map link).map closing = new.map closing :=
    List.map_map.trans (List.map_congr_left fun r _ => closing_link r)
  have hids : (new.map link).map (·.id) = new.map (·.id) := ids_map fun r _ => id_link r
  refine ⟨new.map link, notes, hids ▸ hmem, hu.kept (fun _ => rfl) hv.kept, ?_, hnext ▸ hv.numbers,
    ?_, hids ▸ hv.distinct, ?_, by rw [hu.audit, hv.audit, List.append_nil], ?_⟩
  · rw [hu.runs_eq, hv.runs, changeRow, List.map_append]
    congr 1
    exact changeRow_eq_self fun r hr => hw _ (Nat.le_refl _) r hr
  · intro r hr
    obtain ⟨s, hs, rfl⟩ := List.mem_map.mp hr
    rw [id_link, hnext]
    exact hv.given s hs
  · intro r hr
    obtain ⟨s, hs, rfl⟩ := List.mem_map.mp hr
    have hclosed := hv.closed s hs
    unfold link
    split
    · exact ⟨hclosed.status, hclosed.finished⟩
    · exact hclosed
  · rw [hclosings]
    exact hv.told

theorem upholds_goesOn (c : Context) (actions : List Action) (halts : Bool) (parent : Option Uuid) :
    Upholds ClosesRuns (do
      let (r, _) ← runIn c (runActions react actions halts)
      linkParent r.run parent
      return r) := by
  intro w
  -- nothing is known of the identifier of a run whose rows are not kept, nor is it asked for
  by_cases hw : w.RunsKept
  · have ran : Ends (runIn c (runActions react actions halts)) w
        (fun a v => a.1.run = some (TableName.run.rowId (w.nextNumber .run)) ∧ Over w v)
        fun _ v => ClosesRuns w v :=
      runIn_ends (runActions_over hreact actions halts (f := ⟨w, c⟩) hw)
    refine ran.bind (fun e v h => ?_) ?_
    · exact trans_of ClosesRuns h (AboutRuns.undone v)
    · rintro ⟨r, d⟩ v - ⟨hr, hv⟩
      dsimp only
      rw [hr]
      refine (linkParent_ends _ _ v).bind (fun _ _ h => h.elim) ?_
      rintro - u - (rfl | ⟨p, hu⟩)
      · exact .pure hv.closesRuns
      · exact .pure (hv.linked hw.free hu).closesRuns
  · exact Ends.any.mono (fun _ _ _ h => absurd h hw) fun _ _ _ h => absurd h hw

end Run

instance : Bearing ClosesRuns where
  cooldowns := inferInstance
  workflows := inferInstance
  runs levels := Run.upholdsRuns_closesRuns
    (Workflow.upholdsReaction_reactionOn (fun _ => Run.upholdsRuns_closesRuns) levels)
  goesOn levels := Run.upholds_goesOn
    (Workflow.upholdsReaction_reactionOn (fun _ => Run.upholdsRuns_closesRuns) levels)

end RecordFlow
