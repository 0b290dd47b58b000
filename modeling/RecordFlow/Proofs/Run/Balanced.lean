import RecordFlow.Proofs.Run.Accounting
import RecordFlow.Proofs.Run.Launch

/-! # Cascades add up

A run by itself opens a cascade: its writes trigger further runs, which are nested in it, and so on.
However they end, every run of a cascade adds up, and the outermost tells what the cascade took off
the budget as a whole. What goes on with one of the runs later opens a cascade of its own.
-/
namespace RecordFlow
open RecordFlow.Flow Scoped

/-! ## A run that is under way -/

theorem Progress.going_add {p : Progress} (h : p.status ≠ .capped) (r : ActionResult) :
    (p.add r).status ≠ .capped := by
  unfold add
  split
  · exact nofun
  · exact h

namespace Run

/-- A run that is under way since a world: what it took off the budget so far follows from its results
and from the runs under it, which stand behind its row. -/
structure Booked (c : Context) (w : World) (taken : Int) (p : Progress) (f : Frame) (row : Run)
    (inner : List Run) : Prop where
  id : row.id = TableName.run.rowId (w.nextNumber .run)
  parent : row.parent = c.parent
  trigger : row.trigger = c.trigger
  nest : Nest row.id (w.tables.runs ++ [row]) (w.nextNumber .run + 1) f.world inner
  run : f.context.run = some row.id
  outer : f.context.parent = c.parent
  units : f.context.budget.consumed = taken + p.executed.countP (·.isCarriedOut)
    + unitsUnder row.id inner + if cappedUnder row.id inner then 1 else 0
  status : p.status = .capped ↔ p.limit.isSome
  cut : p.limit = none → cappedUnder row.id inner = false

namespace Booked
variable {c : Context} {w v : World} {taken : Int} {p : Progress} {f g : Frame} {row : Run}
variable {inner new : List Run} {change : Run → Run} {notes : List AuditEntry}

theorem past (h : Booked c w taken p f row inner) : IsPast row.id (w.nextNumber .run + 1) :=
  h.id ▸ isPast_rowId (Nat.lt_succ_self _)

theorem within (h : Booked c w taken p f row inner) : Within row.id f :=
  ⟨h.nest.kept, h.run, h.past.later h.nest.numbers⟩

theorem isOpen (h : Booked c w taken p f row inner) : IsOpen row.id f.world :=
  ⟨row, by rw [h.nest.runs]; simp, rfl⟩

theorem add (h : Booked c w taken p f row inner) (hp : p.limit = none) {r : ActionResult}
    (hg : Costs row.id r.units false f g new) :
    Booked c w taken (p.add r) g row (inner ++ new) where
  id := h.id
  parent := h.parent
  trigger := h.trigger
  nest := h.nest.append h.past hg.nest
  run := hg.run.trans h.run
  outer := hg.parent.trans h.outer
  units := by
    have hresult : (p.add r).executed.countP (·.isCarriedOut)
        = p.executed.countP (·.isCarriedOut) + r.units := by
      rw [p.executed_add, List.countP_append, List.countP_singleton, ActionResult.units]
      split <;> rfl
    rw [hg.units, h.units, hresult, unitsUnder_append, cappedUnder_append, h.cut hp, hg.cut]
    simp only [Bool.or_self, Bool.false_eq_true, if_false]
    omega
  status := by
    have hgoing : p.status ≠ .capped := fun hs => by
      have hsome := h.status.mp hs
      rw [hp] at hsome
      cases hsome
    rw [p.limit_add, hp]
    exact ⟨fun hs => absurd hs (Progress.going_add hgoing r), nofun⟩
  cut _ := by rw [cappedUnder_append, h.cut hp, hg.cut, Bool.or_self]

theorem cap (h : Booked c w taken p f row inner) (hp : p.limit = none) {cut : Bool}
    (hg : Costs row.id (if cut then 1 else 0) cut f g new) (l : LimitReached) :
    Booked c w taken (p.cap l) g row (inner ++ new) where
  id := h.id
  parent := h.parent
  trigger := h.trigger
  nest := h.nest.append h.past hg.nest
  run := hg.run.trans h.run
  outer := hg.parent.trans h.outer
  units := by
    have hresults : (p.cap l).executed = p.executed := rfl
    rw [hg.units, h.units, hresults, unitsUnder_append, cappedUnder_append, h.cut hp, hg.cut,
      Bool.false_or]
    simp only [Bool.false_eq_true, if_false]
    omega
  status := ⟨fun _ => rfl, fun _ => rfl⟩
  cut hnone := nomatch hnone

theorem saved (h : Booked c w taken p f row inner) (hw : w.RunsFree)
    (hv : RowSaved row.id change f.world v notes) (hid : ∀ r, (change r).id = r.id)
    (hparent : (change row).parent = row.parent) (htrigger : (change row).trigger = row.trigger) :
    Booked c w taken p { f with world := v } (change row) inner := by
  have hnext := World.nextNumber_congr hv.numbers .run
  have hbefore : ∀ r ∈ w.tables.runs, r.id ≠ row.id := fun r hr => h.id ▸ hw _ (Nat.le_refl _) r hr
  have hafter : ∀ r ∈ inner, r.id ≠ row.id := by
    intro r hr heq
    obtain ⟨n, hle, -, hn⟩ := h.nest.given r hr
    exact h.past n hle (heq.symm.trans hn)
  have hrows : v.tables.runs = w.tables.runs ++ [change row] ++ inner := by
    rw [hv.runs_eq, h.nest.runs, List.append_assoc, List.append_assoc]
    exact changeRow_split hbefore hafter
  exact {
    id := (hid row).trans h.id
    parent := hparent.trans h.parent
    trigger := htrigger.trans h.trigger
    nest := {
      kept := hv.kept hid h.nest.kept
      runs := hrows
      numbers := hnext ▸ h.nest.numbers
      given := hnext ▸ h.nest.given
      triggered := h.nest.triggered
      linked := (hid row).symm ▸ h.nest.linked
      addsUp := h.nest.addsUp }
    run := h.run.trans (congrArg some (hid row).symm)
    outer := h.outer
    units := (hid row).symm ▸ h.units
    status := h.status
    cut := (hid row).symm ▸ h.cut }

end Booked

/-! ## A run that ends -/

/-- A run that has come to its end: its row stands behind those that were there, before the rows of the
runs under it, and tells by how much the budget went forward. -/
structure Settles (c : Context) (w : World) (g : Frame) (row : Run) (inner : List Run) : Prop where
  id : row.id = TableName.run.rowId (w.nextNumber .run)
  parent : row.parent = c.parent
  trigger : row.trigger = c.trigger
  nest : Nest row.id (w.tables.runs ++ [row]) (w.nextNumber .run + 1) g.world inner
  addsUp : row.AddsUp inner
  units : g.context.budget.consumed = c.budget.consumed + row.units

def Answers (c : Context) (w : World) (g : Frame) : Prop :=
  ∃ row inner, Settles c w g row inner ∧ (c.parent.isSome → row.isCapped = false)

def PassesOn (c : Context) (w : World) (e : Failure) (g : Frame) : Prop :=
  e.isLimit = true ∧ ∃ row inner, Settles c w g row inner ∧ row.isCapped = true

theorem isCapped_closed (p : Progress) (consumed : Int) (t : Calendar.Instant) (r : Run) :
    (closed p consumed t r).isCapped = decide (p.status = .capped) := by
  have named (s : RunStatus) : s.name = RunStatus.capped.name ↔ s = .capped := by
    cases s <;> decide
  exact decide_eq_decide.mpr (named p.status)

section Ending
variable {c : Context} {w v : World} {f g : Frame} {row : Run} {inner : List Run}

theorem Opens.booked (h : Opens c w row v) (hw : w.RunsFree) :
    Booked c w c.budget.consumed .start ⟨v, { c with run := some row.id }⟩ row [] where
  id := h.id
  parent := h.parent
  trigger := h.trigger
  nest := by
    have settled := h.settled hw
    have hruns : v.tables.runs = w.tables.runs ++ [row] := by rw [h.world]; rfl
    have hnext : w.nextNumber .run + 1 ≤ v.nextNumber .run := by
      rw [h.world]
      exact Nat.le_of_eq (w.nextNumber_used .run).symm
    exact .none ⟨settled.saved, settled.free⟩ hruns hnext
  run := rfl
  outer := rfl
  units := by simp [Progress.start, unitsUnder, cappedUnder, under]
  status := by decide
  cut _ := rfl

theorem Booked.addsUp {taken : Int} {p : Progress} (h : Booked c w taken p f row inner)
    (t : Calendar.Instant) : (closed p (f.context.budget.consumed - taken) t row).AddsUp inner := by
  have hcarried : (closed p (f.context.budget.consumed - taken) t row).carriedOut
      = p.executed.countP (·.isCarriedOut) := carriedOut_encodeAll rfl
  have hcut : (decide (p.status = .capped) && cappedUnder row.id inner) = cappedUnder row.id inner := by
    by_cases hs : p.status = .capped
    · rw [decide_eq_true hs, Bool.true_and]
    · have hnone := Option.not_isSome_iff_eq_none.mp fun hsome => hs (h.status.mpr hsome)
      rw [h.cut hnone, Bool.and_false]
  have hunits : f.context.budget.consumed - taken = p.executed.countP (·.isCarriedOut)
      + unitsUnder row.id inner + if cappedUnder row.id inner then 1 else 0 := by
    rw [h.units]
    omega
  rw [AddsUp, isCapped_and_not_isInnermost, hcarried, isCapped_closed]
  exact congrArg Value.int (hunits.trans (by rw [← hcut]; rfl))

theorem Booked.settles {p : Progress} (h : Booked c w c.budget.consumed p f row inner)
    (hw : w.RunsFree) {notes : List AuditEntry} {t : Calendar.Instant}
    (hv : RowSaved row.id (closed p (f.context.budget.consumed - c.budget.consumed) t) f.world v notes) :
    Settles c w { f with world := v }
      (closed p (f.context.budget.consumed - c.budget.consumed) t row) inner := by
  have hclosed := h.saved hw hv (fun _ => rfl) rfl rfl
  exact {
    id := hclosed.id
    parent := hclosed.parent
    trigger := hclosed.trigger
    nest := hclosed.nest
    addsUp := h.addsUp t
    units := by
      have hunits : (closed p (f.context.budget.consumed - c.budget.consumed) t row).units
        = f.context.budget.consumed - c.budget.consumed := rfl
      rw [hunits]
      dsimp only
      omega }

namespace Settles

/-- Nothing of this depends on anything but the rows that are saved, the numbers and the budget. -/
theorem silent (h : Settles c w g row inner) {u : World}
    (hruns : u.tables.runs = g.world.tables.runs) (hsaved : u.saved.runs = g.world.tables.runs)
    (hnumbers : u.numbers = g.world.numbers) : Settles c w { g with world := u } row inner :=
  have hnext := Nat.le_of_eq (World.nextNumber_congr hnumbers .run).symm
  { h with nest := h.nest.silent hruns hsaved hnext }

theorem mark (h : Settles c w g row inner) (mark : Option String) :
    Settles c w (g.mark mark) row inner :=
  h.silent rfl h.nest.kept.saved rfl

theorem rollback (h : Settles c w g row inner) : Settles c w (rolledBack g) row inner :=
  h.silent h.nest.kept.saved h.nest.kept.saved rfl

end Settles

end Ending

section Course
variable {react : Reaction} (hreact : ∀ before after, Spends (react before after))
variable {c : Context} {w : World}
include hreact

/-- Whatever the actions of a run do, it stays under way, and what it took off the budget follows from
its results and from the runs under it. -/
theorem performFrom_booked (hw : w.RunsFree) {taken : Int} (halts : Bool) (actions : List Action)
    {p : Progress} {f : Frame} {row : Run} {inner : List Run} (hp : p.limit = none)
    (h : Booked c w taken p f row inner) :
    Ends (performFrom react row.id taken halts actions p) f
      (fun q g => ∃ row' inner', row'.id = row.id ∧ Booked c w taken q g row' inner')
      fun _ _ => False := by
  induction actions generalizing p f row inner with
  | nil => exact .pure ⟨row, inner, rfl, h⟩
  | cons a rest ih =>
    unfold performFrom
    have h' : Booked c w taken p (before rest f) row inner := { h with }
    refine .step (a := ()) (t := before rest f) rfl ?_
    refine (Action.orLimit_ends (Action.perform_costs hreact a h'.within)).bind ?_ ?_
    · rintro e g ⟨he, hlimit, -⟩
      rw [he] at hlimit
      cases hlimit
    · rintro (l | r) g - hg
      · obtain ⟨-, new, cut, hg⟩ := hg
        exact .of_ok rfl ⟨row, _, rfl, h'.cap hp hg.rollback (l.inRun row.id)⟩
      · obtain ⟨new, hg⟩ := hg
        have hadded := h'.add hp hg
        obtain ⟨v, hv, hsaved⟩ := checkpoint_ends hadded.isOpen (p.add r).executed
          (g.context.budget.consumed - taken)
        let row' := checkpointed (p.add r).executed (g.context.budget.consumed - taken) row
        have hkept : Booked c w taken (p.add r) { g with world := v } row' (inner ++ new) :=
          hadded.saved hw hsaved (fun _ => rfl) rfl rfl
        have hlimit : (p.add r).limit = none := (p.limit_add r).trans hp
        refine .step (context_eq g) (.step (lift_ok hv) ?_)
        refine .ite (fun _ => .pure ⟨row', _, rfl, hkept⟩) fun _ => .ite (fun _ => ?_) fun _ => ?_
        · exact .pure ⟨row', _, rfl, { hkept with }⟩
        · have hrest := ih hlimit hkept
          exact hrest

/-- An open run settles. Where it was cut short, it passes the limit on to the run that it is nested
in, if there is one. -/
theorem goThrough_settles (hw : w.RunsFree) (actions : List Action) (halts : Bool) {f : Frame}
    {row : Run} (hbudget : f.context.budget = c.budget)
    (h : Booked c w c.budget.consumed .start f row []) :
    Ends (goThrough react row.id actions halts) f (fun _ g => Answers c w g) (PassesOn c w) := by
  unfold goThrough
  refine .step (context_eq f) ?_
  rw [hbudget]
  refine (performFrom_booked hreact hw halts actions rfl h).bind (fun _ _ h => h.elim) ?_
  rintro p g - ⟨row', inner, hid, hg⟩
  rw [← hid]
  obtain ⟨v, e, hv, -, hsaved⟩ := finish_ends hg.isOpen c.budget.consumed p g.context
  refine .step (context_eq g) (.step (lift_ok hv) ?_)
  have settles := hg.settles hw hsaved
  let row'' := closed p (g.context.budget.consumed - c.budget.consumed) g.world.clock.wall row'
  have hcapped : row''.isCapped = decide (p.status = .capped) := isCapped_closed p _ _ row'
  cases hl : p.limit with
  | none =>
    refine .pure ⟨row'', inner, settles, fun _ => hcapped.trans (decide_eq_false fun hs => ?_)⟩
    have hsome := hg.status.mp hs
    rw [hl] at hsome
    cases hsome
  | some l =>
    have hcapped : row''.isCapped = true :=
      hcapped.trans (decide_eq_true (hg.status.mpr (by rw [hl]; rfl)))
    have answered {u : World} (hu : Settles c w { g with world := u } row'' inner) : Ends (do
        if g.context.parent.isSome then throw (.limit l)
        return result row'.id p g.context : Scoped RunResult) { g with world := u }
        (fun _ g => Answers c w g) (PassesOn c w) := by
      refine .guarded (fun _ => ⟨rfl, row'', inner, hu, hcapped⟩) fun hnone => ?_
      exact .pure ⟨row'', inner, hu, fun hsome => absurd (hg.outer.symm ▸ hsome) hnone⟩
    dsimp only
    split
    · obtain ⟨u, told, hu, -, htables, hsaved, hnumbers, -⟩ := tellLimit_ends l g.context v
      exact .step (lift_ok hu) (answered (settles.silent (congrArg Tables.runs htables)
        ((congrArg Tables.runs hsaved).trans settles.nest.kept.saved) hnumbers))
    · exact answered settles

/-- A run is not opened, or it comes to its end. -/
theorem runActions_settles (actions : List Action) (halts : Bool) {f : Frame}
    (hf : f.world.RunsKept) :
    Ends (runActions react actions halts) f (fun _ g => Answers f.context f.world g)
      fun e g => e.isLimit = false ∧ InContext (Beside false) f g
        ∨ PassesOn f.context f.world e g := by
  have opened : Ends (liftM (openRun f.context) : Scoped Run) f
      (fun row g => Opens f.context f.world row g.world ∧ g.context = f.context)
      fun e g => e.isLimit = false ∧ InContext (Beside false) f g := by
    have ends := openRun_ends f.context f.world
    cases ho : openRun f.context f.world with
    | ok row v => exact .of_ok (lift_ok ho) ⟨ends.ok_of ho, rfl⟩
    | error e v =>
      obtain ⟨hlimit, hbeside⟩ := ends.bad_of ho
      exact .of_error (lift_error ho) ⟨hlimit, hbeside, rfl⟩
  unfold runActions
  refine .step (context_eq f) (opened.bind (fun _ _ h => .inl h) ?_)
  rintro row ⟨v, _⟩ - ⟨hrow, rfl⟩
  let k : Frame := { world := v, context := { f.context with run := some row.id } }
  have hk : Booked f.context f.world f.context.budget.consumed .start k row [] :=
    hrow.booked hf.free
  have hmarked : Booked f.context f.world f.context.budget.consumed .start
      (k.mark (some row.id.text)) row [] :=
    { hk with nest := hk.nest.silent rfl hk.nest.kept.saved (Nat.le_refl _) }
  refine .step (a := ()) (t := k) rfl (marked_ends (.refl ?_)).ends
  have ends := goThrough_settles (c := f.context) (f := k.mark (some row.id.text)) hreact hf.free
    actions halts rfl hmarked
  refine ends.mono ?_ ?_
  · exact fun r g ⟨row, inner, h, hcapped⟩ mark => ⟨row, inner, h.mark mark, hcapped⟩
  · exact fun e g ⟨he, row, inner, h, hcapped⟩ mark =>
      .inr ⟨he, row, inner, h.mark mark, hcapped⟩

end Course

namespace Settles
variable {c : Context} {w : World} {g : Frame} {row : Run} {inner : List Run} {id : Uuid}

theorem under_eq (h : Settles c w g row inner) (hparent : c.parent = some id)
    (htrigger : c.trigger ∈ writeTriggers) (hid : IsPast id (w.nextNumber .run)) :
    under id (row :: inner) = [row] := by
  have hrow : under id (row :: inner) = row :: under id inner :=
    List.filter_cons_of_pos (by simp [h.parent, h.trigger, hparent, htrigger])
  have hinner : under id inner = [] := by
    refine h.nest.under_eq_nil (h.id ▸ hid _ (Nat.le_refl _)) fun r hr => ?_
    obtain ⟨n, hle, -, hn⟩ := h.nest.given r hr
    exact hn ▸ (hid n (Nat.le_of_succ_le hle)).symm
  rw [hrow, hinner]

theorem nested (h : Settles c w g row inner) (hparent : c.parent = some id)
    (htrigger : c.trigger ∈ writeTriggers) (hid : IsPast id (w.nextNumber .run)) :
    Nest id w.tables.runs (w.nextNumber .run) g.world (row :: inner) := by
  have given : ∀ r ∈ row :: inner, ∃ n, w.nextNumber .run ≤ n ∧ n < g.world.nextNumber .run
      ∧ r.id = TableName.run.rowId n := by
    rintro r (_ | ⟨_, hr⟩)
    · exact ⟨_, Nat.le_refl _, h.nest.numbers, h.id⟩
    · obtain ⟨n, hle, hlt, hn⟩ := h.nest.given r hr
      exact ⟨n, Nat.le_of_succ_le hle, hlt, hn⟩
  exact {
    kept := h.nest.kept
    runs := by rw [h.nest.runs, List.append_assoc]; rfl
    numbers := Nat.le_of_succ_le h.nest.numbers
    given := given
    triggered := List.forall_mem_cons.mpr ⟨h.trigger ▸ htrigger, h.nest.triggered⟩
    linked := by
      refine List.forall_mem_cons.mpr ⟨.inl (h.parent.trans hparent), fun r hr => .inr ?_⟩
      rcases h.nest.linked r hr with hr | ⟨s, hs, hr⟩
      · exact ⟨row, List.mem_cons_self, hr⟩
      · exact ⟨s, List.mem_cons_of_mem row hs, hr⟩
    addsUp := by
      intro r hr
      have hadds : r.AddsUp inner := by
        rcases List.mem_cons.mp hr with rfl | hr
        · exact h.addsUp
        · exact h.nest.addsUp r hr
      obtain ⟨n, hle, -, hn⟩ := given r hr
      have hother : row.parent ≠ some r.id := fun heq =>
        hid n hle (hn ▸ Option.some.inj (hparent.symm.trans (h.parent.symm.trans heq)))
      exact hadds.congr (by simp [under, hother]) }

end Settles

end Run

/-! ## Workflows that a write triggers -/

namespace Workflow
variable {react : Reaction} (hreact : ∀ before after, Spends (react before after))

def Idle (f g : Frame) : Prop :=
  Beside true f.world g.world ∧ g.context.budget.consumed = f.context.budget.consumed

include hreact

/-- A workflow opens no run, or a run of its own comes to its end. -/
theorem execute_settles (w : Workflow) (record : Record) {f : Frame} (hf : f.world.RunsKept) :
    Ends (execute react w record) f
      (fun _ g => Idle f g ∨ ∃ v, Beside true f.world v
        ∧ Run.Answers (w.cappedBudget (w.considering record f.context)) v g)
      fun e g => e.isLimit = false ∧ Idle f g ∨ ∃ v, Beside true f.world v
        ∧ Run.PassesOn (w.cappedBudget (w.considering record f.context)) v e g := by
  unfold execute
  let c : Context := w.considering record f.context
  refine .step (a := ()) (t := { f with context := c }) rfl (.step (context_eq _) ?_)
  have idle {g : Frame} (hg : InContext (Beside true) { f with context := c } g) : Idle f g :=
    ⟨hg.world, by rw [hg.context]; rfl⟩
  have launched (g : Frame) (hg : InContext (Beside true) { f with context := c } g) : Ends (do
      changeContext w.cappedBudget
      Run.runActions react w.actions w.haltOnFailure) g
      (fun _ k => Idle f k ∨ ∃ v, Beside true f.world v ∧ Run.Answers (w.cappedBudget c) v k)
      fun e k => e.isLimit = false ∧ Idle f k
        ∨ ∃ v, Beside true f.world v ∧ Run.PassesOn (w.cappedBudget c) v e k := by
    obtain ⟨v, d⟩ := g
    obtain rfl : d = c := hg.context
    have hv : v.RunsKept := ⟨by rw [hg.world.saved, hg.world.runs, hf.saved], hf.free.beside hg.world⟩
    refine .step (a := ()) (t := { world := v, context := w.cappedBudget c }) rfl
      ((Run.runActions_settles hreact w.actions w.haltOnFailure hv).mono ?_ ?_)
    · exact fun r k h => .inr ⟨v, hg.world, h⟩
    · rintro e k (⟨he, hk⟩ | h)
      · refine .inl ⟨he, hg.world.trans hk.world.writing, ?_⟩
        obtain ⟨m, -, hbudget⟩ := w.cappedBudget_eq c
        rw [hk.context]
        dsimp only
        rw [hbudget]
        rfl
      · exact .inr ⟨v, hg.world, h⟩
  refine .ite (fun _ => .pure (.inl (idle (refl_of (InContext (Beside true)) _)))) fun _ => ?_
  have looked : IncidentalIn (Beside true) (liftM (runWithKey? c.key) : Scoped (Option Run)) :=
    incidentalIn_lift (incidental_runWithKey? c.key)
  refine (looked _).bind (fun e g h => .inl ⟨h.1, idle h.2⟩) fun run g _ hg => ?_
  split
  · exact .pure (.inl (idle hg))
  · refine .ite (fun _ => ?_) fun _ => launched g hg
    have cooled : IncidentalIn (Beside true) (liftM (w.coolsDown record c.actor) : Scoped Bool) :=
      incidentalIn_lift (incidental_coolsDown w record c.actor)
    refine (cooled g).bind (fun e k h => .inl ⟨h.1, idle ?_⟩) fun cools k _ hk => ?_
    · exact trans_of (InContext (Beside true)) hg h.2
    · have hk := trans_of (InContext (Beside true)) hg hk
      exact .ite (fun _ => .pure (.inl (idle hk))) fun _ => launched k hk

omit hreact in
/-- A workflow that is run in the context of a write takes off the budget what its run takes. -/
theorem costs_nested (w : Workflow) (r : Record) (trigger : String) (previous : Option Record)
    (htrigger : trigger ∈ Run.writeTriggers) {id : Uuid} {f g : Frame} (hf : Within id f) {v : World}
    (hv : Beside true f.world v) {row : Run} {inner : List Run}
    (h : Run.Settles (w.cappedBudget (w.considering r (f.context.child r trigger previous))) v g row
      inner) : Costs id 0 row.isCapped f (back f g) (row :: inner) := by
  let c : Context := f.context.child r trigger previous
  obtain ⟨m, -, hcapped⟩ := w.cappedBudget_eq (w.considering r c)
  rw [hcapped] at h
  have hparent : c.parent = some id := hf.run
  have hpast : Run.IsPast id (v.nextNumber .run) := hf.past.later (hv.numbers .run)
  have hunder := h.under_eq hparent htrigger hpast
  exact {
    nest := hv.runs ▸ (h.nested hparent htrigger hpast).since (hv.numbers .run)
    run := rfl
    parent := rfl
    units := by
      have hunits : Run.unitsUnder id (row :: inner) = row.units := by simp [Run.unitsUnder, hunder]
      rw [hunits, Int.add_zero]
      exact h.units
    cut := by simp [Run.cappedUnder, hunder] }

theorem spends_nested (w : Workflow) (r : Record) (trigger : String) (previous : Option Record)
    (htrigger : trigger ∈ Run.writeTriggers) : Spends (do
      let c ← context
      nested (c.child r trigger previous) (w.execute react r)) := by
  intro id f hf
  refine .step (context_eq f) (nested_ends (.refl ?_)).ends
  let k : Frame := { world := f.world, context := f.context.child r trigger previous }
  have idle {g : Frame} (h : Idle k g) : Costs id 0 false f (back f g) [] :=
    .beside hf h.1 rfl rfl (h.2.trans (Int.add_zero _).symm)
  have hparent : (w.cappedBudget (w.considering r k.context)).parent.isSome := by
    obtain ⟨m, -, hcapped⟩ := w.cappedBudget_eq (w.considering r k.context)
    rw [hcapped]
    exact Option.isSome_iff_exists.mpr ⟨id, hf.run⟩
  refine (execute_settles hreact w r (f := k) hf.kept).mono ?_ ?_
  · rintro _ g (h | ⟨v, hv, row, inner, h, hcapped⟩)
    · exact ⟨[], idle h⟩
    · exact ⟨_, hcapped hparent ▸ costs_nested w r trigger previous htrigger hf hv h⟩
  · rintro e g (⟨he, h⟩ | ⟨v, hv, he, row, inner, h, hcapped⟩)
    · exact ⟨[], he ▸ idle h⟩
    · exact ⟨_, he ▸ hcapped ▸ costs_nested w r trigger previous htrigger hf hv h⟩

omit hreact in
theorem spends_executeEach {launch : Workflow → Record → Scoped RunResult}
    (hlaunch : ∀ w r, Spends (launch w r)) (isDry : Bool) (previous : Option Record)
    (rows : List StoredWorkflow) (current : Record) :
    Spends (executeEach launch isDry previous rows current) := by
  induction rows generalizing current with
  | nil => exact .pure _
  | cons row rest ih =>
    unfold executeEach
    generalize row.definition = defined
    refine .bind (.incidental (incidentalIn_lift (.valid passed defined))) fun w => ?_
    have matched : Incidental (Beside true) (orThrow (w.matchesRecord current previous)) :=
      .orThrow passed _ fun _ => isLimit_matchesRecord
    refine .bind (.incidental (incidentalIn_lift matched)) fun found => .ite ?_ (ih current)
    refine .bind (hlaunch w current) fun result => .ite (.pure _) ?_
    have reread : Incidental (Beside true)
        (if isDry then pure none else Record.get? current.id : Flow (Option Record)) :=
      .ite (.pure none) (.recordGet? passed _)
    exact .bind (.incidental (incidentalIn_lift reread)) fun _ => .bind (ih _) fun _ => .pure _

theorem spends_executeNested {trigger : String} (htrigger : trigger ∈ Run.writeTriggers)
    (record : Record) (previous : Option Record) :
    Spends (executeNested react trigger record previous) := by
  unfold executeNested
  have triggered : Incidental (Beside true) (StoredWorkflow.triggered record.module trigger) :=
    .bind (.taken passed _) fun _ => .bind (.all StoredWorkflow) fun _ => .pure _
  refine .bind (.incidental (incidentalIn_lift triggered)) fun rows => ?_
  refine .bind (.incidental incidentalIn_context) fun c => ?_
  exact spends_executeEach (fun w r => spends_nested hreact w r trigger previous htrigger) _ _ _ _

/-- The reaction to a write takes off the budget what the runs take that it opens. -/
theorem spends_onWrite (before after : Record) : Spends (onWrite react before after) := by
  unfold onWrite
  refine .bind (.incidental (incidentalIn_readable _)) fun changed => ?_
  refine .bind (.incidental incidentalIn_context) fun c => ?_
  refine .bind (.incidental (incidentalIn_lift (incidental_announce _ _ _))) fun _ => ?_
  refine .bind (spends_executeNested hreact (by decide) _ _) fun _ => ?_
  refine .bind (spends_executeNested hreact (by decide) _ _) fun _ => ?_
  refine .bind (.incidental (incidentalIn_lift (.recordGet? passed _))) fun found => ?_
  exact .changeContext (fun _ => rfl) (fun _ => rfl) fun _ => rfl

omit hreact in
theorem spends_reactionOn {bottom : Reaction} (hbottom : ∀ before after, Spends (bottom before after))
    (levels : Nat) (before after : Record) : Spends (reactionOn bottom levels before after) := by
  induction levels generalizing before after with
  | zero => exact hbottom before after
  | succ levels ih => exact spends_onWrite ih before after

end Workflow

theorem Context.spends_reaction (c : Context) (before after : Record) :
    Spends (c.reaction before after) := by
  rw [Launch.reaction_eq]
  exact Workflow.spends_reactionOn (fun _ _ => .pure ()) _ before after

/-! ## Cascades -/

/-- A run by itself, and behind it the runs that writes opened in it, right under it or further down.
All of them have ended. -/
structure Cascade where
  top : Run
  inner : List Run
  distinct : ((top :: inner).map (·.id)).Nodup
  closed : ∀ r ∈ top :: inner, r.IsClosed
  opened : ∀ s ∈ inner, s.trigger ∈ Run.writeTriggers ∧ ∃ r ∈ top :: inner, s.parent = some r.id

namespace Cascade

def rows (k : Cascade) : List Run := k.top :: k.inner

def AddsUp (k : Cascade) : Prop := ∀ r ∈ k.rows, r.AddsUp k.inner

end Cascade

namespace Run.Settles
variable {c : Context} {w v : World} {g : Frame} {top : Run} {inner : List Run}

theorem cascade (h : Settles c v g top inner) (hv : v.tables.runs = w.tables.runs) (hw : w.RunsKept)
    (hcloses : ClosesRuns w g.world) :
    ∃ k : Cascade, k.top = top ∧ g.world.tables.runs = w.tables.runs ++ k.rows ∧ k.AddsUp := by
  obtain ⟨new, notes, closures⟩ := hcloses hw
  have hruns : g.world.tables.runs = w.tables.runs ++ top :: inner := by
    rw [h.nest.runs, hv, List.append_assoc]
    rfl
  obtain rfl : new = top :: inner := List.append_cancel_left (closures.runs.symm.trans hruns)
  have opened : ∀ s ∈ inner, s.trigger ∈ writeTriggers ∧ ∃ r ∈ top :: inner, s.parent = some r.id := by
    refine fun s hs => ⟨h.nest.triggered s hs, ?_⟩
    rcases h.nest.linked s hs with hparent | ⟨r, hr, hparent⟩
    · exact ⟨top, List.mem_cons_self, hparent⟩
    · exact ⟨r, List.mem_cons_of_mem top hr, hparent⟩
  exact ⟨⟨top, inner, closures.distinct, closures.closed, opened⟩, rfl, hruns,
    List.forall_mem_cons.mpr ⟨h.addsUp, h.nest.addsUp⟩⟩

end Run.Settles

namespace Launch

/-- What a run by itself leaves behind: no row, or those of a cascade that adds up. The budget went
forward by what the outermost run took. -/
def LeavesCascade (c d : Context) (w v : World) : Prop :=
  v.tables.runs = w.tables.runs ∧ d.budget.consumed = c.budget.consumed
    ∨ ∃ k : Cascade, v.tables.runs = w.tables.runs ++ k.rows ∧ k.AddsUp
      ∧ d.budget.consumed = c.budget.consumed + k.top.units

theorem leavesCascade_of_settles {c d : Context} {w v : World} {g : Frame} {top : Run}
    {inner : List Run} (h : Run.Settles d v g top inner)
    (hbudget : d.budget.consumed = c.budget.consumed) (hv : v.tables.runs = w.tables.runs)
    (hw : w.RunsKept) (hcloses : ClosesRuns w g.world.rolledBack) :
    LeavesCascade c g.context w g.world := by
  obtain ⟨k, rfl, hruns, hadds⟩ := h.rollback.cascade hv hw hcloses
  exact .inr ⟨k, h.nest.kept.saved.symm.trans hruns, hadds, hbudget ▸ h.units⟩

/-- A run by itself opens nothing or a cascade, whether it succeeds or fails. -/
theorem part_leavesCascade (l : Launch) (c : Context) {w : World} (hw : w.RunsKept) :
    Ends (l.part c.reaction) { world := w, context := c }
      (fun _ g => LeavesCascade c g.context w g.world)
      fun _ g => LeavesCascade c g.context w g.world := by
  let f : Frame := { world := w, context := c }
  have hruns : UpholdsRuns ClosesRuns c.reaction := Workflow.upholdsRuns_reaction _
  have hcloses : UpholdsIn ClosesRuns (l.part c.reaction) := by
    cases l with
    | actions as halts => exact hruns as halts
    | workflow v record => exact Workflow.upholdsIn_execute hruns v record
  have undone {v : World} (h : ClosesRuns w v) : ClosesRuns w v.rolledBack :=
    trans_of ClosesRuns h (AboutRuns.undone v)
  have hbudget := l.consumed_context c
  cases l with
  | actions as halts =>
    refine ((Run.runActions_settles c.spends_reaction as halts (f := f) hw).and (hcloses f)).mono ?_ ?_
    · rintro _ g ⟨⟨top, inner, h, -⟩, hg⟩
      exact leavesCascade_of_settles h rfl rfl hw (undone hg)
    · rintro e g ⟨⟨-, h⟩ | ⟨-, top, inner, h, -⟩, hg⟩
      · exact .inl ⟨h.world.runs, congrArg (·.budget.consumed) h.context⟩
      · exact leavesCascade_of_settles h rfl rfl hw hg
  | workflow v record =>
    have ends := Workflow.execute_settles c.spends_reaction v record (f := f) hw
    refine (ends.and (hcloses f)).mono ?_ ?_
    · rintro _ g ⟨⟨h, hsame⟩ | ⟨u, hu, top, inner, h, -⟩, hg⟩
      · exact .inl ⟨h.runs, hsame⟩
      · exact leavesCascade_of_settles h hbudget hu.runs hw (undone hg)
    · rintro e g ⟨⟨-, h, hsame⟩ | ⟨u, hu, -, top, inner, h, -⟩, hg⟩
      · exact .inl ⟨h.runs, hsame⟩
      · exact leavesCascade_of_settles h hbudget hu.runs hw hg

/-- The accounts of a cascade add up. A run by itself, whatever it carries out, in whatever context and
world, opens one or none, whether it succeeds or fails. All runs of the cascade have ended, and what
each of them took off the budget is a unit for every result that is not of an action that was passed
over, and what the runs took that writes opened right under it. It is a unit more just if the run was
cut short and is not the innermost of those that were. -/
theorem run_addsUp (l : Launch) (c : Context) (w : World) (hw : w.RunsKept) :
    Ends (l.run c) w (fun out v => LeavesCascade c out.2 w v)
      fun _ v => ∃ d, LeavesCascade c d w v :=
  runIn_ends ((l.part_leavesCascade c hw).mono (fun _ _ h => h) fun _ g h => ⟨g.context, h⟩)

def noteAndRetitle : Launch := actions [
  ⟨"passed over", some (.any []), .addNote "seen" false⟩,
  ⟨"noted", none, .addNote "seen" false⟩,
  ⟨"retitled", none, .updateFields [("title", .str "Deal")]⟩] true

theorem retitledDeals_runsKept : retitledDeals.RunsKept :=
  ⟨by simp [retitledDeals], retitledDeals_runsFree⟩

set_option maxRecDepth 10000 in
theorem noteAndRetitle_runs : passes
    (noteAndRetitle.run { retitledContext with budget := ⟨3, 0⟩ }) retitledDeals
    (fun _ v => v.tables.runs.map (fun r => (r.status, r.carriedOut, r.units))
      = [("capped", 1, 3), ("capped", 0, 1), ("capped", 0, 0)]) = true := by decide +kernel

/-- Of three units one is that of the note, and two are those of the writes that were stopped further
down: the first of them in the run itself, the other in the run under it. -/
theorem run_addsUp_noteAndRetitle : retitledDeals.RunsKept
    ∧ Ends (noteAndRetitle.run { retitledContext with budget := ⟨3, 0⟩ }) retitledDeals
      (fun out v => v.tables.runs.map (fun r => (r.status, r.carriedOut, r.units))
          = [("capped", 1, 3), ("capped", 0, 1), ("capped", 0, 0)]
        ∧ LeavesCascade { retitledContext with budget := ⟨3, 0⟩ } out.2 retitledDeals v)
      fun _ _ => False := by
  have runs := Ends.of_passes noteAndRetitle_runs
  have cascade := run_addsUp noteAndRetitle { retitledContext with budget := ⟨3, 0⟩ } retitledDeals
    retitledDeals_runsKept
  refine ⟨retitledDeals_runsKept, (runs.and cascade).mono ?_ ?_⟩
  · exact fun out v h => ⟨of_decide_eq_true h.1, h.2⟩
  · exact fun e v h => h.1

end Launch

end RecordFlow
