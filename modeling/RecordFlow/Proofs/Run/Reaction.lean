import RecordFlow.Proofs.Run.Limit

/-! # The reaction to a write

Workflows that a write triggers run nested in the run that wrote. A reaction with as many levels as
the budget allows never comes to its end: the cascade stops by itself, whatever stands below the
last level.
-/
namespace RecordFlow
open RecordFlow.Flow Scoped

namespace Workflow
variable {R : World → World → Prop} [Lenient R]

theorem runWithKey?_eq (key : Option String) (w : World) :
    ∃ run, runWithKey? key w = .ok run w := by
  unfold runWithKey?
  split
  · split
    · exact ⟨_, rfl⟩
    · exact ⟨_, rfl⟩
  · exact ⟨_, rfl⟩

theorem incidental_runWithKey? (key : Option String) : Incidental R (runWithKey? key) :=
  .read (runWithKey?_eq key)

theorem incidental_tellCooldown (w : Workflow) (record : Record) (seconds period : Int)
    (actor : Value) : Incidental R (w.tellCooldown record seconds period actor) :=
  .bind (incidental_count _) fun _ => incidental_note (by decide) (.inr (by
    simp [Value.fields, Fields.getD, Fields.get?, Value.text?, LimitReached.reason]))

theorem incidental_coolsDown [Indifferent R Cooldown] (w : Workflow) (record : Record)
    (actor : Value) : Incidental R (w.coolsDown record actor) := by
  unfold coolsDown
  split
  · exact .pure _
  · refine .ite (.pure _) (.bind .moment fun m => .bind (.inTime (fun _ h => h) _) fun period => ?_)
    refine .bind (.all Cooldown) fun cooldowns => .ite ?_ ?_
    · exact .bind (incidental_tellCooldown _ _ _ _ _) fun _ => .pure _
    · exact .bind (incidental_insert _) fun _ => .pure _

/-- Comparing two records fails by a number or by a shape. -/
theorem isLimit_differsAtAny {v w : Value} {paths : List Value} {e : Failure}
    (h : differsAtAny v w paths = .error e) : e.isLimit = false := by
  induction paths with
  | nil => cases h
  | cons path rest ih =>
    cases path with
    | str path =>
      cases hd : differsAt v w path with
      | error cause =>
        simp only [differsAtAny, hd] at h
        cases h
        rfl
      | ok differs =>
        simp only [differsAtAny, hd] at h
        cases differs with
        | true => cases h
        | false => exact ih h
    | _ => cases h; rfl

theorem isLimit_watchedChange {w : Workflow} {record : Record} {previous : Option Record}
    {e : Failure} (h : w.watchedChange record previous = .error e) : e.isLimit = false := by
  cases previous with
  | none => cases h
  | some before =>
    cases hp : w.watchedPaths before record with
    | error cause =>
      simp only [watchedChange, hp] at h
      cases h
      rfl
    | ok paths =>
      simp only [watchedChange, hp] at h
      exact isLimit_differsAtAny h

/-- Matching a workflow fails as a comparison of records does. -/
theorem isLimit_matchesRecord {w : Workflow} {record : Record} {previous : Option Record}
    {e : Failure} (h : w.matchesRecord record previous = .error e) : e.isLimit = false := by
  unfold matchesRecord at h
  split at h
  · cases hc : w.watchedChange record previous with
    | error cause =>
      rw [hc] at h
      cases h
      exact isLimit_watchedChange hc
    | ok changed =>
      rw [hc] at h
      cases h
  · cases h

/-! ## Workflows as nested runs -/

variable {levels : Nat} {high : Int} {workflows : List StoredWorkflow} {react react' : Reaction}

theorem cappedBudget_eq (w : Workflow) (c : Context) : ∃ maxActions ≤ c.budget.maxActions,
    w.cappedBudget c = { c with budget := { c.budget with maxActions := maxActions } } := by
  unfold cappedBudget
  split
  · split
    · exact ⟨_, Int.le_refl _, rfl⟩
    · exact ⟨_, by omega, rfl⟩
  · exact ⟨_, Int.le_refl _, rfl⟩

theorem cappedBudget_nested (w : Workflow) {c : Context} (h : c.parent.isSome) :
    w.cappedBudget c = c := by
  unfold cappedBudget
  split
  · next hnone _ => rw [hnone] at h; cases h
  · rfl

def considering (w : Workflow) (record : Record) (c : Context) : Context :=
  { c with record := record, workflow := w.id }

/-- A workflow that was passed over: nothing but its cooldown was looked at or noted. -/
def PassedOver (f : Frame) (r : RunResult) (g : Frame) : Prop :=
  r.status = .skipped ∧ Beside false f.world g.world ∧ g.context.budget = f.context.budget

def NotOpened (c : Context) (f : Frame) (e : Failure) (g : Frame) : Prop :=
  e.isLimit = false ∧ Beside false f.world g.world
    ∧ (g.context.budget = f.context.budget ∨ g.context.budget = c.budget)

/-- A workflow is passed over, or it runs with its budget. -/
theorem execute_ends (hb : Bounded levels high workflows react react') (w : Workflow)
    (record : Record) {f : Frame} (hfree : f.world.RunsFree)
    (hworkflows : f.world.tables.workflows = workflows)
    (hlevels : (w.cappedBudget (w.considering record f.context)).budget.remaining ≤ levels)
    (hdepth : f.context.depth
      + (w.cappedBudget (w.considering record f.context)).budget.remaining ≤ high) :
    Alike (execute react w record) (execute react' w record) f
      (fun r g => PassedOver f r g ∨ Run.RunEnds high workflows w.actions w.haltOnFailure
        (w.cappedBudget (w.considering record f.context)) f.world r g)
      (fun e g => NotOpened (w.cappedBudget (w.considering record f.context)) f e g
        ∨ Run.RunFails high workflows (w.cappedBudget (w.considering record f.context)) f.world
          e g) := by
  unfold execute
  let c : Context := w.considering record f.context
  refine .step (a := ()) (t := { f with context := c }) rfl (.step (context_eq _) ?_)
  have kept {g : Frame} (hg : InContext (Beside false) { f with context := c } g) :
      g.context.budget = f.context.budget := by rw [hg.context]; rfl
  -- Once nothing speaks against it, the workflow runs from a frame beside which nothing happened.
  have launched (g : Frame) (hg : InContext (Beside false) { f with context := c } g) : Alike (do
      changeContext w.cappedBudget
      Run.runActions react w.actions w.haltOnFailure) (do
      changeContext w.cappedBudget
      Run.runActions react' w.actions w.haltOnFailure) g
      (fun r k => PassedOver f r k ∨ Run.RunEnds high workflows w.actions w.haltOnFailure
        (w.cappedBudget c) f.world r k)
      (fun e k => NotOpened (w.cappedBudget c) f e k
        ∨ Run.RunFails high workflows (w.cappedBudget c) f.world e k) := by
    obtain ⟨v, d⟩ := g
    obtain rfl : d = c := hg.context
    let k : Frame := { world := v, context := w.cappedBudget c }
    have hk : k.world.RunsFree := hfree.beside hg.world
    have hsame : k.world.tables.workflows = workflows :=
      (congrArg Ledger.workflows hg.world.ledger).trans hworkflows
    have hdeep : k.context.depth = f.context.depth := by
      obtain ⟨m, -, hm⟩ := w.cappedBudget_eq c
      simp only [k, hm]
      rfl
    refine .step (a := ()) (t := k) rfl ((Run.runActions_ends hb w.actions w.haltOnFailure hk hsame
      hlevels (hdeep ▸ hdepth)).mono ?_ ?_)
    · exact fun r t h => .inr (h.after hg.world.writing)
    · rintro e t (⟨-, he, ht⟩ | h)
      · refine .inl ⟨he, hg.world.trans ht.world, .inr ?_⟩
        rw [ht.context]
      · exact .inr (h.after hg.world.writing)
  refine .ite (fun _ => .refl (.pure (.inl ⟨rfl, .refl _, rfl⟩))) fun _ => ?_
  have looked : IncidentalIn (Beside false) (liftM (runWithKey? c.key) : Scoped (Option Run)) :=
    incidentalIn_lift (incidental_runWithKey? c.key)
  refine (Alike.refl (looked _)).bind
    (fun e g h => .inl ⟨h.1, h.2.world, .inl (kept h.2)⟩) fun run g hg => ?_
  split
  · exact .refl (.pure (.inl ⟨rfl, hg.world, kept hg⟩))
  · refine .ite (fun _ => ?_) fun _ => launched g hg
    have cooled : IncidentalIn (Beside false) (liftM (w.coolsDown record c.actor) : Scoped Bool) :=
      incidentalIn_lift (incidental_coolsDown w record c.actor)
    refine (Alike.refl (cooled g)).bind (fun e k h => .inl ?_) fun cools k hk => ?_
    · have hk := trans_of (InContext (Beside false)) hg h.2
      exact ⟨h.1, hk.world, .inl (kept hk)⟩
    · have hk := trans_of (InContext (Beside false)) hg hk
      exact .ite (fun _ => .refl (.pure (.inl ⟨rfl, hk.world, kept hk⟩)))
        fun _ => launched k hk

def back (f g : Frame) : Frame :=
  { world := g.world, context := { f.context with budget := g.context.budget } }

theorem nested_ends {α : Type} {inner : Context} {x y : Scoped α} {f : Frame}
    {ok : α → Frame → Prop} {bad : Failure → Frame → Prop}
    (h : Alike x y { world := f.world, context := inner } (fun a g => ok a (back f g))
      fun e g => bad e (back f g)) : Alike (nested inner x) (nested inner y) f ok bad := by
  refine ⟨by rw [nested, nested, h.same], ?_⟩
  cases hx : x { world := f.world, context := inner } with
  | ok a g => exact .of_ok (by rw [nested, hx]; rfl) (h.ends.ok_of hx)
  | error e g => exact .of_error (by rw [nested, hx]; rfl) (h.ends.bad_of hx)

/-- A workflow that is stored leaves its runs behind in the run that it is nested in. -/
theorem leads_nested (hb : Bounded levels high workflows react react') (trigger : String)
    (previous : Option Record) {stored : StoredWorkflow} (hstored : stored ∈ workflows)
    {w : Workflow} (hw : stored.definition = .valid w) (r : Record) :
    Leads false 1 (levels + 1) high workflows (do
        let c ← context
        nested (c.child r trigger previous) (w.execute react r))
      (do
        let c ← context
        nested (c.child r trigger previous) (w.execute react' r)) := by
  intro f hf hrun
  refine .step (context_eq f) ?_
  let k : Frame := { world := f.world, context := f.context.child r trigger previous }
  have hparent : k.context.parent.isSome := hrun
  have hlevels : k.context.budget.remaining ≤ levels := by
    have hl := hf.levels
    exact Nat.le_of_add_le_add_right hl
  have hdepth : k.context.depth + k.context.budget.remaining ≤ high := by
    have hd := hf.depth
    simp only [k, Context.child]
    omega
  have hcapped := w.cappedBudget_nested (c := w.considering r k.context) hparent
  have ends := execute_ends hb w r (f := k) hf.settled.free hf.workflows
    (by rw [hcapped]; exact hlevels) (by rw [hcapped]; exact hdepth)
  rw [hcapped] at ends
  have unspent {g : Frame} (h : g.context.budget = f.context.budget) :
      SameRun f.context (back f g).context := ⟨rfl, rfl, rfl, h ▸ .refl _⟩
  refine nested_ends (ends.mono ?_ ?_)
  · rintro result g (⟨-, hg, hbudget⟩ | ⟨row, inner, notes, h⟩ | ⟨hnone, -⟩)
    · exact .beside hf.settled hg (unspent hbudget)
    · refine ⟨row :: inner, notes, h.spread, ⟨rfl, rfl, rfl, h.budget⟩, ?_, h.quiet,
        fun _ hnone => absurd hnone (List.cons_ne_nil row inner)⟩
      rintro s (_ | ⟨_, hs⟩)
      · exact ⟨stored, hstored, w, hw, h.workflow, h.went⟩
      · exact h.done s hs
    · rw [show k.context.parent = none from hnone] at hparent
      cases hparent
  · rintro e g (⟨he, hg, hbudget⟩ | ⟨-, l, row, inner, notes, chain, rfl, h⟩)
    · have same : g.context.budget = f.context.budget := hbudget.elim (fun h => h) fun h => h
      exact .inl ⟨he, .beside hf.settled hg (unspent same)⟩
    · exact .inr ⟨l, rfl, row :: inner, notes, row :: chain, h.spread,
        ⟨rfl, rfl, rfl, h.budget⟩, h.tells, h.cut⟩

theorem leads_executeEach {launch launch' : Workflow → Record → Scoped RunResult} (isDry : Bool)
    (previous : Option Record) (rows : List StoredWorkflow)
    (h : ∀ stored ∈ rows, ∀ w, stored.definition = .valid w → ∀ r,
      Leads false 1 (levels + 1) high workflows (launch w r) (launch' w r)) (current : Record) :
    Leads false 1 (levels + 1) high workflows (executeEach launch isDry previous rows current)
      (executeEach launch' isDry previous rows current) := by
  induction rows generalizing current with
  | nil => exact .pure _
  | cons stored rest ih =>
    have ih := ih fun s hs => h s (List.mem_cons_of_mem stored hs)
    have launched := h stored List.mem_cons_self
    unfold executeEach
    cases hd : stored.definition with
    | invalid issues => exact .throw rfl
    | valid w =>
      have start {β : Type} (next : Workflow → Scoped β) :
          (liftM (valid (.valid w) : Flow Workflow) >>= next) = next w := rfl
      rw [start, start]
      have matched : Incidental (Beside false) (orThrow (w.matchesRecord current previous)) :=
        .orThrow (fun _ h => h) _ fun _ => isLimit_matchesRecord
      refine .bind (.incidental (incidentalIn_lift matched)) fun found => .ite ?_ (ih current)
      refine .bind (launched w hd current) fun result => .ite (.pure _) ?_
      have reread : Incidental (Beside false)
          (if isDry then pure none else Record.get? current.id : Flow (Option Record)) :=
        .ite (.pure none) (.recordGet? (fun _ h => h) _)
      exact .bind (.incidental (incidentalIn_lift reread)) fun _ => .bind (ih _) fun _ => .pure _

theorem triggered_ends (module : Value) (trigger : String) (w : World) :
    Ends (StoredWorkflow.triggered module trigger) w
      (fun rows v => v = w ∧ ∀ row ∈ rows, row ∈ w.tables.workflows)
      (fun e v => v = w ∧ e.isLimit = false) := by
  unfold StoredWorkflow.triggered
  cases ht : Cell.text module with
  | error cause => exact .of_error rfl ⟨rfl, by cases cause <;> rfl⟩
  | ok text =>
    refine .step rfl (.step rfl (.pure ⟨rfl, fun row hrow => ?_⟩))
    exact (List.mem_filter.mp (mem_sorted.mp hrow)).1

theorem leads_executeNested (hb : Bounded levels high workflows react react') (trigger : String)
    (record : Record) (previous : Option Record) :
    Leads false 1 (levels + 1) high workflows (executeNested react trigger record previous)
      (executeNested react' trigger record previous) := by
  intro f hf hrun
  unfold executeNested
  have ends := triggered_ends record.module trigger f.world
  cases ht : StoredWorkflow.triggered record.module trigger f.world with
  | error e v =>
    obtain ⟨rfl, he⟩ := ends.bad_of ht
    have failed := lift_error (f := f) ht
    refine ⟨by rw [bind_error failed, bind_error failed], ?_⟩
    exact .of_error (bind_error failed _) (.inl ⟨he, .refl hf.settled⟩)
  | ok rows v =>
    obtain ⟨rfl, hrows⟩ := ends.ok_of ht
    refine .step (lift_ok ht) (.step (context_eq f) ?_)
    refine leads_executeEach _ _ _ (fun stored hstored w hw r => ?_) _ f hf hrun
    exact leads_nested hb trigger previous (hf.workflows ▸ hrows stored hstored) hw r

/-- Reactions that are the same with so many levels are the same with one more on top. -/
theorem bounded_onWrite (hb : Bounded levels high workflows react react') :
    Bounded (levels + 1) high workflows (onWrite react) (onWrite react') := by
  intro before after
  unfold onWrite
  refine .bind (.incidental (incidentalIn_readable _)) fun changed => ?_
  refine .bind (.incidental incidentalIn_context) fun c => ?_
  refine .bind (.incidental (incidentalIn_lift (incidental_announce _ _ _))) fun _ => ?_
  refine .bind (leads_executeNested hb _ _ _) fun _ => ?_
  refine .bind (leads_executeNested hb _ _ _) fun _ => ?_
  refine .bind (.incidental (incidentalIn_lift (.recordGet? (fun _ h => h) _))) fun found => ?_
  exact .changeContext fun c => ⟨rfl, rfl, rfl, .refl _⟩

def reactionOn (bottom : Reaction) : (levels : Nat) → Reaction
  | 0 => bottom
  | levels + 1 => onWrite (reactionOn bottom levels)

theorem reaction_eq_reactionOn (levels : Nat) :
    reaction levels = reactionOn (fun _ _ => pure ()) (levels + 1) := by
  induction levels with
  | zero => rfl
  | succ levels ih => exact congrArg onWrite ih

/-- What stands below the levels that the budget allows makes no difference. -/
theorem bounded_reactionOn (bottom bottom' : Reaction) (high : Int)
    (workflows : List StoredWorkflow) {levels m n : Nat} (hm : levels ≤ m) (hn : levels ≤ n) :
    Bounded levels high workflows (reactionOn bottom m) (reactionOn bottom' n) := by
  induction levels generalizing m n with
  | zero =>
    intro before after f hf
    have hl := hf.levels
    omega
  | succ levels ih =>
    obtain ⟨m, rfl⟩ : ∃ k, m = k + 1 := ⟨m - 1, by omega⟩
    obtain ⟨n, rfl⟩ : ∃ k, n = k + 1 := ⟨n - 1, by omega⟩
    exact bounded_onWrite (ih (by omega) (by omega))

end Workflow

end RecordFlow
