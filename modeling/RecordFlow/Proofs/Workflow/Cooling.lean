import RecordFlow.Proofs.Approval.Upheld
import RecordFlow.Proofs.Workflow.Due

/-! # Cooldowns

A workflow that cools down runs for a record once in a period. That it did is noted under a key of its
own for the workflow, the record and the period. The note is taken right before the run is opened, is
saved with the run, and is undone with everything else if the run cannot be opened. So whatever runs
are opened meanwhile, nested or by themselves, and whatever fails: a period is noted if and only if the
workflow was launched for the record in it.
-/
namespace RecordFlow
open RecordFlow.Flow Scoped

/-! ## Keys -/

namespace Cooldown
variable {workflow workflow' : Option Uuid} {record record' : Uuid} {n n' : Int}

theorem workflowText_inj (h : workflowText workflow = workflowText workflow') :
    workflow = workflow' := by
  have apart (u : Uuid) : u.text ≠ "None" := fun heq => by
    have hmem : 'N' ∈ u.text.toList := by rw [heq]; decide
    exact absurd ((Uuid.isHexDigit_of_mem_text hmem (by decide)).holds (· != 'N') (by decide))
      (by decide)
  cases workflow with
  | none =>
    cases workflow' with
    | none => rfl
    | some u => exact absurd h.symm (apart u)
  | some u =>
    cases workflow' with
    | none => exact absurd h (apart u)
    | some v => exact congrArg some (Uuid.text_injective h)

theorem colon_not_mem_workflowText (workflow : Option Uuid) :
    ':' ∉ (workflowText workflow).toList := by
  cases workflow with
  | none => decide
  | some u => exact u.colon_not_mem_text

theorem toList_keyOf (workflow : Option Uuid) (record : Uuid) (n : Int) :
    (keyOf workflow record n).toList = (workflowText workflow).toList
      ++ ':' :: (record.text.toList ++ ':' :: (toString n).toList) := by
  have colon : ":".toList = [':'] := rfl
  simp only [keyOf, String.toList_append, colon, List.append_assoc, List.cons_append, List.nil_append]

/-- A key tells of one workflow, one record and one period. -/
theorem keyOf_inj (h : keyOf workflow record n = keyOf workflow' record' n') :
    workflow = workflow' ∧ record = record' ∧ n = n' := by
  have hlist := congrArg String.toList h
  rw [toList_keyOf, toList_keyOf] at hlist
  obtain ⟨hworkflow, hrest⟩ := Text.append_cons_inj (colon_not_mem_workflowText _)
    (colon_not_mem_workflowText _) hlist
  obtain ⟨hrecord, hn⟩ := Text.append_cons_inj record.colon_not_mem_text record'.colon_not_mem_text
    hrest
  exact ⟨workflowText_inj (String.toList_inj.mp hworkflow),
    Uuid.text_injective (String.toList_inj.mp hrecord),
    Text.toString_injective (String.toList_inj.mp hn)⟩

def isNoted (workflow : Option Uuid) (record : Uuid) (n : Int) (rows : List Cooldown) : Bool :=
  rows.any (ofWorkflow default workflow record n).clashes

theorem isNoted_append (rows : List Cooldown) (id : Uuid) :
    isNoted workflow record n (rows ++ [ofWorkflow id workflow' record' n']) = true
      ↔ isNoted workflow record n rows = true
        ∨ workflow = workflow' ∧ record = record' ∧ n = n' := by
  have same : (ofWorkflow default workflow record n).clashes (ofWorkflow id workflow' record' n') = true
      ↔ workflow = workflow' ∧ record = record' ∧ n = n' := by
    rw [clashes, ofWorkflow, ofWorkflow, decide_eq_true rfl, Bool.true_and, decide_eq_true_iff]
    exact ⟨keyOf_inj, fun ⟨h, h', h''⟩ => by rw [h, h', h'']⟩
  rw [isNoted, List.any_append, Bool.or_eq_true, List.any_cons, List.any_nil, Bool.or_false, same]
  rfl

end Cooldown

/-! ## Looking at a cooldown -/

namespace Workflow

/-- What comes of looking at the cooldown of a workflow for a record: without one it does not matter, a
period that is noted is over for the workflow, and one that is not is noted now. -/
inductive Considers (x : Workflow) (record : Record) (w : World) : Bool → World → Prop where
  | always (h : ∀ seconds, x.cooldownSeconds = some seconds → seconds = 0) :
      Considers x record w false w
  | cools {seconds n : Int} {v : World} (hcooldown : x.cooldownSeconds = some seconds)
      (hperiod : w.clock.universal.period? seconds = .ok n)
      (hnoted : Cooldown.isNoted x.id record.id n w.tables.cooldowns = true)
      (hv : Outside w v) : Considers x record w true v
  | notes {seconds n : Int} (id : Uuid) (hcooldown : x.cooldownSeconds = some seconds)
      (hperiod : w.clock.universal.period? seconds = .ok n)
      (hnoted : Cooldown.isNoted x.id record.id n w.tables.cooldowns = false) :
      Considers x record w false ((w.useNumber .idempotencyKey).setRows
        (w.tables.cooldowns ++ [.ofWorkflow id x.id record.id n]))

theorem coolsDown_ends (x : Workflow) (record : Record) (actor : Value) (w : World) :
    Ends (x.coolsDown record actor) w (x.Considers record w) fun _ v => v = w
      ∧ ∃ seconds cause, x.cooldownSeconds = some seconds
        ∧ w.clock.universal.period? seconds = .error cause := by
  unfold coolsDown
  cases hcooldown : x.cooldownSeconds with
  | none => exact .pure (.always fun seconds h => by rw [hcooldown] at h; cases h)
  | some seconds =>
    refine .ite (fun hzero => .pure (.always fun s h => ?_)) fun _ => .step (a := w.clock) rfl ?_
    · rw [hcooldown] at h
      exact Option.some.inj h ▸ hzero
    cases hperiod : w.clock.universal.period? seconds with
    | error cause => exact .of_error rfl ⟨rfl, seconds, cause, rfl, hperiod⟩
    | ok n =>
      refine .step (a := n) rfl (.step (a := w.tables.cooldowns) rfl (.ite (fun hnoted => ?_) ?_))
      · exact .step (a := ()) rfl (.pure (.cools hcooldown hperiod hnoted
          ⟨rfl, rfl, rfl, Nat.le_refl _, rfl, rfl, rfl, List.prefix_rfl⟩))
      · intro hnoted
        have inserted : Ends (insert fun id => Cooldown.ofWorkflow id x.id record.id n) w
            (fun _ v => ∃ id, v = (w.useNumber .idempotencyKey).setRows
              (w.tables.cooldowns ++ [.ofWorkflow id x.id record.id n])) fun _ _ => False :=
          (insertIf_ends rfl rfl rfl).mono (fun _ _ h => ⟨_, h.2⟩) fun _ _ h => h
        refine inserted.bind (fun _ _ h => h.elim) ?_
        rintro _ v - ⟨id, rfl⟩
        exact .pure (.notes _ hcooldown hperiod (Bool.eq_false_iff.mpr hnoted))

end Workflow

theorem Run.goThrough_gives (react : Reaction) (run : Uuid) (actions : List Action) (halts : Bool) :
    Gives (goThrough react run actions halts) fun r => r.run = some run := by
  unfold goThrough
  refine .bind fun _ => .bind fun p => .bind fun c => .bind fun _ => ?_
  cases p.limit with
  | none => exact .pure rfl
  | some l => exact .ite (.bind fun _ => .guarded (.pure rfl)) (.guarded (.pure rfl))

theorem Run.runActions_gives (react : Reaction) (actions : List Action) (halts : Bool) :
    Gives (runActions react actions halts) fun r => r.run ≠ none := by
  refine .bind fun _ => .bind fun run => .bind fun _ f => (marked_ends (.refl ?_)).ends
  refine Ends.mono (goThrough_gives react run.id actions halts _) (fun r _ h mark => ?_) fun _ _ _ _ =>
    trivial
  rw [h]
  exact nofun

namespace Workflow

/-- A workflow is passed over for its cooldown if and only if it is noted that it ran in the period. -/
theorem executeIn_cools_iff {x : Workflow} {c : Context} {w : World} {seconds : Int} (record : Record)
    (henabled : x.isEnabled = true) (hkey : c.key = none) (hdry : c.isDry = false)
    (hcooldown : x.cooldownSeconds = some seconds) (hseconds : seconds ≠ 0) :
    (∃ v, x.executeIn c record w = .ok (x.skipped record "COOLDOWN" none) v)
      ↔ ∃ n, w.clock.universal.period? seconds = .ok n
        ∧ Cooldown.isNoted x.id record.id n w.tables.cooldowns = true := by
  let g : Frame := ⟨w, x.considering record c⟩
  -- An enabled workflow without a key that is no trial comes to its cooldown.
  have considered (ok : RunResult → Prop) (bad : Prop)
      (hbad : (∃ cause, w.clock.universal.period? seconds = .error cause) → bad)
      (hcools : ∀ n, w.clock.universal.period? seconds = .ok n →
        Cooldown.isNoted x.id record.id n w.tables.cooldowns = true →
        ok (x.skipped record "COOLDOWN" none))
      (hruns : ∀ n v, w.clock.universal.period? seconds = .ok n →
        Cooldown.isNoted x.id record.id n w.tables.cooldowns = false →
        Ends (Run.runActions c.reaction x.actions x.haltOnFailure)
          ⟨v, x.cappedBudget (x.considering record c)⟩ (fun r _ => ok r) fun _ _ => bad) :
      Ends (x.executeIn c record) w (fun r _ => ok r) fun _ _ => bad := by
    have executed : Ends (x.execute c.reaction record) ⟨w, c⟩ (fun r _ => ok r) fun _ _ => bad := by
      have unkeyed : runWithKey? g.context.key w = .ok none w := by
        rw [show g.context.key = none from hkey]
        rfl
      unfold execute
      refine .step (a := ()) (t := g) rfl (.step (context_eq g) ?_)
      refine .ite (fun h => absurd h (by simp [henabled])) fun _ => .step (lift_ok unkeyed) ?_
      refine .ite (fun _ => ?_) fun h => absurd (show (!c.isDry) = true by simp [hdry]) h
      refine (Ends.lift (f := g) (x.coolsDown_ends record c.actor w)).bind ?_ ?_
      · rintro _ _ ⟨-, s, cause, hs, hcause⟩
        obtain rfl := Option.some.inj (hcooldown.symm.trans hs)
        exact hbad ⟨cause, hcause⟩
      rintro cools ⟨v, _⟩ - ⟨hconsiders, rfl⟩
      replace hconsiders : x.Considers record w cools v := hconsiders
      cases hconsiders with
      | always hnone => exact absurd (hnone seconds hcooldown) hseconds
      | cools hs hperiod hnoted =>
        obtain rfl := Option.some.inj (hcooldown.symm.trans hs)
        exact .pure (hcools _ hperiod hnoted)
      | notes id hs hperiod hnoted =>
        obtain rfl := Option.some.inj (hcooldown.symm.trans hs)
        exact .step (a := ()) rfl (hruns _ _ hperiod hnoted)
    exact runIn_fst_ends executed
  constructor
  · rintro ⟨v, hv⟩
    refine Ends.ok_of (considered (fun r => r = x.skipped record "COOLDOWN" none → _) True
      (fun _ => trivial) (fun n hn hnoted _ => ⟨n, hn, hnoted⟩) fun n v _ _ => ?_) hv rfl
    exact Ends.mono (Run.runActions_gives _ _ _ _) (fun r _ h hr => absurd (hr ▸ rfl) h) fun _ _ h => h
  · rintro ⟨n, hn, hnoted⟩
    have ends := considered (· = x.skipped record "COOLDOWN" none) False
      (fun ⟨_, hcause⟩ => nomatch hn.symm.trans hcause) (fun _ _ _ => rfl) fun m v hm hfree => by
        obtain rfl := Except.ok.inj (hn.symm.trans hm)
        exact absurd hnoted (by rw [hfree]; decide)
    obtain ⟨_, v, hv, rfl⟩ := ends.exists_ok
    exact ⟨v, hv⟩

end Workflow

/-! ## Runs that count -/

structure Cooling where
  workflow : Uuid
  record : Uuid
  seconds : Int
  lasting : seconds ≠ 0

namespace Cooling
variable {k : Cooling} {apart : List String} {fits : StoredWorkflow → Prop} {w v u : World}

def Fits (k : Cooling) (row : StoredWorkflow) : Prop :=
  ∀ x, row.definition = .valid x → x.id = some k.workflow → x.cooldownSeconds = some k.seconds

def Counts (k : Cooling) (h : RunHead) : Prop :=
  h.workflow = some k.workflow ∧ h.record = some k.record ∧ h.isDry = false

def Noted (k : Cooling) (n : Int) (w : World) : Prop :=
  Cooldown.isNoted (some k.workflow) k.record n w.tables.cooldowns = true

structure Ready (fits : StoredWorkflow → Prop) (w : World) : Prop where
  cooldowns : w.saved.cooldowns = w.tables.cooldowns
  runs : w.saved.runs = w.tables.runs
  stored : ∀ row ∈ w.tables.workflows, fits row
  kept : ∀ row ∈ w.saved.workflows, fits row

/-- Behind the runs of a world there are others, and the period that it is in is noted once one of these
counts. Runs that are triggered apart are none that a workflow was launched by. -/
structure Since (k : Cooling) (apart : List String) (fits : StoredWorkflow → Prop) (w v : World)
    (new : List RunHead) : Prop where
  ready : Ready fits v
  clock : v.clock = w.clock
  runs : v.tables.runs.map Run.head = w.tables.runs.map Run.head ++ new
  noted : ∀ n, k.Noted n v ↔ k.Noted n w
    ∨ w.clock.universal.period? k.seconds = .ok n ∧ ∃ h ∈ new, k.Counts h ∧ h.trigger ∉ apart

def Notes (k : Cooling) (apart : List String) (fits : StoredWorkflow → Prop) (w v : World) : Prop :=
  Ready fits w → ∃ new, k.Since apart fits w v new

theorem Since.none (hv : Ready fits v) (hclock : v.clock = w.clock)
    (hruns : v.tables.runs = w.tables.runs) (hcooldowns : v.tables.cooldowns = w.tables.cooldowns) :
    k.Since apart fits w v [] where
  ready := hv
  clock := hclock
  runs := by rw [hruns, List.append_nil]
  noted n := by simp [Noted, hcooldowns]

theorem Since.append {new more : List RunHead} (h : k.Since apart fits w v new)
    (h' : k.Since apart fits v u more) : k.Since apart fits w u (new ++ more) where
  ready := h'.ready
  clock := h'.clock.trans h.clock
  runs := by rw [h'.runs, h.runs, List.append_assoc]
  noted n := by
    rw [h'.noted, h.noted, h.clock, or_assoc, ← and_or_left]
    simp only [List.mem_append, or_and_right, exists_or]

instance : IsPreorder World (k.Notes apart fits) where
  refl _ hw := ⟨[], .none hw rfl rfl rfl⟩
  trans _ _ _ h h' hw := by
    obtain ⟨new, hv⟩ := h hw
    obtain ⟨more, hu⟩ := h' hv.ready
    exact ⟨new ++ more, hv.append hu⟩

/-! ## What does not matter -/

theorem notes_of_tables (hcooldowns : v.tables.cooldowns = w.tables.cooldowns)
    (hruns : v.tables.runs = w.tables.runs) (hstored : v.tables.workflows = w.tables.workflows)
    (hsaved : v.saved = w.saved) (hclock : v.clock = w.clock) : k.Notes apart fits w v := fun hw =>
  ⟨[], .none ⟨by rw [hsaved, hcooldowns, hw.cooldowns], by rw [hsaved, hruns, hw.runs],
    hstored ▸ hw.stored, hsaved ▸ hw.kept⟩ hclock hruns hcooldowns⟩

theorem notes_committed (w : World) : k.Notes apart fits w w.committed := fun hw =>
  ⟨[], .none ⟨rfl, rfl, hw.stored, hw.stored⟩ rfl rfl rfl⟩

theorem notes_rolledBack (w : World) : k.Notes apart fits w w.rolledBack := fun hw =>
  ⟨[], .none ⟨rfl, rfl, hw.kept, hw.kept⟩ rfl hw.runs hw.cooldowns⟩

theorem notes_outside (h : Outside w v) : k.Notes apart fits w v :=
  notes_of_tables (by rw [h.tables]) (by rw [h.tables]) (by rw [h.tables]) h.saved h.clock

theorem indifferent_of_notes {ρ : Type} [Stored ρ]
    (hcooldowns : ∀ (rows : List ρ) (t : Tables), (Stored.setRows rows t).cooldowns = t.cooldowns)
    (hruns : ∀ (rows : List ρ) (t : Tables), (Stored.setRows rows t).runs = t.runs)
    (hstored : ∀ (rows : List ρ) (t : Tables), (Stored.setRows rows t).workflows = t.workflows) :
    Indifferent (k.Notes apart fits) ρ :=
  ⟨fun rows w => notes_of_tables (hcooldowns rows w.tables) (hruns rows w.tables)
    (hstored rows w.tables) rfl rfl⟩

instance : Lenient (k.Notes apart fits) where
  numbered _ _ := notes_of_tables rfl rfl rfl rfl rfl
  unstored _ _ h _ := notes_outside h

instance : Undoes World.rolledBack (k.Notes apart fits) where
  undone := notes_rolledBack

instance : Indifferent (k.Notes apart fits) Enrollment :=
  indifferent_of_notes (fun _ _ => rfl) (fun _ _ => rfl) fun _ _ => rfl

instance : Indifferent (k.Notes apart fits) Job :=
  indifferent_of_notes (fun _ _ => rfl) (fun _ _ => rfl) fun _ _ => rfl

instance : Recording (k.Notes apart fits) where
  records := indifferent_of_notes (fun _ _ => rfl) (fun _ _ => rfl) fun _ _ => rfl
  children := indifferent_of_notes (fun _ _ => rfl) (fun _ _ => rfl) fun _ _ => rfl
  rules := indifferent_of_notes (fun _ _ => rfl) (fun _ _ => rfl) fun _ _ => rfl
  messages := indifferent_of_notes (fun _ _ => rfl) (fun _ _ => rfl) fun _ _ => rfl
  cadences := indifferent_of_notes (fun _ _ => rfl) (fun _ _ => rfl) fun _ _ => rfl
  amongst writes w v h := by
    have before : k.Notes apart fits w { w with rivalWrites := writes } :=
      notes_of_tables rfl rfl rfl rfl rfl
    have after : k.Notes apart fits v { v with rivalWrites := 0 } :=
      notes_of_tables rfl rfl rfl rfl rfl
    exact trans_of (k.Notes apart fits) before (trans_of (k.Notes apart fits) h after)
  commits := notes_committed
  undone := notes_rolledBack
  enrolls cadence record by_ := .of_keeps (incidental_enroll cadence record by_)
  unenrolls record cadence reason actor :=
    .of_keeps (incidental_unenroll record cadence reason actor)
  outside _ _ h := notes_outside h
  savesRun w id change hchange hw :=
    ⟨[], ⟨rfl, rfl, hw.stored, hw.stored⟩, rfl,
      by rw [List.append_nil]; exact Run.map_head_changeRow hchange _, fun n => by simp [Noted, World.saveRuns]⟩

section Readiness
variable {α : Type}

/-- It is enough to look at worlds in which what cooldowns depend on is saved. -/
theorem upholds_of_ready {part : Flow α} (h : ∀ w, Ready fits w →
      Ends part w (fun _ v => k.Notes apart fits w v) fun _ v => k.Notes apart fits w v.rolledBack) :
    Upholds (k.Notes apart fits) part := fun w => by
  by_cases hw : Ready fits w
  · exact h w hw
  · exact Ends.any.mono (fun _ _ _ h => absurd h hw) fun _ _ _ h => absurd h hw

theorem ends_of_ready {part : Scoped α} {f : Frame} (h : Ready fits f.world →
      Ends part f (fun _ g => k.Notes apart fits f.world g.world)
        fun _ g => k.Notes apart fits f.world g.world.rolledBack) :
    Ends part f (fun _ g => k.Notes apart fits f.world g.world)
      fun _ g => k.Notes apart fits f.world g.world.rolledBack := by
  by_cases hw : Ready fits f.world
  · exact h hw
  · exact Ends.any.mono (fun _ _ _ h => absurd h hw) fun _ _ _ h => absurd h hw

end Readiness

/-! ## Runs -/

def Launches (k : Cooling) (apart : List String) (c : Context) : Prop :=
  c.workflow = some k.workflow ∧ c.record.id = k.record ∧ c.isDry = false ∧ c.trigger ∉ apart

theorem launches_cappedBudget {x : Workflow} {c : Context} :
    k.Launches apart (x.cappedBudget c) ↔ k.Launches apart c := by
  obtain ⟨_, -, hcapped⟩ := x.cappedBudget_eq c
  rw [hcapped]
  rfl

section Runs
variable {react : Reaction} (hreact : UpholdsReaction (k.Notes apart fits) react)
include hreact

/-- A run is opened where nothing has changed but that the period is noted if the run counts. -/
theorem runActions_ends (actions : List Action) (halts : Bool) (hw : Ready fits w) {f : Frame}
    (hsaved : f.world.saved = w.saved) (hclock : f.world.clock = w.clock)
    (hruns : f.world.tables.runs = w.tables.runs)
    (hstored : f.world.tables.workflows = w.tables.workflows)
    (hnoted : ∀ n, k.Noted n f.world ↔ k.Noted n w
      ∨ w.clock.universal.period? k.seconds = .ok n ∧ k.Launches apart f.context) :
    Ends (Run.runActions react actions halts) f (fun _ g => k.Notes apart fits w g.world)
      fun _ g => k.Notes apart fits w g.world.rolledBack := by
  have opened {row : Run} {v : World} (h : Run.Opens f.context f.world row v) :
      k.Notes apart fits w v := fun _ => by
    obtain ⟨hhead, -, -, rfl⟩ := h
    have hkept : ∀ row ∈ f.world.tables.workflows, fits row := hstored ▸ hw.stored
    refine ⟨[row.head], ⟨rfl, rfl, hkept, hkept⟩, hclock, ?_, fun n => ?_⟩
    · simp [World.saveRuns, World.useNumber, hruns]
    · refine (hnoted n).trans (or_congr_right (and_congr_right fun _ => ?_))
      simp [hhead, Counts, Launches, and_assoc]
  refine (Run.runActions_upheld hreact actions halts f).mono ?_ ?_
  · rintro _ g ⟨row, v, hrow, hg⟩
    exact trans_of (k.Notes apart fits) (opened hrow) hg
  · rintro _ g (hg | ⟨row, v, hrow, hg⟩)
    · have hback : g.world.saved = w.saved := by rw [hg]; exact hsaved
      have hkept : ∀ row ∈ g.world.saved.workflows, fits row := hback ▸ hw.kept
      refine fun _ => ⟨[], .none ⟨rfl, rfl, hkept, hkept⟩ (by rw [hg]; exact hclock) ?_ ?_⟩
      · exact (congrArg Tables.runs hback).trans hw.runs
      · exact (congrArg Tables.cooldowns hback).trans hw.cooldowns
    · exact trans_of (k.Notes apart fits) (opened hrow) hg

/-- The workflow is passed over, or it is noted that it runs. -/
theorem execute_ends (x : Workflow) (hx : x.id = some k.workflow → x.cooldownSeconds = some k.seconds)
    (record : Record) {f : Frame} (hw : Ready fits f.world) (htrigger : f.context.trigger ∉ apart) :
    Ends (x.execute react record) f (fun _ g => k.Notes apart fits f.world g.world)
      fun _ g => k.Notes apart fits f.world g.world.rolledBack := by
  let c := x.considering record f.context
  have same : k.Notes apart fits f.world f.world := refl_of _ _
  have launched {v : World} (hsaved : v.saved = f.world.saved) (hclock : v.clock = f.world.clock)
      (hruns : v.tables.runs = f.world.tables.runs)
      (hstored : v.tables.workflows = f.world.tables.workflows)
      (hnoted : ∀ n, k.Noted n v ↔ k.Noted n f.world
        ∨ f.world.clock.universal.period? k.seconds = .ok n ∧ k.Launches apart c) :
      Ends (do
          changeContext x.cappedBudget
          Run.runActions react x.actions x.haltOnFailure) ⟨v, c⟩
        (fun _ g => k.Notes apart fits f.world g.world)
        fun _ g => k.Notes apart fits f.world g.world.rolledBack :=
    .step (a := ()) (t := ⟨v, x.cappedBudget c⟩) rfl (runActions_ends hreact _ _ hw hsaved hclock hruns
      hstored fun n => (hnoted n).trans (or_congr_right (and_congr_right fun _ =>
        launches_cappedBudget.symm)))
  have unnoted (hc : ¬ k.Launches apart c) (n : Int) : k.Noted n f.world ↔ k.Noted n f.world
      ∨ f.world.clock.universal.period? k.seconds = .ok n ∧ k.Launches apart c :=
    ⟨.inl, fun h => h.elim id fun h => absurd h.2 hc⟩
  unfold Workflow.execute
  refine .step (a := ()) (t := ⟨f.world, c⟩) rfl (.step (context_eq _) ?_)
  refine .ite (fun _ => .pure same) fun _ => ?_
  obtain ⟨run, hrun⟩ := Workflow.runWithKey?_eq c.key f.world
  refine .step (lift_ok hrun) ?_
  split
  · exact .pure same
  refine .ite (fun hdry => ?_) fun hdry => ?_
  · refine (Ends.lift (f := ⟨f.world, c⟩) (x.coolsDown_ends record c.actor f.world)).bind
      (fun e g hg => ?_) ?_
    · rw [hg.1]
      exact notes_rolledBack _
    · rintro cools ⟨v, _⟩ - ⟨hconsiders, rfl⟩
      cases hconsiders with
      | always hnone =>
        refine launched rfl rfl rfl rfl (unnoted fun hc => k.lasting ?_)
        exact hnone _ (hx hc.1)
      | cools hcooldown hperiod hnoted hv => exact .pure (notes_outside hv)
      | @notes seconds n id hcooldown hperiod hnoted =>
        refine launched rfl rfl rfl rfl fun m => (Cooldown.isNoted_append _ _).trans ?_
        refine or_congr_right ⟨?_, ?_⟩
        · rintro ⟨hid, hrecord, rfl⟩
          obtain rfl := Option.some.inj (hcooldown.symm.trans (hx hid.symm))
          exact ⟨hperiod, hid.symm, hrecord.symm, by simpa using hdry, htrigger⟩
        · rintro ⟨hm, hid, hrecord, -, -⟩
          obtain rfl := Option.some.inj (hcooldown.symm.trans (hx hid))
          exact ⟨hid.symm, hrecord.symm, Except.ok.inj (hm.symm.trans hperiod)⟩
  · exact launched rfl rfl rfl rfl (unnoted fun hc => hdry (by simp [hc.2.2.1]))

variable (hfits : ∀ row, fits row → k.Fits row)
include hfits

/-- Workflows that are launched in a run are launched as their rows say. -/
theorem upholdsIn_executeNested {trigger : String} (htrigger : trigger ∉ apart) (record : Record)
    (previous : Option Record) :
    UpholdsIn (k.Notes apart fits) (Workflow.executeNested react trigger record previous) := fun f =>
  ends_of_ready fun hw => by
    unfold Workflow.executeNested
    refine (Ends.lift (Workflow.triggered_ends record.module trigger f.world)).bind ?_ ?_
    · rintro e g ⟨hg, -⟩
      exact hg ▸ notes_rolledBack _
    rintro rows ⟨_, _⟩ - ⟨⟨rfl, hrows⟩, rfl⟩
    refine .step (context_eq f) ?_
    refine Workflow.steady_executeEach (S := InWorlds (k.Notes apart fits))
      (fun row hrow x hx r _ g => ?_) _ _ f
    have hlasts := hfits row (hw.stored row (hrows row hrow)) x hx
    refine .step (context_eq g) (Workflow.nested_ends (.refl ?_)).ends
    exact ends_of_ready (f := ⟨g.world, g.context.child r trigger previous⟩) fun hg =>
      execute_ends hreact x hlasts r hg htrigger

end Runs

section Launches
variable (hfits : ∀ row, fits row → k.Fits row) (htriggers : ∀ t : Trigger, t.name ∉ apart)
include hfits htriggers

theorem upholdsReaction_reaction (levels : Nat) :
    UpholdsReaction (k.Notes apart fits) (Workflow.reaction levels) := by
  have on (levels : Nat) : UpholdsReaction (k.Notes apart fits)
      (Workflow.reactionOn (fun _ _ => pure ()) levels) := by
    induction levels with
    | zero => exact fun _ _ => .pure _
    | succ levels ih =>
      exact Workflow.upholdsReaction_onWrite_of fun t _ => upholdsIn_executeNested ih hfits (htriggers t)
  rw [Workflow.reaction_eq_reactionOn]
  exact on _

theorem upholds_executeIn {x : Workflow}
    (hx : x.id = some k.workflow → x.cooldownSeconds = some k.seconds) {c : Context}
    (htrigger : c.trigger ∉ apart) (record : Record) :
    Upholds (k.Notes apart fits) (x.executeIn c record) := upholds_of_ready fun w hw => by
  have hreact := upholdsReaction_reaction hfits htriggers c.budget.remaining
  exact runIn_fst_ends (execute_ends hreact x hx record (f := ⟨w, c⟩) hw htrigger)

theorem upholds_executeTriggered {trigger : String} (htrigger : trigger ∉ apart) (record : Record)
    (previous : Option Record) :
    Upholds (k.Notes apart fits) (Workflow.executeTriggered trigger record previous) :=
  upholds_of_ready fun w hw => by
    unfold Workflow.executeTriggered
    refine (Workflow.triggered_ends record.module trigger w).bind ?_ ?_
    · rintro e v ⟨rfl, -⟩
      exact notes_rolledBack _
    rintro rows _ - ⟨rfl, hrows⟩
    refine Workflow.upholds_executeEach (fun row hrow x hx r => Run.upholds_fresh fun n => ?_) _ _ _ _
    exact upholds_executeIn hfits htriggers (hfits row (hw.stored row (hrows row hrow)) x hx) htrigger r

/-- Actions are carried out as a run that does not count. -/
theorem upholds_start {c : Context} (hc : ¬ k.Launches apart c) (actions : List Action)
    (halts : Bool) : Upholds (k.Notes apart fits) (Run.start c actions halts) :=
  upholds_of_ready fun w hw => by
    have hreact := upholdsReaction_reaction hfits htriggers c.budget.remaining
    exact runIn_fst_ends (runActions_ends hreact actions halts hw (f := ⟨w, c⟩) rfl rfl rfl rfl fun n =>
      ⟨.inl, fun h => h.elim id fun h => absurd h.2 hc⟩)

end Launches

/-! ## What jobs and decisions launch -/

theorem fits_stamped {row : StoredWorkflow} (h : k.Fits row) (t : Calendar.Instant) :
    k.Fits { row with lastScheduledAt := some t } := h

theorem trigger_not_goingOn (t : Trigger) : t.name ∉ Run.goingOn := by
  cases t <;> decide

instance : Abiding (k.Notes Run.goingOn k.Fits) where
  executes t := upholds_executeTriggered (fun _ h => h) trigger_not_goingOn (trigger_not_goingOn t)
  serves job payload := upholds_of_ready fun w hw => by
    refine Workflow.upholds_runScheduled job payload fun row hrow x hx record n => ?_
    exact upholds_executeIn (fun _ h => h) trigger_not_goingOn (hw.stored row hrow x hx)
      (trigger_not_goingOn .scheduled) record
  stamps id t w := by
    refine .of_ok (update_eq id _ w) fun hw => ⟨[], .none ⟨hw.cooldowns, hw.runs, ?_, hw.kept⟩ rfl rfl rfl⟩
    intro row hrow
    obtain ⟨before, hbefore, rfl⟩ := List.mem_map.mp hrow
    split
    · exact fits_stamped (hw.stored before hbefore) t
    · exact hw.stored before hbefore
  starts c actions halts hc :=
    upholds_start (fun _ h => h) trigger_not_goingOn (fun h => nomatch hc.symm.trans h.1) actions halts
  goesOn c actions halts parent hc := by
    have started : Upholds (k.Notes Run.goingOn k.Fits) (Run.start c actions halts) :=
      upholds_start (fun _ h => h) trigger_not_goingOn (fun h => h.2.2.2 hc) actions halts
    exact .bind started fun _ => .bind (Run.upholds_linkParent _ _) fun _ => .pure _

instance : Aloof (k.Notes Run.goingOn k.Fits) where
  approvals := indifferent_of_notes (fun _ _ => rfl) (fun _ _ => rfl) fun _ _ => rfl
  entries := indifferent_of_notes (fun _ _ => rfl) (fun _ _ => rfl) fun _ _ => rfl
  stageChanges := indifferent_of_notes (fun _ _ => rfl) (fun _ _ => rfl) fun _ _ => rfl
  blueprints := indifferent_of_notes (fun _ _ => rfl) (fun _ _ => rfl) fun _ _ => rfl
  processes := indifferent_of_notes (fun _ _ => rfl) (fun _ _ => rfl) fun _ _ => rfl

end Cooling

end RecordFlow
