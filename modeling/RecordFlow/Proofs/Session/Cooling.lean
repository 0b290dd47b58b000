import RecordFlow.Proofs.Session.Timekeeping
import RecordFlow.Proofs.Workflow.Cooling

/-! # Cooldowns in a session

In whatever state a session ends, a workflow is passed over for its cooldown if and only if some
command launched it for the record in the same period. Runs for other records, of other workflows or on
trial, runs that go on with others, and launches that were passed over themselves do not count.
-/
namespace RecordFlow
open RecordFlow.Flow Calendar

/-! ## What a command launches -/

namespace Command

def opened (c : Command) (w : World) : List Run :=
  (c.after w).tables.runs.drop w.tables.runs.length

/-- The runs that a command opened by executing a workflow. Actions that are carried out by themselves
belong to the first run that is opened; where jobs are carried out, some runs go on with others. -/
def launched (c : Command) (w : World) : List Run :=
  match c with
  | .errand (.start _ _ _) => (c.opened w).tail
  | .errand (.execute _ _ _) | .errand (.trigger _ _ _) | .errand (.nest _ _ _ _)
  | .errand (.perform _ _) => c.opened w
  | _ => (c.opened w).filter fun r => r.trigger ∉ Run.goingOn

end Command

namespace Cooling
variable {k : Cooling} {w v : World} {c : Command}

theorem Ready.of_sound {fits : StoredWorkflow → Prop} (hw : w.Sound)
    (h : ∀ row ∈ w.tables.workflows, fits row) : Ready fits w where
  cooldowns := by rw [hw.saved]
  runs := by rw [hw.saved]
  stored := h
  kept := by rwa [hw.saved]

def NotesBy (k : Cooling) (c : Command) (w : World) : Prop :=
  ∀ n, k.Noted n (c.after w) ↔ k.Noted n w
    ∨ w.clock.universal.period? k.seconds = .ok n ∧ ∃ r ∈ c.launched w, k.Counts r.head

section Commands
variable {apart : List String} {fits : StoredWorkflow → Prop}

theorem Notes.opened (h : k.Notes apart fits w (c.after w)) (hw : Ready fits w) (n : Int) :
    k.Noted n (c.after w) ↔ k.Noted n w ∨ w.clock.universal.period? k.seconds = .ok n
      ∧ ∃ r ∈ c.opened w, k.Counts r.head ∧ r.trigger ∉ apart := by
  obtain ⟨new, since⟩ := h hw
  rw [since.noted n, ← Run.heads_drop since.runs]
  simp only [List.mem_map, exists_exists_and_eq_and]
  rfl

theorem notesBy_of_all (hlaunched : c.launched w = c.opened w) (h : k.Notes [] fits w (c.after w))
    (hw : Ready fits w) : k.NotesBy c w := fun n => by
  rw [h.opened hw n, hlaunched]
  simp only [List.not_mem_nil, not_false_eq_true, and_true]

theorem notesBy_of_goingOn
    (hlaunched : c.launched w = (c.opened w).filter fun r => r.trigger ∉ Run.goingOn)
    (h : k.Notes Run.goingOn fits w (c.after w)) (hw : Ready fits w) : k.NotesBy c w := fun n => by
  rw [h.opened hw n, hlaunched]
  simp only [List.mem_filter, decide_eq_true_eq, and_assoc, and_comm (a := k.Counts _)]

end Commands

instance : Indifferent (k.Notes apart fun _ => True) StoredWorkflow where
  setRows _ _ hw :=
    ⟨[], .none ⟨hw.cooldowns, hw.runs, fun _ _ => trivial, fun _ _ => trivial⟩ rfl rfl rfl⟩

theorem notesBy_plain (hw : Ready k.Fits w) (hplain : ∀ x, c = .errand x → x.isPlain = true) :
    k.NotesBy c w := by
  have upholds : Upholds (k.Notes Run.goingOn k.Fits) c.run := by
    refine c.upholds_of_errands (fun x hx => ?_) fun _ => Job.upholds_process
    exact x.upholds_plain (hplain x hx) (fun id actor => Incidental.upholds (incidental_pause id actor))
      (fun id actor => Incidental.upholds (incidental_resume id actor))
      (fun _ => Job.upholds_claimPending)
      (fun id _ => Incidental.upholds (incidental_cancelPending id)) fun _ => Job.upholds_process
  refine notesBy_of_goingOn ?_ (Command.after_upheld upholds w) hw
  cases c with
  | errand x =>
    have hplain := hplain x rfl
    cases x <;> first | rfl | cases hplain
  | _ => rfl

/-- Actions that are carried out by themselves are a run that does not count, whatever it is said to be
for; what it opens in turn does. -/
theorem notesBy_start (hw : Ready k.Fits w) (d : Context) (actions : List Action) (halts : Bool) :
    k.NotesBy (.errand (.start d actions halts)) w := by
  let c : Command := .errand (.start d actions halts)
  have hreact : UpholdsReaction (k.Notes [] k.Fits) d.reaction :=
    upholdsReaction_reaction (fun _ h => h) (fun _ => List.not_mem_nil) _
  have started : Ends c.run w
      (fun _ v => ∃ row u, Run.Opens d w row u ∧ k.Notes [] k.Fits u v.committed)
      fun _ v => v = w.useNumber .run
        ∨ ∃ row u, Run.Opens d w row u ∧ k.Notes [] k.Fits u v.rolledBack :=
    .map (runIn_fst_ends ((Run.runActions_upheld hreact actions halts ⟨w, d⟩).mono
      (fun _ g ⟨row, u, hrow, hu⟩ =>
        ⟨row, u, hrow, trans_of (k.Notes [] k.Fits) hu (notes_committed g.world)⟩) fun _ _ h => h))
  -- The first run does not count, and all that are opened behind it do.
  have later {row : Run} {u : World} (hrow : Run.Opens d w row u)
      (hu : k.Notes [] k.Fits u (c.after w)) : k.NotesBy c w := fun n => by
    obtain ⟨-, -, -, rfl⟩ := hrow
    obtain ⟨new, since⟩ := hu ⟨rfl, rfl, hw.stored, hw.stored⟩
    have hruns : (c.after w).tables.runs.map Run.head = w.tables.runs.map Run.head ++ row.head :: new := by
      rw [since.runs, World.saveRuns, List.map_append, List.append_assoc]
      rfl
    have hlaunched : (c.launched w).map Run.head = new := by
      show ((c.opened w).tail).map Run.head = new
      rw [List.map_tail, Command.opened, Run.heads_drop hruns, List.tail_cons]
    rw [since.noted n, ← hlaunched]
    simp only [List.mem_map, exists_exists_and_eq_and, List.not_mem_nil, not_false_eq_true, and_true]
    rfl
  have none (hafter : (c.after w).tables = w.saved) : k.NotesBy c w := fun n => by
    have hnone : c.launched w = [] := by
      show (c.opened w).tail = []
      rw [Command.opened, hafter, hw.runs, List.drop_length, List.tail_nil]
    have hsame : k.Noted n (c.after w) ↔ k.Noted n w := by rw [Noted, hafter, hw.cooldowns]; rfl
    rw [hsame, hnone]
    simp
  cases hc : c.run w with
  | ok _ v =>
    have hafter : c.after w = v.committed := by rw [Command.after, hc]
    obtain ⟨row, u, hrow, hu⟩ := started.ok_of hc
    exact later hrow (hafter ▸ hu)
  | error e v =>
    have hafter : c.after w = v.rolledBack := by rw [Command.after, hc]
    rcases started.bad_of hc with rfl | ⟨row, u, hrow, hu⟩
    · exact none (by rw [hafter]; rfl)
    · exact later hrow (hafter ▸ hu)

theorem notesBy (hw : w.Sound) (hstored : ∀ row ∈ w.tables.workflows, k.Fits row)
    (hgiven : ∀ d x r, c = .errand (.execute d x r) → x.id = some k.workflow →
      x.cooldownSeconds = some k.seconds) : k.NotesBy c w := by
  have ready : Ready k.Fits w := .of_sound hw hstored
  have changed (h : Upholds (k.Notes Run.goingOn fun _ => True) c.run)
      (hlaunched : c.launched w = (c.opened w).filter fun r => r.trigger ∉ Run.goingOn) :
      k.NotesBy c w :=
    notesBy_of_goingOn hlaunched (Command.after_upheld h w) (.of_sound hw fun _ _ => trivial)
  have handed (h : Upholds (k.Notes [] k.Fits) c.run) (hlaunched : c.launched w = c.opened w) :
      k.NotesBy c w :=
    notesBy_of_all hlaunched (Command.after_upheld h w) ready
  have hfits (row : StoredWorkflow) (h : k.Fits row) : k.Fits row := h
  have htriggers (t : Trigger) : t.name ∉ ([] : List String) := List.not_mem_nil
  have reaction (levels : Nat) : UpholdsReaction (k.Notes [] k.Fits) (Workflow.reaction levels) :=
    upholdsReaction_reaction hfits htriggers levels
  cases c with
  | errand x =>
    cases x with
    | execute d x r =>
      have executed := upholds_executeIn (c := d) hfits htriggers (hgiven d x r rfl) List.not_mem_nil r
      exact handed executed.discard rfl
    | trigger name r previous =>
      have executed : Upholds (k.Notes [] k.Fits) (Workflow.executeTriggered name r previous) :=
        upholds_executeTriggered hfits htriggers List.not_mem_nil r previous
      exact handed executed.discard rfl
    | nest d name r previous =>
      have nested : UpholdsIn (k.Notes [] k.Fits)
          (Workflow.executeNested d.reaction name r previous) :=
        upholdsIn_executeNested (reaction _) hfits List.not_mem_nil r previous
      exact handed (nested.runIn d).discard rfl
    | perform d a =>
      exact handed ((a.upholdsIn_perform (reaction d.budget.remaining)).runIn d).discard rfl
    | start d actions halts => exact notesBy_start ready d actions halts
    | createWorkflow d actor => exact changed (d.upholds_create actor).discard rfl
    | changeWorkflow workflow change actor =>
      exact changed (change.upholds_apply workflow actor).discard rfl
    | adjust clock settings wiring ambient replies =>
      have none : Command.launched (.errand (.adjust clock settings wiring ambient replies)) w = [] := by
        show (w.tables.runs.drop w.tables.runs.length).filter _ = []
        rw [List.drop_length, List.filter_nil]
      exact fun n => ⟨.inl, fun h => h.elim id fun ⟨_, r, hr, _⟩ => by rw [none] at hr; cases hr⟩
    | _ => exact notesBy_plain ready fun x hx => Command.errand.inj hx ▸ rfl
  | _ => exact notesBy_plain ready fun _ h => nomatch h

end Cooling

/-! ## Sessions -/

section Sessions
variable {w : World} {session : List Command} {workflow record : Uuid} {seconds : Int}

/-- Wherever a session stores a workflow or hands it over, its cooldown is the same. -/
structure World.KeepsCooldown (w : World) (session : List Command) (workflow : Uuid) (seconds : Int) :
    Prop where
  stored : ∀ before later, session = before ++ later → ∀ row ∈ (w.afterAll before).tables.workflows,
    ∀ x, row.definition = .valid x → x.id = some workflow → x.cooldownSeconds = some seconds
  given : ∀ c x r, .errand (.execute c x r) ∈ session → x.id = some workflow →
    x.cooldownSeconds = some seconds

/-- A command of a session opened a run by executing a workflow for a record, at a time that is meant
and not on trial. -/
def World.Launched (w : World) (session : List Command) (workflow record : Uuid)
    (meant : Instant → Prop) : Prop :=
  ∃ before c later, session = before ++ c :: later ∧ meant (w.afterAll before).clock.universal
    ∧ ∃ r ∈ c.launched (w.afterAll before),
      r.workflow = some workflow ∧ r.record = some record ∧ r.isDry = false

theorem World.launched_append {c : Command} {meant : Instant → Prop} :
    w.Launched (session ++ [c]) workflow record meant ↔ w.Launched session workflow record meant
      ∨ meant (w.afterAll session).clock.universal ∧ ∃ r ∈ c.launched (w.afterAll session),
        r.workflow = some workflow ∧ r.record = some record ∧ r.isDry = false := by
  constructor
  · rintro ⟨before, d, later, hsession, hmeant, hrun⟩
    rcases later.eq_nil_or_concat with rfl | ⟨rest, last, rfl⟩
    · obtain ⟨rfl, hcd⟩ := List.append_inj' hsession rfl
      obtain rfl := List.singleton_inj.mp hcd
      exact .inr ⟨hmeant, hrun⟩
    · rw [List.concat_eq_append, ← List.cons_append, ← List.append_assoc] at hsession
      obtain ⟨rfl, -⟩ := List.append_inj' hsession rfl
      exact .inl ⟨before, d, rest, rfl, hmeant, hrun⟩
  · rintro (⟨before, d, later, rfl, hmeant, hrun⟩ | ⟨hmeant, hrun⟩)
    · exact ⟨before, d, later ++ [c], by simp, hmeant, hrun⟩
    · exact ⟨session, c, [], rfl, hmeant, hrun⟩

/-- After a session a period is noted if and only if a command launched the workflow in it. -/
theorem World.afterAll_noted (hw : w.IsNew) (k : Cooling)
    (hkeeps : w.KeepsCooldown session k.workflow k.seconds) (n : Int) :
    k.Noted n (w.afterAll session) ↔ w.Launched session k.workflow k.record fun t =>
      t.period? k.seconds = .ok n := by
  induction session using List.reverseRecOn with
  | nil =>
    have hnone : ¬ k.Noted n w := by
      rw [Cooling.Noted, hw.1]
      exact Bool.false_ne_true
    exact ⟨fun h => absurd h hnone, fun ⟨before, _, _, h, _⟩ => by cases before <;> cases h⟩
  | append_singleton before c ih =>
    have earlier : w.KeepsCooldown before k.workflow k.seconds :=
      ⟨fun first rest h => hkeeps.stored first (rest ++ [c]) (by rw [h, List.append_assoc]),
        fun d x r h => hkeeps.given d x r (List.mem_append_left _ h)⟩
    have notes : k.NotesBy c (w.afterAll before) :=
      Cooling.notesBy (hw.sound.afterAll before) (hkeeps.stored before [c] rfl) fun d x r h =>
        hkeeps.given d x r (by rw [h]; exact List.mem_append_right _ List.mem_cons_self)
    rw [World.afterAll_append, notes n, ih earlier, World.launched_append]
    rfl

/-- Whatever was asked for before, an enabled workflow with a cooldown is passed over for it if and only
if some command launched it for the record at a time that is counted to the same period. From 1970 until
2514 that period is the whole part of the time divided by the cooldown; later ones are rounded first. -/
theorem World.afterAll_cooldown (hw : w.IsNew) (hseconds : 0 < seconds)
    (hkeeps : w.KeepsCooldown session workflow seconds) {x : Workflow} (hid : x.id = some workflow)
    (henabled : x.isEnabled = true) (hcooldown : x.cooldownSeconds = some seconds) {c : Context}
    (hkey : c.key = none) (hdry : c.isDry = false) (record : Record) :
    ((∃ v, x.executeIn c record (w.afterAll session) = .ok (x.skipped record "COOLDOWN" none) v)
      ↔ w.Launched session workflow record.id fun t => ∃ n, t.period? seconds = .ok n
        ∧ (w.afterAll session).clock.universal.period? seconds = .ok n)
    ∧ ∀ t : Instant, 0 ≤ t.micros → t.micros < 2 ^ 34 * 1000000 → seconds < 2 ^ 52 →
      t.period? seconds = .ok (t.micros / (seconds * 1000000)) := by
  have lasting : seconds ≠ 0 := by omega
  refine ⟨?_, fun t ht hsmall hlength => t.period?_eq ht hsmall hseconds hlength⟩
  rw [Workflow.executeIn_cools_iff record henabled hkey hdry hcooldown lasting, hid]
  have noted (n : Int) := World.afterAll_noted hw ⟨workflow, record.id, seconds, lasting⟩ hkeeps n
  constructor
  · rintro ⟨n, hn, hnoted⟩
    obtain ⟨before, d, later, hsession, hperiod, hrun⟩ := (noted n).mp hnoted
    exact ⟨before, d, later, hsession, ⟨n, hperiod, hn⟩, hrun⟩
  · rintro ⟨before, d, later, hsession, ⟨n, hperiod, hn⟩, hrun⟩
    exact ⟨n, hn, (noted n).mpr ⟨before, d, later, hsession, hperiod, hrun⟩⟩

end Sessions

def onceAMinute : Workflow where
  id := some ⟨7⟩
  name := "remind"
  module := "deals"
  trigger := .manual
  config := []
  conditions := none
  actions := []
  isEnabled := true
  haltOnFailure := true
  runCountCap := none
  cooldownSeconds := some 60

def byHand : Context := .root default "manual" 50

def remindedAt (t u : Instant) : List Command :=
  let setClock (t : Instant) : Command := .errand (.adjust ⟨t, 0⟩ .standard .complete ⟨none, none⟩ [])
  [setClock t, .errand (.execute byHand onceAMinute default), setClock u]

theorem remindedAt_keepsCooldown {t u : Instant} (h : ∀ n < 4,
      (World.fresh.afterAll ((remindedAt t u).take n)).tables.workflows.isEmpty = true) :
    World.fresh.KeepsCooldown (remindedAt t u) ⟨7⟩ 60 where
  stored before later hsession row hrow := by
    have hbefore : before = (remindedAt t u).take before.length := by
      rw [hsession, List.take_left]
    have hlength : before.length < 4 := by
      have hall : (remindedAt t u).length = 3 := rfl
      rw [hsession, List.length_append] at hall
      omega
    have hnone := h before.length hlength
    rw [← hbefore, List.isEmpty_iff] at hnone
    rw [hnone] at hrow
    cases hrow
  given c x r h hid := by
    simp only [remindedAt, List.mem_cons, List.not_mem_nil, or_false, Command.errand.injEq,
      reduceCtorEq, false_or, Errand.execute.injEq] at h
    rw [h.2.1]
    rfl

set_option maxRecDepth 10000 in
/-- In the same minute the workflow is passed over. -/
theorem World.afterAll_cooldown_reminded : World.fresh.IsNew
    ∧ World.fresh.KeepsCooldown (remindedAt ⟨30000000⟩ ⟨59000000⟩) ⟨7⟩ 60
    ∧ ∃ v, onceAMinute.executeIn byHand default (World.fresh.afterAll (remindedAt ⟨30000000⟩ ⟨59000000⟩))
      = .ok (onceAMinute.skipped default "COOLDOWN" none) v := by
  have keeps : World.fresh.KeepsCooldown (remindedAt ⟨30000000⟩ ⟨59000000⟩) ⟨7⟩ 60 :=
    remindedAt_keepsCooldown (by decide +kernel)
  have cooldown := World.afterAll_cooldown World.fresh_isNew (by decide) keeps (x := onceAMinute) rfl rfl
    rfl (c := byHand) rfl rfl default
  refine ⟨World.fresh_isNew, keeps, cooldown.1.mpr ⟨[_], _, [_], rfl, ⟨0, ?_, ?_⟩, ?_⟩⟩
  · exact cooldown.2 _ (by decide) (by decide) (by decide)
  · exact cooldown.2 _ (by decide) (by decide) (by decide)
  · decide +kernel

set_option maxRecDepth 10000 in
/-- In the year 2600 the last microsecond of a minute is rounded to the next one. So the workflow is
passed over a second later, though it has not run in that minute. -/
theorem World.afterAll_cooldown_rounded :
    World.fresh.KeepsCooldown (remindedAt ⟨19880899259999999⟩ ⟨19880899260999999⟩) ⟨7⟩ 60
    ∧ ¬ ((∃ v, onceAMinute.executeIn byHand default
          (World.fresh.afterAll (remindedAt ⟨19880899259999999⟩ ⟨19880899260999999⟩))
          = .ok (onceAMinute.skipped default "COOLDOWN" none) v)
      ↔ World.fresh.Launched (remindedAt ⟨19880899259999999⟩ ⟨19880899260999999⟩) ⟨7⟩
        (default : Record).id fun t => t.micros / 60000000 = 19880899260999999 / 60000000) := by
  refine ⟨remindedAt_keepsCooldown (by decide +kernel), fun h => ?_⟩
  have cools := h.mp ((Workflow.executeIn_cools_iff default rfl rfl rfl rfl (by decide)).mpr
    ⟨331348321, by rfl, by decide +kernel⟩)
  have steps : remindedAt ⟨19880899259999999⟩ ⟨19880899260999999⟩ = [] ++ [_] ++ [_] ++ [_] := rfl
  rw [steps, World.launched_append, World.launched_append, World.launched_append] at cools
  obtain ((⟨before, _, _, hnone, _⟩ | hset) | hlaunched) | hset := cools
  · cases before <;> cases hnone
  · exact absurd hset (by decide +kernel)
  · exact absurd hlaunched (by decide +kernel)
  · exact absurd hset (by decide +kernel)

end RecordFlow
