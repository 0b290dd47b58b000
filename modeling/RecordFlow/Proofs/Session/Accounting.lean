import RecordFlow.Proofs.Run.Balanced
import RecordFlow.Proofs.Session.Closing

/-! # The accounts of a session

Whatever is asked for, the runs that it opens are those of cascades, one behind the other, and all of
these add up. What goes on with a run after a delay, or tries an action of it again, is hung under that
run, but it is the outermost run of a cascade of its own, and what it takes is not told of the other.
-/
namespace RecordFlow
open RecordFlow.Flow Scoped

def OpensCascades (w v : World) : Prop :=
  w.RunsKept → v.RunsKept ∧ ∃ cascades : List Cascade,
    v.tables.runs = w.tables.runs ++ cascades.flatMap Cascade.rows ∧ ∀ k ∈ cascades, k.AddsUp

instance : AboutRuns OpensCascades where
  refl w hw := ⟨hw, [], (List.append_nil _).symm, List.forall_mem_nil _⟩
  trans _ _ _ h h' hw := by
    obtain ⟨hv, cascades, hruns, hadds⟩ := h hw
    obtain ⟨hu, more, hruns', hadds'⟩ := h' hv
    refine ⟨hu, cascades ++ more, ?_, ?_⟩
    · rw [hruns', hruns, List.flatMap_append, List.append_assoc]
    · exact fun k hk => (List.mem_append.mp hk).elim (hadds k) (hadds' k)
  beside w v hnumbers _ hruns hw := by
    obtain ⟨htables, hsaved⟩ := hruns hw.saved
    refine ⟨⟨hsaved.trans htables.symm, fun n hn r hr => ?_⟩, [], ?_, List.forall_mem_nil _⟩
    · exact hw.free n (Nat.le_trans hnumbers hn) r (htables ▸ hr)
    · exact htables.trans (List.append_nil _).symm

theorem opensCascades_none {w v : World} (hv : v.RunsKept) (hruns : v.tables.runs = w.tables.runs) :
    OpensCascades w v := fun _ =>
  ⟨hv, [], hruns.trans (List.append_nil _).symm, List.forall_mem_nil _⟩

theorem opensCascades_one {w v : World} (hv : v.RunsKept) {k : Cascade}
    (hruns : v.tables.runs = w.tables.runs ++ k.rows) (hadds : k.AddsUp) : OpensCascades w v :=
  fun _ => ⟨hv, [k], by rw [hruns]; simp, List.forall_mem_singleton.mpr hadds⟩

/-! ## Runs that go on with others -/

namespace Cascade

def hung (parent : Uuid) (k : Cascade) : Cascade where
  top := k.top.hung parent
  inner := k.inner
  distinct := k.distinct
  closed := List.forall_mem_cons.mpr
    ⟨⟨(k.closed _ List.mem_cons_self).status, (k.closed _ List.mem_cons_self).finished⟩,
      (List.forall_mem_cons.mp k.closed).2⟩
  opened s hs := by
    obtain ⟨htrigger, r, hr, hparent⟩ := k.opened s hs
    refine ⟨htrigger, ?_⟩
    rcases List.mem_cons.mp hr with rfl | hr
    · exact ⟨_, List.mem_cons_self, hparent⟩
    · exact ⟨r, List.mem_cons_of_mem _ hr, hparent⟩

theorem AddsUp.hung {k : Cascade} (h : k.AddsUp) (parent : Uuid) : (k.hung parent).AddsUp :=
  have h := List.forall_mem_cons.mp h
  List.forall_mem_cons.mpr ⟨h.1, h.2⟩

theorem changeRow_rows {k : Cascade} {rows : List Run} (h : ∀ r ∈ rows, r.id ≠ k.top.id)
    (parent : Uuid) :
    Run.changeRow k.top.id (Run.hung parent) (rows ++ k.rows) = rows ++ (k.hung parent).rows := by
  refine Run.changeRow_split h fun r hr heq => ?_
  have hdistinct := k.distinct
  rw [List.map_cons, List.nodup_cons] at hdistinct
  exact hdistinct.1 (heq ▸ List.mem_map_of_mem hr)

end Cascade

namespace Run

def HasLeft (w v : World) (r : RunResult) : Prop :=
  v.RunsKept ∧ ∃ k : Cascade, r.run = some k.top.id ∧ k.top.id = TableName.run.rowId (w.nextNumber .run)
    ∧ v.tables.runs = w.tables.runs ++ k.rows ∧ k.AddsUp

variable {react : Reaction} (hspends : ∀ before after, Spends (react before after))
variable (hcloses : UpholdsReaction ClosesRuns react)
include hspends hcloses

theorem runActions_hasLeft (actions : List Action) (halts : Bool) {f : Frame}
    (hf : f.world.RunsKept) :
    Ends (runActions react actions halts) f (fun r g => HasLeft f.world g.world r)
      fun _ g => OpensCascades f.world g.world.rolledBack := by
  have settles := runActions_settles hspends actions halts hf
  refine (settles.and (runActions_over hcloses actions halts hf)).mono ?_ ?_
  · rintro r g ⟨⟨top, inner, h, -⟩, hr, hover⟩
    obtain ⟨k, rfl, hruns, hadds⟩ := h.cascade rfl hf hover.closesRuns
    exact ⟨h.nest.kept, k, hr.trans (congrArg some h.id.symm), h.id, hruns, hadds⟩
  · rintro e g ⟨⟨-, hg⟩ | ⟨-, top, inner, h, -⟩, hclosed⟩
    · have hruns : g.world.saved.runs = f.world.tables.runs := by rw [hg.world.saved, hf.saved]
      refine opensCascades_none ⟨rfl, fun n hn r hr => ?_⟩ hruns
      exact hf.free n (Nat.le_trans (hg.world.numbers .run) hn) r (hruns ▸ hr)
    · have hclosed := trans_of ClosesRuns hclosed (AboutRuns.undone g.world)
      obtain ⟨k, -, hruns, hadds⟩ := h.rollback.cascade rfl hf hclosed
      exact opensCascades_one h.rollback.nest.kept hruns hadds

theorem upholdsRuns_opensCascades : UpholdsRuns OpensCascades react := fun actions halts f => by
  have ends (hf : f.world.RunsKept) := runActions_hasLeft hspends hcloses actions halts hf
  cases hx : runActions react actions halts f with
  | ok r g =>
    refine .of_ok hx fun hf => ?_
    obtain ⟨hg, k, -, -, hruns, hadds⟩ := (ends hf).ok_of hx
    exact opensCascades_one hg hruns hadds hf
  | error e g => exact .of_error hx fun hf => (ends hf).bad_of hx hf

/-- A run that goes on with another is the outermost one of a cascade of its own. -/
theorem opensCascades_goesOn (c : Context) (actions : List Action) (halts : Bool)
    (parent : Option Uuid) : Upholds OpensCascades (do
      let (r, _) ← runIn c (runActions react actions halts)
      linkParent r.run parent
      return r) := by
  intro w
  by_cases hw : w.RunsKept
  · have ran : Ends (runIn c (runActions react actions halts)) w (fun a v => HasLeft w v a.1)
        fun _ v => OpensCascades w v.rolledBack :=
      runIn_ends (runActions_hasLeft hspends hcloses actions halts (f := ⟨w, c⟩) hw)
    refine ran.bind (fun _ _ h => h) ?_
    rintro ⟨r, d⟩ v - ⟨hv, k, hr, hid, hruns, hadds⟩
    dsimp only
    rw [hr]
    refine (linkParent_ends _ _ v).bind (fun _ _ h => h.elim) ?_
    rintro - u - (rfl | ⟨p, hu⟩)
    · exact .pure (opensCascades_one hv hruns hadds)
    · have hfirst : ∀ r ∈ w.tables.runs, r.id ≠ k.top.id := fun r hr =>
        hid ▸ hw.free _ (Nat.le_refl _) r hr
      have hrows : u.tables.runs = w.tables.runs ++ (k.hung p).rows := by
        rw [hu.runs_eq, hruns, k.changeRow_rows hfirst]
      exact .pure (opensCascades_one (hu.kept (fun _ => rfl) hv) hrows (hadds.hung p))
  · exact Ends.any.mono (fun _ _ _ h => absurd h hw) fun _ _ _ h => absurd h hw

end Run

instance : Bearing OpensCascades where
  cooldowns := inferInstance
  workflows := inferInstance
  runs levels := Run.upholdsRuns_opensCascades (Workflow.spends_reactionOn (fun _ _ => .pure ()) levels)
    (Workflow.upholdsReaction_reactionOn (fun _ => Run.upholdsRuns_closesRuns) levels)
  goesOn levels := Run.opensCascades_goesOn
    (Workflow.spends_reactionOn (fun _ _ => .pure ()) levels)
    (Workflow.upholdsReaction_reactionOn (fun _ => Run.upholdsRuns_closesRuns) levels)

/-! ## Sessions -/

theorem Command.after_opensCascades (c : Command) (w : World) : OpensCascades w (c.after w) :=
  Command.after_upheld c.upholds_any w

theorem World.afterAll_opensCascades (w : World) (session : List Command) :
    OpensCascades w (w.afterAll session) := by
  induction session generalizing w with
  | nil => exact refl_of OpensCascades w
  | cons c rest ih => exact trans_of OpensCascades (c.after_opensCascades w) (ih (c.after w))

/-- Whatever is asked for, and whether it succeeds or fails: the table of runs is made of cascades, and
every one of them adds up. -/
theorem World.afterAll_cascades {w : World} (hw : w.IsNew) (session : List Command) :
    ∃ cascades : List Cascade, (w.afterAll session).tables.runs = cascades.flatMap Cascade.rows
      ∧ ∀ k ∈ cascades, k.AddsUp := by
  obtain ⟨-, cascades, hruns, hadds⟩ := w.afterAll_opensCascades session hw.runsKept
  have hnone : w.tables.runs = [] := by
    rw [hw.1]
    rfl
  exact ⟨cascades, by rw [hruns, hnone, List.nil_append], hadds⟩

end RecordFlow
