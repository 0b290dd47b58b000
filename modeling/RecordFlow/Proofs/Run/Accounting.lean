import Mathlib.Algebra.Ring.Int.Defs
import RecordFlow.Proofs.Run.Closing

/-! # What runs take off the budget

The runs of a cascade take their actions off one budget, and the row of each tells by how much it
brought the budget forward. That is a unit for every action that the run carried out, and what those
runs took that its writes opened right under it. Where one of these met the limit, the action in
which it was opened was taken off the budget but came to no result: every run that was cut short
takes a unit more, except the innermost.
-/
namespace RecordFlow
open RecordFlow.Flow Scoped

namespace Run

def writeTriggers : List String := [Trigger.onUpdate.name, Trigger.onFieldChange.name]

/-- The runs that the writes of a run opened right under it. What goes on with a run later is
triggered by something else. -/
def under (id : Uuid) (runs : List Run) : List Run :=
  runs.filter fun s => s.parent = some id && s.trigger ∈ writeTriggers

def units (r : Run) : Int := r.consumed.int?.getD 0

def results (r : Run) : List Value :=
  match r.executed with
  | .list results => results
  | _ => []

def carriedOut (r : Run) : Nat :=
  r.results.countP fun result =>
    (result.fields.getD "status").text? ≠ some ActionStatus.skipped.name

def unitsUnder (id : Uuid) (runs : List Run) : Int := ((under id runs).map units).sum

def cappedUnder (id : Uuid) (runs : List Run) : Bool := (under id runs).any isCapped

def isInnermost (runs : List Run) (r : Run) : Bool := r.isCapped && !cappedUnder r.id runs

/-- What a run took off the budget, told from its results and from the runs right under it. -/
def AddsUp (runs : List Run) (r : Run) : Prop :=
  r.consumed = .int (r.carriedOut + unitsUnder r.id runs
    + if r.isCapped && !r.isInnermost runs then 1 else 0)

section Under
variable {id : Uuid} {r : Run} {runs more : List Run}

theorem under_append : under id (runs ++ more) = under id runs ++ under id more :=
  List.filter_append ..

theorem under_eq_nil (h : ∀ s ∈ runs, s.parent ≠ some id) : under id runs = [] :=
  List.filter_eq_nil_iff.mpr fun s hs => by simp [h s hs]

theorem unitsUnder_append : unitsUnder id (runs ++ more) = unitsUnder id runs + unitsUnder id more := by
  simp only [unitsUnder, under_append, List.map_append, List.sum_append]

theorem cappedUnder_append :
    cappedUnder id (runs ++ more) = (cappedUnder id runs || cappedUnder id more) := by
  simp only [cappedUnder, under_append, List.any_append]

theorem isCapped_and_not_isInnermost :
    (r.isCapped && !r.isInnermost runs) = (r.isCapped && cappedUnder r.id runs) := by
  rw [isInnermost]
  cases r.isCapped <;> simp

theorem AddsUp.congr (h : r.AddsUp runs) (hunder : under r.id more = under r.id runs) :
    r.AddsUp more := by
  simp only [AddsUp, isInnermost, unitsUnder, cappedUnder, hunder] at h ⊢
  exact h

end Under

/-! ## Runs that are opened in a run -/

def IsPast (id : Uuid) (next : Nat) : Prop := ∀ n, next ≤ n → id ≠ TableName.run.rowId n

theorem IsPast.later {id : Uuid} {m n : Nat} (h : IsPast id m) (hle : m ≤ n) : IsPast id n :=
  fun k hk => h k (Nat.le_trans hle hk)

theorem isPast_rowId {m n : Nat} (h : m < n) : IsPast (TableName.run.rowId m) n := by
  intro k hk heq
  have hnumber := TableName.rowId_injective .run heq
  omega

/-- Behind some rows there are those of runs that writes opened in a run, right under it or further
down. They are numbered from some number on, and all of them add up. -/
structure Nest (id : Uuid) (rows : List Run) (next : Nat) (v : World) (new : List Run) : Prop where
  kept : v.RunsKept
  runs : v.tables.runs = rows ++ new
  numbers : next ≤ v.nextNumber .run
  given : ∀ r ∈ new, ∃ n, next ≤ n ∧ n < v.nextNumber .run ∧ r.id = TableName.run.rowId n
  triggered : ∀ r ∈ new, r.trigger ∈ writeTriggers
  linked : ∀ r ∈ new, r.parent = some id ∨ ∃ s ∈ new, r.parent = some s.id
  addsUp : ∀ r ∈ new, r.AddsUp new

namespace Nest
variable {id other : Uuid} {rows new more : List Run} {next : Nat} {w v u : World}

theorem none (hv : v.RunsKept) (hruns : v.tables.runs = rows) (hnumbers : next ≤ v.nextNumber .run) :
    Nest id rows next v [] where
  kept := hv
  runs := by rw [hruns, List.append_nil]
  numbers := hnumbers
  given := List.forall_mem_nil _
  triggered := List.forall_mem_nil _
  linked := List.forall_mem_nil _
  addsUp := List.forall_mem_nil _

/-- A run that is not among them has none of them right under it, unless it is the one in which they
were opened. -/
theorem under_eq_nil (h : Nest id rows next v new) (hid : other ≠ id)
    (hother : ∀ r ∈ new, r.id ≠ other) : under other new = [] := by
  refine Run.under_eq_nil fun s hs heq => ?_
  rcases h.linked s hs with hparent | ⟨r, hr, hparent⟩
  · exact hid (Option.some.inj (heq.symm.trans hparent))
  · exact hother r hr (Option.some.inj (hparent.symm.trans heq))

/-- Further runs stand behind those that are there, and neither are under the other. -/
theorem append (h : Nest id rows next v new) (hid : IsPast id next)
    (h' : Nest id v.tables.runs (v.nextNumber .run) u more) :
    Nest id rows next u (new ++ more) where
  kept := h'.kept
  runs := by rw [h'.runs, h.runs, List.append_assoc]
  numbers := Nat.le_trans h.numbers h'.numbers
  given r hr := by
    rcases List.mem_append.mp hr with hr | hr
    · obtain ⟨n, hle, hlt, hn⟩ := h.given r hr
      exact ⟨n, hle, Nat.lt_of_lt_of_le hlt h'.numbers, hn⟩
    · obtain ⟨n, hle, hlt, hn⟩ := h'.given r hr
      exact ⟨n, Nat.le_trans h.numbers hle, hlt, hn⟩
  triggered r hr := (List.mem_append.mp hr).elim (h.triggered r) (h'.triggered r)
  linked r hr := by
    rcases List.mem_append.mp hr with hr | hr
    · exact (h.linked r hr).imp_right fun ⟨s, hs, hparent⟩ =>
        ⟨s, List.mem_append_left more hs, hparent⟩
    · exact (h'.linked r hr).imp_right fun ⟨s, hs, hparent⟩ =>
        ⟨s, List.mem_append_right new hs, hparent⟩
  addsUp r hr := by
    have apart {s t : Run} (hs : s ∈ new) (ht : t ∈ more) : s.id ≠ t.id := by
      obtain ⟨m, -, hlt, hm⟩ := h.given s hs
      obtain ⟨n, hle, -, hn⟩ := h'.given t ht
      intro heq
      have hnumber := TableName.rowId_injective .run (hm.symm.trans (heq.trans hn))
      omega
    rcases List.mem_append.mp hr with hr | hr
    · obtain ⟨n, hle, -, hn⟩ := h.given r hr
      have hnone : under r.id more = [] :=
        h'.under_eq_nil (hn ▸ (hid n hle).symm) fun t ht heq => apart hr ht heq.symm
      exact (h.addsUp r hr).congr (by rw [under_append, hnone, List.append_nil])
    · obtain ⟨n, hle, -, hn⟩ := h'.given r hr
      have hnone : under r.id new = [] :=
        h.under_eq_nil (hn ▸ (hid n (Nat.le_trans h.numbers hle)).symm) fun s hs => apart hs hr
      exact (h'.addsUp r hr).congr (by rw [under_append, hnone, List.nil_append])

theorem since {first : Nat} (h : Nest id rows next v new) (hle : first ≤ next) :
    Nest id rows first v new :=
  { h with
    numbers := Nat.le_trans hle h.numbers
    given := fun r hr => (h.given r hr).imp fun _ h => ⟨Nat.le_trans hle h.1, h.2⟩ }

/-- Nothing of this depends on anything but the rows that are saved and the numbers. -/
theorem silent (h : Nest id rows next v new) (hruns : u.tables.runs = v.tables.runs)
    (hsaved : u.saved.runs = v.tables.runs) (hnumbers : v.nextNumber .run ≤ u.nextNumber .run) :
    Nest id rows next u new :=
  { h with
    kept := ⟨hsaved.trans hruns.symm, fun n hn r hr =>
      h.kept.free n (Nat.le_trans hnumbers hn) r (hruns ▸ hr)⟩
    runs := hruns.trans h.runs
    numbers := Nat.le_trans h.numbers hnumbers
    given := fun r hr =>
      let ⟨n, hle, hlt, hn⟩ := h.given r hr
      ⟨n, hle, Nat.lt_of_lt_of_le hlt hnumbers, hn⟩ }

end Nest

end Run

/-- What a part of a run takes off the budget: some units of its own, and what the runs took that were
opened right under the run meanwhile. Whether one of these was cut short is told too. -/
structure Costs (id : Uuid) (own : Int) (cut : Bool) (f g : Frame) (new : List Run) : Prop where
  nest : Run.Nest id f.world.tables.runs (f.world.nextNumber .run) g.world new
  run : g.context.run = f.context.run
  parent : g.context.parent = f.context.parent
  units : g.context.budget.consumed = f.context.budget.consumed + own + Run.unitsUnder id new
  cut : Run.cappedUnder id new = cut

structure Within (id : Uuid) (f : Frame) : Prop where
  kept : f.world.RunsKept
  run : f.context.run = some id
  past : Run.IsPast id (f.world.nextNumber .run)

namespace Costs
variable {id : Uuid} {own more : Int} {cut : Bool} {f g h : Frame} {new new' : List Run}

theorem within (hg : Costs id own cut f g new) (hf : Within id f) : Within id g :=
  ⟨hg.nest.kept, hg.run.trans hf.run, hf.past.later hg.nest.numbers⟩

theorem trans (hf : Within id f) (hg : Costs id own false f g new) (hh : Costs id more cut g h new') :
    Costs id (own + more) cut f h (new ++ new') where
  nest := hg.nest.append hf.past hh.nest
  run := hh.run.trans hg.run
  parent := hh.parent.trans hg.parent
  units := by
    rw [hh.units, hg.units, Run.unitsUnder_append]
    omega
  cut := by rw [Run.cappedUnder_append, hg.cut, hh.cut, Bool.false_or]

theorem beside (hf : Within id f) (hworld : Beside true f.world g.world)
    (hrun : g.context.run = f.context.run) (hparent : g.context.parent = f.context.parent)
    (hunits : g.context.budget.consumed = f.context.budget.consumed + own) :
    Costs id own false f g [] where
  nest := (Run.Nest.none hf.kept rfl (Nat.le_refl _)).silent hworld.runs
    (by rw [hworld.saved, hf.kept.saved]) (hworld.numbers .run)
  run := hrun
  parent := hparent
  units := hunits.trans (Int.add_zero _).symm
  cut := rfl

theorem refl (hf : Within id f) : Costs id 0 false f f [] :=
  .beside hf (.refl _) rfl rfl (Int.add_zero _).symm

theorem rollback (hg : Costs id own cut f g new) : Costs id own cut f (Run.rolledBack g) new :=
  { hg with nest := hg.nest.silent hg.nest.kept.saved hg.nest.kept.saved (Nat.le_refl _) }

end Costs

/-- A part of a run that takes nothing off the budget but what the runs take that it opens. It fails
for want of budget just if one of these was cut short. -/
def Spends {α : Type} (part : Scoped α) : Prop :=
  ∀ id f, Within id f → Ends part f (fun _ g => ∃ new, Costs id 0 false f g new)
    fun e g => ∃ new, Costs id 0 e.isLimit f g new

namespace Spends
variable {α β : Type} {x : Scoped α}

theorem incidental (hx : IncidentalIn (Beside true) x) : Spends x := by
  intro id f hf
  have costs {g : Frame} (h : InContext (Beside true) f g) : Costs id 0 false f g [] := by
    have hunits : g.context.budget.consumed = f.context.budget.consumed + 0 := by
      rw [h.context, Int.add_zero]
    exact .beside hf h.world (by rw [h.context]) (by rw [h.context]) hunits
  exact (hx f).mono (fun _ g h => ⟨[], costs h⟩) fun e g h => ⟨[], h.1 ▸ costs h.2⟩

theorem pure (a : α) : Spends (Pure.pure a : Scoped α) := incidental (.pure a)

theorem bind {y : α → Scoped β} (hx : Spends x) (hy : ∀ a, Spends (y a)) : Spends (x >>= y) := by
  intro id f hf
  refine (hx id f hf).bind (fun _ _ h => h) ?_
  rintro a g - ⟨new, hg⟩
  refine (hy a id g (hg.within hf)).mono ?_ ?_
  · exact fun b h ⟨more, hh⟩ => ⟨new ++ more, hg.trans hf hh⟩
  · exact fun e h ⟨more, hh⟩ => ⟨new ++ more, hg.trans hf hh⟩

theorem ite {c : Prop} [Decidable c] {z : Scoped α} (hx : Spends x) (hz : Spends z) :
    Spends (if c then x else z) := by
  split
  · exact hx
  · exact hz

theorem changeContext {change : Context → Context} (hrun : ∀ c, (change c).run = c.run)
    (hparent : ∀ c, (change c).parent = c.parent) (hbudget : ∀ c, (change c).budget = c.budget) :
    Spends (changeContext change) := fun _ _ hf =>
  .of_ok (a := ()) rfl ⟨[], .beside hf (.refl _) (hrun _) (hparent _)
    ((congrArg Budget.consumed (hbudget _)).trans (Int.add_zero _).symm)⟩

end Spends

/-! ## Actions -/

namespace Action
variable {react : Reaction} (hreact : ∀ before after, Spends (react before after))
include hreact

theorem spends_applyPatch (changes : Fields) : Spends (applyPatch react changes) := by
  unfold applyPatch
  refine .bind (.incidental incidentalIn_context) fun before => ?_
  refine .bind (.incidental (incidentalIn_lift (incidental_patch _ _ _))) fun after => ?_
  refine .bind (.changeContext (fun _ => rfl) (fun _ => rfl) fun _ => rfl) fun _ => ?_
  exact .bind (.incidental (incidentalIn_lift .wiring)) fun wiring => .ite (hreact _ _) (.pure ())

theorem spends_updateFields (fields : Fields) : Spends (updateFields react fields) := by
  unfold updateFields
  refine .bind (.incidental incidentalIn_context) fun c => ?_
  refine .bind (.incidental (incidentalIn_readable _)) fun changes => ?_
  refine .bind (.incidental (incidentalIn_readable _)) fun before => .ite (.pure _) ?_
  exact .bind (spends_applyPatch hreact changes) fun _ => .pure _

theorem spends_moveStage (stage : String) : Spends (moveStage react stage) := by
  unfold moveStage
  refine .bind (.incidental incidentalIn_context) fun c => .ite (.pure _) (.ite (.pure _) ?_)
  exact .bind (spends_applyPatch hreact _) fun _ => .pure _

theorem spends_assignOwner (rule : Option Uuid) (strategy : Option Strategy) (user : Option String) :
    Spends (assignOwner react rule strategy user) := by
  unfold assignOwner
  refine .bind (.incidental incidentalIn_context) fun c => ?_
  refine .bind (.incidental (incidentalIn_chooseOwner _ _ _)) fun choice => ?_
  refine .ite (.pure _) (.ite (.pure _) (.ite (.pure _) (.bind (spends_applyPatch hreact _) fun _ => ?_)))
  refine .bind (.incidental (incidentalIn_lift
    (incidental_note (by decide) (.inl (by decide))))) fun _ => ?_
  exact .bind (.incidental (incidentalIn_lift (.valid (fun _ h => h) _))) fun _ => .pure _

theorem spends_carryOut (a : Action) : Spends (carryOut react a) := by
  unfold carryOut
  split
  · exact spends_updateFields hreact _
  · exact spends_assignOwner hreact _ _ _
  · exact .incidental (incidentalIn_createTask _)
  · exact .incidental (incidentalIn_createActivity _)
  · exact .incidental (incidentalIn_addNote _ _)
  · exact .incidental (incidentalIn_notify _)
  · exact spends_moveStage hreact _
  · exact .incidental (incidentalIn_startCadence _)
  · exact .incidental (incidentalIn_stopCadence _)
  · exact .incidental (incidentalIn_draftEnrollment _)
  · exact .incidental (incidentalIn_sendEmail _)
  · exact .incidental (incidentalIn_sendSms _)
  · exact .incidental (incidentalIn_delayWait _)
  · exact .incidental (incidentalIn_postWebhook _ _)


end Action

def ActionResult.isCarriedOut (r : ActionResult) : Bool := r.status ≠ .skipped

def ActionResult.units (r : ActionResult) : Int := if r.isCarriedOut then 1 else 0

theorem Run.carriedOut_encodeAll {r : Run} {results : List ActionResult}
    (h : r.executed = ActionResult.encodeAll results) :
    r.carriedOut = results.countP (·.isCarriedOut) := by
  have each (result : ActionResult) : (result.encode.fields.getD "status").text?
      = some result.status.name := rfl
  have named (s : ActionStatus) : s.name = ActionStatus.skipped.name ↔ s = .skipped := by
    cases s <;> decide
  rw [carriedOut, Run.results, h, ActionResult.encodeAll]
  dsimp only
  rw [List.countP_map]
  refine List.countP_congr fun result _ => ?_
  simp only [Function.comp_apply, each, ne_eq, Option.some.injEq, named, ActionResult.isCarriedOut]

theorem Effect.units_result (e : Effect) (a : Action) : (e.result a).units = 1 := by
  unfold Effect.result
  cases e.error <;> rfl

/-- An action that is not passed over takes a unit off the budget, and so does one that the limit stops
where a run under it was cut short. One that is refused itself takes none. -/
theorem Action.perform_costs {react : Reaction} (hreact : ∀ before after, Spends (react before after))
    (a : Action) {id : Uuid} {f : Frame} (hf : Within id f) :
    Ends (perform react a) f (fun r g => ∃ new, Costs id r.units false f g new)
      fun e g => e.isLimit = true ∧ ∃ new cut, Costs id (if cut then 1 else 0) cut f g new := by
  refine perform_of_attempt ⟨[], .refl hf⟩ ?_ ?_
  · unfold attempt
    cases hc : f.context.budget.consume a.kind with
    | error l => exact .of_error (bind_error (consume_error hc) _) ⟨rfl, [], false, .refl hf⟩
    | ok b =>
      let g : Frame := { f with context := { f.context with budget := b } }
      have hunit : b.consumed = f.context.budget.consumed + 1 := by
        unfold Budget.consume at hc
        split at hc
        · cases hc
        · cases hc
          rfl
      have hg : Costs id 1 false f g [] := .beside hf (.refl _) rfl rfl hunit
      refine .step (consume_ok hc) ((orFailure_ends
        (spends_carryOut hreact a id g (hg.within hf))).bind ?_ ?_)
      · rintro e h ⟨he, new, hh⟩
        have hh : Costs id 0 true g h new := he ▸ hh
        exact ⟨he, new, true, hg.trans hf hh⟩
      · rintro (cause | effect) h - hh
        · obtain ⟨he, new, hh⟩ := hh
          exact .of_ok rfl ⟨new, (hg.trans hf (he ▸ hh)).rollback⟩
        · obtain ⟨new, hh⟩ := hh
          exact .pure ⟨new, (effect.units_result a).symm ▸ hg.trans hf hh⟩
  · rintro r g samples ⟨new, hg⟩
    exact ⟨new, { hg with nest := hg.nest.silent rfl hg.nest.kept.saved (Nat.le_refl _) }⟩

end RecordFlow
