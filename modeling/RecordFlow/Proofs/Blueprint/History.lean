import RecordFlow.Proofs.Session.Command

/-! # The history of moves

Every move is in the history, either by a transition that asks for no approval or by an approval that
was given for it. An approval is told of once if its move was carried out, and otherwise not at all.
-/
namespace RecordFlow
open RecordFlow.Flow

namespace Register
variable {allowed : Licence} {high : Nat} {R S : Register}

def naming (R : Register) (id : Uuid) : List StageChange :=
  R.stageChanges.filter fun c => decide (c.approval = some id)

theorem naming_tell (R : Register) (c : StageChange) (id : Uuid) :
    (R.tell c).naming id = R.naming id ++ if c.approval = some id then [c] else [] := by
  unfold naming tell
  rw [List.filter_append, List.filter_singleton]
  split
  · next h => rw [decide_eq_true h, cond_true]
  · next h => rw [decide_eq_false h, cond_false]

end Register

def Standing.told (s : Standing) : Nat := if s.executed then 1 else 0

/-- Each move was free, or an approval was given for it that is told of as often as it should be. -/
structure Register.Historied (R : Register) : Prop where
  free : ∀ c ∈ R.stageChanges, c.approval = none → c.IsFree R.blueprints
  bound : ∀ c ∈ R.stageChanges, ∀ id, c.approval = some id →
    ∃ s ∈ R.standings, s.id = id ∧ s.status = .approved ∧ c.IsBoundTo s
  told : ∀ s ∈ R.standings, (R.naming s.id).length = s.told

namespace Register.Historied
variable {allowed : Licence} {high : Nat} {R S : Register}

theorem define (h : R.Historied) (b : StoredBlueprint) :
    Historied { R with blueprints := R.blueprints ++ [b] } where
  free c hc hnone := by
    obtain ⟨row, hrow, hfree⟩ := h.free c hc hnone
    exact ⟨row, List.mem_append_left _ hrow, hfree⟩
  bound := h.bound
  told := h.told

/-- A new approval is in no move of the history, since those are there already. -/
theorem submit (h : R.Historied) {s : Standing} (e : ApprovalEntry)
    (hnew : ∀ t ∈ R.standings, t.id ≠ s.id) (huntouched : s.executed = false) :
    Historied { R with standings := R.standings ++ [s], entries := R.entries ++ [e] } where
  free := h.free
  bound c hc id hid := by
    obtain ⟨t, ht, hbound⟩ := h.bound c hc id hid
    exact ⟨t, List.mem_append_left _ ht, hbound⟩
  told t ht := by
    rcases List.mem_append.mp ht with ht | ht
    · exact h.told t ht
    · obtain rfl := List.mem_singleton.mp ht
      have hnone : R.naming t.id = [] := by
        refine List.filter_eq_nil_iff.mpr fun c hc hnamed => ?_
        obtain ⟨u, hu, hid, -⟩ := h.bound c hc t.id (of_decide_eq_true hnamed)
        exact hnew u hu hid
      rw [Standing.told, huntouched]
      exact congrArg List.length hnone

/-- An approval that is put in the place of another must not take back what was approved. -/
theorem put (h : R.Historied) (hR : R.Given high) {s s' : Standing} (hthere : s ∈ R.standings)
    (hid : s'.id = s.id) (hexecuted : s'.executed = s.executed) (hcontext : s'.context = s.context)
    (hstatus : s.status = .approved → s'.status = .approved) : (R.put s').Historied where
  free := h.free
  bound c hc id hnamed := by
    obtain ⟨t, ht, rfl, happroved, hbound⟩ := h.bound c hc id hnamed
    obtain ⟨u, hu, hsame⟩ := put_there s' ht
    refine ⟨u, hu, hsame, ?_⟩
    rcases mem_put hu with rfl | ⟨hu', -⟩
    · obtain rfl := hR.eq_of_id ht hthere (hsame.symm.trans hid)
      refine ⟨hstatus happroved, ?_⟩
      rw [StageChange.IsBoundTo, hcontext]
      exact hbound
    · obtain rfl := hR.eq_of_id hu' ht hsame
      exact ⟨happroved, hbound⟩
  told t ht := by
    rcases mem_put ht with rfl | ⟨ht, -⟩
    · rw [hid, Standing.told, hexecuted]
      exact h.told s hthere
    · exact h.told t ht

theorem enter (h : R.Historied) (e : ApprovalEntry) : (R.enter e).Historied :=
  ⟨h.free, h.bound, h.told⟩

theorem decide (h : R.Historied) (hR : R.Given high) {s s' : Standing} {e : ApprovalEntry}
    {steps : List ApprovalStep} (hthere : s ∈ R.standings) (hturns : s.Turns allowed steps e s') :
    ((R.put s').enter e).Historied := by
  refine .enter ?_ e
  cases hturns with
  | approve hpending =>
    exact h.put hR hthere rfl rfl rfl fun h => h
  | approveLast hpending =>
    exact h.put hR hthere rfl rfl rfl fun _ => rfl
  | other status hundecided =>
    exact h.put hR hthere rfl rfl rfl fun h => absurd h hundecided

theorem move (h : R.Historied) {c : StageChange} (hfree : c.IsFree R.blueprints)
    (hunbound : c.approval = none) : (R.tell c).Historied where
  free d hd hnone := by
    rcases List.mem_append.mp hd with hd | hd
    · exact h.free d hd hnone
    · rw [List.mem_singleton.mp hd]
      exact hfree
  bound d hd id hid := by
    rcases List.mem_append.mp hd with hd | hd
    · exact h.bound d hd id hid
    · rw [List.mem_singleton.mp hd, hunbound] at hid
      cases hid
  told s hs := by
    rw [naming_tell, hunbound, if_neg (by exact nofun), List.append_nil]
    exact h.told s hs

/-- A move that an approval was given for is the first that names it. -/
theorem execute (h : R.Historied) (hR : R.Given high) {s : Standing} {c : StageChange}
    (hthere : s ∈ R.standings) (happroved : s.status = .approved) (huntouched : s.executed = false)
    (hbound : c.IsBoundTo s) (hnamed : c.approval = some s.id) :
    ((R.put { s with executed := true }).tell c).Historied where
  free d hd hnone := by
    rcases List.mem_append.mp hd with hd | hd
    · exact h.free d hd hnone
    · rw [List.mem_singleton.mp hd, hnamed] at hnone
      cases hnone
  bound d hd id hid := by
    rcases List.mem_append.mp hd with hd | hd
    · obtain ⟨t, ht, rfl, hstatus, hd⟩ := h.bound d hd id hid
      obtain ⟨u, hu, hsame⟩ := put_there { s with executed := true } ht
      refine ⟨u, hu, hsame, ?_⟩
      rcases mem_put hu with rfl | ⟨hu', -⟩
      · obtain rfl := hR.eq_of_id hthere ht hsame
        exact ⟨happroved, hd⟩
      · obtain rfl := hR.eq_of_id hu' ht hsame
        exact ⟨hstatus, hd⟩
    · obtain rfl := List.mem_singleton.mp hd
      obtain ⟨u, hu, hsame⟩ := put_there { s with executed := true } hthere
      refine ⟨u, hu, hsame.trans (Option.some.inj (hnamed.symm.trans hid)), ?_⟩
      rcases mem_put hu with rfl | ⟨-, hother⟩
      · exact ⟨happroved, hbound⟩
      · exact absurd hsame hother
  told t ht := by
    have hbefore := h.told s hthere
    rw [Standing.told, huntouched] at hbefore
    rcases mem_put ht with rfl | ⟨ht, hother⟩
    · rw [naming_tell, if_pos hnamed, List.length_append]
      have hnone : ((R.put { s with executed := true }).naming s.id).length = 0 := hbefore
      rw [hnone]
      rfl
    · rw [naming_tell, if_neg, List.append_nil]
      · exact h.told t ht
      · rw [hnamed]
        exact fun hsame => hother (Option.some.inj hsame).symm

/-- Every turn keeps the history in order. -/
theorem turn (h : R.Historied) (hR : R.Given high) (hturn : Turn allowed high R S) :
    S.Historied := by
  cases hturn with
  | define b => exact h.define b
  | create p hallowed => exact ⟨h.free, h.bound, h.told⟩
  | submit s e hnew hgiven hreads hsteps hpending hstart huntouched hentry haction =>
    exact h.submit e hnew huntouched
  | decide hthere hreads hentry hstep hturns => exact h.decide hR hthere hturns
  | move c hfree hunbound => exact h.move hfree hunbound
  | execute c hthere happroved huntouched hbound hnamed =>
    exact h.execute hR hthere happroved huntouched hbound hnamed

end Register.Historied

theorem World.IsNew.historied {w : World} (hw : w.IsNew) : w.tables.register.Historied := by
  rw [hw.1]
  exact ⟨nofun, nofun, nofun⟩

theorem World.IsNew.historied_afterAll {w : World} (hw : w.IsNew) (session : List Command) :
    (w.afterAll session).tables.register.Historied :=
  World.afterAll_keeps (P := fun _ R => R.Historied) hw.sound session hw.historied (fun _ _ _ h => h)
    fun _ _ _ _ _ _ hgiven hturn h => h.turn hgiven hturn

/-! ## The tables after a session -/

def Tables.naming (t : Tables) (id : Uuid) : List StageChange :=
  t.stageChanges.filter fun c => decide (c.approval = some id)

structure Tables.IsAccountable (t : Tables) : Prop where
  free : ∀ c ∈ t.stageChanges, c.approval = none → c.IsFree t.blueprints
  bound : ∀ c ∈ t.stageChanges, ∀ id, c.approval = some id →
    ∃ a ∈ t.approvals, a.id = id ∧ a.status = .approved ∧ c.IsBoundTo a.standing
  once : ∀ a ∈ t.approvals, a.executed = true ↔ ∃ c, t.naming a.id = [c]
  never : ∀ a ∈ t.approvals, a.executed = false ↔ t.naming a.id = []

theorem Register.Historied.isAccountable {t : Tables} (h : t.register.Historied) :
    t.IsAccountable := by
  have counted (a : Approval) (ha : a ∈ t.approvals) :
      (t.naming a.id).length = if a.executed then 1 else 0 :=
    h.told a.standing (List.mem_map_of_mem ha)
  refine ⟨h.free, fun c hc id hid => ?_, fun a ha => ?_, fun a ha => ?_⟩
  · obtain ⟨s, hs, hbound⟩ := h.bound c hc id hid
    obtain ⟨a, ha, rfl⟩ := List.mem_map.mp hs
    exact ⟨a, ha, hbound⟩
  · rw [← List.length_eq_one_iff, counted a ha]
    cases a.executed <;> decide
  · rw [← List.length_eq_zero_iff, counted a ha]
    cases a.executed <;> decide

/-- Whatever is asked for in a session, the history of moves can be accounted for. -/
theorem World.afterAll_isAccountable {w : World} (hw : w.IsNew) (session : List Command) :
    (w.afterAll session).tables.IsAccountable :=
  (hw.historied_afterAll session).isAccountable

def numberedStages : BlueprintDraft where
  name := "stages"
  module := "deals"
  isEnabled := true
  stages := [
    ⟨"new", none, [⟨"5", none, [], none, false, none, []⟩]⟩,
    ⟨"5", none, [⟨"won", none, [], none, true, some (TableName.process.rowId 1), []⟩]⟩,
    ⟨"won", none, []⟩]

def oneDesk : ProcessDraft where
  name := "desk"
  module := none
  isEnabled := true
  steps := [⟨.user, some "ann", none, false, none⟩]
  onApprove := []
  onReject := []

def movableRecord : List Command := [
  .createProcess oneDesk "admin",
  .createBlueprint numberedStages "admin",
  .errand (.create ⟨.str "deals", .null, .null, .str "new", .obj [], .null⟩)]

def approveFirst : Command := .act (TableName.approval.rowId 1) ⟨.approve, "ann", none, none⟩ false

def movedTwice : List Command :=
  let record := TableName.record.rowId 1
  movableRecord ++ [
    .move none record "5" [] none,
    .move none record "won" [] none,
    approveFirst]

set_option maxRecDepth 10000 in
theorem movedTwice_history :
    (World.fresh.afterAll movedTwice).tables.stageChanges.map StageChange.approval
      = [none, some (TableName.approval.rowId 1)] := by
  decide +kernel

/-- Of two moves in the history one was free, and one is that of an approval. -/
theorem World.afterAll_isAccountable_twice : World.fresh.IsNew
    ∧ (World.fresh.afterAll movedTwice).tables.stageChanges.map StageChange.approval
      = [none, some (TableName.approval.rowId 1)]
    ∧ (World.fresh.afterAll movedTwice).tables.IsAccountable :=
  ⟨World.fresh_isNew, movedTwice_history, World.afterAll_isAccountable World.fresh_isNew movedTwice⟩

/-- An approval was told the target stage by a number, whose text is the name of a stage. -/
def movedToNumber : List Command :=
  movableRecord ++ [
    .submit (TableName.process.rowId 1) (TableName.record.rowId 1) none [
      ("action_type", .str "stage_transition"),
      ("blueprint_id", .uuid (TableName.blueprint.rowId 1)),
      ("from_stage", .str "new"),
      ("to_stage", .int 5)],
    approveFirst]

def Approval.toldNumber (a : Approval) : Bool :=
  match a.context.mapping with
  | .ok about =>
    match about.getD "to_stage" with
    | .int 5 => true
    | _ => false
  | .error _ => false

set_option maxRecDepth 10000 in
theorem movedToNumber_history :
    let t := (World.fresh.afterAll movedToNumber).tables
    t.stageChanges.map StageChange.approval = [some (TableName.approval.rowId 1)]
      ∧ t.approvals.all Approval.toldNumber = true := by
  decide +kernel

/-- The history has the text of the target that an approval was told, and not that target itself. -/
theorem World.afterAll_told_by_text : ¬ ∀ w : World, w.IsNew → ∀ session : List Command,
    ∀ c ∈ (w.afterAll session).tables.stageChanges, ∀ id, c.approval = some id →
      ∃ a ∈ (w.afterAll session).tables.approvals, a.id = id
        ∧ ∃ about, a.context.mapping = .ok about ∧ about.getD "to_stage" = .str c.toStage := by
  intro h
  obtain ⟨hchanges, hnumbers⟩ := movedToNumber_history
  obtain ⟨c, hc, hid⟩ := List.mem_map.mp (hchanges ▸ List.mem_singleton_self _)
  obtain ⟨a, ha, -, about, habout, htarget⟩ :=
    h World.fresh World.fresh_isNew movedToNumber c hc _ hid
  have htold := List.all_eq_true.mp hnumbers a ha
  simp only [Approval.toldNumber, habout, htarget, Bool.false_eq_true] at htold

end RecordFlow
