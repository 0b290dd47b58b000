import RecordFlow.Proofs.Approval.Course
import RecordFlow.Proofs.Approval.Upheld
import RecordFlow.Proofs.Blueprint.Move
import RecordFlow.Proofs.Record.Write

/-! # Acting on approvals

Every operation on an approval is a turn of its course, made by one write of the approval and one
entry. The actor of an entry that approves a step is one of the approvers of this step.
-/
namespace RecordFlow
open RecordFlow.Flow
variable {α : Type} {allowed : Licence} {w : World}

/-! ## Writes -/

def SameRegister (w v : World) : Prop := v.tables.register = w.tables.register

instance : IsPreorder World SameRegister where
  refl _ := rfl
  trans _ _ _ h h' := h'.trans h

theorem standings_map {change : Approval → Approval}
    (h : ∀ a, (change a).standing = a.standing) (rows : List Approval) :
    (rows.map change).map Approval.standing = rows.map Approval.standing := by
  rw [List.map_map]
  exact List.map_congr_left fun a _ => h a

theorem register_setRows {rows : List Approval} (w : World)
    (h : rows.map Approval.standing = w.tables.approvals.map Approval.standing) :
    (w.setRows rows).tables.register = w.tables.register := by
  simp only [Tables.register, Ledger.register, Tables.ledger,
    World.setRows, Stored.setRows, h]

theorem register_put (w : World) (a : Approval) :
    (w.setRows (w.tables.approvals.map fun r =>
      if decide (Stored.id r = a.id) then a else r)).tables.register
      = w.tables.register.put a.standing := by
  have rows : (w.tables.approvals.map fun r => if decide (Stored.id r = a.id) then a else r).map
      Approval.standing = (w.tables.approvals.map Approval.standing).map fun s =>
        if s.id = a.standing.id then a.standing else s := by
    rw [List.map_map, List.map_map]
    refine List.map_congr_left fun r _ => ?_
    have hid : (Stored.id r = a.id) = (r.standing.id = a.standing.id) := rfl
    simp only [Function.comp_apply, decide_eq_true_eq, hid]
    split <;> rfl
  simp only [Tables.register, Ledger.register, Tables.ledger,
    World.setRows, Stored.setRows, Register.put, rows]

/-- Counting up versions leaves all approvals as they stand. -/
theorem sameRegister_versions (test : Approval → Bool) (version : Approval → Int) :
    Keeps (fun _ => True) SameRegister
      (updateWhere test fun a : Approval => { a with version := version a }) := fun w => by
  refine .of_ok (updateWhere_eq test _ w) (register_setRows w (standings_map (fun a => ?_) _))
  split <;> rfl

theorem sameRegister_rivals : Keeps (fun _ => True) SameRegister (letRivalWrite Approval) := by
  unfold letRivalWrite
  refine .bind .get fun w => .ite (.bind (.modify fun _ => rfl) fun _ => ?_) (.pure _)
  have kept (a : Approval) :
      (Versioned.setVersion (Versioned.version a + 1) a).standing = a.standing := rfl
  exact fun v => .of_ok rfl (register_setRows v (standings_map kept _))

namespace Approval
variable {a b : Approval}

/-- Claiming the version of an approval leaves all approvals as they stand. -/
theorem writes_claim (a : Approval) (w : World) :
    Writes a.claim w fun claimed v => v.tables.register = w.tables.register
      ∧ ∀ c, claimed = some c → c = { a with version := a.version + 1 } := by
  have swaps : Keeps (fun _ => True) SameRegister (swap a.id a.version fun row : Approval => row) := by
    rw [swap_eq]
    refine .bind sameRegister_rivals fun _ => .bind (.taken anyCause _) fun next => ?_
    exact .bind (sameRegister_versions _ fun _ => next) fun _ => .pure _
  refine .of_files (incidental_claim a) fun claimed v hr => ?_
  unfold claim at hr
  cases hs : swap a.id a.version (fun row : Approval => row) w with
  | error e u =>
    rw [bind_error hs] at hr
    cases hr
  | ok swapped u =>
    have hsame : u.tables.register = w.tables.register := swaps.ok hs
    rw [bind_ok hs] at hr
    cases swapped with
    | true => cases hr; exact ⟨hsame, fun c hc => (Option.some.inj hc).symm⟩
    | false => cases hr; exact ⟨hsame, fun c hc => by cases hc⟩

theorem writes_store (a : Approval) (w : World) :
    Writes (store a) w fun _ v => v.tables.register = w.tables.register.put a.standing := by
  refine .of_files (incidental_store a) fun _ v hr => ?_
  unfold store at hr
  cases hs : sized a with
  | error cause =>
    rw [hs] at hr
    cases hr
  | ok row =>
    obtain rfl : a = row := by
      unfold sized at hs
      split at hs
      · exact Except.ok.inj hs
      · cases hs
    rw [hs] at hr
    have hv : v = w.setRows (w.tables.approvals.map fun r =>
        if decide (Stored.id r = a.id) then a else r) := by
      cases hr
      rfl
    rw [hv]
    exact register_put w a

structure Notes (a : Approval) (actor : Option String) (action : String) (comment : Option String)
    (e : ApprovalEntry) : Prop where
  approval : e.approval = a.id
  step : e.step = a.step
  actor : e.actor = actor
  action : e.action = action
  comment : e.comment = comment

theorem writes_enter (a : Approval) (actor : Option String) (action : String)
    (comment : Option String) (w : World) :
    Writes (a.enter actor action comment) w fun _ v =>
      ∃ e, a.Notes actor action comment e ∧ v.tables.register = w.tables.register.enter e := by
  refine .of_files (incidental_enter a actor action comment) fun _ v hr => ?_
  unfold enter at hr
  let build (id : Uuid) : ApprovalEntry := ⟨id, a.id, a.step, actor, action, comment⟩
  cases hi : Flow.insert build w with
  | error e u =>
    rw [bind_error hi] at hr
    cases hr
  | ok row u =>
    obtain ⟨rfl, rfl⟩ := (insert_ends build w).ok_of hi
    rw [bind_ok hi] at hr
    cases hr
    exact ⟨_, ⟨rfl, rfl, rfl, rfl, rfl⟩, rfl⟩

theorem withApprovers_standing {approvers : List String}
    (h : a.withApprovers approvers = .ok b) : b.standing = a.standing := by
  unfold withApprovers at h
  cases hm : a.approvers.mapping with
  | error cause => rw [hm] at h; cases h
  | ok kept => rw [hm] at h; cases h; rfl

/-- Opening a step is a write of the approval at this step, which is there. -/
theorem writes_openStep (a : Approval) (steps : List ApprovalStep) (record : Record) (w : World) :
    Writes (a.openStep steps record) w fun opened v => opened.standing = a.standing
      ∧ v.tables.register = w.tables.register.put a.standing ∧ (itemAt? steps a.step).isSome := by
  unfold openStep
  refine .look (stepAt_ends steps a.step w) fun s hthere => ?_
  refine .bind (.of_incidental (incidental_approversFor s record)) fun approvers v₁ _ _ hv₁ => ?_
  refine .look (shaped_ends _ v₁) fun named hnamed => ?_
  refine .bind (.of_incidental .now) fun t v₂ _ _ hv₂ => ?_
  refine .bind (.of_incidental (.inTime (fun _ h => h) _)) fun expiresAt v₃ _ _ hv₃ => ?_
  let opened : Approval := { named with expiresAt := expiresAt }
  have hopened : named.standing = a.standing := withApprovers_standing hnamed
  refine .bind (writes_store opened v₃) fun _ v₄ _ _ hv₄ => ?_
  refine .bind (.of_incidental (incidental_invite opened s record approvers)) fun _ v₅ _ _ hv₅ => ?_
  refine .pure ⟨hopened, ?_, by rw [hthere]; rfl⟩
  rw [hv₅, hv₄, hv₃, hv₂, hv₁, ← hopened]
  rfl

/-! ## Submissions -/

theorem writes_insert (build : Uuid → Approval) (w : World) :
    Writes (Flow.insert build) w fun a v =>
      a = build (TableName.approval.rowId (w.nextNumber .approval))
        ∧ v.nextNumber .approval = w.nextNumber .approval + 1
        ∧ v.tables.register = { w.tables.register with
          standings := w.tables.register.standings ++ [a.standing] } := by
  refine .of_files (incidental_insert build) fun a v hr => ?_
  obtain ⟨ha, rfl⟩ := (insert_ends build w).ok_of hr
  refine ⟨ha, w.nextNumber_used .approval, ?_⟩
  simp only [Tables.register, Ledger.register, Tables.ledger,
    World.setRows, World.useNumber, Stored.setRows, Stored.rows, List.map_append, List.map_cons,
    List.map_nil]

theorem put_added {R : Register} {s : Standing} (hnew : ∀ t ∈ R.standings, t.id ≠ s.id) :
    ({ R with standings := R.standings ++ [s] } : Register).put s
      = { R with standings := R.standings ++ [s] } := by
  have same : (R.standings.map fun t => if t.id = s.id then s else t) = R.standings :=
    (List.map_congr_left fun t ht => if_neg (hnew t ht)).trans (List.map_id' _)
  simp only [Register.put, List.map_append, same, List.map_cons, if_true, List.map_nil]

theorem writes_submit (process record : Uuid) (requestedBy : Option String) (about : Fields)
    (hgiven : w.tables.register.Given (w.nextNumber .approval)) :
    Writes (submit process record requestedBy about) w fun _ v =>
      Register.Turn allowed (v.nextNumber .approval) w.tables.register v.tables.register := by
  have hnew := hgiven.free
  unfold submit
  refine .look ((fetch_ends process w).mono (fun _ _ h => h) fun _ _ h => h.1) fun p hfound => ?_
  split
  · exact Ends.throw (.refl w)
  refine .look (Looks.ends (.recordFetch (fun _ _ => trivial) record) w) fun r _ => ?_
  refine .bind (writes_insert _ w) fun a v₁ _ _ hv₁ => ?_
  obtain ⟨ha, hnext, hR₁⟩ := hv₁
  refine .look (valid_ends _ v₁) fun steps hsteps => ?_
  refine .bind (writes_openStep a steps r v₁) fun opened v₂ _ hf₂ hv₂ => ?_
  obtain ⟨hopened, hR₂, hfirst⟩ := hv₂
  refine .bind (writes_enter opened requestedBy "submit" none v₂) fun _ v₃ _ hf₃ hv₃ => ?_
  obtain ⟨e, he, hR₃⟩ := hv₃
  refine .bind (.of_incidental (incidental_auditApproval (by decide))) fun _ v₄ _ hf₄ hR₄ => ?_
  refine .pure ?_
  have hid : a.standing.id = TableName.approval.rowId (w.nextNumber .approval) := by rw [ha]; rfl
  have hnew' : ∀ t ∈ w.tables.register.standings, t.id ≠ a.standing.id := hid ▸ hnew
  have hR : v₄.tables.register = { w.tables.register with
      standings := w.tables.register.standings ++ [a.standing]
      entries := w.tables.register.entries ++ [e] } := by
    rw [hR₄, hR₃, hR₂, hR₁, put_added hnew']
    rfl
  have hlater := Nat.le_trans (hf₂.numbers .approval)
    (Nat.le_trans (hf₃.numbers .approval) (hf₄.numbers .approval))
  rw [hR]
  have hreads : w.tables.register.Reads a.standing.process steps := by
    rw [ha]
    exact ⟨p, hfound, hsteps⟩
  have hstart : a.step = 0 := by rw [ha]
  have hsome : steps ≠ [] := by
    rintro rfl
    rw [hstart] at hfirst
    cases hfirst
  have hentry : e.approval = a.standing.id := by
    rw [he.approval]
    exact congrArg Standing.id hopened
  have haction : e.action ≠ Verdict.approve.name := by
    rw [he.action]
    decide
  have hpending : a.standing.status = .pending := by rw [ha]; rfl
  have huntouched : a.standing.executed = false := by rw [ha]; rfl
  exact .submit a.standing e hnew' ⟨_, by omega, hid⟩ hreads hsome hpending hstart huntouched hentry
    haction

/-! ## Decisions -/

theorem verdict_name {v : Verdict} (h : v.name = Verdict.approve.name) : v = .approve := by
  cases v <;> first | rfl | exact absurd h (by decide)

/-- An approval whose version was claimed and an action on it entered, nothing of it saved. -/
structure Entered (a : Approval) (r : ApprovalRequest) (claimed : Approval) (e : ApprovalEntry)
    (w v : World) : Prop where
  filing : Filing w v
  register : v.tables.register = w.tables.register.enter e
  claimed : claimed = { a with version := a.version + 1 }
  notes : a.Notes (some r.actorId) r.verdict.name r.comment e

namespace Entered
variable {claimed decided : Approval} {r : ApprovalRequest} {e : ApprovalEntry} {v : World}

/-- A decision that was entered is a turn of the approval, once it is written and saved. -/
theorem follows_store {rest : Unit → Flow α} (h : Entered a r claimed e w v) (hw : w.Filed)
    (hthere : a.standing ∈ w.tables.register.standings) (steps : List ApprovalStep)
    (hreads : r.verdict = .approve → w.tables.register.Reads a.process steps)
    (hturns : a.standing.Turns allowed steps e decided.standing)
    (hrest : ∀ u, Course allowed w u →
      u.tables.register = (w.tables.register.put decided.standing).enter e →
      Follows allowed w (rest ()) u) :
    Follows allowed w (store decided >>= fun _ => commit >>= rest) v := by
  refine .write hw h.filing (writes_store decided v) fun _ u hf _ hu => ?_
  have hR : u.tables.register = (w.tables.register.put decided.standing).enter e := by
    rw [hu, h.register]
    rfl
  refine .save hw hf (.single ?_) fun hcourse => hrest _ hcourse hR
  have hread (haction : e.action = Verdict.approve.name) : w.tables.register.Reads a.process steps :=
    hreads (verdict_name (h.notes.action.symm.trans haction))
  rw [hR]
  exact .decide hthere hread h.notes.approval h.notes.step hturns

theorem follows_requestChanges (h : Entered a r claimed e w v) (hw : w.Filed)
    (hthere : a.standing ∈ w.tables.register.standings) (hverdict : r.verdict = .requestChanges)
    (hpending : a.status = .pending) : Follows allowed w (a.requestChanges claimed r) v := by
  have hclaimed := h.claimed
  subst hclaimed
  unfold requestChanges
  refine h.follows_store hw hthere [] (fun hr => ?_) (.other .changesRequested ?_ nofun ?_)
    fun u hcourse _ => .of_sparing hcourse (upholds_succeed _ _ _ _ _)
  · rw [hverdict] at hr
    cases hr
  · rw [show a.standing.status = .pending from hpending]
    exact nofun
  · rw [h.notes.action, hverdict]
    decide

theorem follows_reject (h : Entered a r claimed e w v) (hw : w.Filed)
    (hthere : a.standing ∈ w.tables.register.standings) (hverdict : r.verdict = .reject)
    (hpending : a.status = .pending) (p : ApprovalProcess) :
    Follows allowed w (a.reject claimed p r) v := by
  have hclaimed := h.claimed
  subst hclaimed
  unfold reject
  refine Ends.step (a := v.clock.wall) (t := v) rfl ?_
  refine h.follows_store hw hthere [] (fun hr => ?_) (.other .rejected ?_ nofun ?_)
    fun u hcourse _ => .of_sparing hcourse ?_
  · rw [hverdict] at hr
    cases hr
  · rw [show a.standing.status = .pending from hpending]
    exact nofun
  · rw [h.notes.action, hverdict]
    decide
  · refine .bind (upholds_carryOutActions _ _ _) fun executed => ?_
    exact .bind (upholds_announceResolved _) fun _ => upholds_succeed _ _ _ _ _

/-- The next step is opened. -/
theorem follows_approveStep (h : Entered a r claimed e w v) (hw : w.Filed)
    (hthere : a.standing ∈ w.tables.register.standings) {steps : List ApprovalStep}
    (hreads : w.tables.register.Reads a.process steps)
    (hturns : a.standing.Turns allowed steps e { a.standing with step := a.step + 1 }) :
    Follows allowed w (a.approveStep claimed steps r) v := by
  have hclaimed := h.claimed
  subst hclaimed
  unfold approveStep
  refine .write hw h.filing (.of_incidental (.recordFetch (fun _ h => h) a.record))
    fun record u hf _ hu => ?_
  refine .write hw hf (writes_openStep _ steps record u) fun opened x hf' _ hx => ?_
  have hR : x.tables.register =
      (w.tables.register.put { a.standing with step := a.step + 1 }).enter e := by
    rw [hx.2.1, hu, h.register]
    rfl
  refine .save hw hf' (.single ?_) fun hcourse =>
    .of_sparing hcourse (upholds_succeed _ _ _ _ _)
  rw [hR]
  exact .decide hthere (fun _ => hreads) h.notes.approval h.notes.step hturns

end Entered

theorem follows_cancel (hw : w.Filed) (hthere : a.standing ∈ w.tables.register.standings)
    {r : ApprovalRequest} (hverdict : r.verdict = .cancel) :
    Follows allowed w (a.cancel r) w := by
  have refused (cause : ActRefusal) {u : World} (h : Course allowed w u) :
      Follows allowed w (a.refuse r.verdict.name cause) u :=
    .of_sparing h (upholds_refuse _ _ _)
  unfold cancel
  refine .look (.refl hw) (shaped_ends _ w) fun cause hcause => ?_
  cases cause with
  | some cause => exact refused cause (.refl hw)
  | none =>
    refine .write hw (.refl w) (writes_claim a w) fun claimed v hf _ hv => ?_
    cases claimed with
    | none => exact refused _ (hf.course hw hv.1)
    | some claimed =>
      obtain rfl := hv.2 claimed rfl
      have hundecided : a.status ≠ .approved := by
        intro happroved
        unfold cancellation? at hcause
        rw [happroved] at hcause
        cases hcause
      refine Ends.step (a := v.clock.wall) (t := v) rfl ?_
      refine Follows.write hw hf (writes_store _ v) fun _ u hf _ hu => ?_
      refine .write hw hf (writes_enter _ _ _ _ u) fun _ x hf _ hx => ?_
      obtain ⟨e, he, hx⟩ := hx
      have hR : x.tables.register =
          (w.tables.register.put { a.standing with status := .cancelled }).enter e := by
        rw [hx, hu, hv.1]
        rfl
      have haction : e.action ≠ Verdict.approve.name := by
        rw [he.action, hverdict]
        decide
      refine .save hw hf (.single ?_) fun hcourse => .of_sparing hcourse ?_
      · rw [hR]
        exact .revert .cancelled hthere hundecided nofun haction he.approval he.step
      · exact .bind (upholds_announceResolved _) fun _ => upholds_succeed _ _ _ _ _

/-! ## Moves that were approved -/

theorem settled_setExecuted (id : Uuid) (executed : Bool) (test : Approval → Bool)
    (hfree : w.RunsFree) : (w.setExecuted id executed test).Settled := ⟨rfl, rfl, hfree⟩

theorem register_setExecuted {id : Uuid} {executed : Bool} {test : Approval → Bool}
    (h : ∀ a ∈ w.tables.approvals, a.id = id → test a = true → a.executed = executed) :
    (w.setExecuted id executed test).tables.register = w.tables.register := by
  have rows : w.tables.approvals.map (fun a =>
      if a.id = id && test a then { a with executed := executed } else a) = w.tables.approvals := by
    refine (List.map_congr_left fun a ha => ?_).trans (List.map_id' _)
    split
    · next ht =>
      simp only [Bool.and_eq_true, decide_eq_true_eq] at ht
      rw [← h a ha ht.1 ht.2]
    · rfl
  simp only [World.setExecuted, rows, Tables.register, Ledger.register, Tables.ledger]

section Flags
variable {id : Uuid} {high : Nat} (hgiven : w.tables.register.Given high)
include hgiven

theorem standing_eq (ha : w.tables.approvals.find? (fun a => a.id = id) = some a) {b : Approval}
    (hb : b ∈ w.tables.approvals) (hid : b.id = id) : b.standing = a.standing :=
  hgiven.eq_of_id (List.mem_map_of_mem hb) (List.mem_map_of_mem (List.mem_of_find?_eq_some ha))
    (hid.trans (id_of_find? ha).symm)

theorem length_claimed :
    (w.tables.approvals.filter fun a => a.id = id && !a.executed).length ≤ 1 := by
  let rows := w.tables.approvals.filter fun a => a.id = id && !a.executed
  have same : rows.map Approval.id = List.replicate rows.length id := by
    refine List.eq_replicate_iff.mpr ⟨List.length_map _, fun i hi => ?_⟩
    obtain ⟨a, ha, rfl⟩ := List.mem_map.mp hi
    have htest := (List.mem_filter.mp ha).2
    simp only [Bool.and_eq_true, decide_eq_true_eq] at htest
    exact htest.1
  have ids : w.tables.register.standings.map Standing.id = w.tables.approvals.map Approval.id :=
    List.map_map
  have distinct : (rows.map Approval.id).Nodup :=
    (ids ▸ hgiven.distinct).sublist (List.filter_sublist.map _)
  rw [same] at distinct
  exact List.nodup_replicate.mp distinct

theorem register_claimed (ha : w.tables.approvals.find? (fun a => a.id = id) = some a)
    (huntouched : a.executed = false) : (claimed id w).tables.register
      = w.tables.register.put { a.standing with executed := true } := by
  have hid : a.id = id := id_of_find? ha
  have rows : (w.tables.approvals.map fun b =>
      if b.id = id && !b.executed then { b with executed := true } else b).map Approval.standing
      = (w.tables.approvals.map Approval.standing).map fun s =>
        if s.id = a.id then { a.standing with executed := true } else s := by
    rw [List.map_map, List.map_map]
    refine List.map_congr_left fun b hb => ?_
    simp only [Function.comp_apply]
    by_cases hb' : b.id = id
    · have hstands := standing_eq hgiven ha hb hb'
      have hflag : b.executed = false := (congrArg Standing.executed hstands).trans huntouched
      rw [if_pos (by simp [hb', hflag]),
        if_pos (show b.standing.id = a.id from hb'.trans hid.symm), ← hstands]
      rfl
    · rw [if_neg (by simp [hb']), if_neg (show ¬ b.standing.id = a.id from fun h => hb' (h.trans hid))]
  simp only [claimed, World.setExecuted, Tables.register, Ledger.register, Tables.ledger,
    Register.put, rows]
  rfl

/-- A claim that is taken back leaves the approval as it stood. -/
theorem register_unclaimed (ha : w.tables.approvals.find? (fun a => a.id = id) = some a)
    (huntouched : a.executed = false) {u : World}
    (hu : u.tables.ledger = (claimed id w).tables.ledger) :
    (u.setExecuted id false fun _ => true).tables.register = w.tables.register := by
  have approvals : u.tables.approvals = (claimed id w).tables.approvals :=
    congrArg Ledger.approvals hu
  have rows : (u.tables.approvals.map fun b =>
      if b.id = id && true then { b with executed := false } else b).map Approval.standing
      = w.tables.approvals.map Approval.standing := by
    rw [approvals]
    simp only [claimed, World.setExecuted, List.map_map]
    refine List.map_congr_left fun b hb => ?_
    simp only [Function.comp_apply]
    by_cases hb' : b.id = id
    · have hstands := standing_eq hgiven ha hb hb'
      have hflag : b.executed = false := (congrArg Standing.executed hstands).trans huntouched
      rw [if_pos (by simp [hb', hflag]), if_pos (by simp [hb', hflag])]
      rw [← hflag]
    · rw [if_neg (by simp [hb']), if_neg (by simp [hb'])]
  have register : (u.setExecuted id false fun _ => true).tables.register
      = { u.tables.ledger.register with
        standings := (u.tables.approvals.map fun b =>
          if b.id = id && true then { b with executed := false } else b).map Approval.standing } := rfl
  rw [register, rows, hu]
  rfl

end Flags

/-- A move that was carried out sets the flag of its approval, together with the history. -/
theorem follows_executeMove (hw : w.Filed) {high : Nat} (hgiven : w.tables.register.Given high)
    (id : Uuid) (actor : Option String) : Follows allowed w (executeMove id actor) w := by
  refine Ends.mono (executeMove_ends id actor hw.free) (fun m v h => ?_) fun _ v h => ?_
  rotate_left
  · rw [h]
    exact (Course.refl hw).rolledBack
  rcases h with ⟨-, -, rfl | ⟨rfl, hn⟩⟩ | ⟨a, about, r, row, b, t, due, updates, u, hu, applied, hv⟩
  · exact .refl hw
  · have hle : (w.tables.approvals.filter fun a => a.id = id && !a.executed).length ≤ 1 :=
      length_claimed hgiven
    have hnone : (w.tables.approvals.filter fun a => a.id = id && !a.executed) = [] :=
      List.length_eq_zero_iff.mp (by omega)
    refine .of_spared ⟨(settled_setExecuted id true _ hw.free).filed, ?_, fun _ => Nat.le_refl _⟩
    refine register_setExecuted fun a ha hid htest => ?_
    have := List.filter_eq_nil_iff.mp hnone a ha
    simp [hid, htest] at this
  · cases hm : m.success with
    | false =>
      rw [hm] at hv
      subst hv
      refine .of_spared ⟨(settled_setExecuted id false _ applied.free).filed, ?_, applied.numbers⟩
      exact register_unclaimed hgiven due.found due.untouched (applied.untold hm)
    | true =>
      rw [hm] at hv
      obtain rfl : v = u := hv
      obtain ⟨stored, change, -, htells, hledger⟩ := applied.told hm
      have hR : v.tables.register
          = (w.tables.register.put { a.standing with executed := true }).tell change := by
        rw [← register_claimed hgiven due.found due.untouched]
        exact congrArg Ledger.register hledger
      have hthere : a.standing ∈ w.tables.register.standings :=
        List.mem_map_of_mem (List.mem_of_find?_eq_some due.found)
      obtain ⟨-, hread⟩ := (Record.get?_ends a.record w).ok_of due.record
      obtain ⟨held, -, -, hheld⟩ := hread r rfl
      have hstage := (StoredRecord.toRecord_eq hheld).2
      have hsource : sourceOf about = .ofOption change.fromStage := by
        have hfrom := htells.fromStage
        rw [show r.stage = _ from hstage, Cell.text_ofOption] at hfrom
        rw [← Except.ok.inj hfrom]
        exact Value.same_ofOption (hstage ▸ due.stage)
      have hbound : change.IsBoundTo a.standing :=
        ⟨about, due.context, due.moves, hsource, htells.toStage.symm⟩
      have hnamed : change.approval = some a.standing.id := by
        rw [htells.approval]
        exact congrArg some (id_of_find? due.found).symm
      refine ⟨(applied.settled (settled_setExecuted id true _ hw.free)).filed, applied.numbers,
        .single ?_⟩
      rw [hR]
      exact .execute change hthere due.approved due.untouched hbound hnamed

/-! ## Actions -/

/-- The last step is approved, and then the move of the approval is carried out, if it has one. -/
theorem Entered.follows_approveLast {claimed : Approval} {r : ApprovalRequest} {e : ApprovalEntry}
    {v : World} (h : Entered a r claimed e w v) (hw : w.Filed) {high : Nat}
    (hgiven : w.tables.register.Given high)
    (hthere : a.standing ∈ w.tables.register.standings) {steps : List ApprovalStep}
    (hreads : w.tables.register.Reads a.process steps)
    (hturns : a.standing.Turns allowed steps e { a.standing with status := .approved })
    (p : ApprovalProcess) : Follows allowed w (a.approveLast claimed p r) v := by
  have hclaimed := h.claimed
  subst hclaimed
  unfold approveLast
  refine Ends.step (a := v.clock.wall) (t := v) rfl ?_
  refine h.follows_store hw hthere steps (fun _ => hreads) hturns fun u hcourse hR => ?_
  have hgivenu : u.tables.register.Given high := by
    have hput := hgiven.put { a.standing with status := .approved }
    rw [hR]
    exact ⟨hput.distinct, hput.given⟩
  have finished (move : Option MoveResult) : Sparing (do
      let current ← fetch Approval a.id
      let executed ← current.carryOutActions p.onApprove r.actorId
      current.announceResolved
      current.succeed r a (executed || move.any (·.success)) move) := by
    refine .bind (.looks (.fetch anyCause Approval a.id)) fun current => ?_
    refine .bind (upholds_carryOutActions _ _ _) fun executed => ?_
    exact .bind (upholds_announceResolved _) fun _ => upholds_succeed _ _ _ _ _
  have moved : Follows allowed w (some <$> executeMove a.id (some r.actorId)) u := by
    rw [map_eq_pure_bind]
    refine .anew hcourse (.bind (follows_executeMove hcourse.filed hgivenu _ _) ?_)
    exact fun m x _ hx => .pure hx
  refine .look hcourse (shaped_ends _ u) fun isMove _ => ?_
  refine Ends.step (a := u.wiring) (t := u) rfl ?_
  dsimp only
  split
  · exact Follows.bind moved fun move x _ hx => .of_sparing hx (finished move)
  · exact Follows.bind (.pure hcourse) fun move x _ hx => .of_sparing hx (finished move)

theorem itemAt?_of_length_le {α : Type} {items : List α} {position : Int}
    (h : (items.length : Int) ≤ position) : itemAt? items position = none := by
  have hnot : ¬ position < 0 := by omega
  rw [itemAt?, if_neg hnot, if_neg hnot]
  exact List.getElem?_eq_none (by omega)

/-- Who is not refused is an approver of a pending step, and gave the comment that it asks for. -/
theorem refusal?_ends (a : Approval) (steps : List ApprovalStep) (r : ApprovalRequest) (w : World) :
    Ends (a.refusal? steps r) w
      (fun cause v => v = w ∧ (cause = none → a.status = .pending
        ∧ a.isApprover r.actorId r.actorRole = .ok true
        ∧ ∀ s, itemAt? steps a.step = some s → lacksComment s r = false))
      fun _ v => v = w := by
  unfold refusal?
  split
  · exact .pure ⟨rfl, nofun⟩
  · next hpending =>
    refine (shaped_ends _ w).bind (fun _ _ h => h) fun isApprover v _ h => ?_
    obtain ⟨rfl, happrover⟩ := h
    cases isApprover with
    | false => exact .pure ⟨rfl, nofun⟩
    | true =>
      rw [Bool.not_true, if_neg Bool.false_ne_true]
      split
      · next hbehind =>
        refine .pure ⟨rfl, fun _ => ⟨Decidable.not_not.mp hpending, happrover, fun s hs => ?_⟩⟩
        rw [itemAt?_of_length_le hbehind] at hs
        cases hs
      · refine (stepAt_ends steps a.step v).bind (fun _ _ h => h) fun s u _ h => ?_
        obtain ⟨rfl, hs⟩ := h
        refine .pure ⟨rfl, fun hnone => ⟨Decidable.not_not.mp hpending, happrover, fun t ht => ?_⟩⟩
        obtain rfl : s = t := Option.some.inj (hs.symm.trans ht)
        by_contra hlacks
        rw [Bool.not_eq_false] at hlacks
        rw [if_pos hlacks] at hnone
        cases hnone

theorem isExplained_of_given {steps : List ApprovalStep} {r : ApprovalRequest} {e : ApprovalEntry}
    (hstep : e.step = a.step) (hcomment : e.comment = r.comment) (hverdict : r.verdict = .approve)
    (h : ∀ s, itemAt? steps a.step = some s → lacksComment s r = false) : e.IsExplained steps := by
  intro s hs hasked
  have hgiven := h s (hstep ▸ hs)
  rw [hcomment]
  intro hempty
  unfold lacksComment at hgiven
  rw [hasked, hverdict, hempty] at hgiven
  cases hgiven

/-- An action on an approval is a turn of it, unless it is refused. -/
theorem follows_act (hw : w.Filed) {high : Nat} (hgiven : w.tables.register.Given high)
    (hthere : a.standing ∈ w.tables.register.standings) (r : ApprovalRequest)
    (hallowed : ∀ e, r.verdict = .approve → a.isApprover r.actorId r.actorRole = .ok true →
      a.Notes (some r.actorId) r.verdict.name r.comment e → allowed.approves a.standing e) :
    Follows allowed w (a.act r) w := by
  have refused (cause : ActRefusal) {u : World} (h : Course allowed w u) :
      Follows allowed w (a.refuse r.verdict.name cause) u :=
    .of_sparing h (upholds_refuse _ _ _)
  unfold act
  refine .look (.refl hw) ((fetch_ends a.process w).mono (fun _ _ h => h) fun _ _ h => h.1)
    fun p hfound => ?_
  refine .look (.refl hw) (valid_ends _ w) fun steps hsteps => ?_
  have hreads : w.tables.register.Reads a.process steps := ⟨p, hfound, hsteps⟩
  split
  · next hverdict => exact follows_cancel hw hthere hverdict
  next hnotCancel =>
  refine .look (.refl hw) (refusal?_ends a steps r w) fun cause hcause => ?_
  cases cause with
  | some cause => exact refused cause (.refl hw)
  | none =>
    obtain ⟨hpending, happrover, hcomment⟩ := hcause rfl
    refine .write hw (.refl w) (writes_claim a w) fun claimed v hf _ hv => ?_
    cases claimed with
    | none => exact refused _ (hf.course hw hv.1)
    | some claimed =>
      have hclaimed := hv.2 claimed rfl
      refine .write hw hf (writes_enter _ _ _ _ v) fun _ u hf _ hu => ?_
      obtain ⟨e, he, hu⟩ := hu
      have hnotes : a.Notes (some r.actorId) r.verdict.name r.comment e := by
        rw [hclaimed] at he
        exact ⟨he.approval, he.step, he.actor, he.action, he.comment⟩
      have entered : Entered a r claimed e w u := ⟨hf, by rw [hu, hv.1], hclaimed, hnotes⟩
      cases hverdict : r.verdict with
      | cancel => exact absurd hverdict hnotCancel
      | requestChanges => exact entered.follows_requestChanges hw hthere hverdict hpending
      | reject => exact entered.follows_reject hw hthere hverdict hpending p
      | approve =>
        have haction : e.action = Verdict.approve.name := by rw [hnotes.action, hverdict]
        have hmay := hallowed e hverdict happrover hnotes
        have hexplained : e.IsExplained steps :=
          isExplained_of_given hnotes.step hnotes.comment hverdict hcomment
        have hstep : claimed.step = a.step := by rw [hclaimed]
        dsimp only
        split
        · next hnext =>
          rw [hstep] at hnext
          exact entered.follows_approveStep hw hthere hreads
            (.approve hpending haction hmay hexplained hnext)
        · next hlast =>
          rw [hstep] at hlast
          exact entered.follows_approveLast hw hgiven hthere hreads
            (.approveLast hpending haction hmay hexplained (Int.not_lt.mp hlast)) p

/-- An approval that was put back is pending again, at the same step. -/
theorem follows_resubmit (hw : w.Filed) (hthere : a.standing ∈ w.tables.register.standings)
    (actor : String) (comment : Option String) :
    Follows allowed w (a.resubmit actor comment) w := by
  have refused (cause : ActRefusal) {u : World} (h : Course allowed w u) :
      Follows allowed w (a.refuse "resubmit" cause) u :=
    .of_sparing h (upholds_refuse _ _ _)
  unfold resubmit
  split
  · exact refused _ (.refl hw)
  next hnone =>
  have hundecided : a.standing.status ≠ .approved := by
    intro happroved
    unfold resubmission? at hnone
    rw [show a.status = .approved from happroved] at hnone
    cases hnone
  refine .write hw (.refl w) (writes_claim a w) fun claimed v hf _ hv => ?_
  cases claimed with
  | none => exact refused _ (hf.course hw hv.1)
  | some claimed =>
    obtain rfl := hv.2 claimed rfl
    refine .write hw hf (.of_incidental (.recordFetch (fun _ h => h) a.record))
      fun record u₁ hf _ hu₁ => ?_
    refine .write hw hf (.of_incidental (.fetch (fun _ h => h) ApprovalProcess a.process))
      fun p u₂ hf _ hu₂ => ?_
    refine .write hw hf (.of_incidental (.valid (fun _ h => h) _)) fun steps u₃ hf _ hu₃ => ?_
    refine .write hw hf (writes_openStep _ steps record u₃) fun opened u₄ hf _ hu₄ => ?_
    refine .write hw hf (writes_enter _ _ _ _ u₄) fun _ u₅ hf _ hu₅ => ?_
    obtain ⟨e, he, hu₅⟩ := hu₅
    obtain ⟨hopened, hu₄, -⟩ := hu₄
    have hR : u₅.tables.register =
        (w.tables.register.put { a.standing with status := .pending }).enter e := by
      rw [hu₅, hu₄, hu₃, hu₂, hu₁, hv.1]
      rfl
    have haction : e.action ≠ Verdict.approve.name := by
      rw [he.action]
      decide
    have hentry : e.approval = a.standing.id := he.approval.trans (congrArg Standing.id hopened)
    have hstep : e.step = a.standing.step := he.step.trans (congrArg Standing.step hopened)
    refine .save hw hf (.single ?_) fun hcourse => .of_sparing hcourse ?_
    · rw [hR]
      exact .revert .pending hthere hundecided nofun haction hentry hstep
    · refine .bind (Incidental.upholds (incidental_count _)) fun _ => ?_
      exact .bind (Incidental.upholds (incidental_note (by decide) (.inl (by decide)))) fun _ => .pure _

/-! ## Expiry -/

structure Awaiting (rows : List Approval) (R : Register) : Prop where
  there : ∀ a ∈ rows, a.standing ∈ R.standings
  pending : ∀ a ∈ rows, a.status = .pending
  distinct : (rows.map Approval.id).Nodup

theorem Awaiting.filter {rows : List Approval} {R : Register} (h : Awaiting rows R)
    (test : Approval → Bool) : Awaiting (rows.filter test) R where
  there a ha := h.there a (List.mem_filter.mp ha).1
  pending a ha := h.pending a (List.mem_filter.mp ha).1
  distinct := h.distinct.sublist (List.filter_sublist.map _)

/-- An approval that expires is a turn of it; the others stand as they stood. -/
theorem writes_expireOne (allowed : Licence) (hthere : a.standing ∈ w.tables.register.standings)
    (hpending : a.status = .pending) (t : Calendar.Instant) :
    Writes (expireOne t a) w fun _ v =>
      Register.Turns allowed (v.nextNumber .approval) w.tables.register v.tables.register
        ∧ ∀ s ∈ w.tables.register.standings, s.id ≠ a.id → s ∈ v.tables.register.standings := by
  unfold expireOne
  refine .bind (writes_claim a w) fun claimed v _ hf hv => ?_
  cases claimed with
  | none =>
    refine .pure ?_
    rw [hv.1]
    exact ⟨.refl, fun s hs _ => hs⟩
  | some claimed =>
    obtain rfl := hv.2 claimed rfl
    refine .bind (writes_store _ v) fun _ u₁ _ _ hu₁ => ?_
    refine .bind (writes_enter _ _ _ _ u₁) fun _ u₂ _ _ hu₂ => ?_
    refine .bind (.of_incidental (incidental_auditApproval (by decide))) fun _ u₃ _ _ hu₃ => ?_
    obtain ⟨e, he, hu₂⟩ := hu₂
    let expired : Standing := { a.standing with status := .expired }
    have hR : u₃.tables.register = (w.tables.register.put expired).enter e := by
      rw [hu₃, hu₂, hu₁, hv.1]
      rfl
    have haction : e.action ≠ Verdict.approve.name := by
      rw [he.action]
      decide
    have hundecided : a.standing.status ≠ .approved := by
      rw [show a.standing.status = .pending from hpending]
      exact nofun
    refine .pure ⟨.single ?_, fun s hs hne => ?_⟩
    · rw [hR]
      exact .revert .expired hthere hundecided nofun haction he.approval he.step
    · rw [hR]
      exact List.mem_map.mpr ⟨s, hs, if_neg hne⟩

theorem writes_expireEach (allowed : Licence) (t : Calendar.Instant) {rows : List Approval}
    (h : Awaiting rows w.tables.register) :
    Writes (rows.filterMapM (expireOne t)) w fun _ v =>
      Register.Turns allowed (v.nextNumber .approval) w.tables.register v.tables.register := by
  induction rows generalizing w with
  | nil => exact .pure .refl
  | cons a rest ih =>
    rw [List.filterMapM_cons]
    have hdistinct := List.nodup_cons.mp (List.map_cons ▸ h.distinct)
    refine .bind (writes_expireOne allowed (h.there a List.mem_cons_self)
      (h.pending a List.mem_cons_self) t) fun expired v _ _ hv => ?_
    obtain ⟨hturns, hothers⟩ := hv
    have hrest : Awaiting rest v.tables.register := by
      refine ⟨fun b hb => ?_, fun b hb => h.pending b (List.mem_cons_of_mem a hb), hdistinct.2⟩
      refine hothers b.standing (h.there b (List.mem_cons_of_mem a hb)) fun hid => ?_
      exact hdistinct.1 (List.mem_map.mpr ⟨b, hb, hid⟩)
    cases expired with
    | none =>
      refine Ends.mono (ih hrest) (fun _ u hu => ⟨hu.1, ?_⟩) fun _ _ hu => hu
      exact (hturns.mono (hu.1.numbers .approval)).trans hu.2
    | some b =>
      refine .bind (ih hrest) fun _ u _ hf hu => .pure ?_
      exact (hturns.mono (hf.numbers .approval)).trans hu

/-- Expiry is a turn of each approval whose time is over. -/
theorem follows_expire (hw : w.Filed) (m : Calendar.Moment) {loaded : List Approval}
    (h : Awaiting loaded w.tables.register) : Follows allowed w (expire m loaded) w := by
  unfold expire
  refine .write hw (.refl w) (writes_expireEach allowed m.wall (h.filter _))
    fun expired v hf _ hturns => ?_
  refine .save hw hf hturns fun hcourse => .of_sparing hcourse ?_
  exact .bind (.forIn _ (fun a _ => .bind (upholds_announceResolved a) fun _ => .pure _) _ _)
    fun _ => .pure _

end Approval

/-- A move by a stored blueprint is submitted for approval, or told at once if it asks for none. -/
theorem Blueprint.follows_move (hw : w.Settled)
    (hgiven : w.tables.register.Given (w.nextNumber .approval)) {ref : BlueprintRef}
    (hstored : ∀ b, ref ≠ .given b) (record : Uuid) (toStage : String) (updates : Fields)
    (actor : Option String) : Follows allowed w (move ref record toStage updates actor) w := by
  refine Ends.mono (move_ends ref record toStage updates actor hw.free) (fun m v h => ?_)
    fun _ v h => ?_
  · rcases h with ⟨-, -, rfl⟩ | ⟨r, b, t, hget, hdefined, ht, ⟨process, a, u, hs, -, -, htables,
      hsaved, hnumbers⟩ | ⟨happroval, applied⟩⟩
    · exact .refl hw.filed
    · obtain ⟨hf, hturn⟩ := (Approval.writes_submit process r.id actor _ hgiven).ok_of hs
      have hnext := World.nextNumber_congr hnumbers
      refine ⟨⟨by rw [hsaved, htables], by rw [hsaved, htables], fun n hn s hs => ?_⟩, fun t => ?_, ?_⟩
      · exact hf.runsFree hw.free n (hnext .run ▸ hn) s (htables ▸ hs)
      · exact (hnext t).symm ▸ hf.numbers t
      · rw [hnext, htables]
        exact .single hturn
    · obtain hgivenAs | ⟨row, hrow, hdef⟩ := hdefined
      · exact absurd hgivenAs (hstored b)
      refine ⟨(applied.settled hw).filed, applied.numbers, ?_⟩
      cases hm : m.success with
      | false =>
        rw [show v.tables.register = w.tables.register from
          congrArg Ledger.register (applied.untold hm)]
        exact .refl
      | true =>
        obtain ⟨id, change, hid, htells, hledger⟩ := applied.told hm
        have hR : v.tables.register = w.tables.register.tell change :=
          congrArg Ledger.register hledger
        rw [hR]
        refine .single (.move change ⟨row, hrow, ?_, b, t, hdef, ?_, happroval⟩ htells.approval)
        · rw [htells.blueprint]
          exact Option.some.inj ((StoredBlueprint.definition_id hdef).symm.trans hid)
        · obtain ⟨held, -, -, hheld⟩ := ((Record.get?_ends record w).ok_of hget).2 r rfl
          have hstage := (StoredRecord.toRecord_eq hheld).2
          have hfrom := htells.fromStage
          rw [show r.stage = _ from hstage, Cell.text_ofOption] at hfrom
          rw [← Except.ok.inj hfrom, htells.toStage, ← hstage]
          exact ht
  · rcases h with hf | ⟨⟨b, hgivenAs, -⟩, -⟩
    · exact hf.course_rolledBack hw.filed
    · exact absurd hgivenAs (hstored b)

end RecordFlow
