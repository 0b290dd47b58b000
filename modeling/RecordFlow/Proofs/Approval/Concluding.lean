import RecordFlow.Proofs.Approval.Settling

/-! # Concluding actions

What follows an action that is settled happens beside the docket, but for the marks of approvals whose
moves are carried out. So whatever is done with approvals, the docket goes on by its turns, however an
operation ends; and an action that is answered as invalid writes nothing at all.
-/
namespace RecordFlow
open RecordFlow.Flow Calendar
variable {α β : Type} {kind kind' : Docket → Docket → Prop} {w : World}

/-- An operation under which the docket goes on by steps of a kind, if it is undone where it fails. -/
def Handles (kind : Docket → Docket → Prop) (part : Flow α) (w : World) : Prop :=
  Ends part w (fun _ v => w.Kept kind v) fun _ v => w.Kept kind v.rolledBack

namespace Handles
variable {x : Flow α} {y : α → Flow β} {v : World}

theorem of_upholds (hw : w.Orderly) (hx : Upholds (Keeping kind) x) : Handles kind x w :=
  Ends.mono (hx w) (fun _ _ h => h hw) fun _ _ h => h hw

theorem upholds (h : ∀ w : World, w.Orderly → Handles kind x w) : Upholds (Keeping kind) x := by
  intro w
  by_cases hw : w.Orderly
  · exact Ends.mono (h w hw) (fun _ _ h _ => h) fun _ _ h _ => h
  · exact Ends.any.mono (fun _ _ _ hw' => absurd hw' hw) fun _ _ _ hw' => absurd hw' hw

theorem mono (h : Handles kind x w) (hkind : ∀ D E, kind D E → kind' D E) : Handles kind' x w :=
  Ends.mono h (fun _ _ h => h.mono hkind) fun _ _ h => h.mono hkind

theorem later (hv : w.Kept kind v) (hx : Handles kind x v) :
    Ends x v (fun _ u => w.Kept kind u) fun _ u => w.Kept kind u.rolledBack :=
  Ends.mono hx (fun _ _ h => hv.trans h) fun _ _ h => hv.trans h

theorem pure {a : α} (hw : w.Orderly) : Handles kind (Pure.pure a) w := hw.kept

theorem bind (hx : Handles kind x w) (hy : ∀ a v, w.Kept kind v → Handles kind (y a) v) :
    Handles kind (x >>= y) w :=
  Ends.bind hx (fun _ _ h => h) fun a v _ hv => later hv (hy a v hv)

theorem look (hw : w.Orderly) (hx : Looks x) (hy : ∀ a, Handles kind (y a) w) :
    Handles kind (x >>= y) w :=
  hx.followed (fun _ => hw.rolledBack) hy

theorem step {a : α} (h : x w = .ok a w) (hy : Handles kind (y a) w) : Handles kind (x >>= y) w :=
  Ends.step h hy

theorem ite {c : Prop} [Decidable c] {z : Flow α} (hx : c → Handles kind x w)
    (hz : ¬ c → Handles kind z w) : Handles kind (if c then x else z) w :=
  Ends.ite hx hz

end Handles

/-- An operation under which the docket goes on by steps of a kind, once it is saved or undone. -/
def Closes (kind : Docket → Docket → Prop) (part : Flow α) (w : World) : Prop :=
  Ends part w (fun _ v => w.Kept kind v.committed) fun _ v => w.Kept kind v.rolledBack

namespace Closes
variable {x : Flow α}

theorem of_handles (h : Handles kind x w) : Closes kind x w :=
  Ends.mono h (fun _ _ hv => hv.trans hv.orderly.committed) fun _ _ hv => hv

theorem mono (h : Closes kind x w) (hkind : ∀ D E, kind D E → kind' D E) : Closes kind' x w :=
  Ends.mono h (fun _ _ h => h.mono hkind) fun _ _ h => h.mono hkind

theorem discard (h : Closes kind x w) : Closes kind (discard x : Flow Unit) w := Ends.map h

end Closes

/-! ## Moves that were approved -/

/-- What is approved stays so, whatever is marked. -/
theorem Docket.IsApproved.kept {D E : Docket} {id : Uuid} (h : D.IsApproved id)
    (hmarks : Relation.ReflTransGen Docket.Marks D E) : E.IsApproved id := by
  induction hmarks with
  | refl => exact h
  | tail _ hmark ih =>
    cases hmark with
    | mark _ test executed => exact ih.mark _ test executed

namespace Approval

theorem handles_setExecuted (hw : w.Orderly) {id : Uuid} (happroved : w.tables.docket.IsApproved id)
    (executed : Bool) (test : Approval → Bool) :
    Handles Docket.Marks (setExecuted id executed test) w := by
  refine .of_ok (setExecuted_eq id executed test w) ⟨⟨rfl, ?_⟩, Nat.le_refl _, .single ?_⟩
  · exact (Docket.mark_ids w.tables.docket id test executed).symm ▸ hw.given
  · exact .mark happroved test executed

theorem handles_carryOutMove (hw : w.Orderly) {id : Uuid}
    (happroved : w.tables.docket.IsApproved id) (about : Fields) (b : Blueprint) (t : Transition)
    (r : Record) (actor : Option String) :
    Handles Docket.Marks (carryOutMove id about b t r actor) w := by
  unfold carryOutMove
  refine .look hw (.shaped anyCause _) fun updates => ?_
  refine .look hw (.readable anyCause _) fun v => .ite (fun _ => .pure hw) fun _ => ?_
  refine .bind (handles_setExecuted hw happroved _ _) fun claimed v hv => ?_
  refine .ite (fun _ => .pure hv.orderly) fun _ => ?_
  refine .bind (.of_upholds hv.orderly (Blueprint.upholds_applyMove _ _ _ _ _ _ _ _)) fun m u hu => ?_
  have happroved' := happroved.kept (hv.steps.trans hu.steps)
  refine .ite (fun _ => ?_) fun _ => .pure hu.orderly
  exact .bind (handles_setExecuted hu.orderly happroved' _ _) fun _ x hx => .pure hx.orderly

/-- The move of an approval is carried out only once the approval is approved. -/
theorem handles_executeMove (hw : w.Orderly) (id : Uuid) (actor : Option String) :
    Handles Docket.Marks (executeMove id actor) w := by
  have refused (about : Fields) (error : String) :
      Handles Docket.Marks (refuseMove id about error) w :=
    .of_upholds hw (.bind (.looks (.valid anyCause _)) fun _ => .pure _)
  have read (x : Except Failure Uuid) : Looks (orThrow x) := by
    cases x with
    | ok blueprint => exact .pure blueprint
    | error e => exact .throw trivial
  unfold executeMove
  refine .step (find?_eq id w) ?_
  split
  · exact .pure hw
  next a hfound =>
  have happroved (hstatus : ¬ a.status ≠ .approved) : w.tables.docket.IsApproved id := by
    intro b hb hid
    have hthere : a ∈ w.tables.docket.approvals := List.mem_of_find?_eq_some hfound
    obtain rfl := hw.given.eq_of_id hb hthere (hid.trans (id_of_find? hfound).symm)
    exact Decidable.not_not.mp hstatus
  refine .look hw (.shaped anyCause _) fun about => ?_
  refine .ite (fun _ => refused about _) fun hstatus => ?_
  refine .ite (fun _ => refused about _) fun _ => .ite (fun _ => refused about _) fun _ => ?_
  refine .look hw (.recordGet? anyCause a.record) fun found => ?_
  cases found with
  | none => exact refused _ _
  | some r =>
    refine .ite (fun _ => refused about _) fun _ => ?_
    refine .look hw (read _) fun blueprint => ?_
    refine .look hw (Blueprint.looks_resolve _ _) fun resolved => ?_
    cases resolved with
    | none => exact refused _ _
    | some b =>
      dsimp only
      split
      · exact refused _ _
      · exact handles_carryOutMove hw (happroved hstatus) _ _ _ _ _

/-! ## What follows an action -/

theorem keeping_conclude (a : Approval) (r : ApprovalRequest) (p : ApprovalProcess)
    (steps : List ApprovalStep) (left : Approval) :
    Upholds (Keeping Docket.Marks) (a.conclude r p steps left) := by
  have finished (move : Option MoveResult) : Upholds (Keeping Docket.Marks) (do
      let current ← fetch Approval a.id
      let executed ← current.carryOutActions p.onApprove r.actorId
      current.announceResolved
      current.succeed r a (executed || move.any (·.success)) move) := by
    refine .bind (.looks (.fetch anyCause Approval a.id)) fun current => ?_
    refine .bind (upholds_carryOutActions _ _ _) fun executed => ?_
    exact .bind (upholds_announceResolved _) fun _ => upholds_succeed _ _ _ _ _
  have moved : Upholds (Keeping Docket.Marks) (executeMove a.id (some r.actorId)) :=
    Handles.upholds fun _ hw => handles_executeMove hw a.id (some r.actorId)
  unfold conclude
  cases r.verdict with
  | cancel => exact .bind (upholds_announceResolved left) fun _ => upholds_succeed _ _ _ _ _
  | reject =>
    refine .bind (upholds_carryOutActions _ _ _) fun executed => ?_
    exact .bind (upholds_announceResolved left) fun _ => upholds_succeed _ _ _ _ _
  | requestChanges => exact upholds_succeed _ _ _ _ _
  | approve =>
    refine .ite (upholds_succeed _ _ _ _ _) (.bind (.looks (.shaped anyCause _)) fun isMove => ?_)
    refine .bind (.looks .wiring) fun wiring => .ite ?_ ?_
    · exact .bind (.map some moved) finished
    · exact .bind (.pure none) finished

theorem keeping_concludeAgain (a : Approval) (actor : String) (left : Approval) :
    Upholds (Keeping kind) (a.concludeAgain actor left) :=
  .bind (Incidental.upholds (incidental_count _)) fun _ =>
    .bind (upholds_note (by decide)) fun _ => .pure _

theorem keeping_announceAll (expired : List Proceeding) :
    Upholds (Keeping kind) (announceAll expired) := by
  refine .bind (.forIn _ (fun d _ => ?_) _ _) fun _ => .pure _
  exact .bind (upholds_announceResolved d.left) fun _ => .pure _

/-! ## Whole operations -/

section Operations
variable {a : Approval} (hw : w.Orderly) (hcalm : w.rivalWrites = 0)
include hw hcalm

theorem handles_act (hseen : a.SeenIn w.tables.docket) (r : ApprovalRequest) :
    Handles Docket.Turn (a.act r) w := by
  have refused (cause : ActRefusal) : Handles Docket.Turn (a.refuse r.verdict.name cause) w :=
    .of_upholds hw (upholds_refuse _ _ _)
  rw [act_eq]
  refine (check_ends a r w).bind (fun _ v h => ?_) fun c v _ h => ?_
  · rw [h]
    exact hw.rolledBack
  obtain ⟨cause, p, steps⟩ := c
  obtain ⟨rfl, hcleared⟩ := h
  cases cause with
  | some cause => exact refused cause
  | none =>
    refine (settle_ends hw hcalm hseen (hcleared rfl)).bind (fun _ _ h => hw.undone h)
      fun d u _ h => ?_
    cases d with
    | none =>
      obtain rfl : u = v := h
      exact refused .overtaken
    | some d =>
      have concluded : Handles Docket.Marks (a.conclude r p steps d.left) u :=
        .of_upholds h.2.orderly (keeping_conclude _ _ _ _ _)
      exact Handles.later h.2.kept (concluded.mono fun _ _ hmark => .aside (.mark hmark))

theorem handles_resubmit (hseen : a.SeenIn w.tables.docket) (actor : String)
    (comment : Option String) : Handles Docket.Turn (a.resubmit actor comment) w := by
  have refused (cause : ActRefusal) : Handles Docket.Turn (a.refuse "resubmit" cause) w :=
    .of_upholds hw (upholds_refuse _ _ _)
  rw [resubmit_eq]
  cases hmay : a.resubmission? actor with
  | some cause => exact refused cause
  | none =>
    refine (settleAgain_ends hw hcalm hseen hmay).bind (fun _ _ h => hw.undone h) fun d u _ h => ?_
    cases d with
    | none =>
      obtain rfl : u = w := h
      exact refused .overtaken
    | some d =>
      exact Handles.later h.2.kept (.of_upholds h.2.orderly (keeping_concludeAgain _ _ _))

theorem handles_expire (m : Moment) {loaded : List Approval}
    (hloaded : ∀ a ∈ loaded, a.SeenIn w.tables.docket ∧ a.status = .pending) :
    Handles Docket.Turn (expire m loaded) w := by
  rw [expire_eq]
  refine (settleExpired_ends hw hcalm hloaded).bind (fun _ _ h => hw.undone h) fun ds v _ h => ?_
  exact Handles.later h.1.kept
    (.of_upholds h.1.orderly (.bind (keeping_announceAll ds) fun _ => .pure _))

end Operations

end Approval

/-! ## Submissions -/

theorem Docket.put_added {D : Docket} {a b : Approval} (hid : b.id = a.id)
    (hnew : ∀ c ∈ D.approvals, c.id ≠ b.id) :
    ({ D with approvals := D.approvals ++ [a] } : Docket).put b
      = { D with approvals := D.approvals ++ [b] } := by
  have same : D.approvals.map (overwrite b) = D.approvals :=
    (List.map_congr_left fun c hc => overwrite_of_ne (hnew c hc)).trans (List.map_id' _)
  have added : overwrite b a = b := overwrite_of_eq hid.symm
  simp only [Docket.put, List.map_append, same, List.map_cons, added, List.map_nil]

namespace Approval

/-- A submission adds an approval and its first entry. -/
theorem writes_submission (process record : Uuid) (requestedBy : Option String) (about : Fields)
    (hw : w.Orderly) :
    Writes (submit process record requestedBy about) w fun a v =>
      w.nextNumber .approval < v.nextNumber .approval
        ∧ a.id = TableName.approval.rowId (w.nextNumber .approval)
        ∧ ∃ e, a.Submitted e ∧ v.tables.docket = { w.tables.docket with
          approvals := w.tables.docket.approvals ++ [a]
          entries := w.tables.docket.entries ++ [e] } := by
  unfold submit
  refine .look (Looks.ends (.fetch anyCause ApprovalProcess process) w) fun p _ => ?_
  split
  · exact Ends.throw (.refl w)
  refine .look (Looks.ends (.recordFetch anyCause record) w) fun r _ => ?_
  have inserted (build : Uuid → Approval) : Writes (Flow.insert build) w fun a v =>
      a = build (TableName.approval.rowId (w.nextNumber .approval))
        ∧ v.nextNumber .approval = w.nextNumber .approval + 1
        ∧ v.tables.docket = { w.tables.docket with
          approvals := w.tables.docket.approvals ++ [a] } := by
    refine .of_files (incidental_insert build) fun a v hr => ?_
    obtain ⟨ha, rfl⟩ := (insert_ends build w).ok_of hr
    exact ⟨ha, w.nextNumber_used .approval, rfl⟩
  refine .bind (inserted _) fun a v₁ _ _ hv₁ => ?_
  obtain ⟨ha, hnext, hv₁⟩ := hv₁
  refine .look (valid_ends _ v₁) fun steps hsteps => ?_
  refine .bind (writes_opened a steps r v₁) fun opened v₂ _ hf₂ hv₂ => ?_
  obtain ⟨hopens, hv₂⟩ := hv₂
  have entered : Writes (opened.enter requestedBy "submit" none) v₂ fun _ v =>
      ∃ e : ApprovalEntry, e.approval = opened.id ∧ v.tables.docket = v₂.tables.docket.enter e := by
    unfold enter
    refine .bind (writes_entry _ v₂) fun e v _ _ hv => .pure ?_
    obtain ⟨⟨id, rfl⟩, hv⟩ := hv
    exact ⟨_, rfl, hv⟩
  refine .bind entered fun _ v₃ _ hf₃ hv₃ => ?_
  obtain ⟨e, he, hv₃⟩ := hv₃
  refine .bind (leaves_docket (incidental_auditApproval (by decide))) fun _ v₄ _ hf₄ hv₄ => .pure ?_
  have hid : opened.id = a.id := by rw [hopens.eq]
  have hgiven : opened.id = TableName.approval.rowId (w.nextNumber .approval) := by rw [hid, ha]
  have hlater := Nat.le_trans (hf₂.numbers .approval)
    (Nat.le_trans (hf₃.numbers .approval) (hf₄.numbers .approval))
  refine ⟨by omega, hgiven, e, ⟨?_, ?_, ?_, he⟩, ?_⟩
  · rw [hopens.eq, ha]
  · rw [hopens.eq, ha]
  · rw [hopens.eq, ha]
  · have hnew : ∀ c ∈ w.tables.docket.approvals, c.id ≠ opened.id := hgiven ▸ hw.given.free
    rw [hv₄, hv₃, hv₂, hv₁, Docket.put_added hid hnew]
    rfl

end Approval

theorem World.Orderly.submitted {v : World} {a : Approval} {e : ApprovalEntry} (hw : w.Orderly)
    (hnext : w.nextNumber .approval < v.nextNumber .approval)
    (hid : a.id = TableName.approval.rowId (w.nextNumber .approval)) (hsubmitted : a.Submitted e)
    (hrivals : v.rivalWrites ≤ w.rivalWrites)
    (hdocket : v.tables.docket = { w.tables.docket with
      approvals := w.tables.docket.approvals ++ [a], entries := w.tables.docket.entries ++ [e] }) :
    w.Kept Docket.Aside v.committed where
  orderly := ⟨rfl, by
    have added := (hw.given.append hid).mono hnext
    rw [show v.committed.tables.docket = _ from hdocket]
    exact added⟩
  rivals := hrivals
  steps := by
    rw [show v.committed.tables.docket = _ from hdocket]
    exact .single (.submit (hid ▸ hw.given.free) hsubmitted)

namespace Approval

theorem closes_submit (process record : Uuid) (requestedBy : Option String) (about : Fields)
    (hw : w.Orderly) : Closes Docket.Aside (submit process record requestedBy about) w := by
  refine Ends.mono (writes_submission process record requestedBy about hw) ?_ fun _ _ h => hw.undone h
  rintro a v ⟨hfiling, hnext, hid, e, hsubmitted, hdocket⟩
  exact hw.submitted hnext hid hsubmitted hfiling.rivals hdocket

theorem keeping_submitted (process record : Uuid) (requestedBy : Option String) (about : Fields) :
    Upholds (Keeping Docket.Aside) (do
      let a ← submit process record requestedBy about
      commit
      return a) :=
  Handles.upholds fun _ hw =>
    (closes_submit process record requestedBy about hw).bind (fun _ _ h => h) fun _ v _ h =>
      Ends.step (a := ()) (t := v.committed) rfl (Ends.pure h)

/-! ## Answers -/

theorem gives_succeed (a : Approval) (r : ApprovalRequest) (before : Approval) (executed : Bool)
    (move : Option MoveResult) :
    Gives (a.succeed r before executed move) fun result => result.isInvalid = false :=
  .bind fun _ => .bind fun _ => .pure rfl

/-- An action that was settled is not answered as invalid. -/
theorem gives_conclude (a : Approval) (r : ApprovalRequest) (p : ApprovalProcess)
    (steps : List ApprovalStep) (left : Approval) :
    Gives (a.conclude r p steps left) fun result => result.isInvalid = false := by
  unfold conclude
  cases r.verdict with
  | cancel => exact .bind fun _ => gives_succeed _ _ _ _ _
  | reject => exact .bind fun _ => .bind fun _ => gives_succeed _ _ _ _ _
  | requestChanges => exact gives_succeed _ _ _ _ _
  | approve =>
    refine .ite (gives_succeed _ _ _ _ _) (.bind fun _ => .bind fun _ => ?_)
    refine .ite (.bind fun _ => ?_) (.bind fun _ => ?_)
    · exact .bind fun _ => .bind fun _ => .bind fun _ => gives_succeed _ _ _ _ _
    · exact .bind fun _ => .bind fun _ => .bind fun _ => gives_succeed _ _ _ _ _

def Unwritten (w : World) (result : ApprovalResult) (v : World) : Prop :=
  result.isInvalid = true → v.tables = w.tables

theorem unwritten_of_gives {x : Flow ApprovalResult} {v : World}
    (h : Gives x fun result => result.isInvalid = false) : Yields x v (Unwritten w) :=
  (h v).mono fun _ _ hvalid hinvalid => absurd hinvalid (by simp [hvalid])

theorem unwritten_refuse (a : Approval) (action : String) (cause : ActRefusal) (w : World) :
    Yields (a.refuse action cause) w (Unwritten w) := by
  unfold refuse
  exact .step (a := ()) rfl (.guarded fun _ => .pure fun _ => rfl)

theorem claiming_none (a : Approval) (part : Flow α) (hcalm : w.rivalWrites = 0)
    (hdistinct : (w.tables.approvals.map Approval.id).Nodup) :
    Yields (a.claiming part) w fun claimed v => claimed = none → v = w := by
  unfold claiming
  refine Ends.bind (swap_ends hcalm hdistinct rfl) (fun _ _ _ => trivial) fun swapped v _ h => ?_
  cases swapped with
  | false => exact .pure fun _ => h.1
  | true =>
    rw [if_pos rfl]
    exact Ends.map (Ends.any.mono (fun _ _ _ hnone => by cases hnone) fun _ _ _ => trivial)

section Answers
variable (hcalm : w.rivalWrites = 0) (hdistinct : (w.tables.approvals.map Approval.id).Nodup)
include hcalm hdistinct

theorem unwritten_act (a : Approval) (r : ApprovalRequest) :
    Yields (a.act r) w (Unwritten w) := by
  rw [act_eq]
  refine Ends.bind (check_ends a r w) (fun _ _ _ => trivial) fun c v _ h => ?_
  obtain ⟨cause, p, steps⟩ := c
  obtain ⟨rfl, -⟩ := h
  cases cause with
  | some cause => exact unwritten_refuse a _ cause v
  | none =>
    refine (claiming_none a _ hcalm hdistinct).bind fun d u h => ?_
    cases d with
    | none =>
      obtain rfl := h rfl
      exact unwritten_refuse a _ _ u
    | some d => exact unwritten_of_gives (gives_conclude _ _ _ _ _)

theorem unwritten_resubmit (a : Approval) (actor : String) (comment : Option String) :
    Yields (a.resubmit actor comment) w (Unwritten w) := by
  rw [resubmit_eq]
  cases a.resubmission? actor with
  | some cause => exact unwritten_refuse a _ cause w
  | none =>
    refine (claiming_none a _ hcalm hdistinct).bind fun d u h => ?_
    cases d with
    | none =>
      obtain rfl := h rfl
      exact unwritten_refuse a _ _ u
    | some d => exact unwritten_of_gives (.bind fun _ => .bind fun _ => .pure rfl)

end Answers

end Approval

end RecordFlow
