import RecordFlow.Proofs.Approval.Settling

/-! # Serial runs of actions

The actions on approvals, in the order in which they were saved, lead every approval from row to row:
each begins with the very row that the one before it left. What happens beside them at most marks an
approval that is approved, and such an approval is not acted on any more.
-/
namespace RecordFlow

/-! ## From row to row -/

def proceedingsOn (id : Uuid) (ds : List Proceeding) : List Proceeding :=
  ds.filter fun d => d.seen.id = id

/-- Actions lead from one row of an approval to another, each from the row that the one before it
left; in the end the move of the approval may have been marked. -/
inductive Approval.Led (processes : List ApprovalProcess) :
    Approval → List Proceeding → Approval → Prop
  | done (a : Approval) (executed : Bool) (hmarked : executed ≠ a.executed → a.status = .approved) :
      Led processes a [] { a with executed := executed }
  | act {d : Proceeding} {ds : List Proceeding} {b : Approval}
      (hproceeds : d.seen.Proceeds processes d.entry d.left) (hrest : Led processes d.left ds b) :
      Led processes d.seen (d :: ds) b

namespace Approval.Led
variable {processes : List ApprovalProcess} {a b : Approval} {ds : List Proceeding}

theorem refl (processes : List ApprovalProcess) (a : Approval) : a.Led processes [] a :=
  .done a a.executed fun h => absurd rfl h

theorem id (h : a.Led processes ds b) : b.id = a.id := by
  induction h with
  | done => rfl
  | act hproceeds _ ih => exact ih.trans hproceeds.id

theorem snoc {d : Proceeding} (h : a.Led processes ds d.seen)
    (hproceeds : d.seen.Proceeds processes d.entry d.left) :
    a.Led processes (ds ++ [d]) d.left := by
  generalize hb : d.seen = b at h
  induction h with
  | done a executed hmarked =>
    have hundecided : a.status ≠ .approved := by
      have hstatus : d.seen.status = a.status := by rw [hb]
      rcases hproceeds.undecided with h | h <;> simp [← hstatus, h]
    have hsame : executed = a.executed := by
      by_contra hne
      exact hundecided (hmarked hne)
    obtain rfl : d.seen = a := by rw [hb, hsame]
    exact .act hproceeds (.refl _ _)
  | act hproceeds' _ ih => exact .act hproceeds' (ih hb)

theorem mark (h : a.Led processes ds b) (happroved : b.status = .approved) (executed : Bool) :
    a.Led processes ds { b with executed := executed } := by
  induction h with
  | done a _ _ => exact .done a executed fun _ => happroved
  | act hproceeds _ ih => exact .act hproceeds (ih happroved)

theorem create (h : a.Led processes ds b) (p : ApprovalProcess) :
    a.Led (processes ++ [p]) ds b := by
  induction h with
  | done a executed hmarked => exact .done a executed hmarked
  | act hproceeds _ ih => exact .act (hproceeds.create p) ih

end Approval.Led

/-! ## Runs of the docket -/

namespace Docket

inductive Runs (D : Docket) : List Proceeding → Docket → Prop
  | nil : Runs D [] D
  | aside {ds : List Proceeding} {E F : Docket} (h : Runs D ds E) (haside : E.Aside F) : Runs D ds F
  | act {ds : List Proceeding} {E : Docket} {d : Proceeding} (h : Runs D ds E) (hadmits : E.Admits d) :
      Runs D (ds ++ [d]) (E.act d)

variable {D E F : Docket} {ds es : List Proceeding}

theorem aside_distinct (h : D.Aside E) (hD : (D.approvals.map Approval.id).Nodup) :
    (E.approvals.map Approval.id).Nodup := by
  cases h with
  | create p => exact hD
  | submit hnew hsubmitted => exact nodup_append_new hD hnew
  | mark hmarks =>
    cases hmarks with
    | mark _ test executed => exact (mark_ids D _ test executed).symm ▸ hD

namespace Runs

theorem distinct (h : D.Runs ds E) (hD : (D.approvals.map Approval.id).Nodup) :
    (E.approvals.map Approval.id).Nodup := by
  induction h with
  | nil => exact hD
  | aside _ haside ih => exact aside_distinct haside ih
  | act _ _ ih => exact (put_ids _ _).symm ▸ ih

theorem trans (h : D.Runs ds E) (h' : E.Runs es F) : D.Runs (ds ++ es) F := by
  induction h' with
  | nil => exact (List.append_nil ds).symm ▸ h
  | aside _ haside ih => exact ih.aside haside
  | act _ hadmits ih => exact List.append_assoc ds _ _ ▸ ih.act hadmits

theorem of_asides (h : Relation.ReflTransGen Aside D E) : D.Runs [] E := by
  induction h with
  | refl => exact .nil
  | tail _ haside ih => exact ih.aside haside

theorem of_takes (h : D.Takes ds E) : D.Runs ds E := by
  induction h with
  | nil D => exact .nil
  | cons hadmits _ ih => exact trans (.act .nil hadmits) ih

end Runs

theorem entriesOf_enter_of_ne {e : ApprovalEntry} {id : Uuid} (h : e.approval ≠ id) :
    (D.enter e).entriesOf id = D.entriesOf id := by
  simp [entriesOf, enter, h]

theorem entriesOf_enter {e : ApprovalEntry} {id : Uuid} (h : e.approval = id) :
    (D.enter e).entriesOf id = D.entriesOf id ++ [e] := by
  simp [entriesOf, enter, h]

/-- An approval of one docket in another that it was led to: its row, and what was entered on it. -/
structure Leads (D : Docket) (ds : List Proceeding) (E : Docket) (a b : Approval) : Prop where
  there : b ∈ E.approvals
  led : a.Led E.processes (proceedingsOn a.id ds) b
  entries : E.entriesOf a.id = D.entriesOf a.id ++ (proceedingsOn a.id ds).map Proceeding.entry

namespace Leads
variable {a b : Approval}

theorem aside (h : D.Leads ds E a b) (haside : E.Aside F) : ∃ c, D.Leads ds F a c := by
  cases haside with
  | create p => exact ⟨b, h.there, h.led.create p, h.entries⟩
  | submit hnew hsubmitted =>
    refine ⟨b, List.mem_append_left _ h.there, h.led, ?_⟩
    have hother := hsubmitted.entered ▸ (hnew b h.there).symm
    exact (entriesOf_enter_of_ne (D := E) (h.led.id ▸ hother)).trans h.entries
  | mark hmarks =>
    cases hmarks with
    | @mark id happroved test executed =>
      refine ⟨_, List.mem_map_of_mem h.there, ?_, h.entries⟩
      split
      · next hmarked =>
        have hid := of_decide_eq_true (Bool.and_eq_true_iff.mp hmarked).1
        exact h.led.mark (happroved b h.there hid) executed
      · exact h.led

theorem act (h : D.Leads ds E a b) (hdistinct : (E.approvals.map Approval.id).Nodup) {d : Proceeding}
    (hadmits : E.Admits d) : ∃ c, D.Leads (ds ++ [d]) (E.act d) a c := by
  have hproceeds := hadmits.proceeds
  have hentered := hproceeds.entered.1
  have proceedings : proceedingsOn a.id (ds ++ [d])
      = proceedingsOn a.id ds ++ proceedingsOn a.id [d] := List.filter_append _ _
  by_cases hon : d.seen.id = a.id
  · obtain rfl : b = d.seen :=
      List.inj_on_of_nodup_map hdistinct h.there hadmits.there (h.led.id.trans hon.symm)
    have single : proceedingsOn a.id [d] = [d] := List.filter_cons_of_pos (decide_eq_true hon)
    refine ⟨d.left, mem_overwrite h.there hproceeds.id.symm, ?_, ?_⟩
    · rw [proceedings, single]
      exact h.led.snoc hproceeds
    · rw [proceedings, single, List.map_append, ← List.append_assoc, ← h.entries]
      exact entriesOf_enter (D := E.put d.left) (hentered.trans hon)
  · have none : proceedingsOn a.id [d] = [] := List.filter_cons_of_neg (by simpa using hon)
    have hother : b.id ≠ d.left.id := fun hid => hon (hproceeds.id ▸ hid ▸ h.led.id)
    refine ⟨b, mem_put_of_ne h.there hother, ?_, ?_⟩
    · rw [proceedings, none, List.append_nil]
      exact h.led
    · rw [proceedings, none, List.append_nil, ← h.entries]
      exact entriesOf_enter_of_ne (D := E.put d.left) fun hid => hon (hentered.symm.trans hid)

end Leads

/-- Every approval is led on by the actions that are about it. -/
theorem Runs.leads (h : D.Runs ds E) (hD : (D.approvals.map Approval.id).Nodup) {a : Approval}
    (ha : a ∈ D.approvals) : ∃ b, D.Leads ds E a b := by
  induction h with
  | nil => exact ⟨a, ha, .refl _ a, (List.append_nil _).symm⟩
  | aside _ haside ih =>
    obtain ⟨b, hb⟩ := ih
    exact hb.aside haside
  | act hbefore hadmits ih =>
    obtain ⟨b, hb⟩ := ih
    exact hb.act (hbefore.distinct hD) hadmits

end Docket

/-! ## What was seen of an approval -/

theorem Approval.SeenIn.aside {a : Approval} {D E : Docket} (h : a.SeenIn D) (haside : D.Aside E) :
    a.SeenIn E := by
  cases haside with
  | create p => exact h
  | submit =>
    obtain ⟨b, hb, hseen⟩ := h
    exact ⟨b, List.mem_append_left _ hb, hseen⟩
  | mark hmarks => exact h.marks hmarks

end RecordFlow
