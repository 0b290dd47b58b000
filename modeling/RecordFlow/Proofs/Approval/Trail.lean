import RecordFlow.Proofs.Schema.Reread
import RecordFlow.Proofs.Session.Command

/-! # The trail of an approval

The entries that approve a step lead from the first step of an approval to the one at which it
stands, one for each step. Once it is approved they are as many as its process has steps, and each was
made by somebody who was an approver of the step at that time.
-/
namespace RecordFlow
open RecordFlow.Flow

namespace Register
variable {allowed : Licence} {high : Nat} {R S : Register}

def consents (R : Register) (id : Uuid) : List ApprovalEntry :=
  R.entries.filter fun e => decide (e.approval = id ∧ e.action = Verdict.approve.name)

theorem consents_enter_approve {e : ApprovalEntry} {id : Uuid} (happroval : e.approval = id)
    (haction : e.action = Verdict.approve.name) :
    (R.enter e).consents id = R.consents id ++ [e] := by
  unfold consents enter
  rw [List.filter_append, List.filter_singleton, decide_eq_true ⟨happroval, haction⟩, cond_true]

theorem consents_enter_other {e : ApprovalEntry} {id : Uuid}
    (h : e.approval ≠ id ∨ e.action ≠ Verdict.approve.name) :
    (R.enter e).consents id = R.consents id := by
  unfold consents enter
  rw [List.filter_append, List.filter_singleton, decide_eq_false (not_and_or.mpr h), cond_false,
    List.append_nil]

theorem Reads.unique {process : Uuid} {steps steps' : List ApprovalStep}
    (h : R.Reads process steps) (h' : R.Reads process steps') : steps = steps' := by
  obtain ⟨p, hp, hsteps⟩ := h
  obtain ⟨p', hp', hsteps'⟩ := h'
  obtain rfl := Option.some.inj (hp.symm.trans hp')
  exact Schema.Checked.valid.inj (hsteps.symm.trans hsteps')

theorem Reads.create {process : Uuid} {steps : List ApprovalStep} (h : R.Reads process steps)
    (p : ApprovalProcess) :
    Reads { R with processes := R.processes ++ [p] } process steps := by
  obtain ⟨q, hq, hsteps⟩ := h
  refine ⟨q, ?_, hsteps⟩
  dsimp only
  rw [List.find?_append, hq]
  rfl

end Register

def stepsUpTo (n : Nat) : List Int := (List.range n).map Int.ofNat

/-- The consents of an approval lead, step by step, to where it stands. -/
structure Standing.Backed (made : ApprovalEntry → Prop) (steps : List ApprovalStep) (s : Standing)
    (consents : List ApprovalEntry) : Prop where
  made : ∀ e ∈ consents, made e ∧ e.IsExplained steps
  inOrder : consents.map ApprovalEntry.step = stepsUpTo consents.length
  complete : s.status = .approved → consents.length = steps.length
  reached : s.status ≠ .approved → s.step = consents.length ∧ consents.length < steps.length

namespace Standing.Backed
variable {made made' : ApprovalEntry → Prop} {steps : List ApprovalStep} {s s' : Standing}
variable {consents : List ApprovalEntry} {e : ApprovalEntry} {allowed : Licence}

theorem mono (h : s.Backed made steps consents) (hmade : ∀ e, made e → made' e) :
    s.Backed made' steps consents :=
  { h with made := fun e he => ⟨hmade e (h.made e he).1, (h.made e he).2⟩ }

/-- A new consent is about the step after the ones that were given. -/
theorem inOrder_append (h : s.Backed made steps consents) (hstep : e.step = consents.length) :
    (consents ++ [e]).map ApprovalEntry.step = stepsUpTo (consents ++ [e]).length := by
  rw [List.map_append, h.inOrder, List.length_append, stepsUpTo, stepsUpTo, List.length_singleton,
    List.range_succ, List.map_append, List.map_singleton, List.map_singleton, hstep]
  rfl

theorem made_append (h : s.Backed made steps consents) (he : made e) (hcomment : e.IsExplained steps) :
    ∀ d ∈ consents ++ [e], made d ∧ d.IsExplained steps := by
  intro d hd
  rcases List.mem_append.mp hd with hd | hd
  · exact h.made d hd
  · rw [List.mem_singleton.mp hd]
    exact ⟨he, hcomment⟩

/-- A turn of an approval with a consent goes on to the next step, or to the end. -/
theorem approve (h : s.Backed made steps consents) (hturns : s.Turns allowed steps e s')
    (hstep : e.step = s.step) (haction : e.action = Verdict.approve.name)
    (hmade : s.status = .pending → allowed.approves s e → made e) :
    s'.Backed made steps (consents ++ [e]) := by
  cases hturns with
  | approve hpending _ hallowed hcomment hnext =>
    obtain ⟨hreached, -⟩ := h.reached (by rw [hpending]; exact nofun)
    refine ⟨h.made_append (hmade hpending hallowed) hcomment,
      h.inOrder_append (hstep.trans hreached), fun hs => ?_, fun _ => ?_⟩
    · rw [hpending] at hs
      cases hs
    · rw [List.length_append, List.length_singleton]
      dsimp only
      omega
  | approveLast hpending _ hallowed hcomment hlast =>
    obtain ⟨hreached, hleft⟩ := h.reached (by rw [hpending]; exact nofun)
    refine ⟨h.made_append (hmade hpending hallowed) hcomment,
      h.inOrder_append (hstep.trans hreached), fun _ => ?_, fun hs => absurd rfl hs⟩
    rw [List.length_append, List.length_singleton]
    omega
  | other _ _ _ hother => exact absurd haction hother

theorem undecided {steps' : List ApprovalStep} (h : s.Backed made steps consents)
    (hturns : s.Turns allowed steps' e s') (haction : e.action ≠ Verdict.approve.name) :
    s'.Backed made steps consents := by
  cases hturns with
  | approve _ happrove => exact absurd happrove haction
  | approveLast _ happrove => exact absurd happrove haction
  | other status hundecided hstatus _ =>
    exact ⟨h.made, h.inOrder, fun hs => absurd hs hstatus, fun _ => h.reached hundecided⟩

end Standing.Backed

/-- Every approval stands where its consents lead, and entries are about approvals that are there. -/
structure Register.Trailed (made : ApprovalEntry → Prop) (R : Register) : Prop where
  known : ∀ e ∈ R.entries, ∃ s ∈ R.standings, s.id = e.approval
  backed : ∀ s ∈ R.standings, ∃ steps, R.Reads s.process steps
    ∧ s.Backed made steps (R.consents s.id)

namespace Register.Trailed
variable {made made' : ApprovalEntry → Prop} {allowed : Licence} {high : Nat} {R S : Register}

theorem mono (h : R.Trailed made) (hmade : ∀ e, made e → made' e) : R.Trailed made' where
  known := h.known
  backed s hs := by
    obtain ⟨steps, hreads, hbacked⟩ := h.backed s hs
    exact ⟨steps, hreads, hbacked.mono hmade⟩

theorem consents_new (h : R.Trailed made) {id : Uuid} (hnew : ∀ t ∈ R.standings, t.id ≠ id) :
    R.consents id = [] := by
  refine List.filter_eq_nil_iff.mpr fun e he htest => ?_
  obtain ⟨s, hs, hid⟩ := h.known e he
  exact hnew s hs (hid.trans (of_decide_eq_true htest).1)

theorem submit (h : R.Trailed made) {s : Standing} {e : ApprovalEntry} {steps : List ApprovalStep}
    (hnew : ∀ t ∈ R.standings, t.id ≠ s.id) (hreads : R.Reads s.process steps) (hsteps : steps ≠ [])
    (hpending : s.status = .pending) (hstart : s.step = 0) (hentry : e.approval = s.id)
    (haction : e.action ≠ Verdict.approve.name) :
    Trailed made { R with standings := R.standings ++ [s], entries := R.entries ++ [e] } := by
  have same (id : Uuid) : consents { R with standings := R.standings ++ [s], entries := R.entries ++ [e] }
      id = R.consents id := consents_enter_other (.inr haction)
  constructor
  · intro d hd
    rcases List.mem_append.mp hd with hd | hd
    · obtain ⟨t, ht, hid⟩ := h.known d hd
      exact ⟨t, List.mem_append_left _ ht, hid⟩
    · rw [List.mem_singleton.mp hd]
      exact ⟨s, List.mem_append_right _ (List.mem_singleton_self s), hentry.symm⟩
  · intro t ht
    rw [same]
    rcases List.mem_append.mp ht with ht | ht
    · exact h.backed t ht
    · obtain rfl := List.mem_singleton.mp ht
      rw [h.consents_new hnew]
      refine ⟨steps, hreads, nofun, rfl, fun hs => ?_, fun _ => ⟨hstart, ?_⟩⟩
      · rw [hpending] at hs
        cases hs
      · exact List.length_pos_iff.mpr hsteps

theorem decide (h : R.Trailed made) {s s' : Standing} {e : ApprovalEntry}
    {steps : List ApprovalStep} (hthere : s ∈ R.standings)
    (hreads : e.action = Verdict.approve.name → R.Reads s.process steps)
    (hentry : e.approval = s.id) (hstep : e.step = s.step) (hturns : s.Turns allowed steps e s')
    (hmade : s.status = .pending → allowed.approves s e → made e) :
    Trailed made ((R.put s').enter e) := by
  have hid : s'.id = s.id := by cases hturns <;> rfl
  have hprocess : s'.process = s.process := by cases hturns <;> rfl
  constructor
  · intro d hd
    rcases List.mem_append.mp hd with hd | hd
    · obtain ⟨t, ht, hsame⟩ := h.known d hd
      obtain ⟨u, hu, hsame'⟩ := put_there s' ht
      exact ⟨u, hu, hsame'.trans hsame⟩
    · obtain ⟨u, hu, hsame⟩ := put_there s' hthere
      exact ⟨u, hu, by rw [List.mem_singleton.mp hd, hsame, hentry]⟩
  · intro t ht
    rcases mem_put ht with rfl | ⟨ht, hother⟩
    · obtain ⟨steps', hreads', hbacked⟩ := h.backed s hthere
      rw [hid, hprocess]
      refine ⟨steps', hreads', ?_⟩
      by_cases haction : e.action = Verdict.approve.name
      · obtain rfl := hreads'.unique (hreads haction)
        rw [consents_enter_approve hentry haction]
        exact hbacked.approve hturns hstep haction hmade
      · -- Steps were read for a consent only, so that those of the turn may be any.
        rw [consents_enter_other (.inr haction)]
        exact hbacked.undecided hturns haction
    · rw [consents_enter_other (.inl fun hsame => hother (hsame.symm.trans (hentry.trans hid.symm)))]
      exact h.backed t ht

theorem execute (h : R.Trailed made) {s : Standing} (c : StageChange) (hthere : s ∈ R.standings)
    (executed : Bool) : Trailed made ((R.put { s with executed := executed }).tell c) where
  known d hd := by
    obtain ⟨t, ht, hid⟩ := h.known d hd
    obtain ⟨u, hu, hsame⟩ := put_there { s with executed := executed } ht
    exact ⟨u, hu, hsame.trans hid⟩
  backed t ht := by
    rcases mem_put ht with rfl | ⟨ht, -⟩
    · obtain ⟨steps, hreads, hbacked⟩ := h.backed s hthere
      exact ⟨steps, hreads, hbacked.made, hbacked.inOrder, hbacked.complete, hbacked.reached⟩
    · exact h.backed t ht

theorem turn (h : R.Trailed made) (hturn : Turn allowed high R S)
    (hmade : ∀ s e, s.status = .pending → e.approval = s.id → e.step = s.step →
      allowed.approves s e → made e) : S.Trailed made := by
  cases hturn with
  | define b => exact ⟨h.known, h.backed⟩
  | create p hallowed =>
    refine ⟨h.known, fun s hs => ?_⟩
    obtain ⟨steps, hreads, hbacked⟩ := h.backed s hs
    exact ⟨steps, hreads.create p, hbacked⟩
  | submit s e hnew hgiven hreads hsteps hpending hstart huntouched hentry haction =>
    exact h.submit hnew hreads hsteps hpending hstart hentry haction
  | decide hthere hreads hentry hstep hturns =>
    exact h.decide hthere hreads hentry hstep hturns fun hpending hallowed =>
      hmade _ _ hpending hentry hstep hallowed
  | move c hfree hunbound => exact ⟨h.known, h.backed⟩
  | execute c hthere happroved huntouched hbound hnamed => exact h.execute c hthere true

end Register.Trailed

/-! ## Sessions -/

/-- An entry was made by a command of a session, by an approver of the step at which the approval
stood then. -/
def ApprovalEntry.MadeIn (w : World) (session : List Command) (e : ApprovalEntry) : Prop :=
  ∃ before r overtaken a, before ++ [.act e.approval r overtaken] <+: session
    ∧ (w.afterAll before).tables.approvals.find? (fun a => a.id = e.approval) = some a
    ∧ a.status = .pending ∧ a.step = e.step ∧ r.verdict = .approve
    ∧ a.isApprover r.actorId r.actorRole = .ok true ∧ e.actor = some r.actorId ∧ e.comment = r.comment

def ApprovalProcess.CreatedIn (w : World) (session : List Command) (d : ProcessDraft)
    (p : ApprovalProcess) : Prop :=
  ∃ before actor v, before ++ [.createProcess d actor] <+: session
    ∧ d.create actor (w.afterAll before) = .ok p v

theorem ApprovalEntry.MadeIn.append {w : World} {session : List Command} {e : ApprovalEntry}
    (h : e.MadeIn w session) (c : Command) : e.MadeIn w (session ++ [c]) := by
  obtain ⟨before, r, overtaken, a, hstart, h⟩ := h
  exact ⟨before, r, overtaken, a, hstart.trans (List.prefix_append session [c]), h⟩

theorem ApprovalProcess.CreatedIn.append {w : World} {session : List Command} {d : ProcessDraft}
    {p : ApprovalProcess} (h : p.CreatedIn w session d) (c : Command) :
    p.CreatedIn w (session ++ [c]) d := by
  obtain ⟨before, actor, v, hstart, h⟩ := h
  exact ⟨before, actor, v, hstart.trans (List.prefix_append session [c]), h⟩

/-- A process keeps the steps of its draft in written form. -/
theorem ProcessDraft.create_steps (d : ProcessDraft) (actor : String) (w : World) :
    Ends (d.create actor) w (fun p _ => p.steps = .list (d.steps.map ApprovalStep.encode))
      fun _ _ => True := by
  refine (insert_ends _ w).bind (fun _ _ _ => trivial) fun p v _ hp => ?_
  rw [hp.1]
  exact Ends.any.bind (fun _ _ h => h) fun _ _ _ _ => .pure rfl

theorem ApprovalProcess.CreatedIn.steps {w : World} {session : List Command} {d : ProcessDraft}
    {p : ApprovalProcess} (h : p.CreatedIn w session d) {steps : List ApprovalStep}
    (hsteps : storedApprovalSteps p.steps = .valid steps) : steps = d.steps := by
  obtain ⟨before, actor, v, -, hcreate⟩ := h
  rw [(d.create_steps actor _).ok_of hcreate] at hsteps
  exact storedApprovalSteps_encode hsteps

structure Register.TrailedIn (w : World) (session : List Command) (R : Register) : Prop where
  created : ∀ p ∈ R.processes, ∃ d, p.CreatedIn w session d
  trailed : R.Trailed fun e => e.MadeIn w session

theorem Register.TrailedIn.append {w : World} {session : List Command} {R : Register}
    (h : R.TrailedIn w session) (c : Command) : R.TrailedIn w (session ++ [c]) where
  created p hp := by
    obtain ⟨d, hd⟩ := h.created p hp
    exact ⟨d, hd.append c⟩
  trailed := h.trailed.mono fun _ he => he.append c

/-- A turn of a command is by what the command itself created and approved. -/
theorem Register.TrailedIn.turn {w : World} {before : List Command} {c : Command} {high : Nat}
    {R S : Register} (h : R.TrailedIn w (before ++ [c]))
    (hturn : Turn (c.licence (w.afterAll before)) high R S) : S.TrailedIn w (before ++ [c]) where
  created p hp := by
    cases hturn with
    | create q hallowed =>
      rcases List.mem_append.mp hp with hp | hp
      · exact h.created p hp
      · obtain ⟨d, actor, v, rfl, hcreate⟩ := hallowed
        rw [List.mem_singleton.mp hp]
        exact ⟨d, before, actor, v, List.prefix_refl _, hcreate⟩
    | define | submit | decide | move | execute => exact h.created p hp
  trailed := h.trailed.turn hturn fun s e hpending hentry hstep hallowed => by
    obtain ⟨r, overtaken, a, rfl, ha, rfl, hverdict, happrover, hactor, hcomment⟩ := hallowed
    have hid : e.approval = a.id := hentry
    exact ⟨before, r, overtaken, a, by rw [hid]; exact List.prefix_refl _, by rw [hid]; exact ha,
      hpending, hstep.symm, hverdict, happrover, hactor, hcomment⟩

theorem World.IsNew.trailedIn {w : World} (hw : w.IsNew) : w.tables.register.TrailedIn w [] where
  created := by
    rw [hw.1]
    exact nofun
  trailed := by
    rw [hw.1]
    exact ⟨nofun, nofun⟩

theorem World.IsNew.trailedIn_afterAll {w : World} (hw : w.IsNew) (session : List Command) :
    (w.afterAll session).tables.register.TrailedIn w session :=
  World.afterAll_keeps hw.sound session hw.trailedIn (fun _ c _ h => h.append c)
    fun _ _ _ _ _ _ _ hturn h => h.turn hturn

/-- The process of an approval was created from a draft, and its consents are about all the steps of
the draft, in their order; each was made by an approver of its step, with a comment if it needs one. -/
structure Approval.ConsentedIn (w : World) (session : List Command) (d : ProcessDraft)
    (a : Approval) : Prop where
  process : ∃ p, (w.afterAll session).tables.processes.find? (fun p => p.id = a.process) = some p
    ∧ p.CreatedIn w session d
  inOrder : ((w.afterAll session).tables.register.consents a.id).map ApprovalEntry.step
    = stepsUpTo d.steps.length
  made : ∀ e ∈ (w.afterAll session).tables.register.consents a.id,
    e.MadeIn w session ∧ e.IsExplained d.steps

/-- What was approved in a session was approved at each step, by those who were asked. -/
theorem World.afterAll_consented {w : World} (hw : w.IsNew) (session : List Command) (a : Approval)
    (ha : a ∈ (w.afterAll session).tables.approvals) (happroved : a.status = .approved) :
    ∃ d, a.ConsentedIn w session d := by
  have htrail := hw.trailedIn_afterAll session
  obtain ⟨steps, ⟨p, hp, hsteps⟩, hbacked⟩ := htrail.trailed.backed a.standing (List.mem_map_of_mem ha)
  obtain ⟨d, hd⟩ := htrail.created p (List.mem_of_find?_eq_some hp)
  obtain rfl := hd.steps hsteps
  refine ⟨d, ⟨p, hp, hd⟩, ?_, hbacked.made⟩
  rw [← hbacked.complete happroved]
  exact hbacked.inOrder

def twoDesks : ProcessDraft where
  name := "desks"
  module := none
  isEnabled := true
  steps := [⟨.user, some "ann", none, false, none⟩, ⟨.user, some "bob", none, true, none⟩]
  onApprove := []
  onReject := []

def approvedAtBoth : List Command :=
  let id := TableName.approval.rowId 1
  [.createProcess twoDesks "admin",
   .errand (.create ⟨.str "deals", .null, .null, .null, .obj [], .null⟩),
   .submit (TableName.process.rowId 1) (TableName.record.rowId 1) none [],
   .act id ⟨.approve, "ann", none, none⟩ false,
   .act id ⟨.approve, "bob", none, some "fine"⟩ false]

set_option maxRecDepth 10000 in
theorem approvedAtBoth_approved : (World.fresh.afterAll approvedAtBoth).tables.approvals.any
    (fun a => decide (a.status = .approved)) = true := by
  decide +kernel

theorem World.afterAll_consented_desks : World.fresh.IsNew ∧
    ∃ a ∈ (World.fresh.afterAll approvedAtBoth).tables.approvals, a.status = .approved
      ∧ ∃ d, a.ConsentedIn World.fresh approvedAtBoth d := by
  obtain ⟨a, ha, hstatus⟩ := List.any_eq_true.mp approvedAtBoth_approved
  have happroved := of_decide_eq_true hstatus
  exact ⟨World.fresh_isNew, a, ha, happroved,
    World.afterAll_consented World.fresh_isNew approvedAtBoth a ha happroved⟩

end RecordFlow
