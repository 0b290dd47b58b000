import Mathlib.Data.List.Nodup
import Mathlib.Logic.Relation
import RecordFlow.Proofs.Approval.Filing
import RecordFlow.Proofs.Run.Upheld

/-! # The course of approvals

A run does not touch blueprints, moves and approvals, whatever its context is, whatever its actions do
and whatever they trigger. This holds as well of all that happens beside runs.

Approvals, their entries and the history of moves change by turns of a few kinds. What an operation
does to them is a sequence of such turns, however it ends; versions and approvers do not matter here.
-/
namespace RecordFlow
open RecordFlow.Flow
variable {α β : Type}

/-! ## What runs leave alone -/

/-- Where an approval stands; who may decide on it and how often it was written to is left out. -/
structure Standing where
  id : Uuid
  process : Uuid
  record : Uuid
  status : ApprovalStatus
  step : Int
  context : Value
  executed : Bool

def Approval.standing (a : Approval) : Standing :=
  ⟨a.id, a.process, a.record, a.status, a.step, a.context, a.executed⟩

structure Register where
  blueprints : List StoredBlueprint
  stageChanges : List StageChange
  processes : List ApprovalProcess
  standings : List Standing
  entries : List ApprovalEntry

def Ledger.register (l : Ledger) : Register :=
  ⟨l.blueprints, l.stageChanges, l.processes, l.approvals.map Approval.standing, l.entries⟩

def Tables.register (t : Tables) : Register := t.ledger.register

structure World.Filed (w : World) : Prop where
  runs : w.saved.runs = w.tables.runs
  register : w.saved.register = w.tables.register
  free : w.RunsFree

theorem World.Settled.filed {w : World} (hw : w.Settled) : w.Filed :=
  ⟨hw.saved, congrArg Ledger.register hw.ledger, hw.free⟩

structure Spared (w v : World) : Prop where
  filed : v.Filed
  register : v.tables.register = w.tables.register
  numbers : ∀ t, w.nextNumber t ≤ v.nextNumber t

def Spares (w v : World) : Prop := w.Filed → Spared w v

instance : IsPreorder World Spares where
  refl w hw := ⟨hw, rfl, fun _ => Nat.le_refl _⟩
  trans w v u h h' hw := by
    have hv := h hw
    have hu := h' hv.filed
    exact ⟨hu.filed, hu.register.trans hv.register,
      fun t => Nat.le_trans (hv.numbers t) (hu.numbers t)⟩

abbrev Sparing (part : Flow α) : Prop := Upholds Spares part

theorem Beside.spares {writes : Bool} {w v : World} (h : Beside writes w v) : Spares w v :=
  fun hw => by
    have hregister : v.tables.register = w.tables.register := congrArg Ledger.register h.ledger
    exact ⟨⟨by rw [h.saved, h.runs, hw.runs], by rw [h.saved, hregister, hw.register],
      hw.free.beside h⟩, hregister, h.numbers⟩

/-- What matters is only in the tables and in the numbers. -/
theorem spares_of_tables {w v : World} (htables : v.tables = w.tables) (hsaved : v.saved = w.saved)
    (hnumbers : v.numbers = w.numbers) : Spares w v := fun hw => by
  have hnext := World.nextNumber_congr hnumbers
  refine ⟨⟨?_, ?_, fun n hn r hr => ?_⟩, by rw [htables], fun t => Nat.le_of_eq (hnext t).symm⟩
  · rw [hsaved, htables, hw.runs]
  · rw [hsaved, htables, hw.register]
  · exact hw.free n (hnext .run ▸ hn) r (htables ▸ hr)

instance : Lenient Spares where
  numbered w t := (Lenient.numbered w t : Beside true w _).spares
  unstored _ _ h _ := spares_of_tables h.tables h.saved h.numbers

instance {ρ : Type} [Stored ρ] [Indifferent (Beside true) ρ] : Indifferent Spares ρ where
  setRows rows w := (Indifferent.setRows rows w : Beside true w _).spares

instance : Timeless Spares where
  adjusts _ _ _ _ _ _ := spares_of_tables rfl rfl rfl

theorem spares_committed (w : World) : Spares w w.committed := fun hw =>
  ⟨⟨rfl, rfl, hw.free⟩, rfl, fun _ => Nat.le_refl _⟩

theorem spares_rolledBack (w : World) : Spares w w.rolledBack := fun hw =>
  ⟨⟨rfl, rfl, fun n hn r hr => hw.free n hn r (hw.runs ▸ hr)⟩, hw.register, fun _ => Nat.le_refl _⟩

instance : Undoes World.rolledBack Spares where
  undone := spares_rolledBack

theorem Run.RowSaved.spares {id : Uuid} {change : Run → Run} {w v : World}
    {notes : List AuditEntry} (h : RowSaved id change w v notes)
    (hchange : ∀ r, (change r).id = r.id) : Spares w v :=
  fun hw => ⟨(h.settled hchange hw.free).filed, by rw [h.rows]; rfl, fun t => by
    rw [World.nextNumber.eq_def v, h.numbers]
    exact Nat.le_refl _⟩

theorem Run.sparing_openRun (c : Context) : Sparing (openRun c) := fun w => by
  have ends := openRun_ends c w
  refine ends.mono (fun row v h hw => ?_) fun e v h => ?_
  · have hworld := h.world
    refine ⟨(h.settled hw.free).filed, by rw [hworld]; rfl, fun t => ?_⟩
    rw [hworld]
    exact w.nextNumber_le_useNumber .run t
  · exact trans_of Spares h.2.spares (spares_rolledBack v)

instance : Tolerant Spares where
  records := inferInstance
  children := inferInstance
  cooldowns := inferInstance
  rules := inferInstance
  messages := inferInstance
  cadences := inferInstance
  workflows := ⟨fun _ _ hw =>
    ⟨⟨hw.runs, hw.register, hw.free⟩, rfl, fun _ => Nat.le_refl _⟩⟩
  outside _ _ h := spares_of_tables h.tables h.saved h.numbers
  amongst := amongst_of_tables fun _ _ => spares_of_tables
  commits := spares_committed
  undone := spares_rolledBack
  opens := Run.sparing_openRun
  savesRun w id change hchange := by
    have saved : Run.RowSaved id change w (w.saveRuns (Run.changeRow id change w.tables.runs)) [] :=
      ⟨rfl, rfl, rfl, (List.append_nil _).symm⟩
    exact saved.spares fun r => Run.id_of_head (hchange r)
  enrolls cadence record by_ := .of_keeps (incidental_enroll cadence record by_)
  unenrolls record cadence reason actor :=
    .of_keeps (incidental_unenroll record cadence reason actor)

/-! ## Turns -/

namespace Register

def put (R : Register) (s : Standing) : Register :=
  { R with standings := R.standings.map fun t => if t.id = s.id then s else t }

def enter (R : Register) (e : ApprovalEntry) : Register := { R with entries := R.entries ++ [e] }

def tell (R : Register) (c : StageChange) : Register :=
  { R with stageChanges := R.stageChanges ++ [c] }

def Reads (R : Register) (process : Uuid) (steps : List ApprovalStep) : Prop :=
  ∃ p, R.processes.find? (fun p => p.id = process) = some p
    ∧ storedApprovalSteps p.steps = .valid steps

end Register

def ApprovalEntry.IsExplained (steps : List ApprovalStep) (e : ApprovalEntry) : Prop :=
  ∀ s, itemAt? steps e.step = some s → s.requireComment = true →
    Text.strip (e.comment.getD "") ≠ ""

/-- What is allowed for a turn: which entries approve a step, and which processes are created. -/
structure Licence where
  approves : Standing → ApprovalEntry → Prop
  creates : ApprovalProcess → Prop

/-- How an approval goes on with an entry. Only a pending one is approved, step by step, and one
that is approved does not change any more. -/
inductive Standing.Turns (allowed : Licence) (steps : List ApprovalStep) (s : Standing)
    (e : ApprovalEntry) : Standing → Prop
  | approve (hpending : s.status = .pending) (haction : e.action = Verdict.approve.name)
      (hallowed : allowed.approves s e) (hcomment : e.IsExplained steps)
      (hnext : s.step + 1 < steps.length) : Turns allowed steps s e { s with step := s.step + 1 }
  | approveLast (hpending : s.status = .pending) (haction : e.action = Verdict.approve.name)
      (hallowed : allowed.approves s e) (hcomment : e.IsExplained steps)
      (hlast : (steps.length : Int) ≤ s.step + 1) :
      Turns allowed steps s e { s with status := .approved }
  | other (status : ApprovalStatus) (hundecided : s.status ≠ .approved)
      (hstatus : status ≠ .approved) (haction : e.action ≠ Verdict.approve.name) :
      Turns allowed steps s e { s with status := status }

def StageChange.IsFree (blueprints : List StoredBlueprint) (c : StageChange) : Prop :=
  ∃ row ∈ blueprints, row.id = c.blueprint ∧ ∃ b t, row.definition = .valid b
    ∧ b.findTransition (.ofOption c.fromStage) c.toStage = some t ∧ t.requiresApproval = false

def StageChange.IsBoundTo (s : Standing) (c : StageChange) : Prop :=
  ∃ about, s.context.mapping = .ok about ∧ Approval.aboutMove about = true
    ∧ Approval.sourceOf about = .ofOption c.fromStage ∧ Approval.targetOf about = c.toStage

/-- A change to the tables about moves and approvals; new approvals have numbers below `high`. -/
inductive Register.Turn (allowed : Licence) (high : Nat) (R : Register) : Register → Prop
  | define (b : StoredBlueprint) :
      Turn allowed high R { R with blueprints := R.blueprints ++ [b] }
  | create (p : ApprovalProcess) (hallowed : allowed.creates p) :
      Turn allowed high R { R with processes := R.processes ++ [p] }
  | submit (s : Standing) (e : ApprovalEntry) {steps : List ApprovalStep}
      (hnew : ∀ t ∈ R.standings, t.id ≠ s.id)
      (hgiven : ∃ n < high, s.id = TableName.approval.rowId n)
      (hreads : R.Reads s.process steps) (hsteps : steps ≠ []) (hpending : s.status = .pending)
      (hstart : s.step = 0) (huntouched : s.executed = false) (hentry : e.approval = s.id)
      (haction : e.action ≠ Verdict.approve.name) :
      Turn allowed high R
        { R with standings := R.standings ++ [s], entries := R.entries ++ [e] }
  | decide {s s' : Standing} {e : ApprovalEntry} {steps : List ApprovalStep}
      (hthere : s ∈ R.standings)
      (hreads : e.action = Verdict.approve.name → R.Reads s.process steps)
      (hentry : e.approval = s.id) (hstep : e.step = s.step) (hturns : s.Turns allowed steps e s') :
      Turn allowed high R ((R.put s').enter e)
  | move (c : StageChange) (hfree : c.IsFree R.blueprints) (hunbound : c.approval = none) :
      Turn allowed high R (R.tell c)
  | execute {s : Standing} (c : StageChange) (hthere : s ∈ R.standings)
      (happroved : s.status = .approved) (huntouched : s.executed = false)
      (hbound : c.IsBoundTo s) (hnamed : c.approval = some s.id) :
      Turn allowed high R ((R.put { s with executed := true }).tell c)

namespace Register
variable {allowed : Licence} {low high : Nat} {R S T : Register}

/-- An approval that is not approved is put into another such status, by an entry that approves no
step. -/
theorem Turn.revert {s : Standing} {e : ApprovalEntry} (status : ApprovalStatus)
    (hthere : s ∈ R.standings) (hundecided : s.status ≠ .approved) (hstatus : status ≠ .approved)
    (haction : e.action ≠ Verdict.approve.name) (hentry : e.approval = s.id)
    (hstep : e.step = s.step) :
    Turn allowed high R ((R.put { s with status := status }).enter e) := by
  have hturns : s.Turns allowed [] e { s with status := status } :=
    .other status hundecided hstatus haction
  exact .decide hthere (fun h => absurd h haction) hentry hstep hturns

theorem put_ids (R : Register) (s : Standing) :
    (R.put s).standings.map Standing.id = R.standings.map Standing.id := by
  refine ids_map fun t _ => ?_
  split
  · next h => exact h.symm
  · rfl

theorem put_there (s : Standing) {t : Standing} (ht : t ∈ R.standings) :
    ∃ u ∈ (R.put s).standings, u.id = t.id := by
  have hmem := List.mem_map_of_mem (f := Standing.id) ht
  rw [← put_ids R s] at hmem
  exact List.mem_map.mp hmem

theorem mem_put {s t : Standing} (ht : t ∈ (R.put s).standings) :
    t = s ∨ t ∈ R.standings ∧ t.id ≠ s.id := by
  obtain ⟨u, hu, rfl⟩ := List.mem_map.mp ht
  split
  · exact .inl rfl
  · next h => exact .inr ⟨hu, h⟩

abbrev Given (high : Nat) (R : Register) : Prop :=
  Numbered .approval high (R.standings.map Standing.id)

theorem Given.put (h : R.Given high) (s : Standing) : (R.put s).Given high := by
  rw [Given, put_ids]
  exact h

theorem Turn.given (h : Turn allowed high R S) (hR : R.Given high) : S.Given high := by
  cases h with
  | define b => exact ⟨hR.distinct, hR.given⟩
  | create p hp => exact ⟨hR.distinct, hR.given⟩
  | submit s e hnew hgiven hreads hsteps hpending hstart huntouched hentry haction =>
    exact hR.add hnew hgiven
  | decide hthere hreads hentry hstep hturns => exact ⟨(hR.put _).distinct, (hR.put _).given⟩
  | move c hfree hunbound => exact ⟨hR.distinct, hR.given⟩
  | execute c hthere happroved huntouched hbound hnamed =>
    exact ⟨(hR.put _).distinct, (hR.put _).given⟩

theorem Turn.mono (h : Turn allowed low R S) (hle : low ≤ high) : Turn allowed high R S := by
  cases h with
  | define b => exact .define b
  | create p hp => exact .create p hp
  | submit s e hnew hgiven hreads hsteps hpending hstart huntouched hentry haction =>
    obtain ⟨n, hn, hid⟩ := hgiven
    exact .submit s e hnew ⟨n, Nat.lt_of_lt_of_le hn hle, hid⟩ hreads hsteps hpending hstart
      huntouched hentry haction
  | decide hthere hreads hentry hstep hturns => exact .decide hthere hreads hentry hstep hturns
  | move c hfree hunbound => exact .move c hfree hunbound
  | execute c hthere happroved huntouched hbound hnamed =>
    exact .execute c hthere happroved huntouched hbound hnamed

def Turns (allowed : Licence) (high : Nat) : Register → Register → Prop :=
  Relation.ReflTransGen (Turn allowed high)

theorem Turns.mono (h : Turns allowed low R S) (hle : low ≤ high) : Turns allowed high R S := by
  have step : ∀ S T, Turn allowed low S T → Turn allowed high S T := fun _ _ h => h.mono hle
  exact Relation.ReflTransGen.mono step _ _ h

/-- What every turn keeps is kept by all of them. -/
theorem Turns.keep {P : Register → Prop} (h : Turns allowed high R S)
    (hkeep : ∀ S T, Turn allowed high S T → P S → P T) (hR : P R) : P S := by
  induction h with
  | refl => exact hR
  | tail _ hturn ih => exact hkeep _ _ hturn ih

end Register

/-- What an operation does to the tables about moves and approvals is a course of turns; all of it
is saved. -/
structure Course (allowed : Licence) (w v : World) : Prop where
  filed : v.Filed
  numbers : ∀ t, w.nextNumber t ≤ v.nextNumber t
  turns : Register.Turns allowed (v.nextNumber .approval) w.tables.register v.tables.register

namespace Course
variable {allowed : Licence} {w v u : World}

theorem refl (hw : w.Filed) : Course allowed w w := ⟨hw, fun _ => Nat.le_refl _, .refl⟩

theorem trans (h : Course allowed w v) (h' : Course allowed v u) : Course allowed w u where
  filed := h'.filed
  numbers t := Nat.le_trans (h.numbers t) (h'.numbers t)
  turns := (h.turns.mono (h'.numbers .approval)).trans h'.turns

theorem of_spared (h : Spared w v) : Course allowed w v where
  filed := h.filed
  numbers := h.numbers
  turns := by
    rw [h.register]
    exact .refl

/-- What happens to the rest of the world afterwards does not matter. -/
theorem rolledBack (h : Course allowed w v) : Course allowed w v.rolledBack :=
  h.trans (of_spared (spares_rolledBack v h.filed))

theorem committed (h : Course allowed w v) : Course allowed w v.committed :=
  h.trans (of_spared (spares_committed v h.filed))

end Course

/-! ## Parts of operations on approvals -/

theorem Filing.filed_committed {w v : World} (h : Filing w v) (hw : w.Filed) : v.committed.Filed :=
  ⟨rfl, rfl, h.runsFree hw.free⟩

/-- An operation on approvals that breaks off before anything is saved is undone. -/
theorem Filing.course_rolledBack {allowed : Licence} {w v : World} (h : Filing w v)
    (hw : w.Filed) : Course allowed w v.rolledBack := by
  refine .of_spared ⟨⟨rfl, rfl, fun n hn r hr => ?_⟩, ?_, h.numbers⟩
  · have hr : r ∈ w.tables.runs := by
      rw [← hw.runs, ← h.saved]
      exact hr
    exact hw.free n (Nat.le_trans (h.numbers .run) hn) r hr
  · exact (congrArg Tables.register h.saved).trans hw.register

def Writes (part : Flow α) (w : World) (ok : α → World → Prop) : Prop :=
  Ends part w (fun a v => Filing w v ∧ ok a v) fun _ v => Filing w v

namespace Writes
variable {x : Flow α} {y : α → Flow β} {w : World} {ok : α → World → Prop}
variable {next : β → World → Prop}

theorem of_files (hx : Files x) (h : ∀ a v, x w = .ok a v → ok a v) : Writes x w ok := by
  cases hr : x w with
  | ok a v => exact .of_ok hr ⟨hx.ok hr, h a v hr⟩
  | error e v => exact .of_error hr (hx.error hr).2

/-- A part that leaves approvals and moves alone. -/
theorem leaves (hx : Incidental (Beside false) x) :
    Writes x w fun _ v => v.tables.ledger = w.tables.ledger :=
  of_files hx.files fun _ _ hr => (hx.ok hr).ledger

theorem of_incidental (hx : Incidental (Beside false) x) :
    Writes x w fun _ v => v.tables.register = w.tables.register :=
  Ends.mono (leaves hx) (fun _ _ h => ⟨h.1, congrArg Ledger.register h.2⟩) fun _ _ h => h

theorem bind (hx : Writes x w ok)
    (hy : ∀ a v, x w = .ok a v → Filing w v → ok a v → Writes (y a) v next) :
    Writes (x >>= y) w next :=
  Ends.bind hx (fun _ _ hv => hv) fun a v hr hv =>
    Ends.mono (hy a v hr hv.1 hv.2) (fun _ _ hu => ⟨hv.1.trans hu.1, hu.2⟩)
      fun _ _ hu => hv.1.trans hu

theorem pure {a : α} (h : ok a w) : Writes (Pure.pure a) w ok := ⟨.refl w, h⟩

theorem look {ok : α → Prop} (hx : Ends x w (fun a v => v = w ∧ ok a) fun _ v => v = w)
    (hy : ∀ a, ok a → Writes (y a) w next) : Writes (x >>= y) w next := by
  refine Ends.bind hx (fun _ v h => ?_) fun a v _ h => ?_
  · rw [h]
    exact .refl w
  · obtain ⟨rfl, ha⟩ := h
    exact hy a ha

end Writes

/-! ## Courses of operations -/

/-- What was not saved yet does not matter where the register is as it was. -/
theorem Filing.course {allowed : Licence} {w v : World} (h : Filing w v) (hw : w.Filed)
    (hsame : v.tables.register = w.tables.register) : Course allowed w v := by
  refine .of_spared ⟨⟨?_, ?_, h.runsFree hw.free⟩, hsame, h.numbers⟩
  · rw [h.saved, h.runs, hw.runs]
  · rw [h.saved, hsame, hw.register]

/-- The rest of an operation, begun in one world and now in another, follows a course; if it fails,
what was saved does. -/
def Follows (allowed : Licence) (w : World) (rest : Flow α) (v : World) : Prop :=
  Ends rest v (fun _ u => Course allowed w u) fun _ u => Course allowed w u.rolledBack

namespace Follows
variable {allowed : Licence} {x : Flow α} {y : α → Flow β} {w v : World}

theorem pure {a : α} (h : Course allowed w v) : Follows allowed w (Pure.pure a) v := h

/-- From a world in which everything is saved the operation begins anew. -/
theorem anew (h : Course allowed w v) (hx : Follows allowed v x v) : Follows allowed w x v :=
  Ends.mono hx (fun _ _ hu => h.trans hu) fun _ _ hu => h.trans hu

theorem of_sparing (h : Course allowed w v) (hx : Sparing x) : Follows allowed w x v := by
  exact .anew h (Ends.mono (hx v) (fun _ _ hu => .of_spared (hu h.filed)) fun _ _ hu =>
    .of_spared (hu h.filed))

theorem bind (hx : Follows allowed w x v)
    (hy : ∀ a u, x v = .ok a u → Course allowed w u → Follows allowed w (y a) u) :
    Follows allowed w (x >>= y) v :=
  Ends.bind hx (fun _ _ h => h) fun a u hr h => hy a u hr h

theorem look {ok : α → Prop} (hv : Course allowed w v)
    (hx : Ends x v (fun a u => u = v ∧ ok a) fun _ u => u = v)
    (hy : ∀ a, ok a → Follows allowed w (y a) v) : Follows allowed w (x >>= y) v := by
  refine Ends.bind hx (fun _ u h => ?_) fun a u _ h => ?_
  · rw [h]
    exact hv.rolledBack
  · obtain ⟨rfl, ha⟩ := h
    exact hy a ha

theorem write {ok : α → World → Prop} (hw : w.Filed) (hf : Filing w v) (hx : Writes x v ok)
    (hy : ∀ a u, Filing w u → Filing v u → ok a u → Follows allowed w (y a) u) :
    Follows allowed w (x >>= y) v :=
  Ends.bind hx (fun _ _ h => (hf.trans h).course_rolledBack hw) fun a u _ h =>
    hy a u (hf.trans h.1) h.1 h.2

theorem save {rest : Unit → Flow α} (hw : w.Filed) (hf : Filing w v)
    (hturns : Register.Turns allowed (v.nextNumber .approval) w.tables.register v.tables.register)
    (hrest : Course allowed w v.committed → Follows allowed w (rest ()) v.committed) :
    Follows allowed w (commit >>= rest) v :=
  Ends.step (a := ()) (t := v.committed) rfl
    (hrest ⟨hf.filed_committed hw, hf.numbers, hturns⟩)

end Follows

end RecordFlow
