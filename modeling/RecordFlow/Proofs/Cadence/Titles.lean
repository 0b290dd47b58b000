import RecordFlow.Action.Perform
import RecordFlow.Cadence.Step
import RecordFlow.Proofs.Action.Incidental
import RecordFlow.Proofs.Record.Context

/-! # Titles of steps

A task or a call without a title of its own is named after the record. Some words and the title of
the record make up a template, which the action then renders. The words stay as they are, for they
hold no brace. The title of the record stays as it is if no placeholder starts in it; else it comes
out as it would as a template.
-/
namespace RecordFlow
open RecordFlow.Flow

namespace Template

/-- Text without a brace stays as it is before a template. -/
theorem renderFrom_append (context : Value) {words : List Char} (h : '\x7b' ∉ words)
    (cs : List Char) :
    renderFrom context 0 (words ++ cs) = (words ++ ·) <$> renderFrom context 0 cs := by
  induction words with
  | nil => cases h : renderFrom context 0 cs <;> simp [h]
  | cons c rest ih =>
    obtain ⟨hc, hrest⟩ := not_or.mp (mt List.mem_cons.mpr h)
    have hnone : placeholder? (c :: (rest ++ cs)) = none := by
      unfold placeholder?
      split
      · next h => exact absurd (List.cons.inj h).1.symm hc
      · rfl
    rw [List.cons_append, renderFrom, hnone, ih hrest]
    cases renderFrom context 0 cs <;> rfl

theorem render_append (context : Value) {words : String} (h : '\x7b' ∉ words.toList) (s : String) :
    render context (words ++ s) = (words ++ ·) <$> render context s := by
  unfold render
  rw [String.toList_append, renderFrom_append context h]
  cases renderFrom context 0 s.toList with
  | error cause => rfl
  | ok cs => exact congrArg Except.ok (by simp)

end Template

namespace Record.ChildDraft

theorem title_of_child {d : ChildDraft} {record id : Uuid} {child : Child} {title : String}
    (htitle : d.title = .str title) (h : d.child record id = .ok child) :
    child.title = some title := by
  unfold ChildDraft.child at h
  rw [htitle] at h
  simp only [Cell.text, bind, Except.bind, pure, Except.pure] at h
  repeat' split at h
  all_goals cases h
  rfl

end Record.ChildDraft

namespace Action

def AddsTitled (title : String) (w v : World) : Prop :=
  ∃ child : Child, v.tables.children = w.tables.children ++ [child] ∧ child.title = some title

theorem addChild_titled {d : Record.ChildDraft} {title : String} (htitle : d.title = .str title)
    {f : Frame} (hdry : f.context.isDry = false) :
    Yields (addChild d) f fun _ g => AddsTitled title f.world g.world := by
  unfold addChild
  refine .step rfl ?_
  simp only [hdry, Bool.false_eq_true, if_false]
  refine (Yields.lift (insertTaken_ends _ _ _).yields).bind fun child g hg => .pure ?_
  obtain ⟨⟨hchild, hv⟩, -⟩ := hg
  refine ⟨child, ?_, Record.ChildDraft.title_of_child htitle hchild⟩
  rw [hv]
  rfl

theorem looked {α : Type} {part : Flow α} {f : Frame} (h : Looks part) :
    Yields (liftM part : Scoped α) f fun _ g => g = f :=
  (Yields.lift (h f.world).yields).mono fun _ g hg => by
    obtain ⟨hw, hc⟩ := hg
    cases g
    simp only at hw hc
    rw [← hw, hc]

variable {f : Frame}

theorem createTask_titled (d : TaskDraft) (hdry : f.context.isDry = false) :
    Yields (createTask d) f fun _ g => ∃ title,
      Template.render f.context.record.context d.title = .ok title
      ∧ AddsTitled title f.world g.world := by
  unfold createTask
  refine .step rfl (Yields.readable.bind ?_)
  rintro title g ⟨rfl, htitle⟩
  refine Yields.readable.bind ?_
  rintro body g ⟨rfl, -⟩
  refine Yields.readable.bind ?_
  rintro assignedTo g ⟨rfl, -⟩
  refine (looked .moment).bind ?_
  rintro t g rfl
  refine (looked (.inTime anyCause _)).bind ?_
  rintro due g rfl
  exact (addChild_titled rfl hdry).mono fun _ _ h => ⟨title, htitle, h⟩

theorem createActivity_titled (d : ActivityDraft) (hdry : f.context.isDry = false) :
    Yields (createActivity d) f fun _ g => ∃ title,
      Template.render f.context.record.context d.title = .ok title
      ∧ AddsTitled title f.world g.world := by
  unfold createActivity
  refine .step rfl ((looked .moment).bind ?_)
  rintro t g rfl
  refine (looked (.inTime anyCause _)).bind ?_
  rintro due g rfl
  refine Yields.readable.bind ?_
  rintro title g ⟨rfl, htitle⟩
  refine Yields.readable.bind ?_
  rintro body g ⟨rfl, -⟩
  refine Yields.readable.bind ?_
  rintro assignedTo g ⟨rfl, -⟩
  exact (addChild_titled rfl hdry).mono fun _ _ h => ⟨title, htitle, h⟩

end Action

namespace CadenceStep
variable {s : CadenceStep} {f : Frame} {words : String}

/-- The words before the label of the record, where a step is given no title. -/
def words? : StepKind → Option String
  | .task => some "Follow up: "
  | .call => some "Call: "
  | .email => none

theorem words_noBrace {kind : StepKind} (h : words? kind = some words) : '\x7b' ∉ words.toList := by
  cases kind with
  | task => cases h; decide
  | call => cases h; decide
  | email => cases h

theorem label_of_title {r : Record} {t : String} (htitle : r.title = .str t) (ht : t ≠ "") :
    label r = t := by
  unfold label
  rw [htitle]
  simp [Value.orElse, Value.isFalsy, ht, Value.text]

theorem givenOr_of_missing {given : Option String} (h : ∀ t ∈ given, t = "") (fallback : String) :
    givenOr given fallback = fallback := by
  cases given with
  | none => rfl
  | some t => simp [givenOr, h t rfl]

/-- A task or a call that is given no title adds a child whose title is the words and what becomes
of the label of the record as a template. -/
theorem carryOut_titled (react : Reaction) (settings : Settings)
    (hwords : words? s.kind = some words) (hgiven : ∀ t ∈ s.title, t = "")
    (hdry : f.context.isDry = false) :
    Yields (Action.carryOut react (s.action f.context.record settings)) f fun _ g => ∃ rendered,
      Template.render f.context.record.context (label f.context.record) = .ok rendered
      ∧ Action.AddsTitled (words ++ rendered) f.world g.world := by
  have hrender {title : String} (h : Template.render f.context.record.context
      (givenOr s.title (words ++ label f.context.record)) = .ok title) :
      ∃ rendered, Template.render f.context.record.context (label f.context.record) = .ok rendered
        ∧ words ++ rendered = title := by
    rw [givenOr_of_missing hgiven, Template.render_append _ (words_noBrace hwords)] at h
    cases hlabel : Template.render f.context.record.context (label f.context.record) with
    | error cause => rw [hlabel] at h; cases h
    | ok rendered => rw [hlabel] at h; exact ⟨rendered, rfl, Except.ok.inj h⟩
  cases hkind : s.kind with
  | task =>
    rw [hkind] at hwords
    cases hwords
    simp only [action, hkind, Action.carryOut]
    refine (Action.createTask_titled _ hdry).mono fun _ g ⟨title, htitle, hadds⟩ => ?_
    obtain ⟨rendered, hrendered, rfl⟩ := hrender htitle
    exact ⟨rendered, hrendered, hadds⟩
  | call =>
    rw [hkind] at hwords
    cases hwords
    simp only [action, hkind, Action.carryOut]
    refine (Action.createActivity_titled _ hdry).mono fun _ g ⟨title, htitle, hadds⟩ => ?_
    obtain ⟨rendered, hrendered, rfl⟩ := hrender htitle
    exact ⟨rendered, hrendered, hadds⟩
  | email =>
    rw [hkind] at hwords
    cases hwords

/-- The title of the record is kept character for character if no placeholder starts in it. -/
theorem carryOut_titled_of_plain (react : Reaction) (settings : Settings)
    (hwords : words? s.kind = some words) (hgiven : ∀ t ∈ s.title, t = "")
    (hdry : f.context.isDry = false) {title : String} (htitle : f.context.record.title = .str title)
    (hnonempty : title ≠ "") (hplain : Template.IsPlain title) :
    Yields (Action.carryOut react (s.action f.context.record settings)) f fun _ g =>
      Action.AddsTitled (words ++ title) f.world g.world := by
  refine (carryOut_titled react settings hwords hgiven hdry).mono ?_
  rintro _ g ⟨rendered, hrendered, hadds⟩
  rw [label_of_title htitle hnonempty, Template.render_plain _ hplain] at hrendered
  cases hrendered
  exact hadds

example : Template.render (.obj [("stage", .str "won")]) "Call: Deal \x7b\x7bstage\x7d\x7d"
    = .ok "Call: Deal won" := by rfl

end CadenceStep

end RecordFlow
