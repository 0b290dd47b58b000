import RecordFlow.Proofs.Assignment.Rotation

/-! # A rule that weighs loads

The load of a user is the number of open records of that user, in the module of the rule if it has
one. Such a rule names the first of the candidates that have the least load. It only looks at the
records, so that it always names somebody, and everything stays as it is.
-/
namespace RecordFlow
open RecordFlow.Flow

theorem mapM_eq {α β : Type} {f : α → Flow β} {g : α → β} {w : World}
    (h : ∀ a, f a w = .ok (g a) w) (items : List α) : items.mapM f w = .ok (items.map g) w := by
  induction items with
  | nil => rfl
  | cons a rest ih =>
    rw [List.mapM_cons, bind_ok (h a), bind_ok ih]
    rfl

namespace AssignmentRule
variable {r : AssignmentRule} {cs : List Candidate}

def scope (r : AssignmentRule) : Option String := r.module.filter (!·.isEmpty)

/-- How many open records a user has, of those that a rule counts. -/
def load (r : AssignmentRule) (rows : List StoredRecord) (user : String) : Nat :=
  rows.countP (Record.isOpenOf (some user) r.scope)

structure Weighs (r : AssignmentRule) (cs : List Candidate) : Prop where
  strategy : Strategy.ofName? r.strategy = some .leastLoaded
  reads : ∃ items, r.candidates.items = .ok items ∧ readCandidates items = .valid cs
  nonempty : cs ≠ []

/-- The first of the candidates with the least load is named: those before have more to do, and those
after at least as much. -/
def NamesLightest (r : AssignmentRule) (cs : List Candidate) (rows : List StoredRecord)
    (d : Decision) : Prop :=
  ∃ before c after, cs = before ++ c :: after ∧ d.owner = some c.userId
    ∧ (∀ b ∈ before, r.load rows c.userId < r.load rows b.userId)
    ∧ ∀ a ∈ after, r.load rows c.userId ≤ r.load rows a.userId

theorem countOpen_eq (r : AssignmentRule) (user : String) (w : World) :
    Record.countOpen (.str user) (.ofOption r.module) w
      = .ok (r.load w.tables.records user) w := by
  have hscope : taken (Cell.text ((Value.ofOption r.module).orElse .null)) w = .ok r.scope w := by
    unfold scope
    cases r.module with
    | none => rfl
    | some m =>
      by_cases hm : m = ""
      · subst hm
        rfl
      · have hgiven : m.isEmpty = false := by simpa using hm
        simp only [Value.ofOption, Value.orElse, Value.isFalsy, hgiven, Option.filter,
          Bool.not_false, if_true, Bool.false_eq_true, if_false]
        rfl
  have howner : taken (Cell.text (.str user)) w = .ok (some user) w := rfl
  unfold Record.countOpen
  rw [bind_ok howner, bind_ok hscope, load, List.countP_eq_length_filter]
  rfl

theorem leastOf_eq {loads : List (Nat × String)} (h : loads ≠ []) :
    ∃ before least after, loads = before ++ least :: after ∧ leastOf loads = some least
      ∧ (∀ b ∈ before, least.1 < b.1) ∧ ∀ a ∈ after, least.1 ≤ a.1 := by
  induction loads with
  | nil => exact absurd rfl h
  | cons first rest ih =>
    obtain ⟨load, user⟩ := first
    cases rest with
    | nil => exact ⟨[], (load, user), [], rfl, rfl, by simp, by simp⟩
    | cons second rest =>
      obtain ⟨before, least, after, hrest, hleast, hbefore, hafter⟩ := ih (by simp)
      rw [leastOf, hleast]
      by_cases hlt : least.1 < load
      · refine ⟨(load, user) :: before, least, after, by rw [hrest]; rfl, by simp [hlt], ?_, hafter⟩
        intro b hb
        rcases List.mem_cons.mp hb with rfl | hb
        · exact hlt
        · exact hbefore b hb
      · refine ⟨[], (load, user), second :: rest, rfl, by simp [hlt], by simp, ?_⟩
        have hle : load ≤ least.1 := not_lt.mp hlt
        intro a ha
        rw [hrest] at ha
        rcases List.mem_append.mp ha with ha | ha
        · exact hle.trans (hbefore a ha).le
        · rcases List.mem_cons.mp ha with rfl | ha
          · exact hle
          · exact hle.trans (hafter a ha)

theorem leastLoaded_eq (hcs : cs ≠ []) (r : AssignmentRule) (w : World) : ∃ d,
    r.leastLoaded cs w = .ok d w ∧ r.NamesLightest cs w.tables.records d := by
  let weigh (c : Candidate) : Nat × String := (r.load w.tables.records c.userId, c.userId)
  have hweigh (c : Candidate) : (do
      return ((← Record.countOpen (.str c.userId) (.ofOption r.module)), c.userId) : Flow _) w
        = .ok (weigh c) w := by
    rw [bind_ok (countOpen_eq r c.userId w)]
    rfl
  have hsome : cs.map weigh ≠ [] := by simpa using hcs
  obtain ⟨before, least, after, hloads, hleast, hbefore, hafter⟩ := leastOf_eq hsome
  obtain ⟨before, others, rfl, rfl, hothers⟩ := List.map_eq_append_iff.mp hloads
  obtain ⟨c, after, rfl, rfl, rfl⟩ := List.map_eq_cons_iff.mp hothers
  refine ⟨.chosen c.userId s!"least_loaded:{(weigh c).1}", ?_, before, c, after, rfl, rfl, ?_, ?_⟩
  · unfold leastLoaded
    rw [bind_ok (mapM_eq hweigh _), hleast]
    rfl
  · intro b hb
    exact hbefore _ (List.mem_map_of_mem hb)
  · intro a ha
    exact hafter _ (List.mem_map_of_mem ha)

/-- An enabled rule that weighs loads names the first candidate with the least load, whatever records
there are. -/
theorem resolve_weighing (hr : r.Weighs cs) (henabled : r.isEnabled = true) {w : World}
    (hfound : w.tables.rules.find? (·.id = r.id) = some r) (record : Record) (advance : Bool) :
    ∃ d v, resolveAssignment r.id record advance w = .ok d v ∧ v.tables = w.tables
      ∧ r.NamesLightest cs w.tables.records d := by
  obtain ⟨items, hitems, hread⟩ := hr.reads
  have hitems' : shaped r.candidates.items w = .ok items w := by rw [hitems]; rfl
  have hread' : valid (readCandidates items) w = .ok cs w := by rw [hread]; rfl
  obtain ⟨d, hd, hlightest⟩ := leastLoaded_eq hr.nonempty r w
  have happly : r.apply record advance w = .ok d w := by
    unfold apply
    rw [bind_ok hitems', bind_ok hread', hr.strategy]
    exact hd
  obtain ⟨v, hv, htables, -⟩ := conclude_eq r d w
  refine ⟨r.decided d, v, ?_, htables, hlightest⟩
  rw [resolve_enabled hfound henabled, bind_ok happly, hv]

/-- A rule that is not enabled names nobody. -/
theorem resolve_disabled {w : World} (hfound : w.tables.rules.find? (·.id = r.id) = some r)
    (hdisabled : r.isEnabled = false) (record : Record) (advance : Bool) :
    ∃ d v, resolveAssignment r.id record advance w = .ok d v ∧ d.owner = none := by
  unfold resolveAssignment
  rw [bind_ok (find?_eq r.id w), show (Stored.rows w.tables).find?
    (fun x : AssignmentRule => Stored.id x = r.id) = some r from hfound]
  simp only [hdisabled, Bool.not_false, if_true]
  exact ⟨_, _, rfl, rfl⟩

theorem enabled_of_names {w v : World} (hfound : w.tables.rules.find? (·.id = r.id) = some r)
    {record : Record} {advance : Bool} {d : Decision} {owner : String}
    (hresolved : resolveAssignment r.id record advance w = .ok d v) (hnames : d.owner = some owner) :
    r.isEnabled = true := by
  cases henabled : r.isEnabled with
  | true => rfl
  | false =>
    obtain ⟨d', v', hresolved', hnobody⟩ := resolve_disabled hfound henabled record advance
    obtain ⟨rfl, -⟩ := EStateM.Result.ok.inj (hresolved.symm.trans hresolved')
    rw [hnobody] at hnames
    cases hnames

end AssignmentRule

end RecordFlow
