import RecordFlow.Assignment.Resolve
import RecordFlow.Proofs.Store.Rows

/-! # A rule that rotates

Whose turn it is, and what is left of the rule after so many turns. To resolve such a rule is to
look at it and to pass the turn on, both of them again where somebody else passed it on in between.
-/
namespace RecordFlow
open RecordFlow.Flow

theorem find?_overwrite {ρ : Type} [Stored ρ] {rows : List ρ} {id : Uuid} {old row : ρ}
    (h : rows.find? (fun r => Stored.id r = id) = some old) (hid : Stored.id row = id) :
    (rows.map (overwrite row)).find? (fun r => Stored.id r = id) = some row := by
  have hsame : (fun r : ρ => decide (Stored.id r = id)) ∘ overwrite row
      = fun r => decide (Stored.id r = id) := by
    funext r
    simp only [Function.comp_apply, id_overwrite]
  rw [List.find?_map, hsame, h, Option.map_some, overwrite_of_eq ((id_of_find? h).trans hid.symm)]

namespace AssignmentRule
variable {r : AssignmentRule} {cs : List Candidate}

def rotating? (r : AssignmentRule) : Option (List Candidate) :=
  if r.isEnabled = true ∧ Strategy.ofName? r.strategy = some .roundRobin then
    match r.candidates.items with
    | .ok items =>
      match readCandidates items with
      | .valid cs => if cs.isEmpty then none else some cs
      | .invalid _ => none
    | .error _ => none
  else none

theorem of_rotating? (h : r.rotating? = some cs) : r.isEnabled = true
    ∧ Strategy.ofName? r.strategy = some .roundRobin ∧ cs ≠ []
    ∧ ∃ items, r.candidates.items = .ok items ∧ readCandidates items = .valid cs := by
  unfold rotating? at h
  split at h
  · next hrule =>
    split at h
    · next items hitems =>
      split at h
      · next cs' hcs =>
        split at h
        · cases h
        · next hsome =>
          cases h
          exact ⟨hrule.1, hrule.2, by simpa using hsome, items, hitems, hcs⟩
      · cases h
    · cases h
  · cases h

/-! ## Turns -/

def turnReason (advance : Bool) (position : Int) : String :=
  if advance then s!"round_robin:{position}" else s!"round_robin_preview:{position}"

/-- The candidate at a position, counted on around the candidates. -/
def turn (r : AssignmentRule) (cs : List Candidate) (advance : Bool) (cursor : Int) : Decision :=
  let position := cursor % cs.length
  ⟨cs[position.toNat]?.map Candidate.userId, turnReason advance position, some r.strategy,
    some r.id⟩

/-- What becomes of a rule for so many candidates as that many turns are taken. -/
def after (r : AssignmentRule) (size : Int) (turns : Nat) : AssignmentRule :=
  { r with
    cursor := if turns = 0 then r.cursor else (r.cursor + turns) % size
    version := r.version + turns }

@[simp] theorem after_zero (r : AssignmentRule) (size : Int) : r.after size 0 = r := by
  simp [after]

@[simp] theorem after_version (r : AssignmentRule) (size : Int) (turns : Nat) :
    (r.after size turns).version = r.version + turns := rfl

@[simp] theorem rotating?_after (r : AssignmentRule) (size : Int) (turns : Nat) :
    (r.after size turns).rotating? = r.rotating? := rfl

@[simp] theorem after_cursor_emod (r : AssignmentRule) (size : Int) (turns : Nat) :
    (r.after size turns).cursor % size = (r.cursor + turns) % size := by
  unfold after
  by_cases h : turns = 0
  · simp [h]
  · simp [h]

theorem after_succ (r : AssignmentRule) (size : Int) (turns : Nat) :
    r.after size (turns + 1) = { r.after size turns with
      cursor := ((r.after size turns).cursor % size + 1) % size
      version := (r.after size turns).version + 1 } := by
  rw [after_cursor_emod, Int.emod_add_emod]
  simp [after, Int.add_assoc]

theorem turn_congr (r : AssignmentRule) (advance : Bool) {c c' : Int}
    (h : c % cs.length = c' % cs.length) : r.turn cs advance c = r.turn cs advance c' := by
  unfold turn
  rw [h]

theorem position_lt (hcs : cs ≠ []) (c : Int) : (c % cs.length).toNat < cs.length := by
  have hpos : 0 < cs.length := List.length_pos_iff.mpr hcs
  have hlt := Int.emod_lt_of_pos c (Int.natCast_pos.mpr hpos)
  omega

/-- It is always somebody's turn. -/
theorem turn_owner (hcs : cs ≠ []) (r : AssignmentRule) (advance : Bool) (c : Int) :
    (r.turn cs advance c).owner.isSome = true := by
  simp [turn, position_lt hcs c]

/-! ## Looking, and passing the turn on -/

def index (seen : AssignmentRule) (cs : List Candidate) : Int := seen.cursor.fmod cs.length

def pick (seen : AssignmentRule) (cs : List Candidate) (advance : Bool) : Decision :=
  .chosen ((cs[(seen.index cs).toNat]?.map Candidate.userId).getD "")
    (turnReason advance (seen.index cs))

/-- Passes the turn on, unless somebody else did so since the rule was seen. -/
def passOn (id : Uuid) (seen : AssignmentRule) (cs : List Candidate) : Flow Bool :=
  swap id seen.version fun r : AssignmentRule =>
    { r with cursor := (seen.index cs + 1).fmod cs.length }

def decided (r : AssignmentRule) (d : Decision) : Decision :=
  { d with strategy := some r.strategy, rule := some r.id }

def contended (r : AssignmentRule) : Decision := r.decided (.nobody "rotation_contention")

def conclude (r : AssignmentRule) (d : Decision) : Flow Decision := (r.decided d).counted

theorem conclude_eq (r : AssignmentRule) (d : Decision) (w : World) : ∃ v,
    r.conclude d w = .ok (r.decided d) v ∧ v.tables = w.tables ∧ v.rivalWrites = w.rivalWrites :=
  ⟨_, rfl, rfl, rfl⟩

theorem rotate_succ (id : Uuid) (cs : List Candidate) (advance : Bool) (tries : Nat) :
    rotate id cs advance (tries + 1) = (do
      let seen ← fetch AssignmentRule id
      if advance then
        if ← passOn id seen cs then return seen.pick cs true
        rotate id cs true tries
      else return seen.pick cs false) := by
  cases advance <;> rfl

theorem index_eq (seen : AssignmentRule) (cs : List Candidate) :
    seen.index cs = seen.cursor % cs.length := Int.fmod_eq_emod_of_nonneg _ (Int.natCast_nonneg _)

theorem decided_pick (hcs : cs ≠ []) (r seen : AssignmentRule) (advance : Bool) :
    r.decided (seen.pick cs advance) = r.turn cs advance seen.cursor := by
  have hlt := position_lt hcs seen.cursor
  simp [decided, pick, turn, Decision.chosen, index_eq, hlt]

def rotationTries (w : World) : Nat := (max w.settings.assignmentTries 1).toNat

theorem rotationTries_pos (w : World) : 0 < rotationTries w := by
  unfold rotationTries
  omega

/-- An enabled rule that is found is applied, and its decision told. -/
theorem resolve_enabled {w : World} (hfound : w.tables.rules.find? (·.id = r.id) = some r)
    (henabled : r.isEnabled = true) (record : Record) (advance : Bool) :
    resolveAssignment r.id record advance w = (r.apply record advance >>= r.conclude) w := by
  unfold resolveAssignment
  rw [bind_ok (find?_eq r.id w), show (Stored.rows w.tables).find?
    (fun x : AssignmentRule => Stored.id x = r.id) = some r from hfound]
  simp only [henabled, Bool.not_true, Bool.false_eq_true, if_false]
  rfl

/-- A rule that rotates is tried for a turn, and the decision told. -/
theorem resolve_rotating {w : World} (hfound : w.tables.rules.find? (·.id = r.id) = some r)
    (hrotating : r.rotating? = some cs) (record : Record) (advance : Bool) :
    resolveAssignment r.id record advance w
      = (rotate r.id cs advance (rotationTries w) >>= r.conclude) w := by
  obtain ⟨henabled, hstrategy, hcs, items, hitems, hread⟩ := of_rotating? hrotating
  have hitems' : shaped r.candidates.items w = .ok items w := by rw [hitems]; rfl
  have hread' : valid (readCandidates items) w = .ok cs w := by rw [hread]; rfl
  have happly : r.apply record advance w = rotate r.id cs advance (rotationTries w) w := by
    unfold apply
    rw [bind_ok hitems', bind_ok hread', hstrategy]
    simp only [List.isEmpty_iff, hcs, if_false]
    rfl
  rw [resolve_enabled hfound henabled]
  cases hrotate : rotate r.id cs advance (rotationTries w) w with
  | ok d v => rw [bind_ok (happly.trans hrotate), bind_ok hrotate]
  | error e v => rw [bind_error (happly.trans hrotate), bind_error hrotate]

/-- The turn is passed on if the rule is as it was seen, and nothing changes if it is not. A version
that does not fit its column any more is refused. -/
theorem passOn_ends {w : World} {seen : AssignmentRule} {turns : Nat}
    (hcalm : w.rivalWrites = 0) (hdistinct : (w.tables.rules.map AssignmentRule.id).Nodup)
    (hfound : w.tables.rules.find? (·.id = r.id) = some (r.after cs.length turns))
    (hseen : seen.version = r.version + turns → seen = r.after cs.length turns) :
    Ends (passOn r.id seen cs) w
      (fun swapped v => match swapped with
        | true => seen = r.after cs.length turns
          ∧ v = w.setRows (w.tables.rules.map (overwrite (r.after cs.length (turns + 1))))
        | false => v = w)
      fun _ v => v = w := by
  refine (swap_ends hcalm hdistinct rfl).mono (fun swapped v h => ?_) fun _ _ h => h
  cases swapped with
  | false => exact h.1
  | true =>
    obtain ⟨row, hrow, hid, hversion, rfl⟩ := h
    have hmem := List.mem_of_find?_eq_some hfound
    have same (x : AssignmentRule) (hx : x ∈ w.tables.rules) (h : x.id = r.id) :
        x = r.after cs.length turns := List.inj_on_of_nodup_map hdistinct hx hmem h
    have hseen := hseen (by rw [← hversion, same row hrow hid]; rfl)
    have hnext : Versioned.setVersion (seen.version + 1)
        { seen with cursor := (seen.index cs + 1).fmod cs.length }
          = r.after cs.length (turns + 1) := by
      rw [index_eq, Int.fmod_eq_emod_of_nonneg _ (Int.natCast_nonneg _), hseen, after_succ]
      rfl
    refine ⟨hseen, congrArg w.setRows (List.map_congr_left fun x hx => ?_)⟩
    have hnextId : r.id = Stored.id (r.after cs.length (turns + 1)) := rfl
    by_cases h : Stored.id x = r.id
    · rw [if_pos (decide_eq_true h), overwrite_of_eq (h.trans hnextId), ← hnext, hseen, same x hx h]
    · rw [if_neg (by simpa using h), overwrite_of_ne (hnextId ▸ h)]

end AssignmentRule

end RecordFlow
