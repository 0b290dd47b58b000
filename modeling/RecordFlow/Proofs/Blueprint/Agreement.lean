import RecordFlow.Proofs.Blueprint.Move

/-! # Checks of moves, and moves

A check always answers and changes nothing. A move whose check refuses answers with what the check
said, and one whose check allows it is begun, as long as its blueprint can be read. Where it cannot,
the check refuses and says why, but the move fails; it changes nothing then, either.
-/
namespace RecordFlow
open RecordFlow.Flow

namespace Blueprint
variable {ref : BlueprintRef} {record : Uuid} {r : Record} {toStage : String} {updates : Fields}
variable {v : Validation} {found : Option Blueprint} {cause : Failure} {w : World}

def verdict (found : Option Blueprint) (r : Record) (toStage : String) (updates : Fields) :
    Validation :=
  match found with
  | none => .refused .noBlueprint
  | some b => b.check r toStage updates

theorem validate_of_found (h : resolve ref r.module w = .ok found w) :
    validate ref r toStage updates w = .ok (verdict found r toStage updates) w := by
  have resolved : Job.orFailure (resolve ref r.module) w = .ok (.ok found) w := by
    rw [Job.orFailure, h]
  unfold validate
  rw [bind_ok resolved]
  cases found <;> rfl

theorem validate_of_failed (h : resolve ref r.module w = .error cause w) :
    validate ref r toStage updates w = .ok (.refused (.failed cause)) w := by
  have failed : Job.orFailure (resolve ref r.module) w = .ok (.error cause) w := by
    rw [Job.orFailure, h]
  unfold validate
  rw [bind_ok failed]
  rfl

/-- The blueprint of a move is found or not, or cannot be read; to look for it changes nothing. -/
theorem resolve_cases (ref : BlueprintRef) (module : Value) (w : World) :
    (∃ found, resolve ref module w = .ok found w)
      ∨ ∃ cause, resolve ref module w = .error cause w := by
  have ends := resolve_ends ref module w
  cases h : resolve ref module w with
  | ok found u =>
    obtain ⟨rfl, -⟩ := ends.ok_of h
    exact .inl ⟨found, rfl⟩
  | error cause u =>
    obtain rfl := ends.bad_of h
    exact .inr ⟨cause, rfl⟩

/-- A check always answers, and leaves everything as it is. -/
theorem validate_answers (ref : BlueprintRef) (r : Record) (toStage : String) (updates : Fields)
    (w : World) : ∃ v, validate ref r toStage updates w = .ok v w := by
  obtain ⟨found, h⟩ | ⟨cause, h⟩ := resolve_cases ref r.module w
  · exact ⟨_, validate_of_found h⟩
  · exact ⟨_, validate_of_failed h⟩

/-- What is allowed leads along a transition of an enabled blueprint. -/
theorem check_allowed {b : Blueprint} (h : (b.check r toStage updates).allowed = true) :
    b.isEnabled = true ∧ ∃ t, b.findTransition r.stage toStage = some t := by
  unfold check at h
  split at h
  · cases h
  · next henabled =>
    refine ⟨by simpa using henabled, ?_⟩
    cases ht : b.findTransition r.stage toStage with
    | none => rw [ht] at h; cases h
    | some t => exact ⟨t, rfl⟩

/-- A move that its check refuses answers as the check does, and leaves everything as it is. It
fails if the blueprint cannot be read, and then the check gives the same cause. -/
theorem move_of_refused (actor : Option String) (hget : Record.get? record w = .ok (some r) w)
    (hcheck : validate ref r toStage updates w = .ok v w) (hrefused : v.allowed = false) :
    move ref record toStage updates actor w = .ok (.invalid v r.stage toStage none) w
      ∨ ∃ cause, v = .refused (.failed cause) ∧ resolve ref r.module w = .error cause w
        ∧ move ref record toStage updates actor w = .error cause w := by
  unfold move
  rw [bind_ok hget]
  dsimp only
  obtain ⟨found, h⟩ | ⟨cause, h⟩ := resolve_cases ref r.module w
  · rw [validate_of_found h] at hcheck
    cases hcheck
    rw [bind_ok h]
    left
    cases found with
    | none => rfl
    | some b =>
      dsimp only [verdict] at hrefused ⊢
      rw [hrefused]
      rfl
  · rw [validate_of_failed h] at hcheck
    cases hcheck
    exact .inr ⟨cause, rfl, h, bind_error h _⟩

/-- A move that its check allows is submitted for approval or applied, as its transition says. -/
theorem move_of_allowed (actor : Option String) (hget : Record.get? record w = .ok (some r) w)
    (hcheck : validate ref r toStage updates w = .ok v w) (hallowed : v.allowed = true) :
    ∃ b t, resolve ref r.module w = .ok (some b) w ∧ b.isEnabled = true
      ∧ b.findTransition r.stage toStage = some t
      ∧ move ref record toStage updates actor w
        = (if t.requiresApproval then b.requestMove t r toStage updates actor v
          else b.applyMove t r toStage updates actor v none) w := by
  obtain ⟨found, h⟩ | ⟨cause, h⟩ := resolve_cases ref r.module w
  · rw [validate_of_found h] at hcheck
    cases hcheck
    cases found with
    | none => cases hallowed
    | some b =>
      obtain ⟨henabled, t, ht⟩ := check_allowed hallowed
      refine ⟨b, t, h, henabled, ht, ?_⟩
      dsimp only [verdict] at hallowed ⊢
      unfold move
      rw [bind_ok hget]
      dsimp only
      rw [bind_ok h]
      dsimp only
      rw [hallowed, ht]
      rfl
  · rw [validate_of_failed h] at hcheck
    cases hcheck
    cases hallowed

/-- A blueprint that is not there: the check refuses, the move fails. -/
theorem move_unknown {id : Uuid} (actor : Option String)
    (hget : Record.get? record w = .ok (some r) w)
    (hunknown : ∀ row ∈ w.tables.blueprints, row.id ≠ id) :
    let cause : Failure := .notFound (Stored.name StoredBlueprint) id
    validate (.byId id) r toStage updates w = .ok (.refused (.failed cause)) w
      ∧ move (.byId id) record toStage updates actor w = .error cause w := by
  intro cause
  have hnone : w.tables.blueprints.find? (fun row => Stored.id row = id) = none :=
    List.find?_eq_none.mpr fun row hrow hid => hunknown row hrow (of_decide_eq_true hid)
  have hfind : find? StoredBlueprint id w = .ok none w :=
    (find?_eq id w).trans (congrArg (EStateM.Result.ok · w) hnone)
  have hresolve : resolve (.byId id) r.module w = .error cause w :=
    bind_error (bind_ok hfind _) _
  refine ⟨validate_of_failed hresolve, ?_⟩
  unfold move
  rw [bind_ok hget]
  exact bind_error hresolve _

/-! ## Moves that answer -/

theorem stage_of_get? (hget : Record.get? record w = .ok (some r) w) :
    ∃ source, Cell.text r.stage = .ok source := by
  obtain ⟨row, -, -, hrow⟩ := ((Record.get?_ends record w).ok_of hget).2 r rfl
  exact ⟨row.stage, by rw [(StoredRecord.toRecord_eq hrow).2, Cell.text_ofOption]⟩

theorem isSome_id_of_resolve {b : Blueprint} (hlooked : ∀ b, ref ≠ .given b)
    (hresolve : resolve ref r.module w = .ok (some b) w) : b.id.isSome := by
  obtain hgiven | ⟨row, -, hdef⟩ := ((resolve_ends ref r.module w).ok_of hresolve).2 b rfl
  · exact absurd hgiven (hlooked b)
  · rw [StoredBlueprint.definition_id hdef]
    rfl

theorem applyMove_validation (b : Blueprint) (t : Transition) (r : Record) (toStage : String)
    (updates : Fields) (actor : Option String) (v : Validation) (approval : Option Uuid)
    (w : World) : Ends (b.applyMove t r toStage updates actor v approval) w
      (fun m _ => m.validation = some v) fun _ _ => True := by
  unfold applyMove
  generalize moveActions t toStage updates = listed
  obtain ⟨actions, position⟩ := listed
  refine Ends.any.bind (fun _ _ h => h) fun c _ _ _ => ?_
  refine Ends.any.bind (fun _ _ h => h) fun run _ _ _ => ?_
  dsimp only
  split
  · exact Ends.any.bind (fun _ _ h => h) fun _ _ _ _ => .pure rfl
  · exact .pure rfl

/-- Where the blueprint is looked up and can be read, and the transition asks for no approval, a
move never fails. It hands the check on, and does nothing if that refuses. -/
theorem move_answers (actor : Option String) (hfree : w.RunsFree)
    (hget : Record.get? record w = .ok (some r) w) (hlooked : ∀ b, ref ≠ .given b)
    (hresolve : resolve ref r.module w = .ok found w)
    (hopen : ∀ b t, found = some b → b.findTransition r.stage toStage = some t →
      t.requiresApproval = false) :
    Ends (move ref record toStage updates actor) w
      (fun m u => ∃ v, validate ref r toStage updates w = .ok v w ∧ m.validation = some v
        ∧ (v.allowed = false → m.success = false ∧ m.error = v.reason ∧ u = w))
      fun _ _ => False := by
  obtain ⟨v, hcheck⟩ := validate_answers ref r toStage updates w
  cases hallowed : v.allowed with
  | false =>
    obtain hmove | ⟨cause, -, hfailed, -⟩ := move_of_refused actor hget hcheck hallowed
    · exact .of_ok hmove ⟨v, hcheck, rfl, fun _ => ⟨rfl, rfl, rfl⟩⟩
    · rw [hresolve] at hfailed
      cases hfailed
  | true =>
    obtain ⟨b, t, hb, -, ht, hmove⟩ := move_of_allowed actor hget hcheck hallowed
    rw [hresolve] at hb
    cases hb
    rw [hopen b t rfl ht, if_neg Bool.false_ne_true] at hmove
    obtain ⟨source, hsource⟩ := stage_of_get? hget
    have applies := b.applyMove_ends t ⟨r, toStage, updates, actor, none⟩ hsource v hfree
    have hands := b.applyMove_validation t r toStage updates actor v none w
    have hid : b.id ≠ none := Option.isSome_iff_ne_none.mp (isSome_id_of_resolve hlooked hresolve)
    rw [Ends, hmove]
    refine (hands.and applies).mono (fun m u h => ?_) fun _ _ h => hid h.2.1
    exact ⟨v, hcheck, h.1, fun h => by rw [hallowed] at h; cases h⟩

end Blueprint

end RecordFlow
