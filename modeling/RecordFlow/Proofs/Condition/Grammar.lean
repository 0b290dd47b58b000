import RecordFlow.Condition.Evaluate
import RecordFlow.Proofs.Condition.Written
import RecordFlow.Proofs.Session.Editing

/-! # How conditions are written

A condition is written as nothing, as a list of nodes, or as a node. A node is a group under `all`,
else one under `any`, else a list of `conditions` with their logic, else a leaf that names a path
and an operator. Just these values are read. What is stored of them means what they mean, so that a
workflow asks of records what the request for it asked.
-/
namespace RecordFlow

/-! ## The name of a logic

Only a text can be the name of a logic: the text of every other value that counts as given has a
character that is in no name, in whatever case.
-/

namespace Text

theorem mem_upper {s : String} {c d : Char} (hc : c ∈ s.toList)
    (hd : d ∈ otherCase upperRuns upperLong c) : d ∈ (upper s).toList := by
  rw [upper, String.toList_ofList]
  exact List.mem_flatMap.mpr ⟨c, hc, hd⟩

theorem otherCase_of_lt {c : Char} (h : c.toNat < 97) : otherCase upperRuns upperLong c = [c] := by
  have long : ∀ e ∈ upperLong, 97 ≤ e.1 := by decide +kernel
  have runs : ∀ r ∈ upperRuns, 97 ≤ r.first := by decide +kernel
  have alone : upperLong.lookup c.toNat = none := by
    rw [List.lookup_eq_none_iff]
    intro e he
    have behind := long e he
    rw [bne_iff_ne]
    omega
  have uncovered : upperRuns.find? (·.covers c.toNat) = none := by
    rw [List.find?_eq_none]
    intro r hr
    have behind := runs r hr
    simp only [CaseRun.covers, Bool.and_eq_true, decide_eq_true_eq]
    omega
  rw [otherCase, alone, uncovered]

end Text

/-- The text of a finite number has a point, or an exponent with its sign. -/
theorem Double.mark_mem_magnitude (l : Layout) (d : Decimal) :
    ∃ c ∈ ['.', '+', '-'], c ∈ (l.magnitude d).toList := by
  unfold Layout.magnitude
  dsimp only
  split
  · exact ⟨'.', by simp, by simp⟩
  split
  · split
    · exact ⟨'.', by simp, by simp⟩
    split
    · exact ⟨'.', by simp, by simp⟩
    · exact ⟨'.', by simp, by simp⟩
  have sign (x : Int) : ∃ c ∈ ['.', '+', '-'], c ∈ (l.exponent x).toList := by
    unfold Layout.exponent
    split
    · exact ⟨'-', by simp, by simp⟩
    · exact ⟨'+', by simp, by simp⟩
  split
  · next hdigits => simp [Nat.toDigits_ne_nil] at hdigits
  · obtain ⟨c, hmark, hc⟩ := sign (_ - 1)
    exact ⟨c, hmark, by rw [String.toList_append]; exact List.mem_append_right _ hc⟩
  · obtain ⟨c, hmark, hc⟩ := sign (_ - 1)
    exact ⟨c, hmark, by rw [String.toList_append]; exact List.mem_append_right _ hc⟩

namespace Condition
open Schema

namespace Logic

def name : Logic → String
  | .and => "AND"
  | .or => "OR"

def letters : List Char := ['A', 'N', 'D', 'O', 'R']

theorem mem_letters (logic : Logic) : ∀ c ∈ logic.name.toList, c ∈ letters := by
  cases logic <;> simp [name, letters]

/-- A text whose upper case has a character that is in no name is no name itself. -/
theorem upper_ne_name {s : String} {c d : Char} (hc : c ∈ s.toList)
    (hd : d ∈ Text.otherCase Text.upperRuns Text.upperLong c) (hforeign : d ∉ letters)
    (logic : Logic) : Text.upper s ≠ logic.name := by
  intro h
  exact hforeign (logic.mem_letters d (h ▸ Text.mem_upper hc hd))

theorem upper_ne_name_of_lt {s : String} {c : Char} (hc : c ∈ s.toList) (hlow : c.toNat < 97)
    (hforeign : c ∉ letters) (logic : Logic) : Text.upper s ≠ logic.name :=
  upper_ne_name hc (Text.otherCase_of_lt hlow ▸ List.mem_singleton_self c) hforeign logic

theorem upper_double_ne_name (d : Double) (logic : Logic) : Text.upper d.text ≠ logic.name := by
  have mark {s : String} : (∃ c ∈ ['.', '+', '-'], c ∈ s.toList) → Text.upper s ≠ logic.name := by
    rintro ⟨c, hmark, hc⟩
    have plain : ∀ c ∈ ['.', '+', '-'], c.toNat < 97 ∧ c ∉ letters := by simp [letters]
    exact upper_ne_name_of_lt hc (plain c hmark).1 (plain c hmark).2 logic
  cases d with
  | nan => cases logic <;> decide +kernel
  | infinite negative => cases negative <;> cases logic <;> decide +kernel
  | finite negative m e =>
    refine mark ?_
    unfold Double.text
    obtain ⟨c, hmark, hc⟩ : ∃ c ∈ ['.', '+', '-'],
        c ∈ (if m = 0 then Double.layout.magnitude ⟨0, 0⟩
          else Double.layout.magnitude (Double.shortest m e)).toList := by
      split
      · exact Double.mark_mem_magnitude _ _
      · exact Double.mark_mem_magnitude _ _
    exact ⟨c, hmark, by rw [String.toList_append]; exact List.mem_append_right _ hc⟩

theorem upper_int_ne_name (n : Int) (logic : Logic) : Text.upper (toString n) ≠ logic.name := by
  have digit {c : Char} (h : c.isDigit = true) : c.toNat < 97 ∧ c ∉ letters := by
    have bounds := Char.isDigit_iff_toNat.mp h
    have nine : '9'.toNat = 57 := rfl
    have behind : ∀ c ∈ letters, 57 < c.toNat := by simp [letters]
    exact ⟨by omega, fun hc => absurd (behind c hc) (by omega)⟩
  have written (k : Nat) {s : String} (h : Nat.toDigits 10 k <:+ s.toList) :
      Text.upper s ≠ logic.name := by
    obtain ⟨c, hc⟩ := List.exists_mem_of_ne_nil _ (Nat.toDigits_ne_nil (n := k) (b := 10))
    have plain := digit (Nat.isDigit_of_mem_toDigits (by decide) (by decide) hc)
    exact upper_ne_name_of_lt (h.mem hc) plain.1 plain.2 logic
  cases n with
  | ofNat k => exact written k (by simp [Int.repr])
  | negSucc k => exact written (k + 1) (by simp [Int.repr])

theorem isText_of_name {v : Value} {logic : Logic} (hgiven : v.isFalsy = false)
    (h : Text.upper v.text = logic.name) : ∃ s, v = .str s := by
  cases v with
  | str s => exact ⟨s, rfl⟩
  | null => cases hgiven
  | bool b =>
    have other : ∀ b : Bool, ∀ logic : Logic, Text.upper (Value.bool b).text ≠ logic.name := by
      intro b logic
      cases b <;> cases logic <;> decide +kernel
    exact absurd h (other b logic)
  | int n => exact absurd h (upper_int_ne_name n logic)
  | double d => exact absurd h (upper_double_ne_name d logic)
  | list items =>
    have bracket : '[' ∈ (Value.list items).text.toList := by simp [Value.text, Value.literal]
    exact absurd h (upper_ne_name_of_lt bracket (by decide) (by decide) logic)
  | obj fields =>
    have brace : '\x7b' ∈ (Value.obj fields).text.toList := by simp [Value.text, Value.literal]
    exact absurd h (upper_ne_name brace (d := '\x7b') (by decide +kernel) (by decide) logic)

end Logic

/-- What a list of conditions says about its logic: nothing that counts as given, which is `and`, or
a name in any case. -/
inductive IsLogic (v : Value) : Logic → Prop where
  | unset (h : v.isFalsy = true) : IsLogic v .and
  | named {s : String} {logic : Logic} (hv : v = .str s) (h : Text.upper s = logic.name) :
    IsLogic v logic

theorem logic?_eq_valid {fields : Fields} {logic : Logic} :
    logic? fields = .valid logic ↔ IsLogic (fields.getD "logic") logic := by
  have reads {s : String} : (if s = "AND" then Checked.valid Logic.and
      else if s = "OR" then .valid .or else .fail (.rule (.unsupportedLogic s))) = .valid logic
      ↔ s = logic.name := by
    cases logic <;> simp only [Logic.name] <;> split_ifs <;> simp_all [Checked.fail]
  unfold logic?
  dsimp only
  rw [reads]
  generalize fields.getD "logic" = v
  unfold Value.orElse
  constructor
  · intro h
    split at h
    · next hfalsy =>
      have unset : logic = .and := by
        cases logic
        · rfl
        · exact absurd h (by decide +kernel)
      exact unset ▸ .unset hfalsy
    · next hgiven =>
      obtain ⟨s, rfl⟩ := Logic.isText_of_name (by simpa using hgiven) h
      exact .named rfl h
  · rintro (hfalsy | ⟨rfl, h⟩)
    · rw [if_pos hfalsy]
      decide +kernel
    · split
      · next hempty =>
        obtain rfl := String.isEmpty_iff.mp hempty
        exact absurd h (by cases logic <;> decide +kernel)
      · exact h

/-! ## Nodes -/

/-- A leaf names a path and an operator, each under one of two keys. -/
structure IsLeaf (fields : Fields) : Prop where
  field : ∃ path : String,
    (fields.get? "field").getD (fields.getD "path") = .str path ∧ path ≠ ""
  operator : ∃ op : Operator,
    (fields.get? "op").getD (fields.getD "operator") = .str op.name

inductive IsNode : Value → Prop where
  | all {fields : Fields} {items : List Value} (hitems : fields.get? "all" = some (.list items))
    (hnodes : ∀ v ∈ items, IsNode v) : IsNode (.obj fields)
  | any {fields : Fields} {items : List Value} (hall : fields.has "all" = false)
    (hitems : fields.get? "any" = some (.list items)) (hnodes : ∀ v ∈ items, IsNode v) :
    IsNode (.obj fields)
  | conditions {fields : Fields} {items : List Value} {logic : Logic}
    (hall : fields.has "all" = false) (hany : fields.has "any" = false)
    (hitems : fields.get? "conditions" = some (.list items))
    (hlogic : IsLogic (fields.getD "logic") logic) (hnodes : ∀ v ∈ items, IsNode v) :
    IsNode (.obj fields)
  | leaf {fields : Fields} (hall : fields.has "all" = false) (hany : fields.has "any" = false)
    (hconditions : fields.has "conditions" = false) (hleaf : IsLeaf fields) : IsNode (.obj fields)

theorem operator_eq_valid {v : Value} {op : Operator} :
    oneOf Operator.table v = .valid op ↔ v = .str op.name := by
  constructor
  · intro h
    cases v with
    | str s =>
      rw [oneOf] at h
      cases hfound : Operator.table.lookup s with
      | none => simp [hfound, Checked.fail] at h
      | some found =>
        obtain rfl : found = op := by simpa [hfound] using h
        obtain ⟨before, after, hsplit, -⟩ := List.lookup_eq_some_iff.mp hfound
        have names : ∀ e ∈ Operator.table, e.2.name = e.1 := by decide
        rw [names (s, found) (hsplit ▸ List.mem_append_right _ List.mem_cons_self)]
    | _ => cases h
  · rintro rfl
    rw [oneOf, op.lookup_name]

theorem nonEmpty_eq_valid {v : Value} {s : String} :
    nonEmpty v = .valid s ↔ v = .str s ∧ s ≠ "" := by
  unfold nonEmpty
  rw [Checked.ensure_eq_valid]
  cases v <;> simp [string, Checked.fail]

theorem parseLeaf_valid_iff {fields : Fields} :
    (∃ c, parseLeaf fields = .valid c) ↔ IsLeaf fields := by
  unfold parseLeaf leafField leafOperator
  simp only [Checked.seq_eq_valid, Checked.map_eq_valid, Checked.under_eq_valid, nonEmpty_eq_valid,
    operator_eq_valid]
  constructor
  · rintro ⟨_, _, ⟨path, hpath, rfl⟩, op, hop, rfl⟩
    exact ⟨⟨path, hpath⟩, op, hop⟩
  · rintro ⟨⟨path, hpath⟩, op, hop⟩
    exact ⟨_, _, ⟨path, hpath, rfl⟩, op, hop, rfl⟩

mutual
theorem isNode_of_parseNode : ∀ {v : Value} {c : Condition}, parseNode v = .valid c → IsNode v
  | .obj fields, c, h => by
    rw [parseNode] at h
    split at h
    · obtain ⟨parts, hparts, rfl⟩ := Checked.map_eq_valid.mp h
      obtain ⟨items, hitems, hnodes⟩ := areNodes_of_parseUnder hparts
      exact .all hitems hnodes
    next hall =>
    split at h
    · obtain ⟨parts, hparts, rfl⟩ := Checked.map_eq_valid.mp h
      obtain ⟨items, hitems, hnodes⟩ := areNodes_of_parseUnder hparts
      exact .any (by simpa using hall) hitems hnodes
    next hany =>
    split at h
    · obtain ⟨logic, hlogic, h⟩ := Checked.andThen_eq_valid.mp h
      obtain ⟨parts, hparts, rfl⟩ := Checked.map_eq_valid.mp h
      obtain ⟨items, hitems, hnodes⟩ := areNodes_of_parseUnder hparts
      rw [logicOfConditions, hitems] at hlogic
      exact .conditions (by simpa using hall) (by simpa using hany) hitems
        (logic?_eq_valid.mp hlogic) hnodes
    next hconditions =>
    exact .leaf (by simpa using hall) (by simpa using hany) (by simpa using hconditions)
      (parseLeaf_valid_iff.mp ⟨c, h⟩)
  | .null, _, h | .bool _, _, h | .int _, _, h | .double _, _, h | .str _, _, h
  | .list _, _, h => by cases h

theorem areNodes_of_parseUnder : ∀ {key : String} {fields : Fields} {parts : List Condition},
    parseUnder key fields = .valid parts →
      ∃ items, fields.get? key = some (.list items) ∧ ∀ v ∈ items, IsNode v
  | _, [], _, h => by cases h
  | key, (k, v) :: rest, parts, h => by
    rw [parseUnder] at h
    split at h
    · next hk =>
      obtain ⟨items, rfl, hnodes⟩ := areNodes_of_parseParts h
      exact ⟨items, by simp [Fields.get?, hk], hnodes⟩
    · next hk =>
      obtain ⟨items, hitems, hnodes⟩ := areNodes_of_parseUnder h
      have other : (key == k) = false := by simpa using fun e => hk e.symm
      exact ⟨items, by simpa [Fields.get?, List.lookup_cons, other] using hitems, hnodes⟩

theorem areNodes_of_parseParts : ∀ {key : String} {v : Value} {parts : List Condition},
    parseParts key v = .valid parts → ∃ items, v = .list items ∧ ∀ v ∈ items, IsNode v
  | _, .list items, _, h => ⟨items, rfl, areNodes_of_parseNodes h⟩
  | _, .null, _, h | _, .bool _, _, h | _, .int _, _, h | _, .double _, _, h | _, .str _, _, h
  | _, .obj _, _, h => by cases h

theorem areNodes_of_parseNodes : ∀ {items : List Value} {parts : List Condition},
    parseNodes items = .valid parts → ∀ v ∈ items, IsNode v
  | [], _, _ => List.forall_mem_nil _
  | v :: rest, parts, h => by
    rw [parseNodes] at h
    split at h
    · cases h
    · next c hc =>
      obtain ⟨more, hmore, rfl⟩ := Checked.map_eq_valid.mp h
      exact List.forall_mem_cons.mpr ⟨isNode_of_parseNode hc, areNodes_of_parseNodes hmore⟩
end

end Condition

open Schema

end RecordFlow
