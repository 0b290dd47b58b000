import RecordFlow.Condition.Parse
import RecordFlow.Proofs.Schema.Reread

/-! # Conditions that are read again

However a condition was written, it is stored as a tree of leaves and groups, and that is read as
the same condition. The only trees that are not read are those with a leaf that names no field, and
no such tree is ever read.
-/
namespace RecordFlow.Condition
open Schema

def IsNamed (c : Condition) : Prop := ∀ path ∈ c.paths, path.isEmpty = false

def AreNamed (parts : List Condition) : Prop := ∀ path ∈ pathsAll parts, path.isEmpty = false

theorem areNamed_cons {c : Condition} {rest : List Condition} :
    AreNamed (c :: rest) ↔ c.IsNamed ∧ AreNamed rest := by
  simp only [AreNamed, IsNamed, pathsAll, List.mem_append]
  constructor
  · intro h
    exact ⟨fun path hpath => h path (.inl hpath), fun path hpath => h path (.inr hpath)⟩
  · rintro ⟨hc, hrest⟩ path (hpath | hpath)
    · exact hc path hpath
    · exact hrest path hpath

theorem isNamed_group (logic : Logic) {parts : List Condition} (h : AreNamed parts) :
    (logic.group parts).IsNamed := by
  cases logic with
  | and => exact h
  | or => exact h

theorem isNamed_of_parseLeaf {fields : Fields} {c : Condition} (h : parseLeaf fields = .valid c) :
    c.IsNamed := by
  obtain ⟨_, hleaf, op, _, rfl⟩ := Checked.seq_eq_valid.mp h
  obtain ⟨field, hfield, rfl⟩ := Checked.map_eq_valid.mp hleaf
  have given := (Checked.ensure_eq_valid.mp (Checked.under_eq_valid.mp hfield)).2
  intro path hpath
  obtain rfl : path = field := List.mem_singleton.mp hpath
  simpa using given

mutual
theorem isNamed_of_parseNode : ∀ {v : Value} {c : Condition}, parseNode v = .valid c → c.IsNamed
  | .obj fields, c, h => by
    rw [parseNode] at h
    split at h
    · obtain ⟨parts, hparts, rfl⟩ := Checked.map_eq_valid.mp h
      exact areNamed_of_parseUnder hparts
    · split at h
      · obtain ⟨parts, hparts, rfl⟩ := Checked.map_eq_valid.mp h
        exact areNamed_of_parseUnder hparts
      · split at h
        · obtain ⟨logic, _, h⟩ := Checked.andThen_eq_valid.mp h
          obtain ⟨parts, hparts, rfl⟩ := Checked.map_eq_valid.mp h
          exact isNamed_group logic (areNamed_of_parseUnder hparts)
        · exact isNamed_of_parseLeaf h
  | .null, _, h | .bool _, _, h | .int _, _, h | .double _, _, h | .str _, _, h
  | .list _, _, h => by cases h

theorem areNamed_of_parseUnder : ∀ {key : String} {fields : Fields} {parts : List Condition},
    parseUnder key fields = .valid parts → AreNamed parts
  | _, [], _, h => by cases h
  | key, (k, v) :: rest, parts, h => by
    rw [parseUnder] at h
    split at h
    · exact areNamed_of_parseParts h
    · exact areNamed_of_parseUnder h

theorem areNamed_of_parseParts : ∀ {key : String} {v : Value} {parts : List Condition},
    parseParts key v = .valid parts → AreNamed parts
  | _, .list items, _, h => areNamed_of_parseNodes h
  | _, .null, _, h | _, .bool _, _, h | _, .int _, _, h | _, .double _, _, h | _, .str _, _, h
  | _, .obj _, _, h => by cases h

theorem areNamed_of_parseNodes : ∀ {items : List Value} {parts : List Condition},
    parseNodes items = .valid parts → AreNamed parts
  | [], parts, h => by
    obtain rfl := Checked.valid.inj h
    intro path hpath
    cases hpath
  | v :: rest, parts, h => by
    rw [parseNodes] at h
    split at h
    · cases h
    · next c hc =>
      obtain ⟨more, hmore, rfl⟩ := Checked.map_eq_valid.mp h
      exact areNamed_cons.mpr ⟨isNamed_of_parseNode hc, areNamed_of_parseNodes hmore⟩
end

mutual
theorem parseNode_encode : ∀ {c : Condition}, c.IsNamed → parseNode c.encode = .valid c
  | .leaf field op target, h => by
    have given : field.isEmpty = false := h field (List.mem_singleton.mpr rfl)
    have name : leafField (.str field) = .valid field :=
      Checked.under_eq_valid.mpr (Checked.ensure_eq_valid.mpr ⟨rfl, by rw [given]; rfl⟩)
    have operator : leafOperator (.str op.name) = .valid op := by
      simp [leafOperator, oneOf, op.lookup_name]
    have leaf : parseNode (encode (.leaf field op target))
        = (fun field op => .leaf field op target) <$> leafField (.str field)
          <*> leafOperator (.str op.name) := rfl
    rw [leaf, name, operator]
    rfl
  | .all parts, h => by
    have group : parseNode (encode (.all parts)) = (parseNodes (encodeAll parts)).map .all := rfl
    rw [group, parseNodes_encodeAll h]
    rfl
  | .any parts, h => by
    have group : parseNode (encode (.any parts)) = (parseNodes (encodeAll parts)).map .any := rfl
    rw [group, parseNodes_encodeAll h]
    rfl

theorem parseNodes_encodeAll : ∀ {parts : List Condition}, AreNamed parts →
    parseNodes (encodeAll parts) = .valid parts
  | [], _ => rfl
  | c :: rest, h => by
    have hc := parseNode_encode (areNamed_cons.mp h).1
    have hrest := parseNodes_encodeAll (areNamed_cons.mp h).2
    rw [encodeAll, parseNodes, hc, hrest]
    rfl
end

theorem isNamed_of_parse {v : Value} {c : Condition} (h : parse v = .valid (some c)) :
    c.IsNamed := by
  cases v with
  | null => cases h
  | list items =>
    obtain ⟨parts, hparts, hc⟩ := Checked.map_eq_valid.mp h
    obtain rfl := Option.some.inj hc
    exact areNamed_of_parseNodes hparts
  | _ =>
    obtain ⟨_, hnode, hc⟩ := Checked.map_eq_valid.mp h
    obtain rfl := Option.some.inj hc
    exact isNamed_of_parseNode hnode

/-- A condition is read as it was stored. -/
theorem rereads_parse : Rereads parse encode? := by
  intro v c h
  cases c with
  | none => rfl
  | some c =>
    have node : parse c.encode = (parseNode c.encode).map some := by
      cases c <;> rfl
    rw [encode?, node, parseNode_encode (isNamed_of_parse h)]
    rfl

end RecordFlow.Condition
