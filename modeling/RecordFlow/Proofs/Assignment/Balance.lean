import Mathlib.Logic.Relation
import RecordFlow.Action.Mutation
import RecordFlow.Proofs.Assignment.Loads
import RecordFlow.Proofs.Record.Patch

/-! # Loads that stay balanced

The spread of a rule's candidates is the difference between the largest and the least of their loads.
An assignment gives one record more to a candidate who had least to do. So the spread never grows,
except from nothing to one.
-/
namespace RecordFlow
open RecordFlow.Flow

theorem countP_overwrite {ρ : Type} [Stored ρ] {rows : List ρ}
    (hdistinct : (rows.map Stored.id).Nodup) {row next : ρ} (hrow : row ∈ rows)
    (hid : Stored.id next = Stored.id row) (test : ρ → Bool) :
    (rows.map (overwrite next)).countP test + (if test row then 1 else 0)
      = rows.countP test + (if test next then 1 else 0) := by
  induction rows with
  | nil => cases hrow
  | cons first rest ih =>
    obtain ⟨hnew, hrest⟩ := List.nodup_cons.mp hdistinct
    rw [List.map_cons, List.countP_cons, List.countP_cons]
    rcases List.mem_cons.mp hrow with rfl | hrow
    · have hothers : rest.map (overwrite next) = rest := by
        refine (List.map_congr_left fun x hx => ?_).trans (List.map_id rest)
        refine overwrite_of_ne fun h => hnew ?_
        rw [← hid, ← h]
        exact List.mem_map_of_mem hx
      rw [hothers, overwrite_of_eq hid.symm]
      omega
    · have hne : Stored.id first ≠ Stored.id next := by
        intro h
        rw [h, hid] at hnew
        exact hnew (List.mem_map_of_mem hrow)
      have hcount := ih hrest hrow
      rw [overwrite_of_ne hne]
      omega

def spread (loads : List Nat) : Nat := loads.max?.getD 0 - loads.min?.getD 0

theorem spread_le_iff {loads : List Nat} {n : Nat} :
    spread loads ≤ n ↔ ∀ a ∈ loads, ∀ b ∈ loads, a ≤ b + n := by
  unfold spread
  cases hmax : loads.max? with
  | none =>
    obtain rfl := List.max?_eq_none_iff.mp hmax
    simp
  | some largest =>
    obtain ⟨hlargest, hle⟩ := List.max?_eq_some_iff.mp hmax
    cases hmin : loads.min? with
    | none =>
      obtain rfl := List.min?_eq_none_iff.mp hmin
      cases hlargest
    | some least =>
      obtain ⟨hleast, hge⟩ := List.min?_eq_some_iff.mp hmin
      simp only [Option.getD_some]
      constructor
      · intro h a ha b hb
        have ha := hle a ha
        have hb := hge b hb
        omega
      · intro h
        have hspread := h largest hlargest least hleast
        omega

theorem le_add_spread {loads : List Nat} {a b : Nat} (ha : a ∈ loads) (hb : b ∈ loads) :
    a ≤ b + spread loads := spread_le_iff.mp le_rfl a ha b hb

namespace Record

/-- A record that is given an owner is that owner's, and the same otherwise. -/
theorem patch_owner {u : World} (hdistinct : u.tables.RecordsDistinct) {row : StoredRecord}
    (hrow : row ∈ u.tables.records) (owner : String) (seen : Int) :
    Yields (patch row.id [("owner_id", .str owner)] seen) u fun _ v => ∃ next : StoredRecord,
      next.id = row.id ∧ next.ownerId = some owner ∧ next.isOpen = row.isOpen
        ∧ next.module = row.module ∧ v = u.setRows (u.tables.records.map (overwrite next)) := by
  cases hr : row.toRecord with
  | error cause =>
    have hfetch : Flow.fetch StoredRecord row.id u = .ok row u :=
      fetch_of_find? (Tables.find?_of_mem hdistinct hrow)
    unfold patch
    refine .step hfetch ?_
    rw [hr]
    exact .of_error rfl trivial
  | ok r =>
    have hholds := Tables.Holds.of_mem hdistinct hrow hr
    rw [← StoredRecord.id_of_toRecord hr]
    by_cases hcalm : u.rivalWrites = 0
    · by_cases hversion : seen = r.version
      · subst hversion
        have hkeys : (Fields.keys [("owner_id", .str owner)]).Nodup := List.nodup_singleton _
        refine (patch_current hcalm hdistinct hholds hkeys).yields.mono ?_
        rintro after v ⟨hpatched, next, hnext, hv⟩
        obtain ⟨fields, -, rfl⟩ := StoredRecord.eq_holding hr
        obtain ⟨fields', -, hafter⟩ := StoredRecord.eq_holding hnext
        have hpatched : some { (row.holding fields).merged [("owner_id", .str owner)] with
            version := row.version + 1 } = some after := by
          unfold patched? at hpatched
          split at hpatched
          · exact hpatched
          · cases hpatched
        subst hafter
        have hsame := Option.some.inj hpatched
        have howner : Value.str owner = .ofOption next.ownerId := congrArg Record.ownerId hsame
        have hopen : Value.bool row.isOpen = .bool next.isOpen := congrArg Record.isOpen hsame
        have hmodule : Value.str row.module = .str next.module := congrArg Record.module hsame
        refine ⟨next, (congrArg Record.id hsame).symm, ?_, (Value.bool.inj hopen).symm,
          (Value.str.inj hmodule).symm, hv⟩
        cases hnextOwner : next.ownerId with
        | none => rw [hnextOwner] at howner; cases howner
        | some other => rw [hnextOwner] at howner; rw [Value.str.inj howner]
      · rw [patch_parts]
        exact .of_error (bind_error (prepare_stale hholds hversion _) _) trivial
    · exact (patch_overtaken hdistinct hholds hcalm _ _).mono fun _ _ h => h.elim

end Record

namespace AssignmentRule
variable {r : AssignmentRule} {cs : List Candidate} {w v : World}

/-- A record that waits for an owner: it is open, the rule counts it, and no candidate owns it. -/
structure Awaits (r : AssignmentRule) (cs : List Candidate) (row : StoredRecord) : Prop where
  isOpen : row.isOpen = true
  inScope : ∀ m ∈ r.scope, row.module = m
  unowned : ∀ c ∈ cs, row.ownerId ≠ some c.userId

/-- The rule names an owner for a record that waits for one, and the record is given to that owner. -/
inductive Assigns (r : AssignmentRule) (cs : List Candidate) (w v : World) : Prop
  | intro {record : Record} {row : StoredRecord} {d : Decision} {owner : String} {u : World}
      {after : Record} (found : w.tables.rules.find? (·.id = r.id) = some r)
      (distinct : w.tables.RecordsDistinct) (stored : row ∈ w.tables.records)
      (same : row.id = record.id) (awaits : r.Awaits cs row)
      (resolved : resolveAssignment r.id record true w = .ok d u) (names : d.owner = some owner)
      (patched : Record.patch record.id [("owner_id", .str owner)] record.version u = .ok after v)

def loads (r : AssignmentRule) (cs : List Candidate) (w : World) : List Nat :=
  cs.map fun c => r.load w.tables.records c.userId

/-- An assignment by the rule, or something that leaves the loads of the candidates as they are. -/
inductive Shift (r : AssignmentRule) (cs : List Candidate) (w v : World) : Prop
  | assigned (h : r.Assigns cs w v)
  | aside (h : r.loads cs v = r.loads cs w)

/-- A record that waits for an owner is nobody's load among the candidates. -/
theorem Awaits.not_counted {row : StoredRecord} (h : r.Awaits cs row) {c : Candidate} (hc : c ∈ cs) :
    Record.isOpenOf (some c.userId) r.scope row = false := by
  simp [Record.isOpenOf, h.unowned c hc]

/-- Once it is given to an owner, it is a load of that owner and of no other. -/
theorem Awaits.counted {row next : StoredRecord} (h : r.Awaits cs row) {owner : String}
    (howner : next.ownerId = some owner) (hopen : next.isOpen = row.isOpen)
    (hmodule : next.module = row.module) (user : String) :
    Record.isOpenOf (some user) r.scope next = decide (user = owner) := by
  have hscope : r.scope.all (fun m => decide (next.module = m)) = true := by
    cases hs : r.scope with
    | none => rfl
    | some m => simpa [hmodule] using h.inScope m hs
  rw [Record.isOpenOf, hopen, h.isOpen, howner, hscope]
  simp [eq_comm]

/-- An assignment gives one record more to a candidate who had least to do. -/
theorem Assigns.load (hr : r.Weighs cs) (h : r.Assigns cs w v) : ∃ c ∈ cs,
    (∀ a ∈ cs, r.load w.tables.records c.userId ≤ r.load w.tables.records a.userId)
    ∧ ∀ a ∈ cs, r.load v.tables.records a.userId
      = r.load w.tables.records a.userId + if a.userId = c.userId then 1 else 0 := by
  obtain @⟨record, row, d, owner, u, _, found, distinct, stored, same, awaits, resolved, names,
    patched⟩ := h
  obtain ⟨d', u', hresolved, htables, before, c, after, hcs, howner, hbefore, hafter⟩ :=
    resolve_weighing hr (enabled_of_names found resolved names) found record true
  obtain ⟨rfl, rfl⟩ := EStateM.Result.ok.inj (resolved.symm.trans hresolved)
  obtain rfl := Option.some.inj (howner.symm.trans names)
  have hc : c ∈ cs := by simp [hcs]
  refine ⟨c, hc, fun a ha => ?_, fun a ha => ?_⟩
  · rw [hcs] at ha
    rcases List.mem_append.mp ha with ha | ha
    · exact (hbefore a ha).le
    · rcases List.mem_cons.mp ha with rfl | ha
      · exact le_rfl
      · exact hafter a ha
  · rw [← same] at patched
    have given := Record.patch_owner (u := u) (by rwa [Tables.RecordsDistinct, htables])
      (by rwa [htables]) c.userId record.version
    obtain ⟨next, hid, hnext, hopen, hmodule, rfl⟩ := Ends.ok_of given patched
    have hcount := countP_overwrite distinct stored hid
      (Record.isOpenOf (some a.userId) r.scope)
    rw [awaits.not_counted ha, awaits.counted hnext hopen hmodule] at hcount
    have hrecords : (u.setRows (u.tables.records.map (overwrite next))).tables.records
        = w.tables.records.map (overwrite next) := by rw [← htables]; rfl
    rw [load, hrecords, load]
    simpa using hcount

/-- An assignment widens the spread at most from nothing to one. -/
theorem Assigns.spread (hr : r.Weighs cs) (h : r.Assigns cs w v) :
    spread (r.loads cs v) ≤ max (RecordFlow.spread (r.loads cs w)) 1 := by
  obtain ⟨c, hc, hleast, hload⟩ := h.load hr
  have hmem {a : Candidate} (ha : a ∈ cs) : r.load w.tables.records a.userId ∈ r.loads cs w :=
    List.mem_map_of_mem ha
  refine spread_le_iff.mpr ?_
  intro x hx y hy
  obtain ⟨a, ha, rfl⟩ := List.mem_map.mp hx
  obtain ⟨b, hb, rfl⟩ := List.mem_map.mp hy
  rw [hload a ha, hload b hb]
  -- Whoever got the record had least to do, so that it is only one more than anybody else has.
  by_cases hgiven : a.userId = c.userId
  · have hb := hleast b hb
    rw [if_pos hgiven, hgiven]
    omega
  · have hspread := le_add_spread (hmem ha) (hmem hb)
    rw [if_neg hgiven]
    omega

theorem Shift.spread (hr : r.Weighs cs) (h : r.Shift cs w v) :
    RecordFlow.spread (r.loads cs v) ≤ max (RecordFlow.spread (r.loads cs w)) 1 := by
  cases h with
  | assigned h => exact h.spread hr
  | aside h =>
    rw [h]
    exact le_max_left _ _

/-- Over any number of assignments the spread stays within the larger of what it was and one. -/
theorem spread_of_shifts (hr : r.Weighs cs) (h : Relation.ReflTransGen (r.Shift cs) w v) :
    spread (r.loads cs v) ≤ max (spread (r.loads cs w)) 1 := by
  induction h with
  | refl => exact le_max_left _ _
  | tail _ hstep ih => exact (hstep.spread hr).trans (max_le ih (le_max_right _ _))

/-! ## The action that assigns -/

def reacts (react : Reaction) (before after : Record) : Scoped Unit := do
  if (← wiring).reactions then react before after

/-- An action that writes patches the record of the run, and then it lets others react. -/
theorem applyPatch_reacts (react : Reaction) (changes : Fields) (f : Frame) :
    Yields (Action.applyPatch react changes) f fun _ g => ∃ m : Frame,
      Record.patch f.context.record.id changes f.context.record.version f.world
        = .ok m.context.record m.world
      ∧ reacts react f.context.record m.context.record m = .ok () g := by
  unfold Action.applyPatch
  refine .step (a := f.context) (t := f) rfl ?_
  cases hpatch : Record.patch f.context.record.id changes f.context.record.version f.world with
  | error e v => exact .of_error (bind_error (lift_error hpatch) _) trivial
  | ok after v =>
    let m : Frame := ⟨v, { f.context with record := after }⟩
    refine .step (lift_ok hpatch) (.step (a := ()) (t := m) rfl ?_)
    exact .of_ok fun _ g h => ⟨m, rfl, h⟩

theorem chooseOwner_eq {rule : Uuid} {user : Option String} (huser : user.any (!·.isEmpty) = false)
    (strategy : Option Strategy) {f : Frame} {d : Decision} {u : World}
    (h : resolveAssignment rule f.context.record (!f.context.isDry) f.world = .ok d u) :
    Action.chooseOwner (some rule) strategy user f
      = .ok ⟨.ofOption d.owner, d.reason, d.strategyName? <|> strategy.map Strategy.name⟩
        { f with world := u } := by
  have hcontext : Scoped.context f = .ok f.context f := rfl
  unfold Action.chooseOwner
  rw [bind_ok hcontext, huser]
  cases user with
  | none => exact bind_ok (lift_ok h) _
  | some user => exact bind_ok (lift_ok h) _

/-- A run for whose record the rule is to find an owner: the record is as it is stored and waits for
one, and this is not a trial. -/
structure Applies (r : AssignmentRule) (cs : List Candidate) (f : Frame) : Prop where
  found : f.world.tables.rules.find? (·.id = r.id) = some r
  distinct : f.world.tables.RecordsDistinct
  shown : ∃ row ∈ f.world.tables.records, row.toRecord = .ok f.context.record ∧ r.Awaits cs row
  real : f.context.isDry = false

/-- An action that assigns an owner by the rule to a record that waits for one does so, and then only
lets others react. -/
theorem assignOwner_assigns (hr : r.Weighs cs) (henabled : r.isEnabled = true) {f : Frame}
    (hf : r.Applies cs f) (react : Reaction) (strategy : Option Strategy) {user : Option String}
    (huser : user.any (!·.isEmpty) = false) :
    Yields (Action.assignOwner react (some r.id) strategy user) f fun _ g => ∃ m h : Frame,
      r.Assigns cs f.world m.world
      ∧ reacts react f.context.record m.context.record m = .ok () h
      ∧ g.world.tables = h.world.tables := by
  obtain ⟨hfound, hdistinct, ⟨row, hstored, hshown, hawaits⟩, hreal⟩ := hf
  obtain ⟨d, u, hresolved, -, before, c, after, hcs, howner, -, -⟩ :=
    resolve_weighing hr henabled hfound f.context.record true
  have hc : c ∈ cs := by simp [hcs]
  have hchosen := chooseOwner_eq huser strategy (f := f) (by rw [hreal]; exact hresolved)
  have hchoice : Value.ofOption d.owner = .str c.userId := congrArg Value.ofOption howner
  have hdiffers : (Value.str c.userId).same f.context.record.ownerId = false := by
    obtain ⟨fields, -, hrecord⟩ := StoredRecord.eq_holding hshown
    have hother := hawaits.unowned c hc
    rw [hrecord, show (row.holding fields).ownerId = .ofOption row.ownerId from rfl]
    cases hrow : row.ownerId with
    | none => rfl
    | some other =>
      refine beq_eq_false_iff_ne.mpr fun hsame => hother ?_
      rw [hrow, hsame]
  unfold Action.assignOwner
  refine .step (a := f.context) (t := f) rfl (.step hchosen ?_)
  simp only [hreal, hchoice, hdiffers, Value.isNull, Bool.false_eq_true, if_false]
  refine (applyPatch_reacts react _ _).bind ?_
  rintro _ h ⟨m, hpatched, hreacts⟩
  refine .step (a := ()) (lift_ok rfl) (.step (a := c.userId) (lift_ok rfl) (.pure ?_))
  exact ⟨m, h, .intro hfound hdistinct hstored (StoredRecord.id_of_toRecord hshown).symm hawaits
    hresolved howner hpatched, hreacts, rfl⟩

/-- An enabled rule that weighs loads, whatever open records there are, names the first of its
candidates with the least load. However many records that wait for an owner it then assigns, the
spread of the loads never exceeds the larger of what it was and one. And such an assignment is what
an action does that assigns an owner by the rule, before others react to it. -/
theorem leastLoaded_balances (hr : r.Weighs cs) (henabled : r.isEnabled = true) :
    (∀ w : World, w.tables.rules.find? (·.id = r.id) = some r → ∀ record advance, ∃ d v,
      resolveAssignment r.id record advance w = .ok d v ∧ v.tables = w.tables
      ∧ r.NamesLightest cs w.tables.records d)
    ∧ (∀ w v, Relation.ReflTransGen (r.Shift cs) w v →
      spread (r.loads cs v) ≤ max (spread (r.loads cs w)) 1)
    ∧ ∀ f, r.Applies cs f → ∀ react strategy user, user.any (!·.isEmpty) = false →
      Yields (Action.assignOwner react (some r.id) strategy user) f fun _ g => ∃ m h : Frame,
        r.Assigns cs f.world m.world
        ∧ reacts react f.context.record m.context.record m = .ok () h
        ∧ g.world.tables = h.world.tables := by
  refine ⟨fun w hfound record advance => ?_, fun _ _ h => spread_of_shifts hr h, ?_⟩
  · exact resolve_weighing hr henabled hfound record advance
  · intro f hf react strategy user huser
    exact assignOwner_assigns hr henabled hf react strategy huser

def deskIf (isEnabled : Bool) : AssignmentRule where
  id := TableName.rule.rowId 1
  name := "desk"
  module := some "deals"
  strategy := "least_loaded"
  candidates := .list [.obj [("user_id", .str "alice")], .obj [("user_id", .str "bob")]]
  config := .null
  cursor := 0
  version := 1
  isEnabled := isEnabled

def deskCandidates : List Candidate := [⟨"alice", none⟩, ⟨"bob", none⟩]

theorem deskIf_weighs (isEnabled : Bool) : (deskIf isEnabled).Weighs deskCandidates where
  strategy := rfl
  reads := ⟨_, rfl, rfl⟩
  nonempty := by decide

def deskDeal : StoredRecord where
  id := TableName.record.rowId 1
  module := "deals"
  ownerId := none
  stage := none
  title := none
  isOpen := true
  data := .obj []
  createdBy := none
  version := 1
  createdAt := ⟨0⟩

def deskWorld (isEnabled : Bool) : World :=
  { World.initial ⟨⟨0⟩, 0⟩ .standard .complete [] with
    tables := { Tables.empty with records := [deskDeal], rules := [deskIf isEnabled] } }

/-- A rule that is not enabled names nobody, although it has candidates. -/
theorem not_always_namesLightest : ¬ ∀ (r : AssignmentRule) (cs : List Candidate) (w : World)
    (record : Record) (advance : Bool), r.Weighs cs →
      w.tables.rules.find? (·.id = r.id) = some r → ∃ d v,
        resolveAssignment r.id record advance w = .ok d v ∧ r.NamesLightest cs w.tables.records d := by
  intro h
  obtain ⟨d, v, hresolved, before, c, after, -, hnames, -⟩ :=
    h (deskIf false) deskCandidates (deskWorld false) (deskDeal.holding []) true
      (deskIf_weighs false) rfl
  have henabled := enabled_of_names (r := deskIf false) rfl hresolved hnames
  cases henabled

def deskRun : Frame where
  world := deskWorld true
  context := .root (deskDeal.holding []) Trigger.manual.name 2

theorem deskIf_applies : (deskIf true).Applies deskCandidates deskRun where
  found := rfl
  distinct := List.nodup_singleton _
  shown := ⟨deskDeal, List.mem_singleton_self _, rfl, rfl, fun _ h => (Option.some.inj h).symm ▸ rfl,
    fun _ _ => nofun⟩
  real := rfl

def deskAction : Scoped Effect :=
  Action.assignOwner (fun _ _ => pure ()) (some (deskIf true).id) none none

theorem deskAction_assigned : passes deskAction deskRun (fun _ g =>
    (deskIf true).loads deskCandidates g.world == [1, 0]) = true := by
  decide +kernel

/-- The deal goes to the first of the two, who had as little to do as the other. -/
theorem leastLoaded_balances_desk : (deskIf true).Weighs deskCandidates
    ∧ (deskIf true).isEnabled = true
    ∧ (∃ d v, resolveAssignment (deskIf true).id (deskDeal.holding []) true (deskWorld true) = .ok d v
      ∧ (deskIf true).NamesLightest deskCandidates [deskDeal] d)
    ∧ (deskIf true).loads deskCandidates (deskWorld true) = [0, 0]
    ∧ ∃ v, (deskIf true).Assigns deskCandidates (deskWorld true) v
      ∧ (deskIf true).loads deskCandidates v = [1, 0]
      ∧ spread ((deskIf true).loads deskCandidates v) ≤ 1 := by
  obtain ⟨names, balances, assigns⟩ := leastLoaded_balances (deskIf_weighs true) rfl
  obtain ⟨d, v, hresolved, -, hlightest⟩ := names (deskWorld true) rfl (deskDeal.holding []) true
  have hloads : (deskIf true).loads deskCandidates (deskWorld true) = [0, 0] := by decide +kernel
  refine ⟨deskIf_weighs true, rfl, ⟨d, v, hresolved, hlightest⟩, hloads, ?_⟩
  obtain ⟨effect, g, hg, hleft⟩ := (Ends.of_passes deskAction_assigned).exists_ok
  have acted := assigns deskRun deskIf_applies (fun _ _ => pure ()) none none rfl
  obtain ⟨m, h, hassigns, hreacts, htables⟩ := Ends.ok_of acted hg
  have hsame : h = m := by
    unfold reacts at hreacts
    simp only [ite_self] at hreacts
    exact (EStateM.Result.ok.inj hreacts).2.symm
  subst hsame
  have hspread := balances _ _ (.single (.assigned hassigns))
  rw [show (deskIf true).loads deskCandidates deskRun.world = [0, 0] from hloads] at hspread
  rw [beq_iff_eq, loads, htables] at hleft
  exact ⟨h.world, hassigns, hleft, hspread⟩

end AssignmentRule

end RecordFlow
