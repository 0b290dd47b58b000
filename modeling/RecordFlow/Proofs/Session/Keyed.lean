import Mathlib.Data.List.Pairwise
import RecordFlow.Proofs.Session.Closing
import RecordFlow.Proofs.Workflow.Cooling

/-! # What is asked for under a key

A run keeps the key under which it was opened, and no other run gets it, so that a workflow that is
to run under it again is passed over. A job that is scheduled under a key is there once, however
often it is asked for. An empty key is not looked up, so that a second run or job under it is refused.
-/
namespace RecordFlow
open RecordFlow.Flow Scoped

/-! ## Runs -/

namespace Run

def KeyApart (r s : Run) : Prop := ∀ key, r.key = some key → s.key ≠ some key

instance : Std.Symm KeyApart where
  symm _ _ h key hs hr := h key hr hs

def KeysApart (runs : List Run) : Prop := runs.Pairwise KeyApart

theorem KeysApart.eq {runs : List Run} (h : KeysApart runs) {r s : Run} (hr : r ∈ runs)
    (hs : s ∈ runs) {key : String} (hrkey : r.key = some key) (hskey : s.key = some key) : r = s := by
  by_contra hne
  exact h.forall hr hs hne key hrkey hskey

theorem KeysApart.append {runs : List Run} (h : KeysApart runs) {row : Run}
    (hrow : ∀ r ∈ runs, row.clashes r = false) : KeysApart (runs ++ [row]) := by
  refine List.pairwise_append.mpr ⟨h, List.pairwise_singleton _ _, fun r hr s hs key hkey hs' => ?_⟩
  obtain rfl := List.mem_singleton.mp hs
  have clash : s.clashes r = true := by rw [clashes, hs', hkey]; simp
  exact Bool.false_ne_true ((hrow r hr).symm.trans clash)

theorem KeysApart.changeRow {runs : List Run} (h : KeysApart runs) (id : Uuid) {change : Run → Run}
    (hchange : ∀ r, (change r).head = r.head) : KeysApart (changeRow id change runs) := by
  have same (r : Run) : (if r.id = id then change r else r).key = r.key := by
    split
    · exact congrArg RunHead.key (hchange r)
    · rfl
  refine List.pairwise_map.mpr (h.imp fun hrs key hr hs => ?_)
  exact hrs key ((same _).symm.trans hr) ((same _).symm.trans hs)

def KeepsApart (w v : World) : Prop :=
  w.saved.runs = w.tables.runs → KeysApart w.tables.runs →
    v.saved.runs = v.tables.runs ∧ KeysApart v.tables.runs

instance : AboutRuns KeepsApart where
  refl _ hsaved hw := ⟨hsaved, hw⟩
  trans _ _ _ h h' hsaved hw := (h hsaved hw).elim h'
  beside w v _ _ hruns hsaved hw := by
    obtain ⟨htables, hv⟩ := hruns hsaved
    exact ⟨hv.trans htables.symm, htables ▸ hw⟩

/-- A run is not opened under the key of another. -/
theorem openRun_apart (c : Context) (w : World) :
    Yields (openRun c) w fun row _ => ∀ r ∈ w.tables.runs, row.clashes r = false := by
  unfold openRun
  refine .step rfl ((insertTaken_fits _ _ w).bind fun row v hfits => .step rfl (.pure ?_))
  have free : w.tables.runs.any row.clashes = false := (Bool.not_eq_true' _).mp hfits
  exact fun r hr => Bool.eq_false_iff.mpr (List.any_eq_false.mp free r hr)

/-- A run is refused that is to be opened under the key of another. -/
theorem openRun_taken {c : Context} {w : World} {key : String} (hkey : c.key = some key) {r : Run}
    (hr : r ∈ w.tables.runs) (hrkey : r.key = some key) :
    Ends (openRun c) w (fun _ _ => False) fun _ v => v = w.useNumber .run := by
  have ends := ((openRun_ends c w).and (openRun_apart c w)).and (openRun_refused c w)
  refine ends.mono ?_ fun _ _ h => h.2
  rintro row v ⟨⟨hopens, hrow⟩, -⟩
  have hown : row.key = some key := (congrArg RunHead.key hopens.head).trans hkey
  have clash : row.clashes r = true := by rw [clashes, hown, hrkey]; simp
  exact Bool.false_ne_true ((hrow r hr).symm.trans clash)

instance : Tolerant KeepsApart where
  toMild := inferInstance
  outside _ _ h hsaved hw := ⟨by rw [h.saved, h.tables, hsaved], h.tables ▸ hw⟩
  savesRun w id change hchange _ hw := ⟨rfl, hw.changeRow id hchange⟩
  cooldowns := inferInstance
  workflows := inferInstance
  opens c w := by
    have apart := (openRun_apart c w).and (openRun_refused c w)
    refine ((openRun_ends c w).and apart).mono ?_ ?_
    · rintro row v ⟨hopens, hrow, -⟩ - hw
      rw [hopens.world]
      exact ⟨rfl, hw.append hrow⟩
    · rintro e v ⟨-, -, rfl⟩ hsaved hw
      exact ⟨rfl, hsaved ▸ hw⟩

end Run

/-- Once a command is saved or undone, the keys of runs are apart. -/
theorem World.afterAll_keepsApart (w : World) (session : List Command) :
    Run.KeepsApart w (w.afterAll session) := by
  induction session generalizing w with
  | nil => exact refl_of Run.KeepsApart w
  | cons c rest ih =>
    exact trans_of Run.KeepsApart (Command.after_upheld c.upholds_any w) (ih (c.after w))

theorem World.IsNew.keysApart {w : World} (hw : w.IsNew) : Run.KeysApart w.tables.runs := by
  rw [show w.tables.runs = [] from hw.1 ▸ rfl]
  exact .nil

theorem Workflow.runWithKey?_found {w : World} {r : Run} (hr : r ∈ w.tables.runs)
    (hapart : Run.KeysApart w.tables.runs) {key : String} (hrkey : r.key = some key)
    (hnonempty : key ≠ "") : runWithKey? (some key) w = .ok (some r) w := by
  have found : w.tables.runs.find? (fun s => s.key = some key) = some r := by
    cases hfind : w.tables.runs.find? (fun s => s.key = some key) with
    | none => exact absurd hrkey (by simpa using List.find?_eq_none.mp hfind r hr)
    | some s =>
      have hs : s.key = some key := by simpa using List.find?_some hfind
      rw [hapart.eq (List.mem_of_find?_eq_some hfind) hr hs hrkey]
  have given : key.isEmpty = false := by simpa using hnonempty
  rw [runWithKey?, given]
  exact congrArg (fun run => EStateM.Result.ok run w) found

/-- A workflow that is to run under the key of a run is passed over, and nothing else happens. -/
theorem Workflow.executeIn_duplicate {x : Workflow} {c : Context} {w : World} (record : Record)
    (henabled : x.isEnabled = true) {r : Run} (hr : r ∈ w.tables.runs)
    (hapart : Run.KeysApart w.tables.runs) {key : String} (hkey : c.key = some key)
    (hrkey : r.key = some key) (hnonempty : key ≠ "") :
    x.executeIn c record w
      = .ok (x.skipped record "duplicate_idempotency_key" (some r.id)) w := by
  have looked : runWithKey? c.key w = .ok (some r) w :=
    hkey ▸ runWithKey?_found hr hapart hrkey hnonempty
  let g : Frame := ⟨w, x.considering record c⟩
  have executed : Ends (x.execute c.reaction record) ⟨w, c⟩
      (fun answer f => answer = x.skipped record "duplicate_idempotency_key" (some r.id) ∧ f.world = w)
      fun _ _ => False := by
    unfold execute
    refine .step (a := ()) (t := g) rfl (.step (context_eq g) ?_)
    refine .ite (fun h => absurd h (by simp [henabled])) fun _ => ?_
    exact .step (lift_ok looked) (.pure ⟨rfl, rfl⟩)
  have answered : Ends (x.executeIn c record) w
      (fun answer v => answer = x.skipped record "duplicate_idempotency_key" (some r.id) ∧ v = w)
      fun _ _ => False := runIn_fst_ends executed
  obtain ⟨_, _, hx, rfl, rfl⟩ := answered.exists_ok
  exact hx

/-- The empty key is not looked up. A workflow that is to run under it again is refused, unless it cools
down. -/
theorem Workflow.executeIn_emptyKey {x : Workflow} {c : Context} {w : World} (record : Record)
    (henabled : x.isEnabled = true) {r : Run} (hr : r ∈ w.tables.runs) (hkey : c.key = some "")
    (hrkey : r.key = some "") :
    Yields (x.executeIn c record) w fun answer _ => answer = x.skipped record "COOLDOWN" none := by
  let g : Frame := ⟨w, x.considering record c⟩
  have unseen : runWithKey? c.key w = .ok none w := by rw [hkey]; rfl
  have refused (v : World) (hruns : v.tables.runs = w.tables.runs) :
      Yields (do
          changeContext x.cappedBudget
          Run.runActions c.reaction x.actions x.haltOnFailure) ⟨v, x.considering record c⟩
        fun answer _ => answer = x.skipped record "COOLDOWN" none := by
    obtain ⟨most, -, hcapped⟩ := x.cappedBudget_eq (x.considering record c)
    have given : (x.cappedBudget (x.considering record c)).key = some "" :=
      (congrArg Context.key hcapped).trans hkey
    refine .step (a := ()) rfl (.step (context_eq _) ?_)
    exact Ends.bind (Ends.lift (Run.openRun_taken given (hruns.symm ▸ hr) hrkey))
      (fun _ _ _ => trivial) fun _ _ _ h => h.1.elim
  have executed : Yields (x.execute c.reaction record) ⟨w, c⟩
      fun answer _ => answer = x.skipped record "COOLDOWN" none := by
    unfold execute
    refine .step (a := ()) (t := g) rfl (.step (context_eq g) ?_)
    refine Ends.ite (fun h => absurd h (by simp [henabled])) fun _ => ?_
    refine .step (lift_ok unseen) (Ends.ite (fun _ => ?_) fun _ => refused w rfl)
    refine (Ends.lift (f := g) (x.coolsDown_ends record c.actor w)).bind (fun _ _ _ => trivial) ?_
    rintro cools ⟨v, _⟩ - ⟨hconsiders, rfl⟩
    replace hconsiders : x.Considers record w cools v := hconsiders
    cases hconsiders with
    | always => exact refused w rfl
    | cools => exact .pure rfl
    | notes => exact refused _ rfl
  exact runIn_fst_ends executed

/-- However a session goes on, a run keeps its key, and a workflow that is to run under it again is
passed over. -/
theorem World.afterAll_keyed {w : World} (hw : w.IsNew) (before later : List Command)
    {r : Run} (hr : r ∈ (w.afterAll before).tables.runs) {key : String} (hrkey : r.key = some key)
    (hnonempty : key ≠ "") {x : Workflow} (henabled : x.isEnabled = true) {c : Context}
    (hkey : c.key = some key) (record : Record) :
    let v := w.afterAll (before ++ later)
    (∀ s ∈ v.tables.runs, s.key = some key → s = r)
      ∧ x.executeIn c record v
        = .ok (x.skipped record "duplicate_idempotency_key" (some r.id)) v := by
  obtain ⟨-, apart⟩ := w.afterAll_keepsApart (before ++ later) hw.runsKept.saved hw.keysApart
  have joined : w.afterAll (before ++ later) = (w.afterAll before).afterAll later := List.foldl_append
  obtain ⟨_, _, earlier⟩ := w.afterAll_closesRuns before hw.runsKept
  obtain ⟨_, _, closures⟩ := (w.afterAll before).afterAll_closesRuns later earlier.kept
  have hlast : r ∈ (w.afterAll (before ++ later)).tables.runs := by
    rw [joined, closures.runs]
    exact List.mem_append_left _ hr
  exact ⟨fun s hs hskey => apart.eq hs hlast hskey hrkey,
    Workflow.executeIn_duplicate record henabled hlast apart hkey hrkey hnonempty⟩

/-! ## Jobs -/

namespace Job

/-- A job that was scheduled under a key is given back as it is. -/
theorem schedule_found {d : Draft} {key : String} {w : World} (hkey : d.key = some key)
    (hnonempty : key ≠ "") {j : Job} (hfind : w.tables.jobs.find? (fun i => i.key = some key) = some j) :
    schedule d w = .ok j w := by
  have given : key.isEmpty = false := by simpa using hnonempty
  unfold schedule
  rw [hkey]
  dsimp only
  rw [given, if_neg Bool.false_ne_true, bind_ok (x := all Job) (a := w.tables.jobs) rfl, hfind]
  rfl

/-- The empty key is not looked up, and a second job under it is refused. -/
theorem schedule_emptyKey {d : Draft} {w : World} (hkey : d.key = some "") {j : Job}
    (hj : j ∈ w.tables.jobs) (hjkey : j.key = some "") :
    Ends (schedule d) w (fun _ _ => False) fun _ v => v = w.useNumber .job := by
  have taken (row : Job) (hrow : row.key = some "") : (!w.tables.jobs.any row.clashes) = false := by
    have clash : row.clashes j = true := by rw [clashes, hrow, hjkey]; rfl
    rw [List.any_eq_true.mpr ⟨j, hj, clash⟩]
    rfl
  unfold schedule
  rw [hkey]
  refine .ite (fun _ => ?_) fun hgiven => absurd rfl hgiven
  unfold add
  refine .step rfl (.step rfl (.step rfl ?_))
  refine ((insertTaken_ends _ _ w).and (insertTaken_fits _ _ w)).mono ?_ fun _ _ h => h.1.1
  rintro row v ⟨⟨hrow, -⟩, hfits⟩
  cases hrow
  exact Bool.false_ne_true ((taken _ hkey).symm.trans hfits)

/-- However often one asks for a job under a key, with whatever else is said of it, it is given back
as it is. -/
theorem schedule_again {drafts : List Draft} {key : String} {w : World}
    (hkeys : ∀ d ∈ drafts, d.key = some key) (hnonempty : key ≠ "") {j : Job}
    (hfind : w.tables.jobs.find? (fun i => i.key = some key) = some j) :
    drafts.mapM schedule w = .ok (drafts.map fun _ => j) w := by
  induction drafts with
  | nil => rfl
  | cons d rest ih =>
    rw [List.forall_mem_cons] at hkeys
    rw [List.mapM_cons, bind_ok (schedule_found hkeys.1 hnonempty hfind), bind_ok (ih hkeys.2)]
    rfl

/-- Of all that ask for a job under a new key the first one adds it, and every other one gets it. -/
theorem schedule_settles (d : Draft) {rest : List Draft} {key : String} {w : World}
    (hkey : d.key = some key) (hkeys : ∀ e ∈ rest, e.key = some key) (hnonempty : key ≠ "")
    (hnew : ∀ j ∈ w.tables.jobs, j.key ≠ some key)
    (hfits : Cell.fits (givenOr d.maxAttempts w.settings.maxAttempts) = true) :
    ∃ j v, (d :: rest).mapM schedule w = .ok (j :: rest.map fun _ => j) v
      ∧ j.kind = d.kind ∧ j.payload = d.payload ∧ j.key = some key
      ∧ v.tables.jobs = w.tables.jobs ++ [j] := by
  have given : key.isEmpty = false := by simpa using hnonempty
  obtain ⟨j, v, hfirst, hkind, hpayload, -, -, hown, rfl⟩ :=
    (schedule_ends d hkey given hnew hfits).exists_ok
  have others : w.tables.jobs.find? (fun i => i.key = some key) = none :=
    List.find?_eq_none.mpr fun i hi => by simpa using hnew i hi
  have found : (w.tables.jobs ++ [j]).find? (fun i => i.key = some key) = some j := by
    rw [List.find?_append, others]
    simp [hown]
  refine ⟨j, (w.useNumber .job).setRows (w.tables.jobs ++ [j]), ?_, hkind, hpayload, hown, rfl⟩
  rw [List.mapM_cons, bind_ok hfirst, bind_ok (schedule_again hkeys hnonempty found)]
  rfl

end Job

end RecordFlow
