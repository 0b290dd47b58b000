import Mathlib.Logic.Function.Basic
import RecordFlow.Proofs.Record.Patch

/-! # Writers of one record

Any number of writers patch a record, each over the record as it saw it. Between the read and the
write of a patch others may do theirs. No update is lost: every patch that goes through was made over
the record that the one before it left, and the others change nothing.
-/
namespace RecordFlow
variable {r s : Record}

structure ChangeSet where
  fields : Fields
  distinct : (Fields.keys fields).Nodup

def ChangeSet.single (key : String) (v : Value) : ChangeSet := ⟨[(key, v)], List.nodup_singleton _⟩

/-- A patch that came to its end: what its writer had seen, what it asked for, and what it was
answered. -/
structure Revision where
  seen : Record
  changes : ChangeSet
  answer : Except Failure Record

namespace Revision
variable {t : Revision}

def failure? (t : Revision) : Option Failure :=
  match t.answer with
  | .ok _ => none
  | .error e => some e

def isDone (t : Revision) : Bool := t.failure?.isNone

theorem isDone_of_ok {after : Record} (h : t.answer = .ok after) : t.isDone = true := by
  rw [isDone, failure?, h]
  rfl

theorem isDone_of_error {e : Failure} (h : t.answer = .error e) : t.isDone = false := by
  rw [isDone, failure?, h]
  rfl

theorem answer_of_failure? {e : Failure} (h : t.failure? = some e) : t.answer = .error e := by
  unfold failure? at h
  cases hanswer : t.answer with
  | ok after => rw [hanswer] at h; cases h
  | error e' =>
    rw [hanswer] at h
    rw [Option.some.inj h]

end Revision

/-! ## Revisions one after the other -/

namespace Record

theorem eq_of_patched? {changes : Fields} {after : Record} (h : r.patched? changes = some after) :
    after.id = r.id ∧ after.version = r.version + 1 ∧ Cell.fits after.version = true := by
  unfold patched? at h
  split at h
  · next hfits =>
    obtain ⟨kept, -, rfl⟩ := Option.map_eq_some_iff.mp h
    exact ⟨(r.merged_rest kept).1, rfl, hfits⟩
  · cases h

/-- Revisions lead from one record to another: each that was done was made over the record that the
ones before it left, and leaves it with the changes; the others leave it as it was. -/
inductive Revised (r : Record) : List Revision → Record → Prop
  | nil : Revised r [] r
  | done {ts : List Revision} {t : Revision} {after : Record} (h : Revised r ts t.seen)
      (htaken : t.seen.patched? t.changes.fields = some after) (hanswer : t.answer = .ok after) :
      Revised r (ts ++ [t]) after
  | refused {ts : List Revision} {t : Revision} {s : Record} {e : Failure} (h : Revised r ts s)
      (hrefused : s.Refuses t.seen t.changes.fields e) (hanswer : t.answer = .error e) :
      Revised r (ts ++ [t]) s

namespace Revised
variable {ts : List Revision}

theorem id (h : r.Revised ts s) : s.id = r.id := by
  induction h with
  | nil => rfl
  | done _ htaken _ ih => exact (eq_of_patched? htaken).1.trans ih
  | refused _ _ _ ih => exact ih

/-- The version counts the revisions that were done. -/
theorem version (h : r.Revised ts s) : s.version = r.version + ts.countP Revision.isDone := by
  induction h with
  | nil => simp
  | done _ htaken hanswer ih =>
    rw [(eq_of_patched? htaken).2.1, ih, List.countP_append, List.countP_singleton,
      if_pos (Revision.isDone_of_ok hanswer), Int.natCast_add, Int.natCast_one, Int.add_assoc]
  | refused _ _ hanswer ih =>
    rw [ih, List.countP_append, List.countP_singleton, Revision.isDone_of_error hanswer]
    rfl

/-- What is left is the record with the changes of the revisions that were done, one after the
other. -/
theorem applied (h : r.Revised ts s) :
    (ts.filter Revision.isDone).foldlM (fun x t => x.patched? t.changes.fields) r = some s := by
  induction h with
  | nil => rfl
  | done _ htaken hanswer ih =>
    rw [List.filter_append, List.filter_singleton, Revision.isDone_of_ok hanswer,
      List.foldlM_append, ih]
    simpa using htaken
  | refused _ _ hanswer ih =>
    rw [List.filter_append, List.filter_singleton, Revision.isDone_of_error hanswer, cond_false,
      List.append_nil, ih]

end Revised

theorem version_of_row {d : Draft} {fields : Fields} {t : Calendar.Instant} {id : Uuid}
    {row : StoredRecord} (h : d.row fields t id = .ok row) : row.version = 1 := by
  unfold Draft.row at h
  simp only [bind, Except.bind] at h
  repeat' split at h
  all_goals cases h
  rfl

/-- A record as it was seen of one that was not written less often since. -/
structure IsBefore (s r : Record) : Prop where
  fits : Cell.fits s.version = true
  le : s.version ≤ r.version
  eq : s.version = r.version → s = r

namespace IsBefore
variable {after : Record}

theorem refl (h : Cell.fits r.version = true) : r.IsBefore r := ⟨h, Int.le_refl _, fun _ => rfl⟩

theorem later {changes : Fields} (h : s.IsBefore r) (htaken : r.patched? changes = some after) :
    s.IsBefore after ∧ s.version ≠ after.version := by
  obtain ⟨-, hversion, -⟩ := eq_of_patched? htaken
  have hle := h.le
  have hne : s.version ≠ after.version := by omega
  exact ⟨⟨h.fits, by omega, fun h => absurd h hne⟩, hne⟩

theorem fits_next (h : s.IsBefore r) (hr : Cell.fits r.version = true)
    (hne : s.version ≠ r.version) : Cell.fits (s.version + 1) = true := by
  have hle := h.le
  have hs := h.fits
  simp only [Cell.fits, Bool.and_eq_true, decide_eq_true_eq] at hs hr ⊢
  omega

end IsBefore

end Record

/-! ## Writers and their moves -/

/-- What a writer holds: nothing, the record as it saw it, or also the row that it is about to
write. -/
inductive Hand where
  | empty
  | seen (s : Record)
  | ready (s : Record) (changes : ChangeSet) (next : Option StoredRecord)

def Hand.Held (r : Record) (w : World) : Hand → Prop
  | .empty => True
  | .seen s => s.IsBefore r
  | .ready s changes next => s.IsBefore r ∧ (s.version = r.version →
      Record.prepare r.id changes.fields s.version w = .ok next w)

theorem Hand.Held.later {h : Hand} {w v : World} {changes : Fields} {after : Record}
    (hh : h.Held r w) (htaken : r.patched? changes = some after) : h.Held after v := by
  cases h with
  | empty => trivial
  | seen s => exact (Record.IsBefore.later hh htaken).1
  | ready s changes next =>
    obtain ⟨hbefore, hne⟩ := hh.1.later htaken
    exact ⟨hbefore, fun h => absurd h hne⟩

structure Writers (ι : Type) where
  world : World
  hand : ι → Hand
  log : List (ι × Revision)

namespace Writers
variable {ι : Type} [DecidableEq ι]

def opened (w : World) : Writers ι := ⟨w, fun _ => .empty, []⟩

def put (p : Writers ι) (i : ι) (hand : Hand) (w : World) (news : List Revision) : Writers ι :=
  ⟨w, Function.update p.hand i hand, p.log ++ news.map (Prod.mk i)⟩

/-- A writer reads the record. If it was about to write, it gives that up. -/
def look (id : Uuid) (p : Writers ι) (i : ι) : Writers ι :=
  match Record.get? id p.world with
  | .ok r v => p.put i (r.elim .empty .seen) v []
  | .error _ v => p.put i .empty v []

/-- The patch of a writer came to its end. It goes on with the record that it was given, or with what
it had seen. -/
def ended (p : Writers ι) (i : ι) (s : Record) (changes : ChangeSet) :
    EStateM.Result Failure World Record → Writers ι
  | .ok after v => p.put i (.seen after) v [⟨s, changes, .ok after⟩]
  | .error e v => p.put i (.seen s) v [⟨s, changes, .error e⟩]

def start (id : Uuid) (p : Writers ι) (i : ι) (changes : ChangeSet) : Writers ι :=
  match p.hand i with
  | .seen s =>
    match Record.prepare id changes.fields s.version p.world with
    | .ok next v => p.put i (.ready s changes next) v []
    | .error e v => p.ended i s changes (.error e v)
  | _ => p

def write (id : Uuid) (p : Writers ι) (i : ι) : Writers ι :=
  match p.hand i with
  | .ready s changes next => p.ended i s changes (Record.complete id s.version next p.world)
  | _ => p

inductive Move (ι : Type) where
  | look (i : ι)
  | start (i : ι) (changes : ChangeSet)
  | write (i : ι)

/-- The writers after a move. Nothing happens if the move is not the next one of its writer. -/
def Move.after (id : Uuid) : Move ι → Writers ι → Writers ι
  | look i, p => p.look id i
  | start i changes, p => p.start id i changes
  | write i, p => p.write id i

def afterAll (id : Uuid) (p : Writers ι) (moves : List (Move ι)) : Writers ι :=
  moves.foldl (fun p m => m.after id p) p

def revisions (p : Writers ι) : List Revision := p.log.map Prod.snd

/-! ## What a move does -/

/-- A record is stored to which the revisions lead that ended, and writers hold it as they saw it. -/
structure Sound (original r : Record) (p : Writers ι) : Prop where
  calm : p.world.rivalWrites = 0
  distinct : p.world.tables.RecordsDistinct
  holds : p.world.tables.Holds r
  fits : Cell.fits r.version = true
  revised : original.Revised p.revisions r
  held : ∀ i, (p.hand i).Held r p.world

def Changes (p q : Writers ι) : Prop :=
  q.world = p.world ∨ ∃ i t, q.log = p.log ++ [(i, t)] ∧ t.isDone = true

structure Goes (original : Record) (p q : Writers ι) (s : Record) : Prop where
  sound : q.Sound original s
  changes : p.Changes q

section Put
variable {r : Record} {p : Writers ι} {i : ι} {hand : Hand} {w : World} {news : List Revision}

theorem hand_put : (p.put i hand w news).hand i = hand := by
  unfold put
  exact Function.update_self _ _ _

theorem held_put (hhand : hand.Held r w) (hothers : ∀ k, (p.hand k).Held r w) (k : ι) :
    ((p.put i hand w news).hand k).Held r w :=
  (Function.forall_update_iff p.hand fun _ h => h.Held r w).mpr ⟨hhand, fun k _ => hothers k⟩ k

theorem revisions_put (p : Writers ι) (i : ι) (hand : Hand) (w : World) (news : List Revision) :
    (p.put i hand w news).revisions = p.revisions ++ news := by
  unfold revisions put
  rw [List.map_append, List.map_map]
  exact congrArg (p.log.map Prod.snd ++ ·) (List.map_id' news)

theorem put_put (hand' : Hand) (v : World) :
    (p.put i hand' v []).put i hand w news = p.put i hand w news := by
  unfold put
  rw [Function.update_idem, List.map_nil, List.append_nil]

/-- Where a patch ends, it does not matter what its writer held. -/
theorem ended_put (p : Writers ι) (i : ι) (w : World) (s : Record) (changes : ChangeSet)
    (result : EStateM.Result Failure World Record) :
    (p.put i hand w []).ended i s changes result = p.ended i s changes result := by
  cases result with
  | ok after v => exact put_put hand w
  | error e v => exact put_put hand w

end Put

namespace Sound
variable {original r s : Record} {p : Writers ι} (hp : p.Sound original r)
include hp

theorem goes_put (i : ι) {hand : Hand} (hhand : hand.Held r p.world) :
    p.Goes original (p.put i hand p.world []) r where
  sound := by
    have hrevised : (p.put i hand p.world []).revisions = p.revisions :=
      (revisions_put ..).trans (List.append_nil _)
    exact ⟨hp.calm, hp.distinct, hp.holds, hp.fits, hrevised ▸ hp.revised, held_put hhand hp.held⟩
  changes := .inl rfl

theorem goes_ended (hs : s.IsBefore r) (i : ι) (changes : ChangeSet) : ∃ after,
    p.Goes original (p.ended i s changes (Record.patch r.id changes.fields s.version p.world))
      after := by
  have decides := Record.patch_decides hp.calm hp.distinct hp.holds changes.distinct hs.eq
  cases hpatch : Record.patch r.id changes.fields s.version p.world with
  | ok after v =>
    obtain ⟨rfl, htaken, hrewritten⟩ := decides.ok_of hpatch
    obtain ⟨hid, -, hfits⟩ := Record.eq_of_patched? htaken
    have hcalm : v.rivalWrites = 0 := by
      obtain ⟨next, -, rfl⟩ := hrewritten
      exact hp.calm
    refine ⟨after, ⟨hcalm, hrewritten.distinct hp.distinct,
      hrewritten.holds hp.distinct hp.holds hid, hfits, ?_, ?_⟩, .inr ⟨i, _, rfl, rfl⟩⟩
    · exact revisions_put p .. ▸ hp.revised.done htaken rfl
    · exact held_put (.refl hfits) fun k => (hp.held k).later htaken
  | error e v =>
    obtain ⟨rfl, hrefused⟩ := decides.bad_of hpatch
    refine ⟨r, ⟨hp.calm, hp.distinct, hp.holds, hp.fits, ?_, held_put hs hp.held⟩, .inl rfl⟩
    exact revisions_put p .. ▸ hp.revised.refused hrefused rfl

theorem goes_start (i : ι) (changes : ChangeSet) :
    ∃ s, p.Goes original (p.start r.id i changes) s := by
  unfold start
  cases hhand : p.hand i with
  | empty | ready => exact ⟨r, hp, .inl rfl⟩
  | seen s =>
    have hs : s.IsBefore r := (hhand ▸ hp.held i : (Hand.seen s).Held r p.world)
    cases hprepare : Record.prepare r.id changes.fields s.version p.world with
    | ok next v =>
      have looks := Record.looks_prepare r.id changes.fields s.version
      obtain rfl : v = p.world := ((looks.ends p.world).ok_of hprepare).1
      have hready : (Hand.ready s changes next).Held r p.world := ⟨hs, fun _ => hprepare⟩
      simpa only [hprepare] using ⟨r, hp.goes_put i hready⟩
    | error e v =>
      have ends := hp.goes_ended hs i changes
      rw [Record.patch_parts, bind_error hprepare] at ends
      simpa only [hprepare] using ends

theorem goes_write (i : ι) : ∃ s, p.Goes original (p.write r.id i) s := by
  unfold write
  cases hhand : p.hand i with
  | empty | seen => exact ⟨r, hp, .inl rfl⟩
  | ready s changes next =>
    have held : (Hand.ready s changes next).Held r p.world := hhand ▸ hp.held i
    have same := Record.complete_eq_patch hp.calm hp.distinct hp.holds
      (held.1.fits_next hp.fits) held.2
    simpa only [same] using hp.goes_ended held.1 i changes

/-- Whatever moves, the writers go on. -/
theorem goes_after (m : Move ι) : ∃ s, p.Goes original (m.after r.id p) s := by
  cases m with
  | look i =>
    show ∃ s, p.Goes original (p.look r.id i) s
    unfold look
    rw [Record.get?_of_holds hp.holds]
    exact ⟨r, hp.goes_put i (.refl hp.fits)⟩
  | start i changes => exact goes_start hp i changes
  | write i => exact goes_write hp i

theorem afterAll (moves : List (Move ι)) :
    ∃ s, (p.afterAll original.id moves).Sound original s := by
  induction moves generalizing p r with
  | nil => exact ⟨r, hp⟩
  | cons m rest ih =>
    obtain ⟨s, hgoes⟩ := hp.goes_after m
    exact ih (hp.revised.id ▸ hgoes.sound)

end Sound

/-! ## No update is lost -/

/-- A writer that no one gets in the way of patches the record as a whole. -/
theorem patch_alone {id : Uuid} {p : Writers ι} {i : ι} {s : Record} (hhand : p.hand i = .seen s)
    (changes : ChangeSet) : (p.start id i changes).write id i
      = p.ended i s changes (Record.patch id changes.fields s.version p.world) := by
  rw [Record.patch_parts, start, hhand]
  dsimp only
  cases hprepare : Record.prepare id changes.fields s.version p.world with
  | ok next v =>
    rw [bind_ok hprepare]
    dsimp only
    rw [write, hand_put]
    exact ended_put p i v s changes _
  | error e v =>
    rw [bind_error hprepare]
    dsimp only [ended]
    rw [write, hand_put]

/-- A record that was created is stored at its first version; who asked for it sees what was given. -/
theorem create_yields (d : Record.Draft) (w : World) :
    Yields (Record.create d) w fun r v => ∃ original, r = d.seen original ∧ original.version = 1
      ∧ (v.tables.RecordsDistinct → v.tables.Holds original) := by
  unfold Record.create
  have shapes : Looks (Flow.shaped d.fields.mapping) := .shaped anyCause _
  refine shapes.yields fun fields => .step (a := w.clock.wall) (t := w) rfl ?_
  refine (insertTaken_ends _ _ w).yields.bind fun row v hrow => ?_
  obtain ⟨hrow, rfl⟩ := hrow
  refine (shaped_ends _ _).yields.bind fun r v hr => .pure ?_
  obtain ⟨rfl, hr⟩ := hr
  refine ⟨r, rfl, ?_, fun hdistinct => .of_mem hdistinct ?_ hr⟩
  · rw [StoredRecord.version_of_toRecord hr]
    exact Record.version_of_row hrow
  · exact List.mem_append_right _ (List.mem_singleton_self row)

/-- However writers get in each other's way, the stored record is the one that was created with the
changes of all patches that were done, each of them made over the record that the one before it left;
a patch that was not made over the stored version is told so, and one that the columns do not take is
refused by them. Nothing changes but by a patch that is done. -/
theorem afterAll_revised {d : Record.Draft} {w v : World} {r : Record}
    (hcreate : Record.create d w = .ok r v) (hcalm : v.rivalWrites = 0)
    (hdistinct : v.tables.RecordsDistinct) (moves : List (Move ι)) :
    let p := (opened v).afterAll r.id moves
    ∃ original stored, r = d.seen original ∧ original.version = 1 ∧ v.tables.Holds original
      ∧ stored.id = r.id ∧ p.world.tables.Holds stored ∧ original.Revised p.revisions stored
      ∧ stored.version = 1 + p.revisions.countP Revision.isDone
      ∧ (p.revisions.filter Revision.isDone).foldlM (fun s t => s.patched? t.changes.fields) original
        = some stored
      ∧ ∀ m : Move ι, p.Changes (m.after r.id p) := by
  intro p
  obtain ⟨original, hseen, hversion, hholds⟩ := (create_yields d w).ok_of hcreate
  have hid : r.id = original.id := by rw [hseen]; rfl
  have hopened : (opened v : Writers ι).Sound original original :=
    ⟨hcalm, hdistinct, hholds hdistinct, hversion ▸ by decide, .nil, fun _ => trivial⟩
  obtain ⟨stored, hp⟩ := hopened.afterAll moves
  rw [← hid] at hp
  have hstored : stored.id = r.id := hp.revised.id.trans hid.symm
  refine ⟨original, stored, hseen, hversion, hholds hdistinct, hstored, hp.holds, hp.revised,
    hversion ▸ hp.revised.version, hp.revised.applied, fun m => ?_⟩
  obtain ⟨_, hgoes⟩ := hp.goes_after m
  exact hstored ▸ hgoes.changes

def blank : World := .initial ⟨⟨0⟩, 0⟩ .standard .complete []

def deal : Record.Draft :=
  ⟨.str "deals", .null, .null, .str "new", .obj [("amount", .int 10)], .null⟩

/-- Two writers have read the deal and are about to write it. One of them is overtaken and tries
again. -/
def contested : List (Move (Fin 2)) :=
  let amount : ChangeSet := .single "amount" (.int 20)
  [.look 0, .look 1, .start 0 amount, .start 1 (.single "title" (.int 5)), .write 1, .write 0,
   .look 0, .start 0 amount, .write 0]

def summary (p : Writers ι) : List (ι × Int × Option Failure) :=
  p.log.map fun x => (x.1, x.2.seen.version, x.2.failure?)

omit [DecidableEq ι] in
theorem countP_revisions (p : Writers ι) :
    p.revisions.countP Revision.isDone = p.summary.countP fun x => x.2.2.isNone := by
  unfold revisions summary
  rw [List.countP_map, List.countP_map]
  rfl

def dealtAs {ι : Type} [DecidableEq ι] (moves : List (Move ι))
    (outcome : Uuid → List (ι × Int × Option Failure)) : Bool :=
  passes (Record.create deal) blank fun r v => decide (v.rivalWrites = 0)
    && decide (v.tables.records.map StoredRecord.id).Nodup
    && decide (((opened v).afterAll r.id moves).summary = outcome r.id)

theorem of_dealtAs {moves : List (Move ι)} {outcome : Uuid → List (ι × Int × Option Failure)}
    (h : dealtAs moves outcome = true) : ∃ r v, Record.create deal blank = .ok r v
      ∧ v.rivalWrites = 0 ∧ v.tables.RecordsDistinct
      ∧ ((opened v).afterAll r.id moves).summary = outcome r.id := by
  have ends := Ends.of_passes h
  cases hcreate : Record.create deal blank with
  | error e v => exact (ends.bad_of hcreate).elim
  | ok r v =>
    have htest := ends.ok_of hcreate
    rw [Bool.and_eq_true, Bool.and_eq_true, decide_eq_true_eq, decide_eq_true_eq,
      decide_eq_true_eq] at htest
    exact ⟨r, v, rfl, htest.1.1, htest.1.2, htest.2⟩

set_option maxRecDepth 10000 in
theorem dealtAs_contested : dealtAs contested (fun id =>
    [(1, 1, none), (0, 1, some (.stale id 1)), (0, 2, none)]) = true := by
  decide +kernel

/-- The writer that was overtaken is told so, and both changes are there in the end. -/
theorem afterAll_revised_contested : ∃ r v, Record.create deal blank = .ok r v
    ∧ v.rivalWrites = 0 ∧ v.tables.RecordsDistinct
    ∧ let p := (opened v).afterAll r.id contested
      p.summary = [(1, 1, none), (0, 1, some (.stale r.id 1)), (0, 2, none)]
      ∧ ∃ original stored, r = deal.seen original ∧ original.version = 1 ∧ v.tables.Holds original
        ∧ stored.id = r.id ∧ p.world.tables.Holds stored ∧ original.Revised p.revisions stored
        ∧ stored.version = 3 ∧ ∀ m : Move (Fin 2), p.Changes (m.after r.id p) := by
  obtain ⟨r, v, hcreate, hcalm, hdistinct, hsummary⟩ := of_dealtAs dealtAs_contested
  obtain ⟨original, stored, hseen, hfirst, horiginal, hid, hholds, hrevised, hversion, -, hchanges⟩ :=
    afterAll_revised hcreate hcalm hdistinct contested
  rw [countP_revisions, hsummary] at hversion
  exact ⟨r, v, hcreate, hcalm, hdistinct, hsummary, original, stored, hseen, hfirst, horiginal, hid,
    hholds, hrevised, hversion, hchanges⟩

def unflagged : List (Move (Fin 1)) := [.look 0, .start 0 (.single "is_open" .null), .write 0]

theorem dealtAs_unflagged : dealtAs unflagged (fun _ => [(0, 1, some .constraint)]) = true := by
  decide +kernel

/-- A patch that is not done need not have been overtaken. -/
theorem afterAll_refused_by_columns : ¬ ∀ (d : Record.Draft) (w v : World) (r : Record)
    (moves : List (Move (Fin 1))), Record.create d w = .ok r v → v.rivalWrites = 0 →
      v.tables.RecordsDistinct →
      ∀ t ∈ ((opened v).afterAll r.id moves).revisions, ∀ e, t.answer = .error e →
        (∃ id version, e = .stale id version) ∨ ∃ table id, e = .notFound table id := by
  intro h
  obtain ⟨r, v, hcreate, hcalm, hdistinct, hsummary⟩ := of_dealtAs dealtAs_unflagged
  obtain ⟨x, hlog, hx⟩ := List.map_eq_singleton_iff.mp hsummary
  have hthere : x.2 ∈ ((opened v).afterAll r.id unflagged).revisions := by
    rw [revisions, hlog]
    exact List.mem_singleton_self x.2
  have hfailure : x.2.failure? = some .constraint := congrArg (fun y => y.2.2) hx
  rcases h deal blank v r unflagged hcreate hcalm hdistinct x.2 hthere .constraint
    (Revision.answer_of_failure? hfailure) with ⟨_, _, heq⟩ | ⟨_, _, heq⟩
  · cases heq
  · cases heq

end Writers

end RecordFlow
