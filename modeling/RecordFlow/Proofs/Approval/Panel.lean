import RecordFlow.Proofs.Approval.Lockstep
import RecordFlow.Proofs.Approval.Serial

/-! # Panels of actors

Actors who are at approvals at once. Each action is cut into the parts that anything may come between:
the row is loaded, the action is checked against it, then it is claimed and saved at once, and at last
it is concluded. The actions that go through are a serial run, in the order of their claims; any other
is refused, or fails, and leaves approvals and entries alone.
-/
namespace RecordFlow
open RecordFlow.Flow Calendar
variable {ι : Type} {w : World}

/-! ## Parts of actions -/

namespace Approval

def review (a : Approval) (r : ApprovalRequest) :
    Flow (Except ApprovalResult (ApprovalProcess × List ApprovalStep)) := do
  let (cause, p, steps) ← a.check r
  match cause with
  | some cause => .error <$> a.refuse r.verdict.name cause
  | none => return .ok (p, steps)

def attempt (a : Approval) (r : ApprovalRequest) (steps : List ApprovalStep) :
    Flow (Except ApprovalResult Proceeding) := do
  match ← a.settle r steps with
  | none => .error <$> a.refuse r.verdict.name .overtaken
  | some d => return .ok d

def attemptAgain (a : Approval) (actor : String) (comment : Option String) :
    Flow (Except ApprovalResult Proceeding) := do
  match ← a.settleAgain actor comment with
  | none => .error <$> a.refuse "resubmit" .overtaken
  | some d => return .ok d

/-- An action is made of its parts. -/
theorem act_parts (a : Approval) (r : ApprovalRequest) : a.act r = (do
    match ← a.review r with
    | .error result => return result
    | .ok (p, steps) =>
      match ← a.attempt r steps with
      | .error result => return result
      | .ok d => a.conclude r p steps d.left) := by
  rw [act_eq, review, bind_assoc]
  refine bind_congr fun c => ?_
  obtain ⟨cause, p, steps⟩ := c
  cases cause with
  | some cause => simp only [map_eq_pure_bind, bind_assoc, pure_bind, bind_pure]
  | none =>
    simp only [pure_bind, attempt, bind_assoc]
    refine bind_congr fun d => ?_
    cases d with
    | none => simp only [map_eq_pure_bind, bind_assoc, pure_bind, bind_pure]
    | some d => rfl

theorem resubmit_parts (a : Approval) (actor : String) (comment : Option String) :
    a.resubmit actor comment = (do
      match a.resubmission? actor with
      | some cause => a.refuse "resubmit" cause
      | none =>
        match ← a.attemptAgain actor comment with
        | .error result => return result
        | .ok d => a.concludeAgain actor d.left) := by
  rw [resubmit_eq]
  cases a.resubmission? actor with
  | some cause => rfl
  | none =>
    simp only [attemptAgain, bind_assoc]
    refine bind_congr fun d => ?_
    cases d with
    | none => simp only [map_eq_pure_bind, bind_assoc, pure_bind, bind_pure]
    | some d => rfl

end Approval

/-! ## How the parts end -/

namespace World
variable {v : World} {ds : List Proceeding}

theorem Orderly.settles_nil (hw : w.Orderly) (hsaved : v.saved.docket = w.saved.docket)
    (htables : v.tables.docket = w.tables.docket)
    (hnumbers : w.nextNumber .approval ≤ v.nextNumber .approval)
    (hrivals : v.rivalWrites ≤ w.rivalWrites) : w.Settles [] v where
  orderly := by
    have kept : w.Kept Docket.Turn v := hw.kept_of_docket hsaved htables hnumbers hrivals
    exact kept.orderly
  rivals := hrivals
  takes := htables ▸ .nil _

theorem Orderly.settles_undone (hw : w.Orderly) (h : Filing w v) : w.Settles [] v.rolledBack := by
  have hsaved : v.rolledBack.saved.docket = w.saved.docket := congrArg Tables.docket h.saved
  exact hw.settles_nil hsaved (hsaved.trans hw.saved) (h.numbers .approval) h.rivals

theorem Settles.committed (h : w.Settles ds v) : w.Settles ds v.committed :=
  ⟨⟨rfl, h.orderly.given⟩, h.rivals, h.takes⟩

end World

namespace Approval
variable {a : Approval}

def Answered {α : Type} (w : World) (ok : α → World → Prop) : Except ApprovalResult α → World → Prop
  | .error result, v => result.isInvalid = true ∧ w.Settles [] v
  | .ok x, v => ok x v

theorem refuse_ends (hw : w.Orderly) (a : Approval) (action : String) (cause : ActRefusal) :
    Ends (a.refuse action cause) w (fun result v => result.isInvalid = true ∧ w.Settles [] v)
      fun _ v => w.Settles [] v.rolledBack := by
  unfold refuse
  refine Ends.step (a := ()) rfl (.guarded (fun _ => ?_) fun _ => .pure ⟨rfl, ?_⟩)
  · exact hw.settles_nil rfl hw.saved (Nat.le_refl _) (Nat.le_refl _)
  · exact hw.settles_nil rfl rfl (Nat.le_refl _) (Nat.le_refl _)

theorem refused_ends {α : Type} {ok : α → World → Prop} (hw : w.Orderly) (a : Approval)
    (action : String) (cause : ActRefusal) :
    Ends (.error <$> a.refuse action cause : Flow (Except ApprovalResult α)) w (Answered w ok)
      fun _ v => w.Settles [] v.rolledBack :=
  Ends.map (refuse_ends hw a action cause)

theorem review_ends (hw : w.Orderly) (a : Approval) (r : ApprovalRequest) :
    Ends (a.review r) w
      (Answered w fun c v => v = w ∧ Cleared w.tables.docket.processes a r c.2)
      fun _ v => w.Settles [] v.rolledBack := by
  refine (check_ends a r w).bind (fun _ v h => ?_) fun c v _ h => ?_
  · rw [h]
    exact hw.settles_nil rfl hw.saved (Nat.le_refl _) (Nat.le_refl _)
  · obtain ⟨cause, p, steps⟩ := c
    obtain ⟨rfl, hcleared⟩ := h
    cases cause with
    | some cause => exact refused_ends hw a _ cause
    | none => exact .pure ⟨rfl, hcleared rfl⟩

/-- A call that claims its row answers with what it claimed, and one that was overtaken is refused. -/
theorem answered_ends {part : Flow (Option Proceeding)} (verb : String) (hw : w.Orderly)
    (hpart : Ends part w (Claimed w fun d v => d.seen = a ∧ w.Settles [d] v) fun _ v => Filing w v) :
    Ends
      (do match ← part with
          | none => .error <$> a.refuse verb .overtaken
          | some d => return .ok d)
      w (Answered w fun d v => d.seen = a ∧ w.Settles [d] v) fun _ v => w.Settles [] v.rolledBack := by
  refine hpart.bind (fun _ _ h => hw.settles_undone h) fun d v _ h => ?_
  cases d with
  | none =>
    obtain rfl : v = w := h
    exact refused_ends hw a _ .overtaken
  | some d => exact .pure h

theorem attempt_ends {r : ApprovalRequest} {steps : List ApprovalStep} (hw : w.Orderly)
    (hcalm : w.rivalWrites = 0) (hseen : a.SeenIn w.tables.docket)
    (hcleared : Cleared w.tables.docket.processes a r steps) :
    Ends (a.attempt r steps) w (Answered w fun d v => d.seen = a ∧ w.Settles [d] v)
      fun _ v => w.Settles [] v.rolledBack :=
  answered_ends _ hw (settle_ends hw hcalm hseen hcleared)

theorem attemptAgain_ends {actor : String} {comment : Option String} (hw : w.Orderly)
    (hcalm : w.rivalWrites = 0) (hseen : a.SeenIn w.tables.docket)
    (hmay : a.resubmission? actor = none) :
    Ends (a.attemptAgain actor comment) w (Answered w fun d v => d.seen = a ∧ w.Settles [d] v)
      fun _ v => w.Settles [] v.rolledBack :=
  answered_ends _ hw (settleAgain_ends hw hcalm hseen hmay)

end Approval

/-! ## Seats -/

/-- Where an actor stands, and what it holds in its hands. -/
inductive Seat where
  | idle
  | loaded (a : Approval)
  | listed (m : Moment) (rows : List Approval)
  | cleared (a : Approval) (r : ApprovalRequest) (p : ApprovalProcess) (steps : List ApprovalStep)
  | again (a : Approval) (actor : String) (comment : Option String)
  | settled (rest : Flow Unit)
  | refused (result : ApprovalResult)

namespace Seat

def rows : Seat → List Approval
  | cleared a .. | again a .. => [a]
  | listed _ rows => rows
  | idle | loaded _ | settled _ | refused _ => []

def claims : Seat → Option Approval
  | cleared a .. | again a .. => some a
  | idle | loaded _ | listed _ _ | settled _ | refused _ => none

/-- What an actor holds is as it was seen in the docket, and was checked. -/
def Held (D : Docket) : Seat → Prop
  | idle => True
  | loaded a => a.SeenIn D
  | listed _ rows => ∀ a ∈ rows, a.SeenIn D ∧ a.status = .pending
  | cleared a r _ steps => a.SeenIn D ∧ Approval.Cleared D.processes a r steps
  | again a actor _ => a.SeenIn D ∧ a.resubmission? actor = none
  | settled rest => Upholds (Keeping Docket.Marks) rest
  | refused result => result.isInvalid = true

theorem Held.mono {D E : Docket} {s : Seat} (h : s.Held D)
    (hseen : ∀ a : Approval, a.SeenIn D → a.SeenIn E)
    (hreads : ∀ process steps, HasSteps D.processes process steps →
      HasSteps E.processes process steps) :
    s.Held E := by
  cases s with
  | idle => trivial
  | loaded a => exact hseen a h
  | listed _ rows => exact fun a ha => ⟨hseen a (h a ha).1, (h a ha).2⟩
  | cleared a r _ steps => exact ⟨hseen a h.1, hreads _ _ h.2.reads, h.2.cancels, h.2.decides⟩
  | again a _ _ => exact ⟨hseen a h.1, h.2⟩
  | settled rest => exact h
  | refused result => exact h

/-- What an actor holds stays seen, whatever is done by others. -/
theorem Held.run {D E : Docket} {ds : List Proceeding} {s : Seat} (h : s.Held D) (hruns : D.Runs ds E)
    (hD : (D.approvals.map Approval.id).Nodup) : s.Held E := by
  induction hruns with
  | nil => exact h
  | aside hbefore haside ih =>
    refine ih.mono (fun a ha => ha.aside haside) fun process steps hreads => ?_
    cases haside with
    | create p => exact hreads.create p
    | submit => exact hreads
    | mark hmarks => cases hmarks; exact hreads
  | act hbefore hadmits ih =>
    exact ih.mono (fun a ha => ha.act (hbefore.distinct hD) hadmits) fun _ _ h => h

end Seat

/-! ## Panels -/

/-- The world that all actors share, where each of them stands, and who did what so far. -/
structure Panel (ι : Type) where
  world : World
  seat : ι → Seat
  log : List (ι × Proceeding)

namespace Panel

def opened (w : World) : Panel ι := ⟨w, fun _ => .idle, []⟩

def docket (p : Panel ι) : Docket := p.world.tables.docket

/-- A part is saved if it succeeds and undone if it fails, and the panel goes on from its answer. -/
def carry {α : Type} (p : Panel ι) (part : Flow α) (next : Option α → Panel ι → Panel ι) : Panel ι :=
  match part p.world with
  | .ok a v => next (some a) { p with world := v.committed }
  | .error _ v => next none { p with world := v.rolledBack }

variable [DecidableEq ι]

def put (p : Panel ι) (i : ι) (seat : Seat) (ds : List Proceeding) : Panel ι :=
  { p with seat := Function.update p.seat i seat, log := p.log ++ ds.map (Prod.mk i) }

/-- An actor loads an approval. If it was at another action, it breaks that off. -/
def load (p : Panel ι) (i : ι) (approval : Uuid) : Panel ι :=
  p.carry (fetch Approval approval) fun
    | some a, q => q.put i (.loaded a) []
    | none, q => q.put i .idle []

def list (p : Panel ι) (i : ι) (m : Moment) : Panel ι :=
  p.carry Approval.expirable fun
    | some rows, q => q.put i (.listed m rows) []
    | none, q => q.put i .idle []

def check (p : Panel ι) (i : ι) (r : ApprovalRequest) : Panel ι :=
  match p.seat i with
  | .loaded a => p.carry (a.review r) fun
    | some (.ok (process, steps)), q => q.put i (.cleared a r process steps) []
    | some (.error result), q => q.put i (.refused result) []
    | none, q => q.put i .idle []
  | _ => p

def checkAgain (p : Panel ι) (i : ι) (actor : String) (comment : Option String) : Panel ι :=
  match p.seat i with
  | .loaded a =>
    match a.resubmission? actor with
    | none => p.put i (.again a actor comment) []
    | some cause => p.carry (a.refuse "resubmit" cause) fun
      | some result, q => q.put i (.refused result) []
      | none, q => q.put i .idle []
  | _ => p

def attempt (p : Panel ι) (i : ι) (part : Flow (Except ApprovalResult Proceeding))
    (rest : Approval → Flow ApprovalResult) : Panel ι :=
  p.carry part fun
    | some (.ok d), q => q.put i (.settled (discard (rest d.left))) [d]
    | some (.error result), q => q.put i (.refused result) []
    | none, q => q.put i .idle []

def settle (p : Panel ι) (i : ι) : Panel ι :=
  match p.seat i with
  | .cleared a r process steps => p.attempt i (a.attempt r steps) (a.conclude r process steps)
  | .again a actor comment => p.attempt i (a.attemptAgain actor comment) (a.concludeAgain actor)
  | .listed m rows => p.carry (Approval.settleExpired m rows) fun
    | some ds, q => q.put i (.settled (Approval.announceAll ds)) ds
    | none, q => q.put i .idle []
  | _ => p

def conclude (p : Panel ι) (i : ι) : Panel ι :=
  match p.seat i with
  | .settled rest => p.carry rest fun _ q => q.put i .idle []
  | _ => p

inductive Move (ι : Type) where
  | load (i : ι) (approval : Uuid)
  | list (i : ι) (m : Moment)
  | check (i : ι) (r : ApprovalRequest)
  | checkAgain (i : ι) (actor : String) (comment : Option String)
  | settle (i : ι)
  | conclude (i : ι)
  | aside (part : Flow Unit) (h : ∀ w : World, w.Orderly → Closes Docket.Aside part w)

namespace Move

def ask (c : Command) (h : c.acts = false) : Move ι := aside c.run fun _ hw => c.run_aside hw h

def actor? : Move ι → Option ι
  | load i _ | list i _ | check i _ | checkAgain i _ _ | settle i => some i
  | conclude _ | aside _ _ => none

/-- The panel after a move. Nothing happens if the move is not the next one of its actor. -/
def after : Move ι → Panel ι → Panel ι
  | load i approval, p => p.load i approval
  | list i m, p => p.list i m
  | check i r, p => p.check i r
  | checkAgain i actor comment, p => p.checkAgain i actor comment
  | settle i, p => p.settle i
  | conclude i, p => p.conclude i
  | aside part _, p => p.carry part fun _ q => q

end Move

def afterAll (p : Panel ι) (moves : List (Move ι)) : Panel ι :=
  moves.foldl (fun p m => m.after p) p

/-! ## What a move does -/

/-- All is saved, and what actors hold is as they saw it; nobody gets in between parts of a part. -/
structure Sound (p : Panel ι) : Prop where
  orderly : p.world.Orderly
  calm : p.world.rivalWrites = 0
  held : ∀ i, (p.seat i).Held p.docket

structure Acts (p : Panel ι) (i : ι) (ds : List Proceeding) (q : Panel ι) : Prop where
  settles : p.world.Settles ds q.world
  log : q.log = p.log ++ ds.map (Prod.mk i)
  seen : ∀ d ∈ ds, d.seen ∈ (p.seat i).rows
  others : ∀ k, k ≠ i → q.seat k = p.seat k
  held : (q.seat i).Held q.docket

structure Goes (p : Panel ι) (news : List (ι × Proceeding)) (q : Panel ι) : Prop where
  sound : q.Sound
  log : q.log = p.log ++ news
  runs : p.docket.Runs (news.map Prod.snd) q.docket

/-- An actor acted on the very row that its action was checked against, or it was turned away and did
nothing. -/
def Decides (p : Panel ι) (i : ι) (a : Approval) (q : Panel ι) : Prop :=
  (∃ d, d.seen = a ∧ p.Acts i [d] q)
    ∨ p.Acts i [] q
      ∧ (q.seat i = .idle ∨ ∃ result, q.seat i = .refused result ∧ result.isInvalid = true)

section Ends
omit [DecidableEq ι]
variable {p q : Panel ι} {i : ι} {ds : List Proceeding}

theorem carry_ends {α : Type} {part : Flow α} {next : Option α → Panel ι → Panel ι}
    {P : Panel ι → Prop}
    (h : Ends part p.world (fun a v => P (next (some a) { p with world := v.committed }))
      fun _ v => P (next none { p with world := v.rolledBack })) : P (p.carry part next) := by
  unfold carry
  cases hpart : part p.world with
  | ok a v => exact h.ok_of hpart
  | error e v => exact h.bad_of hpart

theorem Sound.still (hp : p.Sound) : p.world.Settles [] p.world.committed :=
  (hp.orderly.settles_nil rfl rfl (Nat.le_refl _) (Nat.le_refl _)).committed

theorem Sound.back (hp : p.Sound) : p.world.Settles [] p.world.rolledBack :=
  hp.orderly.settles_nil rfl hp.orderly.saved (Nat.le_refl _) (Nat.le_refl _)

theorem Sound.acts_refl (hp : p.Sound) : p.Acts i [] p where
  settles := hp.orderly.settles_nil rfl rfl (Nat.le_refl _) (Nat.le_refl _)
  log := (List.append_nil _).symm
  seen := List.forall_mem_nil _
  others _ _ := rfl
  held := hp.held i

theorem Sound.goes_refl (hp : p.Sound) : p.Goes [] p := ⟨hp, (List.append_nil _).symm, .nil⟩

theorem Goes.trans {o : Panel ι} {news news' : List (ι × Proceeding)} (h : p.Goes news q)
    (h' : q.Goes news' o) : p.Goes (news ++ news') o where
  sound := h'.sound
  log := by rw [h'.log, h.log, List.append_assoc]
  runs := List.map_append ▸ h.runs.trans h'.runs

theorem Sound.goes (hp : p.Sound) {news : List (ι × Proceeding)} (hq : q.world.Orderly)
    (hrivals : q.world.rivalWrites ≤ p.world.rivalWrites) (hlog : q.log = p.log ++ news)
    (hruns : p.docket.Runs (news.map Prod.snd) q.docket)
    (hseats : ∀ k, q.seat k = p.seat k ∨ (q.seat k).Held q.docket) : p.Goes news q where
  sound := by
    refine ⟨hq, Nat.le_zero.mp (hp.calm ▸ hrivals), fun k => ?_⟩
    rcases hseats k with hsame | hheld
    · exact hsame ▸ (hp.held k).run hruns hp.orderly.given.distinct
    · exact hheld
  log := hlog
  runs := hruns

theorem Acts.goes (hp : p.Sound) (h : p.Acts i ds q) : p.Goes (ds.map (Prod.mk i)) q := by
  have same : (ds.map (Prod.mk i)).map Prod.snd = ds := by
    rw [List.map_map]
    exact List.map_id' ds
  refine hp.goes h.settles.orderly h.settles.rivals h.log (same.symm ▸ .of_takes h.settles.takes)
    fun k => ?_
  by_cases hk : k = i
  · exact .inr (hk ▸ h.held)
  · exact .inl (h.others k hk)

theorem Sound.goes_aside (hp : p.Sound) (hkept : p.world.Kept Docket.Aside q.world)
    (hlog : q.log = p.log) (hseats : ∀ k, q.seat k = p.seat k ∨ q.seat k = .idle) :
    p.Goes [] q :=
  hp.goes hkept.orderly hkept.rivals (hlog.trans (List.append_nil _).symm) (.of_asides hkept.steps)
    fun k => (hseats k).imp_right fun hidle => by
      rw [hidle]
      trivial

end Ends

variable {p : Panel ι} {i : ι} {ds : List Proceeding}

theorem seat_put (p : Panel ι) (i : ι) (seat : Seat) (ds : List Proceeding) :
    (p.put i seat ds).seat i = seat := by
  unfold put
  exact Function.update_self _ _ _

theorem acts_put {v : World} {seat : Seat} (h : p.world.Settles ds v)
    (hseen : ∀ d ∈ ds, d.seen ∈ (p.seat i).rows) (hheld : seat.Held v.tables.docket) :
    p.Acts i ds ({ p with world := v }.put i seat ds) where
  settles := h
  log := rfl
  seen := hseen
  others k hk := Function.update_of_ne hk _ _
  held := by
    rw [seat_put]
    exact hheld

theorem acts_none {v : World} {seat : Seat} (h : p.world.Settles [] v)
    (hheld : seat.Held v.tables.docket) : p.Acts i [] ({ p with world := v }.put i seat []) :=
  acts_put h (List.forall_mem_nil _) hheld

/-- A claim goes through on the row that was checked, or the actor is turned away. -/
theorem acts_attempt {a : Approval} {part : Flow (Except ApprovalResult Proceeding)}
    {rest : Approval → Flow ApprovalResult} (ha : a ∈ (p.seat i).rows)
    (hpart : Ends part p.world
      (Approval.Answered p.world fun d v => d.seen = a ∧ p.world.Settles [d] v)
      fun _ v => p.world.Settles [] v.rolledBack)
    (hrest : ∀ left, Upholds (Keeping Docket.Marks) (rest left)) :
    p.Decides i a (p.attempt i part rest) := by
  refine carry_ends (P := p.Decides i a) (hpart.mono (fun c v h => ?_) fun _ v h => ?_)
  · cases c with
    | error result =>
      exact .inr ⟨acts_none h.2.committed h.1, .inr ⟨result, seat_put _ _ _ _, h.1⟩⟩
    | ok d =>
      obtain ⟨hseen, hsettles⟩ := h
      refine .inl ⟨d, hseen, acts_put hsettles.committed (fun c hc => ?_) ?_⟩
      · rw [List.mem_singleton.mp hc, hseen]
        exact ha
      · exact .map _ (hrest d.left)
  · exact .inr ⟨acts_none h trivial, .inl (seat_put _ _ _ _)⟩

section Acts
variable (hp : p.Sound)
include hp

theorem acts_load (i : ι) (approval : Uuid) : p.Acts i [] (p.load i approval) := by
  refine carry_ends ((fetch_ends approval p.world).mono ?_ ?_)
  · rintro a v ⟨rfl, hfound⟩
    exact acts_none hp.still (.of_mem (List.mem_of_find?_eq_some hfound))
  · rintro - v ⟨rfl, -⟩
    exact acts_none hp.back trivial

theorem acts_list (i : ι) (m : Moment) : p.Acts i [] (p.list i m) :=
  acts_none hp.still p.world.seen_expirable

theorem acts_check (i : ι) (r : ApprovalRequest) : p.Acts i [] (p.check i r) := by
  unfold check
  split
  · next a hseat =>
    have hseen : a.SeenIn p.docket := (hseat ▸ hp.held i : (Seat.loaded a).Held p.docket)
    refine carry_ends ((Approval.review_ends hp.orderly a r).mono (fun c v h => ?_) fun _ v h => ?_)
    · cases c with
      | error result => exact acts_none h.2.committed h.1
      | ok c =>
        obtain ⟨rfl, hcleared⟩ := h
        exact acts_none hp.still ⟨hseen, hcleared⟩
    · exact acts_none h trivial
  · exact hp.acts_refl

theorem acts_checkAgain (i : ι) (actor : String) (comment : Option String) :
    p.Acts i [] (p.checkAgain i actor comment) := by
  unfold checkAgain
  split
  · next a hseat =>
    have hseen : a.SeenIn p.docket := (hseat ▸ hp.held i : (Seat.loaded a).Held p.docket)
    split
    · next hmay =>
      have unmoved := hp.orderly.settles_nil rfl rfl (Nat.le_refl _) (Nat.le_refl _)
      exact acts_none unmoved ⟨hseen, hmay⟩
    · next cause hmay =>
      refine carry_ends ((Approval.refuse_ends hp.orderly a _ cause).mono ?_ ?_)
      · exact fun result v h => acts_none h.2.committed h.1
      · exact fun _ v h => acts_none h trivial
  · exact hp.acts_refl

/-- An actor that is about to claim a row acts on it, or is turned away. -/
theorem decides_settle {a : Approval} (hclaims : (p.seat i).claims = some a) :
    p.Decides i a (p.settle i) := by
  have held := hp.held i
  unfold settle
  cases hseat : p.seat i with
  | cleared b r process steps =>
    rw [hseat] at hclaims held
    obtain rfl : b = a := Option.some.inj hclaims
    refine acts_attempt (hseat ▸ List.mem_singleton_self b) ?_ (Approval.keeping_conclude b r _ _)
    exact Approval.attempt_ends hp.orderly hp.calm held.1 held.2
  | again b actor comment =>
    rw [hseat] at hclaims held
    obtain rfl : b = a := Option.some.inj hclaims
    refine acts_attempt (hseat ▸ List.mem_singleton_self b) ?_
      (Approval.keeping_concludeAgain b actor)
    exact Approval.attemptAgain_ends hp.orderly hp.calm held.1 held.2
  | idle | loaded | listed | settled | refused =>
    rw [hseat] at hclaims
    cases hclaims

theorem acts_settle (i : ι) : ∃ ds, p.Acts i ds (p.settle i) := by
  cases hclaims : (p.seat i).claims with
  | some a =>
    rcases decides_settle hp hclaims with ⟨d, -, hacts⟩ | ⟨hacts, -⟩
    · exact ⟨[d], hacts⟩
    · exact ⟨[], hacts⟩
  | none =>
    have held := hp.held i
    unfold settle
    cases hseat : p.seat i with
    | cleared | again =>
      rw [hseat] at hclaims
      cases hclaims
    | idle | loaded | settled | refused => exact ⟨[], hp.acts_refl⟩
    | listed m rows =>
      rw [hseat] at held
      have expires := Approval.settleExpired_ends (m := m) hp.orderly hp.calm held
      refine carry_ends (P := fun q => ∃ ds, p.Acts i ds q)
        (expires.mono (fun ds v h => ?_) fun _ v h => ?_)
      · refine ⟨ds, acts_put h.1.committed (fun d hd => ?_) (Approval.keeping_announceAll ds)⟩
        rw [hseat]
        exact h.2 d hd
      · exact ⟨[], acts_none (hp.orderly.settles_undone h) trivial⟩

/-- An actor does nothing but what it did at once, be it a part of an action or the whole. -/
theorem acts_after (m : Move ι) (hactor : m.actor? = some i) : ∃ ds, p.Acts i ds (m.after p) := by
  cases m with
  | load k approval =>
    cases hactor
    exact ⟨[], acts_load hp i approval⟩
  | list k m =>
    cases hactor
    exact ⟨[], acts_list hp i m⟩
  | check k r =>
    cases hactor
    exact ⟨[], acts_check hp i r⟩
  | checkAgain k actor comment =>
    cases hactor
    exact ⟨[], acts_checkAgain hp i actor comment⟩
  | settle k =>
    cases hactor
    exact acts_settle hp i
  | conclude | aside => cases hactor

theorem goes_conclude (i : ι) : p.Goes [] (p.conclude i) := by
  unfold conclude
  split
  · next rest hseat =>
    have hrest : Upholds (Keeping Docket.Marks) rest :=
      (hseat ▸ hp.held i : (Seat.settled rest).Held p.docket)
    have gone {v : World} (h : p.world.Kept Docket.Marks v) :
        p.Goes [] ({ p with world := v }.put i .idle []) := by
      refine hp.goes_aside (h.mono fun _ _ => .mark) (List.append_nil _) fun k => ?_
      by_cases hk : k = i
      · exact .inr (hk ▸ seat_put _ _ _ _)
      · exact .inl (Function.update_of_ne hk _ _)
    refine carry_ends (Ends.mono (hrest p.world) (fun _ v h => ?_) fun _ v h => ?_)
    · have kept := h hp.orderly
      exact gone (kept.trans kept.orderly.committed)
    · exact gone (h hp.orderly)
  · exact hp.goes_refl

/-- Whatever moves, the panel goes on. -/
theorem goes_after (m : Move ι) : ∃ news, p.Goes news (m.after p) := by
  cases hactor : m.actor? with
  | some i =>
    obtain ⟨ds, hacts⟩ := acts_after hp m hactor
    exact ⟨_, hacts.goes hp⟩
  | none =>
    cases m with
    | conclude i => exact ⟨[], goes_conclude hp i⟩
    | aside part hpart =>
      have gone {v : World} (h : p.world.Kept Docket.Aside v) : p.Goes [] { p with world := v } :=
        hp.goes_aside h rfl fun _ => .inl rfl
      refine ⟨[], ?_⟩
      show p.Goes [] (p.carry part fun _ q => q)
      refine carry_ends ?_
      exact Ends.mono (hpart p.world hp.orderly) (fun _ _ h => gone h) fun _ _ h => gone h
    | load | list | check | checkAgain | settle => cases hactor

theorem goes_afterAll (moves : List (Move ι)) : ∃ news, p.Goes news (p.afterAll moves) := by
  induction moves generalizing p with
  | nil => exact ⟨[], hp.goes_refl⟩
  | cons m rest ih =>
    obtain ⟨news, head⟩ := goes_after hp m
    obtain ⟨news', tail⟩ := ih head.sound
    exact ⟨news ++ news', head.trans tail⟩

end Acts

/-! ## Serial runs -/

/-- However actors get in each other's way, what they do is a serial run in the order of their claims,
which leads every approval from row to row; a claim goes through on the very row that the action was
checked against, and an actor that does not get through does nothing. -/
theorem afterAll_serial (hw : w.Orderly) (hcalm : w.rivalWrites = 0) (before later : List (Move ι)) :
    let q := (opened w).afterAll before
    let p := q.afterAll later
    (∃ news, p.log = q.log ++ news ∧ q.docket.Runs (news.map Prod.snd) p.docket
      ∧ ∀ a ∈ q.world.tables.approvals, ∃ b, q.docket.Leads (news.map Prod.snd) p.docket a b)
    ∧ (∀ (m : Move ι) (i : ι), m.actor? = some i → ∃ ds, q.Acts i ds (m.after q))
    ∧ ∀ i a, (q.seat i).claims = some a → q.Decides i a (q.settle i) := by
  intro q p
  have hopened : (opened w : Panel ι).Sound := ⟨hw, hcalm, fun _ => trivial⟩
  obtain ⟨_, hbefore⟩ := goes_afterAll hopened before
  have hq : q.Sound := hbefore.sound
  obtain ⟨news, hlater⟩ := goes_afterAll hq later
  refine ⟨⟨news, hlater.log, hlater.runs, fun a ha => ?_⟩, fun m i => acts_after hq m,
    fun i a => decides_settle hq⟩
  exact hlater.runs.leads hq.orderly.given.distinct ha

def submitted : World :=
  World.fresh.afterAll
    [.createProcess { twoDesks with
        steps := [⟨.user, some "ann", none, false, some 1⟩, ⟨.user, some "bob", none, true, none⟩] }
      "admin",
     .errand (.create ⟨.str "deals", .null, .null, .null, .obj [], .null⟩),
     .submit (TableName.process.rowId 1) (TableName.record.rowId 1) (some "eve") []]

theorem submitted_kept : World.fresh.Kept Docket.Turn submitted :=
  World.fresh_isNew.orderly.afterAll_kept rfl _ (by decide)

def contended : List (Move (Fin 3)) :=
  let approval := TableName.approval.rowId 1
  [.load 0 approval, .load 1 approval, .list 2 ⟨⟨3600000000⟩, 0⟩,
   .check 0 ⟨.approve, "ann", none, none⟩, .check 1 ⟨.cancel, "eve", none, none⟩, .settle 0]

/-- The approver was first. The requester is refused and tries again, and nothing expires. -/
def retried : List (Move (Fin 3)) :=
  [.settle 1, .settle 2, .load 1 (TableName.approval.rowId 1),
   .check 1 ⟨.cancel, "eve", none, none⟩, .settle 1, .conclude 0]

set_option maxRecDepth 10000 in
theorem retried_log :
    let q := (opened submitted).afterAll contended
    (q.seat 1).claims.map Approval.version = some 1 ∧ q.log.length = 1
    ∧ (q.settle 1).log.length = 1
    ∧ (q.afterAll retried).log.map (fun x => (x.1, x.2.entry.action, x.2.seen.version))
      = [(0, "approve", 1), (1, "cancel", 2)] := by
  decide +kernel

/-- The requester, who was checked against the first version, is turned away; what both did in the end
leads the approval on. -/
theorem afterAll_serial_retried : submitted.Orderly ∧ submitted.rivalWrites = 0
    ∧ let q := (opened submitted).afterAll contended
      let p := q.afterAll retried
      p.log.map (fun x => (x.1, x.2.entry.action, x.2.seen.version))
        = [(0, "approve", 1), (1, "cancel", 2)]
      ∧ (∃ news, p.log = q.log ++ news
        ∧ ∀ a ∈ q.world.tables.approvals, ∃ b, q.docket.Leads (news.map Prod.snd) p.docket a b)
      ∧ ∃ a, (q.seat 1).claims = some a ∧ a.version = 1 ∧ q.Acts 1 [] (q.settle 1)
        ∧ ((q.settle 1).seat 1 = .idle
          ∨ ∃ result, (q.settle 1).seat 1 = .refused result ∧ result.isInvalid = true) := by
  have hcalm : submitted.rivalWrites = 0 := submitted_kept.calm rfl
  obtain ⟨hclaims, hlength, hlength', hlog⟩ := retried_log
  obtain ⟨⟨news, hnews, -, hleads⟩, -, hdecides⟩ :=
    afterAll_serial submitted_kept.orderly hcalm contended retried
  obtain ⟨a, hclaims, hversion⟩ := Option.map_eq_some_iff.mp hclaims
  refine ⟨submitted_kept.orderly, hcalm, hlog, ⟨news, hnews, hleads⟩, a, hclaims, hversion, ?_⟩
  rcases hdecides 1 a hclaims with ⟨d, -, hacts⟩ | haway
  · have hgrown := congrArg List.length hacts.log
    rw [List.length_append, hlength, hlength'] at hgrown
    cases hgrown
  · exact haway

end Panel

end RecordFlow
