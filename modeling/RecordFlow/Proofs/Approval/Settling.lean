import RecordFlow.Proofs.Approval.Acting
import RecordFlow.Proofs.Approval.Docket

/-! # Settling actions

An action on an approval is checked against the row that was loaded; then its version is claimed, and
what the action does is written and saved together with the claim; what follows comes after that. The
claim fails unless the row is still the one that was loaded, and then nothing is written.
-/
namespace RecordFlow
open RecordFlow.Flow Calendar

namespace Approval

/-! ## The parts of an action -/

def check (a : Approval) (r : ApprovalRequest) :
    Flow (Option ActRefusal × ApprovalProcess × List ApprovalStep) := do
  let p ← fetch ApprovalProcess a.process
  let steps ← p.readSteps
  let cause ← if r.verdict = .cancel then shaped (a.cancellation? r) else a.refusal? steps r
  return (cause, p, steps)

/-- Claims the version that was loaded, and goes on unless somebody else was first. -/
def claiming {α : Type} (a : Approval) (part : Flow α) : Flow (Option α) := do
  if ← swap a.id a.version fun row : Approval => row then some <$> part else return none

def writeResolved (a : Approval) (status : ApprovalStatus) (actor : String) : Flow Approval := do
  let left := a.counted.resolve status (some actor) (← now)
  store left
  return left

def writeDecided (a : Approval) (r : ApprovalRequest) (steps : List ApprovalStep) :
    Flow Approval := do
  match r.verdict with
  | .cancel => a.writeResolved .cancelled r.actorId
  | .reject => a.writeResolved .rejected r.actorId
  | .requestChanges =>
    let left := { a.counted with status := .changesRequested }
    store left
    return left
  | .approve =>
    if a.step + 1 < steps.length then
      let record ← Record.fetch a.record
      { a.counted with step := a.step + 1 }.openStep steps record
    else a.writeResolved .approved r.actorId

/-- Writes and enters a decision. A cancellation is written first, any other action entered first. -/
def write (a : Approval) (r : ApprovalRequest) (steps : List ApprovalStep) : Flow Proceeding := do
  if r.verdict = .cancel then
    let left ← a.writeDecided r steps
    let e ← insert (r.entry a)
    return ⟨a, e, left⟩
  else
    let e ← insert (r.entry a)
    let left ← a.writeDecided r steps
    return ⟨a, e, left⟩

def settle (a : Approval) (r : ApprovalRequest) (steps : List ApprovalStep) :
    Flow (Option Proceeding) :=
  a.claiming do
    let d ← a.write r steps
    commit
    return d

def conclude (a : Approval) (r : ApprovalRequest) (p : ApprovalProcess)
    (steps : List ApprovalStep) (left : Approval) : Flow ApprovalResult := do
  match r.verdict with
  | .cancel =>
    left.announceResolved
    left.succeed r a false none
  | .reject =>
    let executed ← left.carryOutActions p.onReject r.actorId
    left.announceResolved
    left.succeed r a executed none
  | .requestChanges => left.succeed r a false none
  | .approve =>
    if a.step + 1 < steps.length then left.succeed r a false none
    else
      let move ←
        if (← shaped left.isMove) && (← wiring).transitionsOfApprovals then
          some <$> executeMove a.id (some r.actorId)
        else pure none
      let current ← fetch Approval a.id
      let executed ← current.carryOutActions p.onApprove r.actorId
      current.announceResolved
      current.succeed r a (executed || move.any (·.success)) move

def writeAgain (a : Approval) (actor : String) (comment : Option String) : Flow Proceeding := do
  let record ← Record.fetch a.record
  let p ← fetch ApprovalProcess a.process
  let steps ← p.readSteps
  let left ← { a.counted with status := .pending }.openStep steps record
  let e ← insert fun id => ⟨id, left.id, left.step, some actor, "resubmit", comment⟩
  return ⟨a, e, left⟩

def settleAgain (a : Approval) (actor : String) (comment : Option String) : Flow (Option Proceeding) :=
  a.claiming do
    let d ← a.writeAgain actor comment
    commit
    return d

def concludeAgain (a : Approval) (actor : String) (left : Approval) : Flow ApprovalResult := do
  count (.approval "resubmit" "success")
  left.audit "approval.resubmitted" (some a.state) (some actor)
  return ⟨true, a.id, left.status, false, false, none, none⟩

def writeExpired (t : Instant) (a : Approval) : Flow Proceeding := do
  let left := { a.counted with status := .expired, resolvedAt := some t }
  store left
  let e ← insert fun id => ⟨id, left.id, left.step, none, "expire", none⟩
  left.audit "approval.expired" (some a.state) none
  return ⟨a, e, left⟩

def settleExpired (m : Moment) (loaded : List Approval) : Flow (List Proceeding) := do
  let expired ← (loaded.filter (isExpired m)).filterMapM fun a => a.claiming (writeExpired m.wall a)
  commit
  return expired

def announceAll (expired : List Proceeding) : Flow Unit := do
  for d in expired do
    d.left.announceResolved

variable {α : Type}

theorem claim_bind (a : Approval) (rest : Option Approval → Flow α) :
    (a.claim >>= rest) = (do
      if ← swap a.id a.version fun row : Approval => row then rest (some a.counted)
      else rest none) := by
  unfold claim
  rw [bind_assoc]
  refine bind_congr fun swapped => ?_
  cases swapped <;> rfl

theorem claiming_bind {β : Type} (a : Approval) (part : Flow α) (rest : Option α → Flow β) :
    (a.claiming part >>= rest) = (do
      if ← swap a.id a.version fun row : Approval => row then part >>= fun x => rest (some x)
      else rest none) := by
  unfold claiming
  rw [bind_assoc]
  refine bind_congr fun swapped => ?_
  cases swapped with
  | false => rfl
  | true =>
    rw [if_pos rfl, if_pos rfl, map_eq_pure_bind, bind_assoc]
    rfl

theorem enter_bind {a b : Approval} {r : ApprovalRequest} {action : String} (hid : b.id = a.id)
    (hstep : b.step = a.step) (haction : action = r.verdict.name) (rest : Unit → Flow α) :
    (b.enter (some r.actorId) action r.comment >>= rest) = (do
      let _ ← Flow.insert (r.entry a)
      rest ()) := by
  unfold enter
  rw [bind_assoc, hid, hstep, haction]
  rfl

/-- An action is checked, then settled, then concluded. -/
theorem act_eq (a : Approval) (r : ApprovalRequest) : a.act r = (do
    let (cause, p, steps) ← a.check r
    match cause with
    | some cause => a.refuse r.verdict.name cause
    | none =>
      match ← a.settle r steps with
      | none => a.refuse r.verdict.name .overtaken
      | some d => a.conclude r p steps d.left) := by
  unfold act check
  simp only [bind_assoc]
  refine bind_congr fun p => bind_congr fun steps => ?_
  by_cases hcancel : r.verdict = .cancel
  · rw [if_pos hcancel, if_pos hcancel]
    simp only [bind_assoc, pure_bind]
    unfold cancel settle write
    refine bind_congr fun cause => ?_
    cases cause with
    | some cause => rfl
    | none =>
      dsimp only
      rw [claim_bind, claiming_bind]
      refine bind_congr fun swapped => ?_
      cases swapped with
      | false => rfl
      | true =>
        simp only [hcancel, writeDecided, writeResolved, conclude, bind_assoc, pure_bind, if_true]
        refine bind_congr fun t => bind_congr fun _ => ?_
        exact enter_bind rfl rfl (by rw [hcancel]) _
  · rw [if_neg hcancel, if_neg hcancel]
    simp only [bind_assoc, pure_bind]
    unfold settle write
    refine bind_congr fun cause => ?_
    cases cause with
    | some cause => rfl
    | none =>
      dsimp only
      rw [claim_bind, claiming_bind]
      refine bind_congr fun swapped => ?_
      cases swapped with
      | false => rfl
      | true =>
        simp only [if_neg hcancel, if_true, bind_assoc]
        refine (enter_bind (a := a) (b := a.counted) rfl rfl rfl _).trans (bind_congr fun e => ?_)
        have hstep : a.counted.step = a.step := rfl
        cases hverdict : r.verdict with
        | cancel => exact absurd hverdict hcancel
        | reject =>
          simp only [writeDecided, writeResolved, conclude, hverdict, reject, bind_assoc, pure_bind]
        | requestChanges =>
          simp only [writeDecided, conclude, hverdict, requestChanges, bind_assoc, pure_bind]
        | approve =>
          by_cases hnext : a.step + 1 < steps.length
          · simp only [writeDecided, conclude, hverdict, approveStep, hstep, if_pos hnext,
              bind_assoc, pure_bind]
          · simp only [writeDecided, writeResolved, conclude, hverdict, approveLast, hstep,
              if_neg hnext, bind_assoc, pure_bind]

/-- A resubmission is checked, then settled, then concluded. -/
theorem resubmit_eq (a : Approval) (actor : String) (comment : Option String) :
    a.resubmit actor comment = (do
      match a.resubmission? actor with
      | some cause => a.refuse "resubmit" cause
      | none =>
        match ← a.settleAgain actor comment with
        | none => a.refuse "resubmit" .overtaken
        | some d => a.concludeAgain actor d.left) := by
  unfold resubmit settleAgain writeAgain
  cases a.resubmission? actor with
  | some cause => rfl
  | none =>
    dsimp only
    rw [claim_bind, claiming_bind]
    refine bind_congr fun swapped => ?_
    cases swapped with
    | false => rfl
    | true => simp only [concludeAgain, enter, if_true, bind_assoc, pure_bind]

theorem filterMapM_map {β γ : Type} (f : β → γ) (g : α → Flow (Option β)) (rows : List α) :
    (rows.filterMapM fun a => Option.map f <$> g a) = List.map f <$> rows.filterMapM g := by
  induction rows with
  | nil => rfl
  | cons a rest ih =>
    rw [List.filterMapM_cons, List.filterMapM_cons, ih]
    simp only [map_eq_pure_bind, bind_assoc, pure_bind]
    refine bind_congr fun found => ?_
    cases found with
    | none => rfl
    | some b => simp only [Option.map_some, bind_assoc, pure_bind, List.map_cons]

/-- An expiry is settled for all approvals at once, and then told. -/
theorem expire_eq (m : Moment) (loaded : List Approval) : expire m loaded = (do
    let expired ← settleExpired m loaded
    announceAll expired
    return expired.length) := by
  have one (a : Approval) :
      expireOne m.wall a = Option.map Proceeding.left <$> a.claiming (writeExpired m.wall a) := by
    unfold expireOne
    rw [claim_bind, map_eq_pure_bind, claiming_bind]
    refine bind_congr fun swapped => ?_
    cases swapped with
    | false => rfl
    | true => simp only [writeExpired, enter, if_true, bind_assoc, pure_bind, Option.map_some, counted]
  unfold expire settleExpired announceAll
  rw [funext one, filterMapM_map, map_eq_pure_bind]
  simp only [bind_assoc, pure_bind, List.forIn_map, List.length_map]

end Approval

/-! ## What is written -/

/-- What the writes of an action come to: the docket after the action. -/
structure Proceeding.Written (d : Proceeding) (a : Approval) (processes : List ApprovalProcess)
    (w v : World) : Prop where
  seen : d.seen = a
  proceeds : a.Proceeds processes d.entry d.left
  docket : v.tables.docket = w.tables.docket.act d

namespace Approval
variable {a : Approval} {w : World} {processes : List ApprovalProcess}

theorem writes_put (b : Approval) (w : World) :
    Writes (store b) w fun _ v => v.tables.docket = w.tables.docket.put b := by
  refine .of_files (incidental_store b) fun _ v hr => ?_
  obtain rfl := (store_ends b w).ok_of hr
  rfl

theorem writes_entry (build : Uuid → ApprovalEntry) (w : World) :
    Writes (Flow.insert build) w fun e v =>
      (∃ id, e = build id) ∧ v.tables.docket = w.tables.docket.enter e := by
  refine .of_files (incidental_insert build) fun e v hr => ?_
  obtain ⟨he, rfl⟩ := (insert_ends build w).ok_of hr
  exact ⟨⟨_, he⟩, rfl⟩

theorem leaves_docket {α : Type} {x : Flow α} (hx : Incidental (Beside false) x) :
    Writes x w fun _ v => v.tables.docket = w.tables.docket :=
  Ends.mono (Writes.leaves hx) (fun _ _ h => ⟨h.1, congrArg Ledger.docket h.2⟩) fun _ _ h => h

theorem writes_resolved (a : Approval) (status : ApprovalStatus) (actor : String) (w : World) :
    Writes (a.writeResolved status actor) w fun left v =>
      (∃ t, left = a.counted.resolve status (some actor) t)
        ∧ v.tables.docket = w.tables.docket.put left := by
  unfold writeResolved
  have told : Ends Flow.now w (fun _ v => v = w ∧ True) fun _ v => v = w := ⟨rfl, trivial⟩
  refine .look told fun t _ => ?_
  exact .bind (writes_put _ w) fun _ v _ _ hv => .pure ⟨⟨t, rfl⟩, hv⟩

theorem writes_opened (a : Approval) (steps : List ApprovalStep) (record : Record) (w : World) :
    Writes (a.openStep steps record) w fun left v =>
      a.Opens left ∧ v.tables.docket = w.tables.docket.put left := by
  unfold openStep
  refine .bind (leaves_docket (.stepAt (fun _ h => h) _ _)) fun s v₁ _ _ hv₁ => ?_
  refine .bind (leaves_docket (incidental_approversFor s record)) fun approvers v₂ _ _ hv₂ => ?_
  refine .look (shaped_ends _ v₂) fun named hnamed => ?_
  refine .bind (leaves_docket .now) fun t v₃ _ _ hv₃ => ?_
  refine .bind (leaves_docket (.inTime (fun _ h => h) _)) fun expiresAt v₄ _ _ hv₄ => ?_
  refine .bind (writes_put _ v₄) fun _ v₅ _ _ hv₅ => ?_
  refine .bind (leaves_docket (incidental_invite _ s record approvers)) fun _ v₆ _ _ hv₆ => ?_
  refine .pure ⟨⟨approvers, named, expiresAt, hnamed, rfl⟩, ?_⟩
  rw [hv₆, hv₅, hv₄, hv₃, hv₂, hv₁]

structure Cleared (processes : List ApprovalProcess) (a : Approval) (r : ApprovalRequest)
    (steps : List ApprovalStep) : Prop where
  reads : HasSteps processes a.process steps
  cancels : r.verdict = .cancel → a.MayCancel r
  decides : r.verdict ≠ .cancel → a.MayDecide steps r

theorem Cleared.undecided {r : ApprovalRequest} {steps : List ApprovalStep}
    (h : Cleared processes a r steps) : a.status ≠ .approved := by
  by_cases hcancel : r.verdict = .cancel
  · rcases (h.cancels hcancel).undecided with hstatus | hstatus <;> simp [hstatus]
  · simp [(h.decides hcancel).pending]

theorem cancellation?_none {r : ApprovalRequest} (h : a.cancellation? r = .ok none) :
    a.MayCancel r := by
  unfold cancellation? at h
  split at h
  · cases h
  · next hstatus =>
    refine ⟨by tauto, ?_⟩
    cases hmay : a.mayCancel r with
    | error cause => rw [hmay] at h; cases h
    | ok may =>
      rw [hmay] at h
      cases may with
      | true => rfl
      | false => cases h

theorem check_ends (a : Approval) (r : ApprovalRequest) (w : World) :
    Ends (a.check r) w
      (fun c v => v = w ∧ (c.1 = none → Cleared w.tables.docket.processes a r c.2.2))
      fun _ v => v = w := by
  unfold check
  refine (fetch_ends a.process w).bind (fun _ _ h => h.1) fun p v _ h => ?_
  obtain ⟨rfl, hfound⟩ := h
  refine (valid_ends _ v).bind (fun _ _ h => h) fun steps u _ h => ?_
  obtain ⟨rfl, hsteps⟩ := h
  have hreads : HasSteps u.tables.docket.processes a.process steps := ⟨p, hfound, hsteps⟩
  refine .ite (fun hcancel => ?_) fun hcancel => ?_
  · refine (shaped_ends _ u).bind (fun _ _ h => h) fun cause x _ h => ?_
    obtain ⟨rfl, hcause⟩ := h
    refine .pure ⟨rfl, fun hnone => ⟨hreads, fun _ => ?_, fun h => absurd hcancel h⟩⟩
    exact cancellation?_none (hcause.trans (congrArg Except.ok hnone))
  · refine (refusal?_ends a steps r u).bind (fun _ _ h => h) fun cause x _ h => ?_
    obtain ⟨rfl, hcause⟩ := h
    refine .pure ⟨rfl, fun hnone => ⟨hreads, fun h => absurd h hcancel, fun _ => ?_⟩⟩
    obtain ⟨hpending, happrover, hcomment⟩ := hcause hnone
    exact ⟨hpending, happrover, hcomment⟩

theorem writes_decided {r : ApprovalRequest} {steps : List ApprovalStep}
    (h : Cleared processes a r steps) (w : World) :
    Writes (a.writeDecided r steps) w fun left v =>
      (∀ id, a.Proceeds processes (r.entry a id) left)
        ∧ v.tables.docket = w.tables.docket.put left := by
  have resolved {status : ApprovalStatus} (hproceeds : ∀ id t, a.Proceeds processes (r.entry a id)
      (a.counted.resolve status (some r.actorId) t)) :
      Writes (a.writeResolved status r.actorId) w fun left v =>
        (∀ id, a.Proceeds processes (r.entry a id) left)
          ∧ v.tables.docket = w.tables.docket.put left := by
    refine Ends.mono (writes_resolved a status r.actorId w) ?_ fun _ _ h => h
    rintro left v ⟨hfiling, ⟨t, rfl⟩, hdocket⟩
    exact ⟨hfiling, fun id => hproceeds id t, hdocket⟩
  unfold writeDecided
  cases hverdict : r.verdict with
  | cancel => exact resolved fun id t => .cancel id t hverdict (h.cancels hverdict)
  | reject =>
    exact resolved fun id t => .reject id t h.reads hverdict (h.decides (by simp [hverdict]))
  | requestChanges =>
    have hmay := h.decides (by simp [hverdict])
    exact .bind (writes_put _ w) fun _ v _ _ hv =>
      .pure ⟨fun id => .requestChanges id h.reads hverdict hmay, hv⟩
  | approve =>
    have hmay := h.decides (by simp [hverdict])
    dsimp only
    split
    · next hnext =>
      refine .bind (leaves_docket (.recordFetch (fun _ h => h) a.record)) fun record v _ _ hv => ?_
      refine Ends.mono (writes_opened _ steps record v) (fun left u hu => ?_) fun _ _ h => h
      obtain ⟨hfiling, hopens, hu⟩ := hu
      exact ⟨hfiling, fun id => .approve id h.reads hverdict hmay hnext hopens, by rw [hu, hv]⟩
    · next hlast =>
      exact resolved fun id t => .approveLast id t h.reads hverdict hmay (Int.not_lt.mp hlast)

theorem writes_write {r : ApprovalRequest} {steps : List ApprovalStep}
    (h : Cleared processes a r steps) (w : World) :
    Writes (a.write r steps) w fun d v => d.Written a processes w v := by
  unfold write
  split
  · refine .bind (writes_decided h w) fun left v _ _ hv => ?_
    refine .bind (writes_entry _ v) fun e u _ _ hu => .pure ?_
    obtain ⟨⟨id, rfl⟩, hu⟩ := hu
    exact ⟨rfl, hv.1 id, by rw [hu, hv.2]; rfl⟩
  · refine .bind (writes_entry _ w) fun e v _ _ hv => ?_
    refine .bind (writes_decided h v) fun left u _ _ hu => .pure ?_
    obtain ⟨⟨id, rfl⟩, hv⟩ := hv
    exact ⟨rfl, hu.1 id, by rw [hu.2, hv]; rfl⟩

theorem writes_writeAgain {actor : String} (hmay : a.resubmission? actor = none)
    (comment : Option String) (w : World) :
    Writes (a.writeAgain actor comment) w fun d v => d.Written a processes w v := by
  unfold writeAgain
  refine .bind (leaves_docket (.recordFetch (fun _ h => h) _)) fun record v₁ _ _ hv₁ => ?_
  refine .bind (leaves_docket (.fetch (fun _ h => h) ApprovalProcess _)) fun p v₂ _ _ hv₂ => ?_
  refine .bind (leaves_docket (.valid (fun _ h => h) _)) fun steps v₃ _ _ hv₃ => ?_
  refine .bind (writes_opened _ steps record v₃) fun left v₄ _ _ hv₄ => ?_
  refine .bind (writes_entry _ v₄) fun e v₅ _ _ hv₅ => .pure ?_
  obtain ⟨hopens, hv₄⟩ := hv₄
  obtain ⟨⟨id, rfl⟩, hv₅⟩ := hv₅
  refine ⟨rfl, ?_, by rw [hv₅, hv₄, hv₃, hv₂, hv₁]; rfl⟩
  have hid : left.id = a.id := by rw [hopens.eq]; rfl
  have hstep : left.step = a.step := by rw [hopens.eq]; rfl
  rw [hid, hstep]
  exact .resubmit id actor comment hmay hopens

theorem writes_writeExpired (hpending : a.status = .pending) {m : Moment}
    (hover : a.isExpired m = true) (w : World) :
    Writes (writeExpired m.wall a) w fun d v => d.Written a processes w v := by
  unfold writeExpired
  refine .bind (writes_put _ w) fun _ v _ _ hv => ?_
  refine .bind (writes_entry _ v) fun e u _ _ hu => ?_
  obtain ⟨⟨id, rfl⟩, hu⟩ := hu
  refine .bind (leaves_docket (incidental_auditApproval (by decide))) fun _ x _ _ hx => .pure ?_
  exact ⟨rfl, .expire id m hpending hover, by rw [hx, hu, hv]; rfl⟩

end Approval

/-! ## What is saved -/

structure World.Settles (w : World) (ds : List Proceeding) (v : World) : Prop where
  orderly : v.Orderly
  rivals : v.rivalWrites ≤ w.rivalWrites
  takes : w.tables.docket.Takes ds v.tables.docket

theorem World.Settles.kept {w v : World} {ds : List Proceeding} (h : w.Settles ds v) :
    w.Kept Docket.Turn v := ⟨h.orderly, h.rivals, h.takes.turns⟩

theorem World.Orderly.settles {w v : World} {ds : List Proceeding} (hw : w.Orderly) (h : Filing w v)
    (htakes : w.tables.docket.Takes ds v.tables.docket) : w.Settles ds v.committed where
  orderly := ⟨rfl, htakes.ids ▸ hw.given.mono (h.numbers .approval)⟩
  rivals := h.rivals
  takes := htakes

namespace Approval
variable {a : Approval} {w : World}

/-- How a claim ends: as `ok` says, or with nothing done if somebody else was first. -/
def Claimed {α : Type} (w : World) (ok : α → World → Prop) : Option α → World → Prop
  | none, v => v = w
  | some x, v => ok x v

/-- A claim goes through only where the row is the one that was loaded; otherwise nothing happens. -/
theorem claiming_ends {α : Type} {part : Flow α} {ok : α → World → Prop}
    {bad : Failure → World → Prop} (hcalm : w.rivalWrites = 0)
    (hdistinct : (w.tables.docket.approvals.map Approval.id).Nodup)
    (hseen : a.SeenIn w.tables.docket) (hundecided : a.status ≠ .approved)
    (hbad : ∀ e, bad e w)
    (hpart : a ∈ w.tables.docket.approvals → ∀ v, Filing w v →
      v.tables.docket = w.tables.docket.put a.counted → Ends part v ok bad) :
    Ends (a.claiming part) w (Claimed w ok) bad := by
  unfold claiming
  refine (swap_ends hcalm hdistinct rfl).bind (fun e v h => h ▸ hbad e) fun swapped v hr h => ?_
  cases swapped with
  | false => exact .pure h.1
  | true =>
    obtain ⟨row, hrow, hid, hversion, hv⟩ := h
    have hthere := hseen.there hdistinct hundecided hrow hid hversion
    have rows : (w.tables.approvals.map fun b => if decide (b.id = a.id) then
        { b with version := a.version + 1 } else b)
        = w.tables.approvals.map (overwrite a.counted) := by
      refine List.map_congr_left fun b hb => ?_
      by_cases hsame : b.id = a.id
      · rw [if_pos (decide_eq_true hsame), overwrite_of_eq hsame,
          List.inj_on_of_nodup_map hdistinct hb hthere hsame]
        rfl
      · rw [if_neg (by simpa using hsame), overwrite_of_ne hsame]
    have hdocket : v.tables.docket = w.tables.docket.put a.counted := by
      rw [hv]
      exact congrArg (fun rows => { w.tables.docket with approvals := rows }) rows
    have hfiling : Filing w v := hv ▸ Indifferent.setRows _ w
    rw [map_eq_pure_bind]
    exact Ends.bind (hpart hthere v hfiling hdocket) (fun _ _ h => h) fun _ _ _ h => .pure h

end Approval

/-- What was written once the version was claimed is what the action does. -/
theorem Proceeding.Written.admits {a : Approval} {d : Proceeding} {w v u : World}
    (h : d.Written a w.tables.docket.processes v u) (hthere : a ∈ w.tables.docket.approvals)
    (hv : v.tables.docket = w.tables.docket.put a.counted) :
    w.tables.docket.Admits d ∧ u.tables.docket = w.tables.docket.act d := by
  have hleft : d.left.id = a.counted.id := h.proceeds.id
  refine ⟨⟨h.seen.symm ▸ hthere, h.seen.symm ▸ h.proceeds⟩, ?_⟩
  rw [h.docket, hv, Docket.act, Docket.put_put hleft]
  rfl

namespace Approval
variable {a : Approval} {w : World}

/-- An action that is claimed, written and saved by itself. -/
theorem settled_ends {part : Flow Proceeding} (hw : w.Orderly) (hcalm : w.rivalWrites = 0)
    (hseen : a.SeenIn w.tables.docket) (hundecided : a.status ≠ .approved)
    (hpart : ∀ v, Writes part v fun d u => d.Written a w.tables.docket.processes v u) :
    Ends (a.claiming do
        let d ← part
        commit
        return d) w
      (Claimed w fun d v => d.seen = a ∧ w.Settles [d] v) fun _ v => Filing w v := by
  refine claiming_ends hcalm hw.given.distinct hseen hundecided (fun _ => .refl w)
    fun hthere v hfiling hv => ?_
  refine Ends.bind (hpart v) (fun _ _ h => hfiling.trans h) fun d u _ hu => ?_
  obtain ⟨hfiling', hwritten⟩ := hu
  obtain ⟨hadmits, hdocket⟩ := hwritten.admits hthere hv
  refine .step (a := ()) rfl (.pure ⟨hwritten.seen, hw.settles (hfiling.trans hfiling') ?_⟩)
  rw [hdocket]
  exact .cons hadmits (.nil _)

theorem settle_ends {r : ApprovalRequest} {steps : List ApprovalStep} (hw : w.Orderly)
    (hcalm : w.rivalWrites = 0) (hseen : a.SeenIn w.tables.docket)
    (hcleared : Cleared w.tables.docket.processes a r steps) :
    Ends (a.settle r steps) w
      (Claimed w fun d v => d.seen = a ∧ w.Settles [d] v) fun _ v => Filing w v :=
  settled_ends hw hcalm hseen hcleared.undecided fun v => writes_write hcleared v

theorem settleAgain_ends {actor : String} {comment : Option String} (hw : w.Orderly)
    (hcalm : w.rivalWrites = 0) (hseen : a.SeenIn w.tables.docket)
    (hmay : a.resubmission? actor = none) :
    Ends (a.settleAgain actor comment) w
      (Claimed w fun d v => d.seen = a ∧ w.Settles [d] v) fun _ v => Filing w v :=
  settled_ends hw hcalm hseen (by simp [changesRequested_of_resubmission hmay])
    fun v => writes_writeAgain hmay comment v

/-- Approvals that expire one after the other, before any of it is saved. -/
theorem writes_claims {m : Moment} {rows : List Approval} (hcalm : w.rivalWrites = 0)
    (hdistinct : (w.tables.docket.approvals.map Approval.id).Nodup)
    (hrows : ∀ a ∈ rows, a.SeenIn w.tables.docket ∧ a.status = .pending ∧ a.isExpired m = true) :
    Writes (rows.filterMapM fun a => a.claiming (writeExpired m.wall a)) w fun ds v =>
      w.tables.docket.Takes ds v.tables.docket ∧ ∀ d ∈ ds, d.seen ∈ rows := by
  induction rows generalizing w with
  | nil =>
    rw [List.filterMapM_nil]
    exact .pure ⟨.nil _, fun d hd => absurd hd List.not_mem_nil⟩
  | cons a rest ih =>
    obtain ⟨hseen, hpending, hover⟩ := hrows a List.mem_cons_self
    rw [List.filterMapM_cons]
    have claimed : Ends (a.claiming (writeExpired m.wall a)) w
        (Claimed w fun d v => Filing w v ∧ d.seen = a ∧ w.tables.docket.Admits d
          ∧ v.tables.docket = w.tables.docket.act d)
        fun _ v => Filing w v := by
      refine claiming_ends hcalm hdistinct hseen (by simp [hpending]) (fun _ => .refl w)
        fun hthere v hfiling hv => ?_
      have written : Writes (writeExpired m.wall a) v fun d u =>
          d.Written a w.tables.docket.processes v u := writes_writeExpired hpending hover v
      refine Ends.mono written (fun d u h => ?_) fun _ _ h => hfiling.trans h
      exact ⟨hfiling.trans h.1, h.2.seen, h.2.admits hthere hv⟩
    refine claimed.bind (fun _ _ h => h) fun x v _ h => ?_
    cases x with
    | none =>
      obtain rfl : v = w := h
      refine Ends.mono (ih hcalm hdistinct fun b hb => hrows b (List.mem_cons_of_mem a hb))
        (fun ds u hu => ⟨hu.1, hu.2.1, fun d hd => List.mem_cons_of_mem a (hu.2.2 d hd)⟩)
        fun _ _ h => h
    | some d =>
      obtain ⟨hfiling, hd, hadmits, hdocket⟩ := h
      have hids : v.tables.docket.approvals.map Approval.id
          = w.tables.docket.approvals.map Approval.id := hdocket ▸ Docket.put_ids _ _
      refine Ends.bind (ih (Nat.le_zero.mp (hcalm ▸ hfiling.rivals)) (hids ▸ hdistinct)
        fun b hb => ?_) (fun _ _ h => hfiling.trans h) fun ds u _ hu => .pure ?_
      · obtain ⟨hseen', hrest⟩ := hrows b (List.mem_cons_of_mem a hb)
        exact ⟨hdocket ▸ hseen'.act hdistinct hadmits, hrest⟩
      · obtain ⟨hfiling', htakes, hfrom⟩ := hu
        refine ⟨hfiling.trans hfiling', .cons hadmits (hdocket ▸ htakes), fun c hc => ?_⟩
        rcases List.mem_cons.mp hc with rfl | hc
        · exact hd ▸ List.mem_cons_self
        · exact List.mem_cons_of_mem a (hfrom c hc)

theorem settleExpired_ends {m : Moment} {loaded : List Approval} (hw : w.Orderly)
    (hcalm : w.rivalWrites = 0)
    (hloaded : ∀ a ∈ loaded, a.SeenIn w.tables.docket ∧ a.status = .pending) :
    Ends (settleExpired m loaded) w
      (fun ds v => w.Settles ds v ∧ ∀ d ∈ ds, d.seen ∈ loaded)
      fun _ v => Filing w v := by
  unfold settleExpired
  have hdue : ∀ a ∈ loaded.filter (isExpired m),
      a.SeenIn w.tables.docket ∧ a.status = .pending ∧ a.isExpired m = true := fun a ha => by
    obtain ⟨ha, hover⟩ := List.mem_filter.mp ha
    exact ⟨(hloaded a ha).1, (hloaded a ha).2, hover⟩
  refine Ends.bind (writes_claims hcalm hw.given.distinct hdue) (fun _ _ h => h) fun ds v _ hv => ?_
  obtain ⟨hfiling, htakes, hfrom⟩ := hv
  refine .step (a := ()) rfl (.pure ⟨hw.settles hfiling htakes, fun d hd => ?_⟩)
  exact (List.mem_filter.mp (hfrom d hd)).1

end Approval

end RecordFlow
