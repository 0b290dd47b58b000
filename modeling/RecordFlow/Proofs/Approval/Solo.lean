import RecordFlow.Proofs.Approval.Panel
import RecordFlow.Proofs.Job.Pool

/-! # Actors by themselves

An actor that nobody gets in the way of does what the action does as a whole: the parts, saved or
undone one after the other, come to the action that is saved or undone in the end.
-/
namespace RecordFlow
open RecordFlow.Flow Calendar
variable {ι : Type} {w v : World}

theorem Command.after_eq (c : Command) (w : World) : c.after w = w.following c.run := by
  unfold after World.following
  cases c.run w with
  | ok _ v => rfl
  | error _ v => rfl

namespace Approval

/-- What is settled is saved. -/
theorem claiming_saved {α : Type} (a : Approval) (part : Flow α) (w : World) :
    Yields (a.claiming do
        let x ← part
        commit
        return x) w fun claimed v => claimed.isSome = true → v.saved = v.tables := by
  have any {β : Type} (x : Flow β) (u : World) : Yields x u fun _ _ => True := Ends.any
  unfold claiming
  refine (any _ w).bind fun swapped v _ => ?_
  cases swapped with
  | false => exact .pure nofun
  | true =>
    refine Ends.map ((any part v).bind fun x u _ => ?_)
    exact .step (a := ()) rfl (.pure fun _ => rfl)

/-- Whoever is not refused was the one that settled, and what was settled is saved. -/
theorem answered_saved {part : Flow (Option Proceeding)} {refusal : Flow ApprovalResult}
    (hpart : Yields part w fun claimed v => claimed.isSome = true → v.saved = v.tables) :
    Yields (do
        match ← part with
        | none => .error <$> refusal
        | some d => return .ok d) w
      fun (answer : Except ApprovalResult Proceeding) v => ∀ d, answer = .ok d → v.saved = v.tables := by
  refine hpart.bind fun d v hsaved => ?_
  cases d with
  | none =>
    refine Ends.map (Ends.any.mono (fun result _ _ d h => ?_) fun _ _ h => h)
    cases h
  | some d => exact .pure fun _ _ => hsaved rfl

theorem attempt_saved (a : Approval) (r : ApprovalRequest) (steps : List ApprovalStep) (w : World) :
    Yields (a.attempt r steps) w fun answer v => ∀ d, answer = .ok d → v.saved = v.tables :=
  answered_saved (claiming_saved a _ w)

theorem attemptAgain_saved (a : Approval) (actor : String) (comment : Option String) (w : World) :
    Yields (a.attemptAgain actor comment) w
      fun answer v => ∀ d, answer = .ok d → v.saved = v.tables :=
  answered_saved (claiming_saved a _ w)

theorem settleExpired_saved (m : Moment) (loaded : List Approval) (w : World) :
    Yields (settleExpired m loaded) w fun _ v => v.saved = v.tables := by
  have any (x : Flow (List Proceeding)) (u : World) : Yields x u fun _ _ => True := Ends.any
  exact (any _ w).bind fun _ v _ => .step (a := ()) rfl (.pure rfl)

end Approval

namespace Panel
variable [DecidableEq ι] {p : Panel ι} {i : ι}

def IsDone (p : Panel ι) (i : ι) : Prop := p.seat i = .idle ∨ ∃ result, p.seat i = .refused result

theorem isDone_idle (p : Panel ι) (i : ι) : (p.put i .idle []).IsDone i := .inl (seat_put _ _ _ _)

theorem isDone_refused (p : Panel ι) (i : ι) (result : ApprovalResult) :
    (p.put i (.refused result) []).IsDone i := .inr ⟨result, seat_put _ _ _ _⟩

namespace IsDone
variable (h : p.IsDone i)
include h

theorem check (r : ApprovalRequest) : p.check i r = p := by
  rcases h with hseat | ⟨result, hseat⟩ <;> rw [Panel.check, hseat]

theorem checkAgain (actor : String) (comment : Option String) : p.checkAgain i actor comment = p := by
  rcases h with hseat | ⟨result, hseat⟩ <;> rw [Panel.checkAgain, hseat]

theorem settle : p.settle i = p := by
  rcases h with hseat | ⟨result, hseat⟩ <;> rw [Panel.settle, hseat]

theorem conclude : p.conclude i = p := by
  rcases h with hseat | ⟨result, hseat⟩ <;> rw [Panel.conclude, hseat]

end IsDone

theorem conclude_settled (q : Panel ι) (i : ι) (rest : Flow Unit) (ds : List Proceeding) :
    ((q.put i (.settled rest) ds).conclude i).world = q.world.following rest := by
  have hworld : (q.put i (.settled rest) ds).world = q.world := rfl
  rw [conclude, seat_put]
  dsimp only [carry]
  rw [World.following, hworld]
  cases rest q.world with
  | ok _ v => rfl
  | error _ v => rfl

theorem attempt_alone {part : Flow (Except ApprovalResult Proceeding)}
    {rest : Approval → Flow ApprovalResult}
    (hpart : Yields part p.world fun answer v => ∀ d, answer = .ok d → v.saved = v.tables) (i : ι) :
    ((p.attempt i part rest).conclude i).world = p.world.following (do
      match ← part with
      | .error result => return result
      | .ok d => rest d.left) := by
  unfold attempt
  cases h : part p.world with
  | error e v =>
    rw [World.following_bind_error h]
    simp only [carry, h]
    rw [(isDone_idle _ i).conclude]
    rfl
  | ok answer v =>
    rw [World.following_bind h]
    simp only [carry, h]
    cases answer with
    | error result =>
      dsimp only
      rw [(isDone_refused _ i result).conclude]
      rfl
    | ok d =>
      dsimp only
      rw [conclude_settled, World.committed_of_even (hpart.ok_of h d rfl)]
      exact World.following_map _

/-! ## Whole actions -/

section Alone
variable (hsaved : p.world.saved = p.world.tables) (i : ι) (approval : Uuid)
include hsaved

theorem load_alone (next : Panel ι → Panel ι) {rest : Approval → Flow Unit}
    (hdone : ∀ q : Panel ι, q.IsDone i → next q = q)
    (hnext : ∀ a, (next (p.put i (.loaded a) [])).world = p.world.following (rest a)) :
    (next (p.load i approval)).world
      = p.world.following (fetch Approval approval >>= rest) := by
  have found := fetch_ends (ρ := Approval) approval p.world
  unfold load
  cases h : fetch Approval approval p.world with
  | error e v =>
    rw [World.following_bind_error h]
    simp only [carry, h]
    rw [hdone _ (isDone_idle _ i)]
    rfl
  | ok a v =>
    obtain rfl : v = p.world := (found.ok_of h).1
    rw [World.following_bind h, ← hnext a]
    simp only [carry, h, World.committed_of_even hsaved]

/-- An actor by itself acts on an approval as a whole. -/
theorem act_alone (hp : p.world.Orderly) (r : ApprovalRequest) :
    ((((p.load i approval).check i r).settle i).conclude i).world
      = (Command.act approval r false).after p.world := by
  rw [Command.after_eq]
  refine load_alone hsaved i approval (fun q => ((q.check i r).settle i).conclude i)
    (fun q hq => by rw [hq.check, hq.settle, hq.conclude]) fun a => ?_
  have hloaded : (p.put i (.loaded a) []).seat i = .loaded a := seat_put _ _ _ _
  have reviewed := Approval.review_ends hp a r
  have hworld : (p.put i (.loaded a) []).world = p.world := rfl
  refine Eq.trans ?_ (World.following_map _).symm
  rw [Approval.act_parts, check, hloaded]
  dsimp only [carry]
  rw [hworld]
  cases h : a.review r p.world with
  | error e v =>
    rw [World.following_bind_error h]
    dsimp only
    rw [(isDone_idle _ i).settle, (isDone_idle _ i).conclude]
    rfl
  | ok answer v =>
    rw [World.following_bind h]
    cases answer with
    | error result =>
      dsimp only
      rw [(isDone_refused _ i result).settle, (isDone_refused _ i result).conclude]
      rfl
    | ok c =>
      obtain ⟨rfl, -⟩ := reviewed.ok_of h
      dsimp only
      rw [settle, seat_put, World.committed_of_even hsaved]
      exact attempt_alone (a.attempt_saved r c.2 _) i

/-- An actor by itself puts an approval back as a whole. -/
theorem resubmit_alone (actor : String) (comment : Option String) :
    ((((p.load i approval).checkAgain i actor comment).settle i).conclude i).world
      = (Command.resubmit approval actor comment false).after p.world := by
  rw [Command.after_eq]
  refine load_alone hsaved i approval
    (fun q => ((q.checkAgain i actor comment).settle i).conclude i)
    (fun q hq => by rw [hq.checkAgain, hq.settle, hq.conclude]) fun a => ?_
  have hloaded : (p.put i (.loaded a) []).seat i = .loaded a := seat_put _ _ _ _
  have hworld : (p.put i (.loaded a) []).world = p.world := rfl
  refine Eq.trans ?_ (World.following_map _).symm
  rw [Approval.resubmit_parts, checkAgain, hloaded]
  dsimp only
  cases hmay : a.resubmission? actor with
  | none =>
    dsimp only
    rw [settle, seat_put]
    exact attempt_alone (a.attemptAgain_saved actor comment _) i
  | some cause =>
    dsimp only [carry]
    rw [hworld]
    cases h : a.refuse "resubmit" cause p.world with
    | error e v =>
      rw [World.following_error h]
      dsimp only
      rw [(isDone_idle _ i).settle, (isDone_idle _ i).conclude]
      rfl
    | ok result v =>
      rw [World.following_ok h]
      dsimp only
      rw [(isDone_refused _ i result).settle, (isDone_refused _ i result).conclude]
      rfl

omit approval in
/-- An actor by itself lets approvals expire as a whole. -/
theorem expire_alone (m : Moment) :
    (((p.list i m).settle i).conclude i).world = (Command.expire m none).after p.world := by
  have hlist : p.list i m = p.put i (.listed m p.world.expirable) [] := by
    have hall : Approval.expirable p.world = .ok p.world.expirable p.world := rfl
    simp only [list, carry, hall, World.committed_of_even hsaved]
  have hrun : (Command.expire m none).run
      = (Approval.expirable >>= fun loaded => discard (Approval.expire m loaded)) := rfl
  have hall : Approval.expirable p.world = .ok p.world.expirable p.world := rfl
  rw [Command.after_eq, hrun, World.following_bind hall]
  refine Eq.trans ?_ (World.following_map _).symm
  rw [Approval.expire_eq, hlist, settle, seat_put]
  have hworld : (p.put i (.listed m p.world.expirable) []).world = p.world := rfl
  dsimp only [carry]
  rw [hworld]
  have saved := Approval.settleExpired_saved m p.world.expirable p.world
  cases h : Approval.settleExpired m p.world.expirable p.world with
  | error e v =>
    rw [World.following_bind_error h]
    dsimp only
    rw [(isDone_idle _ i).conclude]
    rfl
  | ok ds v =>
    rw [World.following_bind h]
    dsimp only
    rw [conclude_settled, World.committed_of_even (saved.ok_of h)]
    exact (World.following_map (fun _ => ds.length)).symm

end Alone

end Panel

end RecordFlow
