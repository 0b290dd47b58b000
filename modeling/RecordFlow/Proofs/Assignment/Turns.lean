import Mathlib.Data.List.Rotate
import Mathlib.Logic.Function.Basic
import RecordFlow.Proofs.Assignment.Rotation

/-! # Turns that many take

Any number of resolvers are at one rule that rotates. Each of them looks at the rule and then passes
the turn on, if nobody else did so since; else it looks again, as often as it may. Between the look
and the write the others may do theirs. All the same the turns are taken in the order of the
candidates, none of them twice and none left out.
-/
namespace RecordFlow
open RecordFlow.Flow AssignmentRule
variable {r : AssignmentRule} {cs : List Candidate}

/-- A resolution that came to its end: whether it was to take the turn, and what it was answered. -/
structure Resolution where
  advance : Bool
  answer : Except Failure Decision

namespace Resolution

def decided? (t : Resolution) : Option Decision :=
  match t.answer with
  | .ok d => if d.owner.isSome then some d else none
  | .error _ => none

def taken? (t : Resolution) : Option Decision := if t.advance then t.decided? else none

def previewed? (t : Resolution) : Option Decision := if t.advance then none else t.decided?

def taken (ts : List Resolution) : List Decision := ts.filterMap taken?

@[simp] theorem taken_nil : taken [] = [] := rfl

@[simp] theorem taken_append (ts us : List Resolution) : taken (ts ++ us) = taken ts ++ taken us :=
  List.filterMap_append

theorem taken_cons (t : Resolution) (ts : List Resolution) :
    taken (t :: ts) = taken [t] ++ taken ts := taken_append [t] ts

/-! ## Resolutions one after the other -/

inductive InTurn (r : AssignmentRule) (cs : List Candidate) (turns : Nat) : Resolution → Prop
  | taken : InTurn r cs turns ⟨true, .ok (r.turn cs true (r.cursor + turns))⟩
  | previewed : InTurn r cs turns ⟨false, .ok (r.turn cs false (r.cursor + turns))⟩
  | contended : InTurn r cs turns ⟨true, .ok r.contended⟩
  | refused (e : Failure) : InTurn r cs turns ⟨true, .error e⟩

def Rotated (r : AssignmentRule) (cs : List Candidate) : (turns : Nat) → List Resolution → Prop
  | _, [] => True
  | turns, t :: ts => t.InTurn r cs turns ∧ Rotated r cs (turns + (taken [t]).length) ts

theorem taken_of_turn (hcs : cs ≠ []) (r : AssignmentRule) (c : Int) :
    taken [⟨true, .ok (r.turn cs true c)⟩] = [r.turn cs true c] := by
  simp [taken, taken?, decided?, turn_owner hcs]

theorem InTurn.eq_of_taken? {turns : Nat} {t : Resolution} {d : Decision}
    (h : t.InTurn r cs turns) (htaken : t.taken? = some d) :
    d = r.turn cs true (r.cursor + turns) := by
  cases h with
  | taken =>
    simp only [taken?, decided?, if_true, Option.ite_none_right_eq_some] at htaken
    exact (Option.some.inj htaken.2).symm
  | previewed => cases htaken
  | contended => cases htaken
  | refused e => cases htaken

theorem InTurn.eq_of_previewed? {turns : Nat} {t : Resolution} {d : Decision}
    (h : t.InTurn r cs turns) (hpreviewed : t.previewed? = some d) :
    d = r.turn cs false (r.cursor + turns) := by
  cases h with
  | previewed =>
    simp only [previewed?, decided?, Bool.false_eq_true, if_false,
      Option.ite_none_right_eq_some] at hpreviewed
    exact (Option.some.inj hpreviewed.2).symm
  | taken => cases hpreviewed
  | contended => cases hpreviewed
  | refused e => cases hpreviewed

namespace Rotated
variable {turns : Nat} {ts us : List Resolution}

theorem append : Rotated r cs turns (ts ++ us)
    ↔ Rotated r cs turns ts ∧ Rotated r cs (turns + (taken ts).length) us := by
  induction ts generalizing turns with
  | nil => simp [Rotated]
  | cons t ts ih =>
    rw [List.cons_append, Rotated, Rotated, ih, taken_cons t ts, List.length_append,
      Nat.add_assoc, and_assoc]

/-- The turns are those that come one after the other. -/
theorem taken_eq (h : Rotated r cs turns ts) :
    taken ts
      = (List.range' turns (taken ts).length).map fun k : Nat => r.turn cs true (r.cursor + k) := by
  induction ts generalizing turns with
  | nil => rfl
  | cons t ts ih =>
    have hrest := ih h.2
    have hfirst : taken [t] = (List.range' turns (taken [t]).length).map
        fun k : Nat => r.turn cs true (r.cursor + k) := by
      cases ht : t.taken? with
      | none => simp [taken, ht]
      | some d => simp [taken, ht, h.1.eq_of_taken? ht]
    rw [taken_cons, List.length_append, ← List.range'_append_1, List.map_append, ← hfirst, ← hrest]

/-- What is looked at and not taken by anybody is what the next one takes. -/
theorem previewed_eq {before between rest : List Resolution} {t u : Resolution} {d d' : Decision}
    (h : Rotated r cs turns (before ++ t :: (between ++ u :: rest)))
    (hpreviewed : t.previewed? = some d) (hbetween : taken between = [])
    (htaken : u.taken? = some d') : d.owner = d'.owner := by
  obtain ⟨-, hlooked, hothers⟩ := append.mp h
  obtain ⟨-, hnext, -⟩ := append.mp hothers
  have hnone : taken [t] = [] := by
    cases hadvance : t.advance with
    | false => simp [taken, taken?, hadvance]
    | true => simp [previewed?, hadvance] at hpreviewed
  rw [hnone, hbetween] at hnext
  rw [hlooked.eq_of_previewed? hpreviewed, hnext.eq_of_taken? htaken]
  rfl

end Rotated

end Resolution

/-! ## A round -/

/-- As many turns as there are candidates are one of each. -/
theorem turns_perm (r : AssignmentRule) (cs : List Candidate) (k : Nat) :
    ((List.range' k cs.length).map fun i : Nat => r.turn cs true (r.cursor + i)).Perm
      ((List.range cs.length).map fun j : Nat => r.turn cs true j) := by
  have hrotated : (List.range' k cs.length).map (fun i : Nat => r.turn cs true (r.cursor + i))
      = ((List.range cs.length).map fun j : Nat => r.turn cs true j).rotate
        ((r.cursor + k) % cs.length).toNat := by
    refine List.ext_getElem (by simp) fun j hj hj' => ?_
    simp only [List.getElem_map, List.getElem_range', List.getElem_rotate, List.length_map,
      List.length_range, List.getElem_range]
    refine r.turn_congr true ?_
    have hlt : j < cs.length := by simpa using hj
    have hplace : (((r.cursor + k) % cs.length).toNat : Int) = (r.cursor + k) % cs.length :=
      Int.toNat_of_nonneg (Int.emod_nonneg _ (by omega))
    push_cast
    rw [hplace, Int.emod_emod, Int.add_emod_emod]
    congr 1
    omega
  rw [hrotated]
  exact List.rotate_perm _ _

/-! ## Resolvers and their moves -/

/-- A resolution that is under way: the rule as it was found at first, and how often it may be
looked at again. -/
structure Search where
  rule : AssignmentRule
  candidates : List Candidate
  advance : Bool
  tries : Nat

/-- Where a resolver stands: it is about to look at the rule, or about to pass the turn on. -/
inductive Pursuit where
  | idle
  | looking (s : Search)
  | writing (s : Search) (seen : AssignmentRule)

/-- The world that all resolvers share, where they stand, and the resolutions that ended. -/
structure Resolvers (ι : Type) where
  world : World
  pursuit : ι → Pursuit
  log : List (ι × Resolution)

namespace Resolvers
variable {ι : Type} [DecidableEq ι]

def opened (w : World) : Resolvers ι := ⟨w, fun _ => .idle, []⟩

def resolutions (p : Resolvers ι) : List Resolution := p.log.map Prod.snd

def taken (p : Resolvers ι) : List Decision := Resolution.taken p.resolutions

def stored? (id : Uuid) (p : Resolvers ι) : Option AssignmentRule :=
  p.world.tables.rules.find? (·.id = id)

def put (p : Resolvers ι) (i : ι) (pursuit : Pursuit) (w : World) (news : List Resolution) :
    Resolvers ι :=
  ⟨w, Function.update p.pursuit i pursuit, p.log ++ news.map (Prod.mk i)⟩

def ended (p : Resolvers ι) (i : ι) (advance : Bool) :
    EStateM.Result Failure World Decision → Resolvers ι
  | .ok d v => p.put i .idle v [⟨advance, .ok d⟩]
  | .error e v => p.put i .idle v [⟨advance, .error e⟩]

def again (p : Resolvers ι) (i : ι) (s : Search) (w : World) : (tries : Nat) → Resolvers ι
  | 0 => p.ended i s.advance (s.rule.conclude (.nobody "rotation_contention") w)
  | tries + 1 => p.put i (.looking { s with tries := tries }) w []

def start (id : Uuid) (p : Resolvers ι) (i : ι) (advance : Bool) : Resolvers ι :=
  match p.pursuit i, p.stored? id with
  | .idle, some r =>
    match r.rotating? with
    | some cs => p.again i ⟨r, cs, advance, 0⟩ p.world (rotationTries p.world)
    | none => p
  | _, _ => p

/-- A resolver sees whose turn it is. It is done if it does not want to take the turn. -/
def looked (p : Resolvers ι) (i : ι) (s : Search) :
    EStateM.Result Failure World AssignmentRule → Resolvers ι
  | .ok seen v =>
    if s.advance then p.put i (.writing s seen) v []
    else p.ended i s.advance (s.rule.conclude (seen.pick s.candidates s.advance) v)
  | .error e v => p.ended i s.advance (.error e v)

/-- A resolver has tried to pass the turn on. If somebody else did so since it looked, it tries
again, unless it did so too often. -/
def wrote (p : Resolvers ι) (i : ι) (s : Search) (seen : AssignmentRule) :
    EStateM.Result Failure World Bool → Resolvers ι
  | .ok true v => p.ended i s.advance (s.rule.conclude (seen.pick s.candidates s.advance) v)
  | .ok false v => p.again i s v s.tries
  | .error e v => p.ended i s.advance (.error e v)

def look (id : Uuid) (p : Resolvers ι) (i : ι) : Resolvers ι :=
  match p.pursuit i with
  | .looking s => p.looked i s (fetch AssignmentRule id p.world)
  | _ => p

def write (id : Uuid) (p : Resolvers ι) (i : ι) : Resolvers ι :=
  match p.pursuit i with
  | .writing s seen => p.wrote i s seen (passOn id seen s.candidates p.world)
  | _ => p

inductive Move (ι : Type) where
  | start (i : ι) (advance : Bool)
  | look (i : ι)
  | write (i : ι)

/-- The resolvers after a move. Nothing happens if the move is not the next one of its resolver. -/
def Move.after (id : Uuid) : Move ι → Resolvers ι → Resolvers ι
  | start i advance, p => p.start id i advance
  | look i, p => p.look id i
  | write i, p => p.write id i

def afterAll (id : Uuid) (p : Resolvers ι) (moves : List (Move ι)) : Resolvers ι :=
  moves.foldl (fun p m => m.after id p) p

/-! ## A resolver by itself -/

def rounds (i : ι) : Nat → List (Move ι)
  | 0 => []
  | n + 1 => .look i :: .write i :: rounds i n

section Alone
variable {id : Uuid} {p : Resolvers ι} {i : ι}

theorem put_put (pursuit pursuit' : Pursuit) (v w : World) (news : List Resolution) :
    (p.put i pursuit' v []).put i pursuit w news = p.put i pursuit w news := by
  unfold put
  rw [Function.update_idem, List.map_nil, List.append_nil]

/-- Where a resolution ends, it does not matter where its resolver stood. -/
theorem ended_put (pursuit : Pursuit) (v : World) (advance : Bool)
    (result : EStateM.Result Failure World Decision) :
    (p.put i pursuit v []).ended i advance result = p.ended i advance result := by
  cases result with
  | ok d w => exact put_put ..
  | error e w => exact put_put ..

theorem pursuit_put (pursuit : Pursuit) (w : World) (news : List Resolution) :
    (p.put i pursuit w news).pursuit i = pursuit := Function.update_self ..

theorem pursuit_ended (advance : Bool) (result : EStateM.Result Failure World Decision) :
    (p.ended i advance result).pursuit i = .idle := by
  cases result with
  | ok d w => exact pursuit_put ..
  | error e w => exact pursuit_put ..

theorem afterAll_rounds_idle (hidle : p.pursuit i = .idle) (n : Nat) :
    p.afterAll id (rounds i n) = p := by
  induction n with
  | zero => rfl
  | succ n ih =>
    have hlook : p.look id i = p := by rw [look, hidle]
    have hwrite : p.write id i = p := by rw [write, hidle]
    show ((p.look id i).write id i).afterAll id (rounds i n) = p
    rw [hlook, hwrite, ih]

/-- A resolution that ended when the rule was looked at. -/
theorem write_ended (advance : Bool) (result : EStateM.Result Failure World Decision) (n : Nat) :
    ((p.ended i advance result).write id i).afterAll id (rounds i n)
      = p.ended i advance result := by
  have hidle : (p.ended i advance result).pursuit i = .idle := pursuit_ended ..
  have hwrite : (p.ended i advance result).write id i = p.ended i advance result := by
    rw [write, hidle]
  rw [hwrite, afterAll_rounds_idle hidle]

theorem again_put (pursuit : Pursuit) (v w : World) (s : Search) (n : Nat) :
    (p.put i pursuit v []).again i s w n = p.again i s w n := by
  cases n with
  | zero => simp only [again, ended_put]
  | succ n => simp only [again, put_put]

theorem wrote_put (pursuit : Pursuit) (v : World) (s : Search) (seen : AssignmentRule)
    (result : EStateM.Result Failure World Bool) :
    (p.put i pursuit v []).wrote i s seen result = p.wrote i s seen result := by
  cases result with
  | ok swapped w =>
    cases swapped with
    | true => simp only [wrote, ended_put]
    | false => simp only [wrote, again_put]
  | error e w => simp only [wrote, ended_put]

/-- To try as often as one may is to rotate. -/
theorem again_alone (s : Search) (w : World) (n : Nat) :
    (p.again i s w n).afterAll id (rounds i n) = p.ended i s.advance
      ((rotate id s.candidates s.advance n >>= s.rule.conclude) w) := by
  induction n generalizing p s w with
  | zero => rfl
  | succ n ih =>
    let s' : Search := { s with tries := n }
    let q := p.put i (.looking s') w []
    have hlook : q.look id i = q.looked i s' (fetch AssignmentRule id w) := by
      rw [look, pursuit_put]
      rfl
    show ((q.look id i).write id i).afterAll id (rounds i n) = _
    rw [hlook, rotate_succ, bind_assoc]
    cases hfetch : fetch AssignmentRule id w with
    | error e v =>
      rw [bind_error hfetch, looked, write_ended, ended_put]
    | ok seen v =>
      rw [bind_ok hfetch, looked]
      cases hadvance : s.advance with
      | false =>
        rw [if_neg Bool.false_ne_true, write_ended, ended_put]
        rfl
      | true =>
        rw [if_pos rfl, put_put, write, pursuit_put]
        simp only [wrote_put, if_true, bind_assoc]
        show (p.wrote i s' seen (passOn id seen s.candidates v)).afterAll id (rounds i n) = _
        cases hpass : passOn id seen s.candidates v with
        | error e u =>
          rw [bind_error hpass, wrote, afterAll_rounds_idle (pursuit_ended ..), hadvance]
        | ok swapped u =>
          rw [bind_ok hpass]
          cases swapped with
          | true =>
            rw [wrote, afterAll_rounds_idle (pursuit_ended ..), hadvance]
            rfl
          | false =>
            rw [wrote, ih, hadvance]
            rfl

/-- A resolver that no one gets in the way of resolves the rule as a whole. -/
theorem resolve_alone (hidle : p.pursuit i = .idle) (hfound : p.stored? r.id = some r)
    (hrotating : r.rotating? = some cs) (record : Record) (advance : Bool) :
    p.afterAll r.id (.start i advance :: rounds i (rotationTries p.world))
      = p.ended i advance (resolveAssignment r.id record advance p.world) := by
  have hstart : p.start r.id i advance
      = p.again i ⟨r, cs, advance, 0⟩ p.world (rotationTries p.world) := by
    rw [start, hidle, hfound]
    simp only [hrotating]
  show (p.start r.id i advance).afterAll r.id _ = _
  rw [hstart, again_alone, resolve_rotating hfound hrotating]

end Alone

end Resolvers

/-! ## What a move does -/

structure Search.Of (r : AssignmentRule) (cs : List Candidate) (s : Search) : Prop where
  rule : ∃ k, s.rule = r.after cs.length k
  candidates : s.candidates = cs

/-- What is certain of a resolver after so many turns: if it is about to pass one on, it saw the
rule as it was after no more of them. -/
def Pursuit.Fits (r : AssignmentRule) (cs : List Candidate) (turns : Nat) : Pursuit → Prop
  | .idle => True
  | .looking s => s.Of r cs
  | .writing s seen => s.Of r cs ∧ s.advance = true ∧ ∃ k ≤ turns, seen = r.after cs.length k

theorem Pursuit.Fits.mono {pursuit : Pursuit} {turns turns' : Nat} (h : pursuit.Fits r cs turns)
    (hle : turns ≤ turns') : pursuit.Fits r cs turns' := by
  cases pursuit with
  | idle => trivial
  | looking s => exact h
  | writing s seen =>
    obtain ⟨hof, hadvance, k, hk, hseen⟩ := h
    exact ⟨hof, hadvance, k, hk.trans hle, hseen⟩

/-- What such a search decides once it has seen the rule after so many turns. -/
theorem Search.Of.decided_eq {s : Search} (hs : s.Of r cs) (hcs : cs ≠ []) (turns : Nat) :
    s.rule.decided ((r.after cs.length turns).pick s.candidates s.advance)
      = r.turn cs s.advance (r.cursor + turns) := by
  obtain ⟨k, hrule⟩ := hs.rule
  rw [hs.candidates, hrule, decided_pick hcs]
  exact r.turn_congr s.advance (r.after_cursor_emod ..)

namespace Resolvers
variable {ι : Type} [DecidableEq ι]

/-- The rule is stored as it is after the turns that were taken, and the resolutions ended in
turn. -/
structure Sound (r : AssignmentRule) (cs : List Candidate) (p : Resolvers ι) : Prop where
  calm : p.world.rivalWrites = 0
  distinct : (p.world.tables.rules.map AssignmentRule.id).Nodup
  stored : p.stored? r.id = some (r.after cs.length p.taken.length)
  rotated : Resolution.Rotated r cs 0 p.resolutions
  fits : ∀ i, (p.pursuit i).Fits r cs p.taken.length

/-- The rules stay as they are and no turn is taken, or a resolver takes the next turn and the rule
is all that changes. -/
inductive Goes (r : AssignmentRule) (cs : List Candidate) (p q : Resolvers ι) : Prop
  | stays (hrules : q.world.tables.rules = p.world.tables.rules) (htaken : q.taken = p.taken)
  | takes (i : ι)
    (hlog : q.log = p.log ++ [(i, ⟨true, .ok (r.turn cs true (r.cursor + p.taken.length))⟩)])
    (htaken : q.taken = p.taken ++ [r.turn cs true (r.cursor + p.taken.length)])
    (hrules : q.world.tables.rules
      = p.world.tables.rules.map (overwrite (r.after cs.length (p.taken.length + 1))))

section Put
variable {p : Resolvers ι} {i : ι} {pursuit : Pursuit} {v : World} {news : List Resolution}

theorem resolutions_put (p : Resolvers ι) (i : ι) (pursuit : Pursuit) (v : World)
    (news : List Resolution) :
    (p.put i pursuit v news).resolutions = p.resolutions ++ news := by
  unfold resolutions put
  rw [List.map_append, List.map_map]
  exact congrArg (p.log.map Prod.snd ++ ·) (List.map_id' news)

theorem taken_put (p : Resolvers ι) (i : ι) (pursuit : Pursuit) (v : World)
    (news : List Resolution) :
    (p.put i pursuit v news).taken = p.taken ++ Resolution.taken news := by
  unfold taken
  rw [resolutions_put, Resolution.taken_append]

theorem Sound.put (hp : p.Sound r cs) (hcalm : v.rivalWrites = 0)
    (hdistinct : (v.tables.rules.map AssignmentRule.id).Nodup)
    (hstored : v.tables.rules.find? (·.id = r.id)
      = some (r.after cs.length (p.taken.length + (Resolution.taken news).length)))
    (hnews : Resolution.Rotated r cs p.taken.length news)
    (hfits : pursuit.Fits r cs (p.taken.length + (Resolution.taken news).length)) :
    (p.put i pursuit v news).Sound r cs := by
  have hlength : (p.put i pursuit v news).taken.length
      = p.taken.length + (Resolution.taken news).length := by
    rw [taken_put, List.length_append]
  constructor
  · exact hcalm
  · exact hdistinct
  · rw [hlength]
    exact hstored
  · rw [resolutions_put, Resolution.Rotated.append, Nat.zero_add]
    exact ⟨hp.rotated, hnews⟩
  · rw [hlength]
    exact (Function.forall_update_iff p.pursuit fun _ x => Pursuit.Fits r cs _ x).mpr
      ⟨hfits, fun j _ => (hp.fits j).mono (Nat.le_add_right ..)⟩

theorem Sound.stays (hp : p.Sound r cs) (hcalm : v.rivalWrites = 0)
    (hrules : v.tables.rules = p.world.tables.rules)
    (hnews : Resolution.Rotated r cs p.taken.length news) (hnone : Resolution.taken news = [])
    (hfits : pursuit.Fits r cs p.taken.length) :
    (p.put i pursuit v news).Sound r cs ∧ p.Goes r cs (p.put i pursuit v news) := by
  constructor
  · apply hp.put hcalm (hrules ▸ hp.distinct) _ hnews
    · simpa [hnone] using hfits
    · rw [hrules, hnone]
      exact hp.stored
  · apply Goes.stays
    · exact hrules
    · rw [taken_put, hnone, List.append_nil]

theorem Sound.takes (hp : p.Sound r cs) (hcs : cs ≠ []) (i : ι) (hcalm : v.rivalWrites = 0)
    (hrules : v.tables.rules
      = p.world.tables.rules.map (overwrite (r.after cs.length (p.taken.length + 1))))
    {t : Resolution} (ht : t = ⟨true, .ok (r.turn cs true (r.cursor + p.taken.length))⟩) :
    (p.put i .idle v [t]).Sound r cs ∧ p.Goes r cs (p.put i .idle v [t]) := by
  subst ht
  have htaken := Resolution.taken_of_turn hcs r (r.cursor + p.taken.length)
  have hnews : Resolution.Rotated r cs p.taken.length
    [⟨true, .ok (r.turn cs true (r.cursor + p.taken.length))⟩] := ⟨.taken, trivial⟩
  have hids : v.tables.rules.map AssignmentRule.id = p.world.tables.rules.map AssignmentRule.id :=
    hrules ▸ ids_map fun x _ => id_overwrite _ x
  constructor
  · refine hp.put hcalm (hids ▸ hp.distinct) ?_ hnews trivial
    rw [hrules, htaken]
    exact find?_overwrite hp.stored rfl
  · apply Goes.takes i rfl _ hrules
    rw [taken_put, htaken]

end Put

namespace Sound
variable {p : Resolvers ι} (hp : p.Sound r cs)
include hp

theorem goes_again (i : ι) {s : Search} (hs : s.Of r cs) {n : Nat}
    (hmay : s.advance = true ∨ 0 < n) :
    (p.again i s p.world n).Sound r cs ∧ p.Goes r cs (p.again i s p.world n) := by
  cases n with
  | succ n => exact hp.stays hp.calm rfl trivial rfl ⟨hs.rule, hs.candidates⟩
  | zero =>
    have hadvance : s.advance = true := hmay.resolve_right (Nat.lt_irrefl 0)
    have hcontended : s.rule.decided (.nobody "rotation_contention") = r.contended := by
      obtain ⟨k, hrule⟩ := hs.rule
      rw [hrule]
      rfl
    obtain ⟨v, hconclude, htables, hrivals⟩ :=
      s.rule.conclude_eq (.nobody "rotation_contention") p.world
    rw [again, hconclude, hcontended, hadvance, ended]
    exact hp.stays (hrivals.trans hp.calm) (congrArg Tables.rules htables)
      ⟨.contended, trivial⟩ rfl trivial

theorem goes_start (hrotating : r.rotating? = some cs) (i : ι) (advance : Bool) :
    (p.start r.id i advance).Sound r cs ∧ p.Goes r cs (p.start r.id i advance) := by
  unfold start
  rw [hp.stored]
  cases hpursuit : p.pursuit i with
  | looking | writing => exact ⟨hp, .stays rfl rfl⟩
  | idle =>
    simp only [rotating?_after, hrotating]
    exact hp.goes_again i ⟨⟨_, rfl⟩, rfl⟩ (.inr (rotationTries_pos p.world))

theorem goes_look (hcs : cs ≠ []) (i : ι) :
    (p.look r.id i).Sound r cs ∧ p.Goes r cs (p.look r.id i) := by
  unfold look
  cases hpursuit : p.pursuit i with
  | idle | writing => exact ⟨hp, .stays rfl rfl⟩
  | looking s =>
    have hs : s.Of r cs := (hpursuit ▸ hp.fits i : (Pursuit.looking s).Fits r cs p.taken.length)
    have hfetch := fetch_of_find? (w := p.world) hp.stored
    simp only [hfetch, looked]
    cases hadvance : s.advance with
    | true => exact hp.stays hp.calm rfl trivial rfl ⟨hs, hadvance, _, Nat.le_refl _, rfl⟩
    | false =>
      have hdecided := hs.decided_eq hcs p.taken.length
      rw [hadvance] at hdecided
      obtain ⟨v, hconclude, htables, hrivals⟩ := s.rule.conclude_eq
        ((r.after cs.length p.taken.length).pick s.candidates false) p.world
      rw [if_neg Bool.false_ne_true, hconclude, hdecided, ended]
      exact hp.stays (hrivals.trans hp.calm) (congrArg Tables.rules htables)
        ⟨.previewed, trivial⟩ rfl trivial

/-- A resolver takes the turn that it saw, or it finds that somebody else took it. -/
theorem goes_write (hcs : cs ≠ []) (i : ι) :
    (p.write r.id i).Sound r cs ∧ p.Goes r cs (p.write r.id i) := by
  unfold write
  cases hpursuit : p.pursuit i with
  | idle | looking => exact ⟨hp, .stays rfl rfl⟩
  | writing s seen =>
    obtain ⟨hs, hadvance, k, hk, hseen⟩ :=
      (hpursuit ▸ hp.fits i : (Pursuit.writing s seen).Fits r cs p.taken.length)
    have hsame (hversion : seen.version = r.version + p.taken.length) :
        seen = r.after cs.length p.taken.length := by
      have : k = p.taken.length := by
        rw [hseen, after_version] at hversion
        omega
      rw [hseen, this]
    have ends := passOn_ends hp.calm hp.distinct hp.stored hsame
    simp only [hs.candidates]
    cases hpass : passOn r.id seen cs p.world with
    | error e v =>
      obtain rfl : v = p.world := ends.bad_of hpass
      rw [wrote, hadvance, ended]
      exact hp.stays hp.calm rfl ⟨.refused e, trivial⟩ rfl trivial
    | ok swapped v =>
      cases swapped with
      | false =>
        obtain rfl : v = p.world := ends.ok_of hpass
        exact hp.goes_again i hs (.inl hadvance)
      | true =>
        obtain ⟨hturn, hv⟩ := ends.ok_of hpass
        obtain ⟨u, hconclude, htables, hrivals⟩ :=
          s.rule.conclude_eq (seen.pick cs s.advance) v
        have hdecided := hs.decided_eq hcs p.taken.length
        rw [hs.candidates, ← hturn] at hdecided
        rw [wrote, hs.candidates, hconclude, hdecided, hadvance, ended]
        apply hp.takes hcs i _ _ rfl
        · rw [hrivals, hv]
          exact hp.calm
        · rw [htables, hv]
          rfl

/-- Whatever moves, the rule stays sound. -/
theorem goes_after (hrotating : r.rotating? = some cs) (m : Move ι) :
    (m.after r.id p).Sound r cs ∧ p.Goes r cs (m.after r.id p) := by
  obtain ⟨-, -, hcs, -⟩ := of_rotating? hrotating
  cases m with
  | start i advance => exact hp.goes_start hrotating i advance
  | look i => exact hp.goes_look hcs i
  | write i => exact hp.goes_write hcs i

theorem afterAll (hrotating : r.rotating? = some cs) (moves : List (Move ι)) :
    (p.afterAll r.id moves).Sound r cs := by
  induction moves generalizing p with
  | nil => exact hp
  | cons m rest ih => exact ih (hp.goes_after hrotating m).1

omit [DecidableEq ι] in
/-- The turns that were taken are the first ones. -/
theorem taken_eq : p.taken
    = (List.range p.taken.length).map fun k : Nat => r.turn cs true (r.cursor + k) := by
  rw [List.range_eq_range']
  exact hp.rotated.taken_eq

end Sound

/-! ## Fairness -/

/-- However resolvers get in each other's way, the turns are taken in the order of the candidates,
and each of them raises the version by one. Nothing else moves the rule, neither a look at it nor a
resolution that gives up. Who only looks is told who takes the next turn. As many turns as there are
candidates are one of each, and leave the cursor where it was. -/
theorem afterAll_in_turn {w : World} (hcalm : w.rivalWrites = 0)
    (hdistinct : (w.tables.rules.map AssignmentRule.id).Nodup)
    (hstored : w.tables.rules.find? (·.id = r.id) = some r) (hrotating : r.rotating? = some cs)
    (moves : List (Move ι)) :
    let p := (opened w).afterAll r.id moves
    p.stored? r.id = some (r.after cs.length p.taken.length)
      ∧ (∀ k (h : k < p.taken.length), p.taken[k] = r.turn cs true (r.cursor + k))
      ∧ (∀ m : Move ι, p.Goes r cs (m.after r.id p))
      ∧ (∀ before t between u rest d d',
        p.resolutions = before ++ t :: (between ++ u :: rest) → t.previewed? = some d →
          Resolution.taken between = [] → u.taken? = some d' → d.owner = d'.owner)
      ∧ ∀ more, let q := p.afterAll r.id more
        q.taken.length = p.taken.length + cs.length →
          (q.taken.drop p.taken.length).Perm
            ((List.range cs.length).map fun j : Nat => r.turn cs true j)
          ∧ ∃ s s', p.stored? r.id = some s ∧ q.stored? r.id = some s'
            ∧ s'.cursor % cs.length = s.cursor % cs.length := by
  intro p
  have hopened : (opened w : Resolvers ι).Sound r cs :=
    ⟨hcalm, hdistinct, by simpa [opened, taken, resolutions, stored?] using hstored, trivial,
      fun _ => trivial⟩
  have hp : p.Sound r cs := hopened.afterAll hrotating moves
  refine ⟨hp.stored, fun k h => ?_, fun m => (hp.goes_after hrotating m).2, ?_, fun more => ?_⟩
  · rw [List.getElem_of_eq hp.taken_eq h]
    simp
  · intro before t between u rest d d' heq hpreviewed hbetween htaken
    exact (heq ▸ hp.rotated).previewed_eq hpreviewed hbetween htaken
  · intro q hmore
    have hq : q.Sound r cs := hp.afterAll hrotating more
    constructor
    · rw [hq.taken_eq, hmore, List.range_eq_range', ← List.map_drop, List.drop_range',
        Nat.zero_add, Nat.mul_one, Nat.add_sub_cancel_left]
      exact turns_perm r cs p.taken.length
    · refine ⟨_, _, hp.stored, hq.stored, ?_⟩
      rw [after_cursor_emod, after_cursor_emod, hmore]
      push_cast
      rw [← Int.add_assoc, Int.add_emod_right]

def pair : AssignmentRule where
  id := .ofRow 6 1
  name := "Routing"
  module := none
  strategy := "round_robin"
  candidates := .list [.obj [("user_id", .str "alice")], .obj [("user_id", .str "bob")]]
  config := .null
  cursor := 5
  version := 1
  isEnabled := true

def sharing : World :=
  { World.initial ⟨⟨0⟩, 0⟩ .standard .complete [] with
    tables := { Tables.empty with rules := [pair] } }

/-- One looks at the rule only. Of the two that want to take a turn the second is overtaken and
tries again. -/
def overtaken : List (Move Nat) :=
  [.start 2 false, .look 2, .start 0 true, .start 1 true, .look 0, .look 1, .write 0, .write 1,
   .look 1, .write 1]

def summary (p : Resolvers ι) : List (ι × Bool × Option String) :=
  p.log.map fun x => (x.1, x.2.advance, x.2.decided?.bind Decision.owner)

set_option maxRecDepth 10000 in
/-- The first two are named the same candidate, and the one that was overtaken gets the next. -/
theorem afterAll_in_turn_overtaken : sharing.rivalWrites = 0
    ∧ (sharing.tables.rules.map AssignmentRule.id).Nodup
    ∧ sharing.tables.rules.find? (·.id = pair.id) = some pair
    ∧ pair.rotating? = some [⟨"alice", none⟩, ⟨"bob", none⟩]
    ∧ let p := (opened sharing).afterAll pair.id overtaken
      p.summary = [(2, false, some "bob"), (0, true, some "bob"), (1, true, some "alice")]
      ∧ p.stored? pair.id = some (pair.after 2 2)
      ∧ (∀ k (h : k < p.taken.length), p.taken[k]
        = pair.turn [⟨"alice", none⟩, ⟨"bob", none⟩] true (5 + k))
      ∧ ∀ m : Move Nat, p.Goes pair [⟨"alice", none⟩, ⟨"bob", none⟩] (m.after pair.id p) := by
  have hdistinct : (sharing.tables.rules.map AssignmentRule.id).Nodup := by decide
  have hrotating : pair.rotating? = some [⟨"alice", none⟩, ⟨"bob", none⟩] := rfl
  have hlength : ((opened sharing).afterAll pair.id overtaken).taken.length = 2 := by decide +kernel
  obtain ⟨hstored, hturns, hgoes, -⟩ := afterAll_in_turn rfl hdistinct rfl hrotating overtaken
  rw [hlength] at hstored
  exact ⟨rfl, hdistinct, rfl, hrotating, by decide +kernel, hstored, hturns, hgoes⟩

end Resolvers

end RecordFlow
