import Mathlib.Order.Defs.Unbundled
import RecordFlow.Run.Context

/-! # Outcomes of operations

An operation leaves a state behind whether it succeeds or fails. What is said about an operation
says it of both ends: of the value with its state, and of the failure with its state.
-/
namespace RecordFlow
variable {ε σ α β : Type}

/-- How a part ends from a state: with a value as `ok` says, or with a failure as `bad` says. -/
def Ends (part : EStateM ε σ α) (s : σ) (ok : α → σ → Prop) (bad : ε → σ → Prop) : Prop :=
  match part s with
  | .ok a t => ok a t
  | .error e t => bad e t

def passes (part : EStateM ε σ α) (s : σ) (test : α → σ → Bool) : Bool :=
  match part s with
  | .ok a t => test a t
  | .error _ _ => false

namespace Ends
variable {x : EStateM ε σ α} {y : α → EStateM ε σ β} {s : σ}
variable {ok ok' : α → σ → Prop} {bad bad' : ε → σ → Prop} {next : β → σ → Prop}

theorem of_ok {a : α} {t : σ} (h : x s = .ok a t) (hok : ok a t) : Ends x s ok bad := by
  rw [Ends, h]
  exact hok

theorem of_error {e : ε} {t : σ} (h : x s = .error e t) (hbad : bad e t) : Ends x s ok bad := by
  rw [Ends, h]
  exact hbad

theorem ok_of {a : α} {t : σ} (hx : Ends x s ok bad) (h : x s = .ok a t) : ok a t := by
  rw [Ends, h] at hx
  exact hx

theorem bad_of {e : ε} {t : σ} (hx : Ends x s ok bad) (h : x s = .error e t) : bad e t := by
  rw [Ends, h] at hx
  exact hx

theorem exists_ok (hx : Ends x s ok fun _ _ => False) : ∃ a t, x s = .ok a t ∧ ok a t := by
  cases h : x s with
  | ok a t => exact ⟨a, t, rfl, hx.ok_of h⟩
  | error e t => exact (hx.bad_of h).elim

theorem any : Ends x s (fun _ _ => True) fun _ _ => True := by
  cases h : x s with
  | ok _ _ => exact of_ok h trivial
  | error _ _ => exact of_error h trivial

theorem of_passes {test : α → σ → Bool} (h : passes x s test = true) :
    Ends x s (fun a t => test a t = true) fun _ _ => False := by
  unfold passes at h
  cases hx : x s with
  | ok a t => exact of_ok hx (by simpa only [hx] using h)
  | error e t => simp only [hx, Bool.false_eq_true] at h

theorem mono (hx : Ends x s ok bad) (hok : ∀ a t, ok a t → ok' a t)
    (hbad : ∀ e t, bad e t → bad' e t) : Ends x s ok' bad' := by
  cases h : x s with
  | ok a t => exact of_ok h (hok a t (hx.ok_of h))
  | error e t => exact of_error h (hbad e t (hx.bad_of h))

theorem and (hx : Ends x s ok bad) (hx' : Ends x s ok' bad') :
    Ends x s (fun a t => ok a t ∧ ok' a t) (fun e t => bad e t ∧ bad' e t) := by
  cases h : x s with
  | ok a t => exact of_ok h ⟨hx.ok_of h, hx'.ok_of h⟩
  | error e t => exact of_error h ⟨hx.bad_of h, hx'.bad_of h⟩

theorem pure {a : α} (h : ok a s) : Ends (pure a) s ok bad := h

theorem throw {e : ε} (h : bad e s) : Ends (throw e) s ok bad := h

theorem bind (hx : Ends x s ok bad) (hbad : ∀ e t, bad e t → bad' e t)
    (hy : ∀ a t, x s = .ok a t → ok a t → Ends (y a) t next bad') :
    Ends (x >>= y) s next bad' := by
  cases h : x s with
  | ok a t =>
    have hyt := hy a t h (hx.ok_of h)
    cases hb : y a t with
    | ok b u => exact of_ok (by simp only [Bind.bind, EStateM.bind, h, hb]) (hyt.ok_of hb)
    | error e u => exact of_error (by simp only [Bind.bind, EStateM.bind, h, hb]) (hyt.bad_of hb)
  | error e t =>
    exact of_error (by simp only [Bind.bind, EStateM.bind, h]) (hbad e t (hx.bad_of h))

theorem map {f : α → β} (hx : Ends x s (fun a t => next (f a) t) bad) :
    Ends (f <$> x) s next bad := by
  rw [map_eq_pure_bind]
  exact hx.bind (fun _ _ h => h) fun _ _ _ h => pure h

/-- A part of which it is known how it ends is followed by the rest. -/
theorem step {a : α} {t : σ} (h : x s = .ok a t) (hy : Ends (y a) t next bad) :
    Ends (x >>= y) s next bad := by
  unfold Ends at hy ⊢
  simp only [Bind.bind, EStateM.bind, h]
  exact hy

theorem ite {c : Prop} [Decidable c] {z : EStateM ε σ α} (hx : c → Ends x s ok bad)
    (hz : ¬ c → Ends z s ok bad) : Ends (if c then x else z) s ok bad := by
  split
  · next h => exact hx h
  · next h => exact hz h

theorem guarded {c : Prop} [Decidable c] {e : ε} {rest : PUnit → EStateM ε σ α}
    (hbad : c → bad e s) (hrest : ¬ c → Ends (rest ⟨⟩) s ok bad) :
    Ends (if c then MonadExcept.throw e >>= rest else rest ⟨⟩) s ok bad :=
  .ite (fun h => .of_error rfl (hbad h)) hrest

theorem tryFinally {last : EStateM ε σ β} (hx : Ends x s ok bad)
    (hok : ∀ a t, ok a t → Ends last t (fun _ u => ok' a u) bad')
    (hbad : ∀ e t, bad e t → Ends last t (fun _ u => bad' e u) bad') :
    Ends (tryFinally x last) s ok' bad' := by
  refine .map ?_
  cases h : x s with
  | ok a t =>
    cases hl : last t with
    | ok b u =>
      refine .of_ok (t := u) (by simp only [MonadFinally.tryFinally', h, hl]; rfl) ?_
      exact (hok a t (hx.ok_of h)).ok_of hl
    | error e u =>
      refine .of_error (t := u) (by simp only [MonadFinally.tryFinally', h, hl]; rfl) ?_
      exact (hok a t (hx.ok_of h)).bad_of hl
  | error e t =>
    cases hl : last t with
    | ok b u =>
      refine .of_error (t := u) (by simp only [MonadFinally.tryFinally', h, hl]; rfl) ?_
      exact (hbad e t (hx.bad_of h)).ok_of hl
    | error e' u =>
      refine .of_error (t := u) (by simp only [MonadFinally.tryFinally', h, hl]; rfl) ?_
      exact (hbad e t (hx.bad_of h)).bad_of hl

end Ends

theorem bind_ok {x : EStateM ε σ α} {s t : σ} {a : α} (h : x s = .ok a t)
    (y : α → EStateM ε σ β) : (x >>= y) s = y a t := by
  simp only [Bind.bind, EStateM.bind, h]

theorem bind_error {x : EStateM ε σ α} {s t : σ} {e : ε} (h : x s = .error e t)
    (y : α → EStateM ε σ β) : (x >>= y) s = .error e t := by
  simp only [Bind.bind, EStateM.bind, h]

structure Alike (x x' : EStateM ε σ α) (s : σ) (ok : α → σ → Prop) (bad : ε → σ → Prop) :
    Prop where
  same : x s = x' s
  ends : Ends x s ok bad

namespace Alike
variable {x x' : EStateM ε σ α} {y y' : α → EStateM ε σ β} {s : σ}
variable {ok ok' : α → σ → Prop} {bad bad' : ε → σ → Prop} {next : β → σ → Prop}

theorem refl (h : Ends x s ok bad) : Alike x x s ok bad := ⟨rfl, h⟩

theorem mono (hx : Alike x x' s ok bad) (hok : ∀ a t, ok a t → ok' a t)
    (hbad : ∀ e t, bad e t → bad' e t) : Alike x x' s ok' bad' :=
  ⟨hx.same, hx.ends.mono hok hbad⟩

theorem bind (hx : Alike x x' s ok bad) (hbad : ∀ e t, bad e t → bad' e t)
    (hy : ∀ a t, ok a t → Alike (y a) (y' a) t next bad') :
    Alike (x >>= y) (x' >>= y') s next bad' where
  same := by
    cases h : x s with
    | ok a t => rw [bind_ok h, bind_ok (hx.same ▸ h), (hy a t (hx.ends.ok_of h)).same]
    | error e t => rw [bind_error h, bind_error (hx.same ▸ h)]
  ends := hx.ends.bind hbad fun a t _ h => (hy a t h).ends

theorem step {a : α} {t : σ} (h : x s = .ok a t) (hy : Alike (y a) (y' a) t next bad) :
    Alike (x >>= y) (x >>= y') s next bad :=
  ⟨by rw [bind_ok h, bind_ok h, hy.same], .step h hy.ends⟩

theorem ite {c : Prop} [Decidable c] {z z' : EStateM ε σ α} (hx : c → Alike x x' s ok bad)
    (hz : ¬ c → Alike z z' s ok bad) :
    Alike (if c then x else z) (if c then x' else z') s ok bad := by
  split
  · next h => exact hx h
  · next h => exact hz h

end Alike

/-- Whatever way a part ends, the states before and after are related, and a failure is one of
those that `fault` admits. -/
def Keeps (fault : ε → Prop) (R : σ → σ → Prop) (part : EStateM ε σ α) : Prop :=
  ∀ s, Ends part s (fun _ t => R s t) (fun e t => fault e ∧ R s t)

namespace Keeps
variable {fault fault' : ε → Prop} {R R' : σ → σ → Prop} {x : EStateM ε σ α}

theorem ok (hx : Keeps fault R x) {s t : σ} {a : α} (h : x s = .ok a t) : R s t :=
  (hx s).ok_of h

theorem error (hx : Keeps fault R x) {s t : σ} {e : ε} (h : x s = .error e t) :
    fault e ∧ R s t :=
  (hx s).bad_of h

theorem mono (hx : Keeps fault R x) (hfault : ∀ e, fault e → fault' e)
    (hR : ∀ s t, R s t → R' s t) : Keeps fault' R' x := fun s =>
  (hx s).mono (fun _ t h => hR s t h) fun e t h => ⟨hfault e h.1, hR s t h.2⟩

theorem modify {f : σ → σ} (h : ∀ s, R s (f s)) : Keeps fault R (modify f : EStateM ε σ Unit) := h

theorem ite {c : Prop} [Decidable c] {y : EStateM ε σ α} (hx : Keeps fault R x)
    (hy : Keeps fault R y) : Keeps fault R (if c then x else y) := by
  split
  · exact hx
  · exact hy

section Preorder
variable [IsPreorder σ R]

theorem pure (a : α) : Keeps fault R (Pure.pure a : EStateM ε σ α) := fun s => refl_of R s

theorem throw {e : ε} (h : fault e) : Keeps fault R (throw e : EStateM ε σ α) := fun s =>
  ⟨h, refl_of R s⟩

theorem read (h : ∀ s, ∃ a, x s = .ok a s) : Keeps fault R x := fun s => by
  obtain ⟨a, ha⟩ := h s
  exact .of_ok ha (refl_of R s)

theorem get : Keeps fault R (MonadState.get : EStateM ε σ σ) := fun s => refl_of R s

theorem bind {y : α → EStateM ε σ β} (hx : Keeps fault R x) (hy : ∀ a, Keeps fault R (y a)) :
    Keeps fault R (x >>= y) := fun s =>
  (hx s).bind (fun _ _ h => h) fun a t _ hst =>
    (hy a t).mono (fun _ _ htu => trans_of R hst htu) fun _ _ h => ⟨h.1, trans_of R hst h.2⟩

theorem map (f : α → β) (hx : Keeps fault R x) : Keeps fault R (f <$> x) := by
  rw [map_eq_pure_bind]
  exact .bind hx fun a => .pure (f a)

theorem guarded {c : Prop} [Decidable c] {e : ε} {rest : PUnit → EStateM ε σ α} (he : fault e)
    (hrest : Keeps fault R (rest ⟨⟩)) :
    Keeps fault R (if c then MonadExcept.throw e >>= rest else rest ⟨⟩) :=
  .ite (.bind (.throw he) fun _ => hrest) hrest

theorem forIn (body : α → β → EStateM ε σ (ForInStep β)) (h : ∀ a b, Keeps fault R (body a b))
    (items : List α) (b : β) : Keeps fault R (forIn items b body) := by
  induction items generalizing b with
  | nil => exact .pure _
  | cons a rest ih =>
    rw [List.forIn_cons]
    refine .bind (h a b) fun step => ?_
    cases step with
    | done b => exact .pure _
    | yield b => exact ih b

theorem mapM (f : α → EStateM ε σ β) (h : ∀ a, Keeps fault R (f a)) (items : List α) :
    Keeps fault R (items.mapM f) := by
  induction items with
  | nil => exact .pure _
  | cons a rest ih =>
    rw [List.mapM_cons]
    exact .bind (h a) fun _ => .bind ih fun _ => .pure _

theorem filterMapM (f : α → EStateM ε σ (Option β)) (h : ∀ a, Keeps fault R (f a))
    (items : List α) : Keeps fault R (items.filterMapM f) := by
  induction items with
  | nil => exact .pure _
  | cons a rest ih =>
    rw [List.filterMapM_cons]
    refine .bind (h a) fun b? => ?_
    cases b? with
    | none => exact ih
    | some b => exact .bind ih fun _ => .pure _

end Preorder

end Keeps

/-! ## Parts that are undone where they fail -/

class Undoes (undo : σ → σ) (R : σ → σ → Prop) : Prop extends IsPreorder σ R where
  undone : ∀ s, R s (undo s)

/-- The states before and after a part are related; where the part fails, it is undone first. -/
def Steady (undo : σ → σ) (R : σ → σ → Prop) (part : EStateM ε σ α) : Prop :=
  ∀ s, Ends part s (fun _ t => R s t) fun _ t => R s (undo t)

/-- The same of a part that begins with undoing what came before it. -/
def Recovers (undo : σ → σ) (R : σ → σ → Prop) (part : EStateM ε σ α) : Prop :=
  ∀ s, Ends part s (fun _ t => R (undo s) t) fun _ t => R (undo s) (undo t)

namespace Steady
variable {undo : σ → σ} {R : σ → σ → Prop} {x : EStateM ε σ α} {y : α → EStateM ε σ β}

theorem ok (hx : Steady undo R x) {s t : σ} {a : α} (h : x s = .ok a t) : R s t :=
  (hx s).ok_of h

theorem error (hx : Steady undo R x) {s t : σ} {e : ε} (h : x s = .error e t) : R s (undo t) :=
  (hx s).bad_of h

theorem modify {f : σ → σ} (h : ∀ s, R s (f s)) :
    Steady undo R (modify f : EStateM ε σ Unit) := h

theorem ite {c : Prop} [Decidable c] {x' : EStateM ε σ α} (hx : Steady undo R x)
    (hx' : Steady undo R x') : Steady undo R (if c then x else x') := by
  split
  · exact hx
  · exact hx'

variable [Undoes undo R]

/-- A part whose failures need not be undone. -/
theorem of_keeps {fault : ε → Prop} (hx : Keeps fault R x) : Steady undo R x := fun s =>
  (hx s).mono (fun _ _ h => h) fun _ t h => trans_of R h.2 (Undoes.undone t)

theorem looks (hx : Keeps (fun _ => True) Eq x) : Steady undo R x :=
  of_keeps (hx.mono (fun _ h => h) fun s _ h => h ▸ refl_of R s)

theorem pure (a : α) : Steady undo R (Pure.pure a : EStateM ε σ α) := fun s => refl_of R s

theorem throw (e : ε) : Steady undo R (throw e : EStateM ε σ α) := fun s => Undoes.undone s

theorem get : Steady undo R (MonadState.get : EStateM ε σ σ) := fun s => refl_of R s

theorem bind (hx : Steady undo R x) (hy : ∀ a, Steady undo R (y a)) :
    Steady undo R (x >>= y) := fun s =>
  (hx s).bind (fun _ _ h => h) fun a t _ hst =>
    (hy a t).mono (fun _ _ htu => trans_of R hst htu) fun _ _ htu => trans_of R hst htu

theorem map (f : α → β) (hx : Steady undo R x) : Steady undo R (f <$> x) := by
  rw [map_eq_pure_bind]
  exact .bind hx fun a => .pure (f a)

theorem guarded {c : Prop} [Decidable c] {e : ε} {rest : PUnit → EStateM ε σ α}
    (hrest : Steady undo R (rest ⟨⟩)) :
    Steady undo R (if c then MonadExcept.throw e >>= rest else rest ⟨⟩) :=
  .ite (.bind (.throw e) fun _ => hrest) hrest

theorem forIn (body : α → β → EStateM ε σ (ForInStep β)) (h : ∀ a b, Steady undo R (body a b))
    (items : List α) (b : β) : Steady undo R (forIn items b body) := by
  induction items generalizing b with
  | nil => exact .pure _
  | cons a rest ih =>
    rw [List.forIn_cons]
    refine .bind (h a b) fun step => ?_
    cases step with
    | done b => exact .pure _
    | yield b => exact ih b

/-- What is done in the end always succeeds, and matters neither before nor after undoing. -/
theorem tryFinally {last : EStateM ε σ β} (hx : Steady undo R x)
    (hlast : ∀ s, Ends last s (fun _ t => R s t ∧ R (undo s) (undo t)) fun _ _ => False) :
    Steady undo R (tryFinally x last) := fun s =>
  (hx s).tryFinally
    (fun _ t hst => (hlast t).mono (fun _ _ h => trans_of R hst h.1) fun _ _ h => h.elim)
    fun _ t hst => (hlast t).mono (fun _ _ h => trans_of R hst h.2) fun _ _ h => h.elim

omit [Undoes undo R] in
theorem recovers {back : EStateM ε σ α} (hback : ∀ s, ∃ a, back s = .ok a (undo s))
    (hy : ∀ a, Steady undo R (y a)) : Recovers undo R (back >>= y) := fun s => by
  obtain ⟨a, ha⟩ := hback s
  exact .step ha (hy a (undo s))

end Steady

/-! ## Operations as parts of runs -/

theorem runIn_ends {part : Scoped α} {c : Context} {w : World} {ok : α × Context → World → Prop}
    {bad : Failure → World → Prop}
    (h : Ends part { world := w, context := c } (fun a f => ok (a, f.context) f.world)
      fun e f => bad e f.world) : Ends (Scoped.runIn c part) w ok bad := by
  cases hx : part { world := w, context := c } with
  | ok a f => exact .of_ok (a := (a, f.context)) (by rw [Scoped.runIn, hx]) (h.ok_of hx)
  | error e f => exact .of_error (by rw [Scoped.runIn, hx]) (h.bad_of hx)

theorem runIn_fst_ends {part : Scoped α} {c : Context} {w : World} {ok : α → World → Prop}
    {bad : Failure → World → Prop}
    (h : Ends part { world := w, context := c } (fun a f => ok a f.world) fun e f => bad e f.world) :
    Ends (do return (← Scoped.runIn c part).1) w ok bad := by
  have ran : Ends (Scoped.runIn c part) w (fun out v => ok out.1 v) bad := runIn_ends h
  exact ran.bind (fun _ _ h => h) fun _ _ _ h => .pure h

theorem lift_ok {part : Flow α} {f : Frame} {a : α} {v : World} (h : part f.world = .ok a v) :
    (liftM part : Scoped α) f = .ok a { f with world := v } := by
  simp only [liftM, monadLift, MonadLift.monadLift, h]

theorem lift_error {part : Flow α} {f : Frame} {e : Failure} {v : World}
    (h : part f.world = .error e v) : (liftM part : Scoped α) f = .error e { f with world := v } := by
  simp only [liftM, monadLift, MonadLift.monadLift, h]

theorem Ends.lift {part : Flow α} {f : Frame} {ok : α → World → Prop}
    {bad : Failure → World → Prop} (h : Ends part f.world ok bad) :
    Ends (liftM part : Scoped α) f (fun a g => ok a g.world ∧ g.context = f.context)
      fun e g => bad e g.world := by
  cases hx : part f.world with
  | ok a w => exact .of_ok (lift_ok hx) ⟨h.ok_of hx, rfl⟩
  | error e w => exact .of_error (lift_error hx) (h.bad_of hx)

/-! ## Parts that give a value -/

/-- If a part gives a value, it is one as `ok` says. -/
def Yields (part : EStateM ε σ α) (s : σ) (ok : α → σ → Prop) : Prop :=
  Ends part s ok fun _ _ => True

namespace Yields
variable {x : EStateM ε σ α} {y : α → EStateM ε σ β} {s : σ}
variable {ok ok' : α → σ → Prop} {next : β → σ → Prop}

theorem bind (hx : Yields x s ok) (hy : ∀ a t, ok a t → Yields (y a) t next) :
    Yields (x >>= y) s next :=
  Ends.bind hx (fun _ _ h => h) fun a t _ ht => hy a t ht

/-- Whatever comes of the first part, the rest gives what it gives. -/
theorem after (hy : ∀ a t, Yields (y a) t next) : Yields (x >>= y) s next :=
  Ends.bind Ends.any (fun _ _ h => h) fun a t _ _ => hy a t

theorem mono (hx : Yields x s ok) (h : ∀ a t, ok a t → ok' a t) : Yields x s ok' :=
  Ends.mono hx h fun _ _ h => h

theorem pure {a : α} (h : ok a s) : Yields (Pure.pure a : EStateM ε σ α) s ok := h

theorem throw {e : ε} : Yields (MonadExcept.throw e : EStateM ε σ α) s ok := trivial

theorem step {a : α} {t : σ} (h : x s = .ok a t) (hy : Yields (y a) t next) :
    Yields (x >>= y) s next := Ends.step h hy

theorem guarded {c : Prop} [Decidable c] {e : ε} {rest : PUnit → EStateM ε σ α}
    (hrest : ¬ c → Yields (rest ⟨⟩) s ok) :
    Yields (if c then MonadExcept.throw e >>= rest else rest ⟨⟩) s ok :=
  Ends.guarded (fun _ => trivial) hrest

theorem of_ok (h : ∀ a t, x s = .ok a t → ok a t) : Yields x s ok := by
  unfold Yields
  cases hx : x s with
  | ok a t => exact .of_ok hx (h a t hx)
  | error e t => exact .of_error hx trivial

theorem lift {part : Flow α} {f : Frame} {ok : α → World → Prop} (h : Yields part f.world ok) :
    Yields (liftM part : Scoped α) f fun a g => ok a g.world ∧ g.context = f.context := by
  cases hx : part f.world with
  | ok a w => exact Ends.of_ok (lift_ok hx) ⟨Ends.ok_of h hx, rfl⟩
  | error e w => exact Ends.of_error (lift_error hx) trivial

theorem readable {x : Except BadNumeral α} {f : Frame} :
    Yields (liftM (Flow.readable x) : Scoped α) f fun a g => g = f ∧ x = .ok a := by
  cases x with
  | ok a => exact Ends.of_ok (lift_ok rfl) ⟨rfl, rfl⟩
  | error cause => exact Ends.of_error (lift_error rfl) trivial

end Yields

/-- Whatever value a part gives, from whatever state, it is one of a kind. -/
def Gives (part : EStateM ε σ α) (kind : α → Prop) : Prop := ∀ s, Yields part s fun a _ => kind a

namespace Gives
variable {x : EStateM ε σ α} {y : α → EStateM ε σ β} {kind : α → Prop} {next : β → Prop}

theorem pure {a : α} (h : kind a) : Gives (Pure.pure a : EStateM ε σ α) kind := fun _ =>
  Yields.pure h

theorem throw {e : ε} : Gives (MonadExcept.throw e : EStateM ε σ α) kind := fun _ => Yields.throw

/-- What a part gives is told by what comes last in it. -/
theorem bind (hy : ∀ a, Gives (y a) next) : Gives (x >>= y) next := fun _ =>
  Yields.after fun a t => hy a t

theorem ite {c : Prop} [Decidable c] {z : EStateM ε σ α} (hx : Gives x kind) (hz : Gives z kind) :
    Gives (if c then x else z) kind := by
  split
  · exact hx
  · exact hz

theorem guarded {c : Prop} [Decidable c] {e : ε} {rest : PUnit → EStateM ε σ α}
    (hrest : Gives (rest ⟨⟩) kind) :
    Gives (if c then MonadExcept.throw e >>= rest else rest ⟨⟩) kind :=
  .ite (.bind fun _ => hrest) hrest

end Gives

theorem Ends.yields {x : EStateM ε σ α} {s : σ} {ok : α → σ → Prop} {bad : ε → σ → Prop}
    (hx : Ends x s ok bad) : Yields x s ok :=
  hx.mono (fun _ _ h => h) fun _ _ _ => trivial

end RecordFlow
