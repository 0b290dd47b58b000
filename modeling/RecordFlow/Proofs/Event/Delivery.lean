import Mathlib.Data.List.Induction
import Mathlib.Data.List.Nodup
import RecordFlow.Event.Bus

/-! # Who gets an event

Whom a bus calls follows from what it was asked before: a handler is called for its name if nobody
removed it since it was subscribed, and the handlers of a name are called in the order in which
their subscriptions began. A subscription to every event is served after those of the name. Under the
name of every event itself the two are the same, and each of its handlers is called twice.
-/
namespace RecordFlow.Event
variable {η : Type}

inductive Call (η : Type) where
  | subscribe (name : String) (handler : η)
  | unsubscribe (name : String) (handler : η)
  | publish (name : String)
  deriving DecidableEq

namespace Call
variable {calls : List (Call η)} {call : Call η} {name : String} {h : η} {n : Nat}

def Subscribed (calls : List (Call η)) (name : String) (h : η) : Prop :=
  ∃ before since, calls = before ++ .subscribe name h :: since ∧ .unsubscribe name h ∉ since

/-- The subscription of a handler began with the call at a position: nobody removed the handler
since, and it was not subscribed before. -/
def BeganAt (calls : List (Call η)) (name : String) (h : η) (n : Nat) : Prop :=
  ∃ before since, calls = before ++ .subscribe name h :: since ∧ before.length = n
    ∧ .unsubscribe name h ∉ since ∧ ¬ Subscribed before name h

theorem not_subscribed_nil : ¬ Subscribed ([] : List (Call η)) name h := by
  rintro ⟨before, since, hcalls, -⟩
  simp at hcalls

/-- What is split at a call is split at the last one, or before it. -/
theorem concat_eq_append_cons {before since : List (Call η)} {c : Call η} :
    calls ++ [call] = before ++ c :: since
      ↔ (since = [] ∧ c = call ∧ before = calls)
        ∨ ∃ since', since = since' ++ [call] ∧ calls = before ++ c :: since' := by
  cases since using List.reverseRecOn with
  | nil =>
    constructor
    · intro h
      have h := List.append_inj' h rfl
      exact .inl ⟨rfl, (List.singleton_inj.mp h.2).symm, h.1.symm⟩
    · rintro (⟨-, rfl, rfl⟩ | ⟨since', h, -⟩)
      · rfl
      · simp at h
  | append_singleton since last =>
    rw [← List.cons_append, ← List.append_assoc]
    constructor
    · intro h
      have h := List.append_inj' h rfl
      exact .inr ⟨since, by rw [List.singleton_inj.mp h.2], h.1⟩
    · rintro (⟨h, -⟩ | ⟨since', h, rfl⟩)
      · simp at h
      · rw [(List.append_inj' h rfl).1, (List.append_inj' h rfl).2]

theorem subscribed_concat : Subscribed (calls ++ [call]) name h
    ↔ call = .subscribe name h ∨ (call ≠ .unsubscribe name h ∧ Subscribed calls name h) := by
  unfold Subscribed
  constructor
  · rintro ⟨before, since, hcalls, hsince⟩
    obtain ⟨rfl, rfl, rfl⟩ | ⟨since', rfl, rfl⟩ := concat_eq_append_cons.mp hcalls
    · exact .inl rfl
    · simp only [List.mem_append, List.mem_singleton, not_or] at hsince
      exact .inr ⟨Ne.symm hsince.2, before, since', rfl, hsince.1⟩
  · rintro (rfl | ⟨hcall, before, since, rfl, hsince⟩)
    · exact ⟨calls, [], rfl, by simp⟩
    · exact ⟨before, since ++ [call], by simp, by simp [hsince, Ne.symm hcall]⟩

theorem beganAt_concat : BeganAt (calls ++ [call]) name h n
    ↔ (call = .subscribe name h ∧ n = calls.length ∧ ¬ Subscribed calls name h)
      ∨ (call ≠ .unsubscribe name h ∧ BeganAt calls name h n) := by
  unfold BeganAt
  constructor
  · rintro ⟨before, since, hcalls, rfl, hsince, hbefore⟩
    obtain ⟨rfl, rfl, rfl⟩ | ⟨since', rfl, rfl⟩ := concat_eq_append_cons.mp hcalls
    · exact .inl ⟨rfl, rfl, hbefore⟩
    · simp only [List.mem_append, List.mem_singleton, not_or] at hsince
      exact .inr ⟨Ne.symm hsince.2, before, since', rfl, rfl, hsince.1, hbefore⟩
  · rintro (⟨rfl, rfl, hcalls⟩ | ⟨hcall, before, since, rfl, rfl, hsince, hbefore⟩)
    · exact ⟨calls, [], rfl, rfl, by simp, hcalls⟩
    · exact ⟨before, since ++ [call], by simp, rfl, by simp [hsince, Ne.symm hcall], hbefore⟩

theorem BeganAt.lt_length (h' : BeganAt calls name h n) : n < calls.length := by
  obtain ⟨before, since, rfl, rfl, -⟩ := h'
  simp

theorem BeganAt.subscribed (h' : BeganAt calls name h n) : Subscribed calls name h := by
  obtain ⟨before, since, hcalls, -, hsince, -⟩ := h'
  exact ⟨before, since, hcalls, hsince⟩

/-! ## The handlers of a name -/

/-- The handlers that are subscribed to a name, each of them once, in the order in which their
subscriptions began. -/
structure Lists (calls : List (Call η)) (name : String) (hs : List η) : Prop where
  nodup : hs.Nodup
  mem_iff : ∀ h, h ∈ hs ↔ Subscribed calls name h
  inOrder : hs.Pairwise fun a b =>
    ∀ m n, BeganAt calls name a m → BeganAt calls name b n → m < n

namespace Lists
variable {hs : List η}

theorem nil (name : String) : Lists ([] : List (Call η)) name [] where
  nodup := List.nodup_nil
  mem_iff h := by simp [not_subscribed_nil]
  inOrder := .nil

theorem concat_other (hlist : Lists calls name hs) (hsubscribe : ∀ h, call ≠ .subscribe name h)
    (hunsubscribe : ∀ h, call ≠ .unsubscribe name h) : Lists (calls ++ [call]) name hs where
  nodup := hlist.nodup
  mem_iff h := by
    rw [hlist.mem_iff, subscribed_concat]
    simp [hsubscribe, hunsubscribe]
  inOrder := by simpa [beganAt_concat, hsubscribe, hunsubscribe] using hlist.inOrder

/-- A handler that is listed stays where it is. -/
theorem subscribe_listed (hlist : Lists calls name hs) (hmem : h ∈ hs) :
    Lists (calls ++ [.subscribe name h]) name hs := by
  have hsubscribed : Subscribed calls name h := (hlist.mem_iff h).mp hmem
  have before {a : η} {k : Nat} (ha : BeganAt (calls ++ [.subscribe name h]) name a k) :
      BeganAt calls name a k := by
    obtain ⟨hsame, -, hnot⟩ | ⟨-, ha⟩ := beganAt_concat.mp ha
    · cases hsame
      exact absurd hsubscribed hnot
    · exact ha
  constructor
  · exact hlist.nodup
  · intro a
    rw [hlist.mem_iff, subscribed_concat]
    constructor
    · intro ha
      exact .inr ⟨by simp, ha⟩
    · rintro (hsame | ⟨-, ha⟩)
      · cases hsame
        exact hsubscribed
      · exact ha
  · exact hlist.inOrder.imp fun hab m n hm hn => hab m n (before hm) (before hn)

/-- A handler that is not listed comes last: its subscription begins with the call. -/
theorem subscribe_unlisted (hlist : Lists calls name hs) (hmem : h ∉ hs) :
    Lists (calls ++ [.subscribe name h]) name (hs ++ [h]) := by
  have hnot : ¬ Subscribed calls name h := fun hsub => hmem ((hlist.mem_iff h).mpr hsub)
  have before {a : η} {k : Nat} (ha : a ∈ hs)
      (hk : BeganAt (calls ++ [.subscribe name h]) name a k) : BeganAt calls name a k := by
    obtain ⟨hsame, -, -⟩ | ⟨-, hk⟩ := beganAt_concat.mp hk
    · cases hsame
      exact absurd ha hmem
    · exact hk
  constructor
  · simpa using hlist.nodup.concat hmem
  · intro a
    rw [List.mem_append, List.mem_singleton, hlist.mem_iff, subscribed_concat]
    constructor
    · rintro (ha | rfl)
      · exact .inr ⟨by simp, ha⟩
      · exact .inl rfl
    · rintro (hsame | ⟨-, ha⟩)
      · cases hsame
        exact .inr rfl
      · exact .inl ha
  · rw [List.pairwise_append]
    refine ⟨hlist.inOrder.imp_of_mem fun ha hb hab m n hm hn =>
      hab m n (before ha hm) (before hb hn), List.pairwise_singleton _ _, ?_⟩
    intro a ha b hb m n hm hn
    rw [List.mem_singleton.mp hb] at hn
    obtain ⟨-, rfl, -⟩ | ⟨-, hn⟩ := beganAt_concat.mp hn
    · exact (before ha hm).lt_length
    · exact absurd hn.subscribed hnot

/-- A handler that is removed is listed no more; the others stay in order. -/
theorem unsubscribe [DecidableEq η] (hlist : Lists calls name hs) (h : η) :
    Lists (calls ++ [.unsubscribe name h]) name (hs.erase h) := by
  constructor
  · exact hlist.nodup.erase h
  · intro a
    rw [hlist.nodup.mem_erase_iff, hlist.mem_iff, subscribed_concat]
    simp [eq_comm]
  · refine (hlist.inOrder.sublist List.erase_sublist).imp fun hab m n hm hn => ?_
    simp only [beganAt_concat, reduceCtorEq, false_and, false_or] at hm hn
    exact hab m n hm.2 hn.2

end Lists

end Call

/-! ## The bus -/

namespace Bus
open Call
variable [DecidableEq η]

def apply (bus : Bus η) : Call η → Bus η
  | .subscribe name h => bus.subscribe name h
  | .unsubscribe name h => bus.unsubscribe name h
  | .publish _ => bus

def after (calls : List (Call η)) : Bus η := calls.foldl apply empty

omit [DecidableEq η] in
@[simp] theorem set_handlers (bus : Bus η) (name other : String) (hs : List η) :
    (bus.set name hs).handlers other = if other = name then hs else bus.handlers other := rfl

theorem apply_lists {bus : Bus η} {calls : List (Call η)} {name : String}
    (hbus : Lists calls name (bus.handlers name)) (call : Call η) :
    Lists (calls ++ [call]) name ((bus.apply call).handlers name) := by
  cases call with
  | subscribe other h =>
    have hother (hname : name ≠ other) :
        Lists (calls ++ [.subscribe other h]) name (bus.handlers name) :=
      hbus.concat_other (by simp [Ne.symm hname]) (by simp)
    rw [apply, subscribe]
    split
    · next hmem =>
      by_cases hname : name = other
      · subst hname
        exact hbus.subscribe_listed hmem
      · exact hother hname
    · next hmem =>
      rw [set_handlers]
      split
      · next hname =>
        subst hname
        exact hbus.subscribe_unlisted hmem
      · next hname => exact hother hname
  | unsubscribe other h =>
    rw [apply, unsubscribe, set_handlers]
    split
    · next hname =>
      subst hname
      exact hbus.unsubscribe h
    · next hname => exact hbus.concat_other (by simp) (by simp [Ne.symm hname])
  | publish other => exact hbus.concat_other (by simp) (by simp)

/-- Whatever a bus was asked, its lists are right. -/
theorem after_lists (calls : List (Call η)) (name : String) :
    Lists calls name ((after calls).handlers name) := by
  induction calls using List.reverseRecOn with
  | nil => exact .nil name
  | append_singleton calls call ih =>
    rw [after, List.foldl_append]
    exact apply_lists ih call

/-- An event goes to the handlers of its name and then to those of every event, whichever of them
fail; those that do not fail are counted. -/
theorem after_publishes (calls : List (Call η)) (fails : η → Bool) (name : String) :
    ∃ named every, Lists calls name named ∧ Lists calls everyEvent every
      ∧ (after calls).recipients name = named ++ every
      ∧ (after calls).delivered fails name
        = named.countP (!fails ·) + every.countP (!fails ·) := by
  refine ⟨_, _, after_lists calls name, after_lists calls everyEvent, rfl, ?_⟩
  rw [delivered, ← List.countP_eq_length_filter, recipients, List.countP_append]

/-- How often a handler is called for an event: once for its subscription to the name and once for
that to every event. -/
theorem after_count_recipients (calls : List (Call η)) (name : String) (h : η)
    [Decidable (Subscribed calls name h)] [Decidable (Subscribed calls everyEvent h)] :
    ((after calls).recipients name).count h
      = (if Subscribed calls name h then 1 else 0)
        + (if Subscribed calls everyEvent h then 1 else 0) := by
  rw [recipients, List.count_append, (after_lists calls name).nodup.count,
    (after_lists calls everyEvent).nodup.count]
  simp only [(after_lists calls _).mem_iff]

/-- For the name of every event the two are one subscription, and its handler is called twice. -/
theorem after_count_everyEvent {calls : List (Call η)} {h : η}
    (hsubscribed : Subscribed calls everyEvent h) :
    ((after calls).recipients everyEvent).count h = 2 := by
  classical
  rw [after_count_recipients, if_pos hsubscribed]

example : (after [.subscribe "won" "a", .subscribe "*" "b", .subscribe "won" "b",
    .unsubscribe "won" "a", .subscribe "won" "a"]).recipients "won" = ["b", "a", "b"] := by
  decide

end Bus

end RecordFlow.Event
