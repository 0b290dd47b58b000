import Mathlib.Order.Monotone.Basic
import RecordFlow.Proofs.Calendar.Written

/-! # Days in order

Days are counted in the order of their years, months and days of the month, and so are their texts put
in order, all of which are written with the same number of digits.
-/
namespace RecordFlow.Calendar
variable {year month n : Nat} {d e : Date}

/-! ## Days before a month and before a year -/

namespace Date

def yearLength (year : Nat) : Nat := if isLeap year = true then 366 else 365

theorem daysBeforeYear_eq (year : Nat) :
    daysBeforeYear (year + 1) + year / 100 = year * 365 + year / 4 + year / 400 := by
  rw [daysBeforeYear, Nat.add_sub_cancel]
  omega

theorem daysBeforeYear_succ (hyear : 1 ≤ year) :
    daysBeforeYear (year + 1) = daysBeforeYear year + yearLength year := by
  obtain ⟨before, rfl⟩ : ∃ before, year = before + 1 := ⟨year - 1, by omega⟩
  have hleap : isLeap (before + 1) = true
      ↔ 4 ∣ before + 1 ∧ (¬ 100 ∣ before + 1 ∨ 400 ∣ before + 1) := by
    simp [isLeap, Nat.dvd_iff_mod_eq_zero]
  have hyear := daysBeforeYear_eq before
  have hnext := daysBeforeYear_eq (before + 1)
  simp only [Nat.succ_div] at hnext
  simp only [yearLength, hleap]
  split_ifs at hnext ⊢ <;> omega

theorem daysBeforeYear_mono : Monotone daysBeforeYear := by
  refine monotone_nat_of_le_succ fun year => ?_
  cases year with
  | zero => exact Nat.le_refl 0
  | succ before =>
    rw [daysBeforeYear_succ (Nat.le_add_left 1 before)]
    exact Nat.le_add_right _ _

theorem daysBeforeMonth_succ (year : Nat) (hmonth : 1 ≤ month) :
    daysBeforeMonth year (month + 1) = daysBeforeMonth year month + monthLength year month := by
  obtain ⟨before, rfl⟩ : ∃ before, month = before + 1 := ⟨month - 1, by omega⟩
  simp only [daysBeforeMonth, Nat.add_sub_cancel, List.range_succ, List.map_append, List.map_cons,
    List.map_nil, List.foldl_append, List.foldl_cons, List.foldl_nil]

theorem daysBeforeMonth_mono (year : Nat) : Monotone (daysBeforeMonth year) := by
  refine monotone_nat_of_le_succ fun month => ?_
  cases month with
  | zero => exact Nat.le_refl 0
  | succ before =>
    rw [daysBeforeMonth_succ year (Nat.le_add_left 1 before)]
    exact Nat.le_add_right _ _

theorem daysBeforeMonth_add (year more : Nat) (hmonth : 1 ≤ month) :
    daysBeforeMonth year (month + more + 1)
      = daysBeforeMonth year month + daysFrom year month more := by
  induction more generalizing month with
  | zero => exact daysBeforeMonth_succ year hmonth
  | succ more ih =>
    have hsame : month + (more + 1) + 1 = month + 1 + more + 1 := by omega
    rw [hsame, ih (Nat.le_add_left 1 month), daysBeforeMonth_succ year hmonth, daysFrom, Nat.add_assoc]

theorem daysBeforeMonth_last (year : Nat) : daysBeforeMonth year 13 = yearLength year :=
  (daysBeforeMonth_add year 11 (Nat.le_refl 1)).trans ((Nat.zero_add _).trans (daysFrom_january year))

/-! ## The count of days -/

theorem isValid_iff : d.isValid = true ↔ (1 ≤ d.year ∧ d.year ≤ 9999) ∧ (1 ≤ d.month ∧ d.month ≤ 12)
    ∧ 1 ≤ d.day ∧ d.day ≤ monthLength d.year d.month := by
  simp only [isValid, Bool.and_eq_true, decide_eq_true_eq]
  omega

def Precedes (d e : Date) : Prop :=
  d.year < e.year ∨ d.year = e.year ∧ (d.month < e.month ∨ d.month = e.month ∧ d.day < e.day)

theorem precedes_trichotomy (d e : Date) : d.Precedes e ∨ d = e ∨ e.Precedes d := by
  obtain ⟨year, month, day⟩ := d
  obtain ⟨year', month', day'⟩ := e
  simp only [Precedes, Date.mk.injEq]
  omega

theorem number_le_month (hd : d.isValid = true) :
    d.number ≤ daysBeforeYear d.year + daysBeforeMonth d.year (d.month + 1) := by
  obtain ⟨-, hmonth, hday⟩ := isValid_iff.mp hd
  rw [daysBeforeMonth_succ d.year hmonth.1, number]
  omega

theorem number_le_year (hd : d.isValid = true) : d.number ≤ daysBeforeYear (d.year + 1) := by
  obtain ⟨hyear, hmonth, -⟩ := isValid_iff.mp hd
  have hlast := daysBeforeMonth_mono d.year (show d.month + 1 ≤ 13 by omega)
  rw [daysBeforeMonth_last] at hlast
  rw [daysBeforeYear_succ hyear.1]
  exact Nat.le_trans (number_le_month hd) (Nat.add_le_add_left hlast _)

theorem Precedes.number_lt (h : d.Precedes e) (hd : d.isValid = true) (he : e.isValid = true) :
    d.number < e.number := by
  have hfirst : 1 ≤ e.day := (isValid_iff.mp he).2.2.1
  obtain hyear | ⟨hyear, hmonth | ⟨hmonth, hday⟩⟩ := h
  · have hbefore := daysBeforeYear_mono (show d.year + 1 ≤ e.year from hyear)
    have hlast := number_le_year hd
    unfold number at *
    omega
  · have hbefore := daysBeforeMonth_mono e.year (show d.month + 1 ≤ e.month from hmonth)
    have hlast := number_le_month hd
    rw [hyear] at hlast
    unfold number at *
    omega
  · rw [number, number, hyear, hmonth]
    omega

end Date

/-! ## Texts in order -/

/-- Of texts that begin with pieces of the same length the lesser piece decides. -/
theorem append_lt_of_lt {cs ds : List Char} (hlength : cs.length = ds.length) (h : cs < ds)
    (more rest : List Char) : cs ++ more < ds ++ rest := by
  induction cs generalizing ds with
  | nil =>
    obtain rfl := List.length_eq_zero_iff.mp hlength.symm
    exact absurd h (List.not_lt_nil [])
  | cons c cs ih =>
    cases ds with
    | nil => cases hlength
    | cons d ds =>
      refine List.cons_lt_cons_iff.mpr ((List.cons_lt_cons_iff.mp h).imp_right fun htail => ?_)
      exact ⟨htail.1, ih (Nat.succ.inj hlength) htail.2⟩

theorem digitChar_lt {m n : Nat} (hn : n < 10) (h : m < n) : Nat.digitChar m < Nat.digitChar n := by
  have few : ∀ n < 10, ∀ m < n, Nat.digitChar m < Nat.digitChar n := by decide
  exact few n hn m h

/-- The last digit is written after the others. -/
theorem padded_succ {width : Nat} (hwidth : 0 < width) (n : Nat) : (padded (width + 1) n).toList
    = (padded width (n / 10)).toList ++ [Nat.digitChar (n % 10)] := by
  simp only [padded, String.toList_ofList]
  rw [Nat.toDigits_eq_if (n := n) (by decide)]
  split
  · next hn =>
    obtain ⟨more, rfl⟩ : ∃ more, width = more + 1 := ⟨width - 1, by omega⟩
    rw [Nat.div_eq_of_lt hn, Nat.mod_eq_of_lt hn]
    simp [List.replicate_succ']
  · rw [List.length_append, List.length_singleton, Nat.add_sub_add_right, List.append_assoc]

/-- Numbers of a width are written in their order. -/
theorem padded_lt {width m n : Nat} (hwidth : 0 < width) (hn : n < 10 ^ width) (h : m < n) :
    (padded width m).toList < (padded width n).toList := by
  induction width, hwidth using Nat.le_induction generalizing m n with
  | base =>
    have single (k : Nat) (hk : k < 10) : (padded 1 k).toList = [Nat.digitChar k] := by
      simp [padded, Nat.toDigits_of_lt_base hk]
    rw [single m (by omega), single n hn]
    exact List.cons_lt_cons_iff.mpr (.inl (digitChar_lt hn h))
  | succ width hwidth ih =>
    rw [padded_succ hwidth, padded_succ hwidth]
    have hfront : n / 10 < 10 ^ width := by omega
    rcases Nat.lt_or_eq_of_le (Nat.div_le_div_right (c := 10) (Nat.le_of_lt h)) with hlt | heq
    · refine append_lt_of_lt ?_ (ih hfront hlt) _ _
      rw [length_padded hwidth hfront, length_padded hwidth (Nat.lt_trans hlt hfront)]
    · rw [heq]
      refine List.append_left_lt (List.cons_lt_cons_iff.mpr (.inl (digitChar_lt ?_ ?_)))
      · exact Nat.mod_lt n (by decide)
      · omega

namespace Date

section Valid
variable (hd : d.isValid = true) (he : e.isValid = true)
include hd he

theorem Precedes.text_lt (h : d.Precedes e) : d.text < e.text := by
  obtain ⟨hyear, hmonth, hday⟩ := isValid_iff.mp hd
  obtain ⟨hyear', hmonth', hday'⟩ := isValid_iff.mp he
  have hlength := Schema.monthLength_lt e.year e.month
  rw [String.lt_iff, toList_text, toList_text]
  obtain hlt | ⟨heq, hlt | ⟨heq', hlt⟩⟩ := h
  · refine append_lt_of_lt ?_ (padded_lt (by decide) (by omega) hlt) _ _
    rw [length_padded (by decide) (by omega), length_padded (by decide) (by omega)]
  · rw [heq]
    refine List.append_left_lt (List.cons_lt_cons_iff.mpr (.inr ⟨rfl, ?_⟩))
    refine append_lt_of_lt ?_ (padded_lt (by decide) (by omega) hlt) _ _
    rw [length_padded (by decide) (by omega), length_padded (by decide) (by omega)]
  · rw [heq, heq']
    refine List.append_left_lt (List.cons_lt_cons_iff.mpr (.inr ⟨rfl, ?_⟩))
    refine List.append_left_lt (List.cons_lt_cons_iff.mpr (.inr ⟨rfl, ?_⟩))
    exact padded_lt (by decide) (by omega) hlt

/-- The count of days and the texts of days have one order. -/
theorem text_lt_iff : d.text < e.text ↔ d.number < e.number := by
  rcases precedes_trichotomy d e with h | rfl | h
  · exact iff_of_true (h.text_lt hd he) (h.number_lt hd he)
  · exact iff_of_false (String.lt_irrefl _) (Nat.lt_irrefl _)
  · exact iff_of_false (String.lt_asymm (h.text_lt he hd)) (Nat.lt_asymm (h.number_lt he hd))

/-- What differs whenever one day comes before another tells all days apart. -/
theorem eq_iff_of_precedes {α : Type} {f : Date → α} (hne : ∀ {d e : Date}, d.isValid = true →
    e.isValid = true → d.Precedes e → f d ≠ f e) : f d = f e ↔ d = e := by
  refine ⟨fun heq => ?_, congrArg f⟩
  rcases precedes_trichotomy d e with h | h | h
  · exact absurd heq (hne hd he h)
  · exact h
  · exact absurd heq.symm (hne he hd h)

theorem text_eq_iff : d.text = e.text ↔ d = e :=
  eq_iff_of_precedes hd he fun hd he h => String.ne_of_lt (h.text_lt hd he)

theorem number_eq_iff : d.number = e.number ↔ d = e :=
  eq_iff_of_precedes hd he fun hd he h => Nat.ne_of_lt (h.number_lt hd he)

end Valid

/-! ## Days that are read -/

/-- A day is written by its month or by its week. -/
theorem dateOctets?_form {cs : List Char} (h : dateOctets? cs = some d) :
    ∃ year, (∃ month day, ofMonth? year month day = some d)
      ∨ ∃ week day, ofWeek? year week day = some d := by
  unfold dateOctets? at h
  split at h
  · cases h
  · next year rest _ =>
    refine ⟨year, ?_⟩
    dsimp only at h
    split at h
    · split at h
      · cases h
      · exact .inr ⟨_, _, h⟩
      · simp only [Option.bind_eq_bind, Option.bind_eq_some_iff] at h
        obtain ⟨_, _, _, _, h⟩ := h
        exact .inr ⟨_, _, h⟩
    · simp only [Option.bind_eq_bind, Option.bind_eq_some_iff] at h
      obtain ⟨_, _, _, _, _, _, h⟩ := h
      exact .inl ⟨_, _, h⟩

theorem isValid_of_read? {s : String} (h : read? s = some d) : d.isValid = true := by
  unfold read? at h
  dsimp only at h
  split at h
  · obtain ⟨year, ⟨month, day, hmonth⟩ | ⟨week, day, hweek⟩⟩ := dateOctets?_form h
    · unfold ofMonth? at hmonth
      split at hmonth
      · next hvalid =>
        obtain rfl := Option.some.inj hmonth
        exact hvalid
      · cases hmonth
    · unfold ofWeek? at hweek
      split at hweek
      · dsimp only at hweek
        split at hweek
        · next hvalid =>
          obtain rfl := Option.some.inj hweek
          exact hvalid
        · cases hweek
      · cases hweek
  · cases h

end Date

end RecordFlow.Calendar
