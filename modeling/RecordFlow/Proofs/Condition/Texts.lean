import RecordFlow.Proofs.Calendar.Chronology
import RecordFlow.Proofs.Condition.Ordering
import RecordFlow.Proofs.Number.Numeral
import RecordFlow.Proofs.Value.Same

/-! # Comparing texts

A text of decimal digits is compared as the double nearest to the number that it writes, a whole number
as itself. So numerals are compared exactly up to `2 ^ 53`; greater ones may be taken for equal, but
never for the other way round.

Texts that write days are compared as the texts of these days in the form of the calendar, whichever
form they have themselves. The order of these texts is the order of the days.

A text is equal to itself and unchanged from itself unless it writes the missing number, which is the
word for it in any letter case, with a sign or without. Such a text differs from itself in every way
that a leaf can ask for.
-/
namespace RecordFlow

/-! ## Numerals -/

namespace Extended

theorem pointLt_whole_iff {m n : Int} : pointLt m 0 n 0 = true ↔ m < n := by
  rw [pointLt_iff (Int.le_refl 0) (Int.le_refl 0), inUnits, inUnits]
  exact Int.mul_lt_mul_right (pow_two_pos _)

theorem eq_ofTop_iff {a b : WithTop ℤ} : (ofTop a).eq (ofTop b) = true ↔ a = b := by
  cases a with
  | top =>
    cases b with
    | top => exact ⟨fun _ => rfl, fun _ => rfl⟩
    | coe n => exact ⟨nofun, fun h => nomatch h⟩
  | coe m =>
    cases b with
    | top => exact ⟨nofun, fun h => nomatch h⟩
    | coe n =>
      rw [WithTop.coe_inj]
      exact pointEq_zero_iff.trans (by simp)

theorem lt_ofTop_iff {a b : WithTop ℤ} : (ofTop a).lt (ofTop b) = true ↔ a < b := by
  cases a with
  | top => cases b <;> simp [ofTop, lt]
  | coe m =>
    cases b with
    | top => simp [ofTop, ofInt, lt]
    | coe n =>
      rw [WithTop.coe_lt_coe]
      exact pointLt_whole_iff

end Extended

namespace Value
variable {v t : Value} {a b : WithTop ℤ}

/-- What a numeral is compared by: a whole number itself, and of a text of digits the double nearest to
the number that it writes, which may be beyond all numbers. -/
inductive Weighs : Value → WithTop ℤ → Prop
  | whole (n : ℤ) : Weighs (.int n) n
  | digits {s : String} (h : Text.IsNumeral s) : Weighs (.str s) (Double.rounded (Text.denoted s))

theorem Weighs.place (h : v.Weighs a) :
    ∃ p, v.comparable.place? = some p ∧ p.eq (.ofTop a) = true := by
  cases h with
  | whole n =>
    have hself : (Extended.ofTop n).eq (.ofTop n) = true := Extended.eq_ofTop_iff.mpr rfl
    exact ⟨.ofInt n, rfl, hself⟩
  | digits hs =>
    refine ⟨_, ?_, Double.place_ofDecimal _⟩
    rw [comparable, comparableText, Number.read?_numeral hs]
    rfl

section Weighed
variable (hv : v.Weighs a) (ht : t.Weighs b)
include hv ht

theorem matching_weighed : v.matching t = true ↔ a = b := by
  obtain ⟨p, hp, hpa⟩ := hv.place
  obtain ⟨q, hq, hqb⟩ := ht.place
  rw [matching, same_of_place hp, hq, Option.map_some, Option.getD_some,
    (Extended.alike_of_eq hpa q).1, Extended.eq_comm, (Extended.alike_of_eq hqb _).1,
    Extended.eq_ofTop_iff]
  exact Eq.comm

theorem compares_weighed : (v.compares .lt t = true ↔ a < b) ∧ (v.compares .gt t = true ↔ b < a) := by
  obtain ⟨p, hp, hpa⟩ := hv.place
  obtain ⟨q, hq, hqb⟩ := ht.place
  have hlt : p.lt q = (Extended.ofTop a).lt (.ofTop b) :=
    (Extended.alike_of_eq hpa q).2.1.trans (Extended.alike_of_eq hqb _).2.2
  have hgt : q.lt p = (Extended.ofTop b).lt (.ofTop a) :=
    (Extended.alike_of_eq hqb p).2.1.trans (Extended.alike_of_eq hpa _).2.2
  rw [compares, compares, ordered?_of_place hp, ordered?_of_place hp, hq]
  simp only [Option.map_some, Option.getD_some, Comparison.onPlaces, hlt, hgt]
  exact ⟨Extended.lt_ofTop_iff, Extended.lt_ofTop_iff⟩

end Weighed

end Value

/-! ## Leaves on numerals -/

namespace Double

/-- How whole numbers are taken for doubles: those of 53 binary places are kept, others go to the
nearest of these or, from half of the last place below the bound on, beyond all numbers, and the order
is not reversed. -/
structure IsRounding (round : Nat → WithTop ℤ) : Prop where
  exact : ∀ n ≤ 2 ^ 53, round n = ((n : ℤ) : WithTop ℤ)
  nearest : ∀ n (k : ℤ), round n = k → ∀ m ≤ 2 ^ 53, ∀ e,
    (k - n).natAbs ≤ ((m * 2 ^ e : Nat) - n : ℤ).natAbs
  beyond : ∀ n, round n = ⊤ ↔ wholeBound ≤ n + 2 ^ (greatestExponent.toNat - 1)
  mono : Monotone round

theorem isRounding_rounded : IsRounding rounded where
  exact _ := rounded_of_le
  nearest n k h m hm e := by
    unfold rounded at h
    split at h
    · obtain rfl := WithTop.coe_inj.mp h
      exact kept_nearest n hm
    · cases h
  beyond _ := rounded_eq_top_iff
  mono := rounded_mono

end Double

namespace Condition
variable {record v t : Value} {field : String} {a b : WithTop ℤ}

/-- Of two numerals the leaves say what is true of the numbers that they are compared by. -/
theorem holds_of_numerals (previous : Option Value) (hrecord : record.resolve field = .found v)
    (hv : v.Weighs a) (ht : t.Weighs b) :
    Double.IsRounding Double.rounded
      ∧ ((leaf field .eq t).holds record previous = true ↔ a = b)
      ∧ ((leaf field .gt t).holds record previous = true ↔ b < a)
      ∧ ((leaf field .lt t).holds record previous = true ↔ a < b)
      ∧ ∀ before target, before.resolve field = .found t →
        ((leaf field .changed target).holds record (some before) = true ↔ a ≠ b) := by
  obtain ⟨hlt, hgt⟩ := Value.compares_weighed hv ht
  refine ⟨Double.isRounding_rounded, ?_, ?_, ?_, fun before target hbefore => ?_⟩
  · rw [holds, hrecord]
    exact Value.matching_weighed hv ht
  · rw [holds, hrecord]
    exact hgt
  · rw [holds, hrecord]
    exact hlt
  · have hchange : (leaf field .changed target).holds record (some before)
        = if t.matching v then false else true := by
      rw [holds, hrecord, Option.map_some, hbefore]
      rfl
    have hsame := Value.matching_weighed ht hv
    rw [hchange]
    split
    · next h => simpa using (hsame.mp h).symm
    · next h => simpa using fun heq => h (hsame.mpr (Eq.symm heq))

def account (number : Value) : Value := .obj [("name", number)]

/-- A short number in Arabic digits is below a whole number. -/
theorem holds_of_short_account :
    (leaf "name" .lt (.int 43)).holds (account (.str "\u0664\u0662")) none = true
      ∧ (leaf "name" .changed .null).holds (account (.str "\u0664\u0662")) (some (account (.int 43)))
        = true := by
  have htext : "\u0664\u0662".toList = ['\u0664', '\u0662'] := rfl
  have hfour : Text.decimalValue? '\u0664' = some 4 := by decide
  have htwo : Text.decimalValue? '\u0662' = some 2 := by decide
  have hdigits : Text.IsNumeral "\u0664\u0662" := by
    rw [Text.IsNumeral, htext]
    simp [Text.isDecimal, hfour, htwo]
  have hdenoted : Text.denoted "\u0664\u0662" = 42 := by
    simp only [Text.denoted, Text.digitValues, htext, List.map_cons, List.map_nil, Text.decimalValue,
      hfour, htwo]
    rfl
  have hrecord : (account (.str "\u0664\u0662")).resolve "name" = .found (.str "\u0664\u0662") := rfl
  obtain ⟨hrounding, -, -, hlt, hchanged⟩ :=
    holds_of_numerals none hrecord (.digits hdigits) (.whole 43)
  have hweight : Double.rounded (Text.denoted "\u0664\u0662") = ((42 : ℤ) : WithTop ℤ) := by
    rw [hdenoted]
    exact hrounding.exact 42 (by decide)
  have hless : ((42 : ℤ) : WithTop ℤ) < ((43 : ℤ) : WithTop ℤ) := WithTop.coe_lt_coe.mpr (by decide)
  exact ⟨hlt.mpr (hweight ▸ hless), (hchanged _ .null rfl).mpr (hweight ▸ hless.ne)⟩

/-- Two numbers of accounts that are one apart are taken for equal. -/
theorem holds_of_long_accounts : ¬ ∀ (record : Value) (field s t : String),
    Text.IsNumeral s → Text.IsNumeral t → record.resolve field = .found (.str s) →
    ((leaf field .eq (.str t)).holds record none = true ↔ Text.denoted s = Text.denoted t) := by
  intro h
  obtain ⟨hodd, hoddDenoted⟩ := Text.denoted_toString 9007199254740993
  obtain ⟨heven, hevenDenoted⟩ := Text.denoted_toString 9007199254740992
  have hrule := h (account (.str (toString 9007199254740993))) "name" _ _ hodd heven rfl
  rw [hoddDenoted, hevenDenoted] at hrule
  have hholds : (leaf "name" .eq (.str "9007199254740992")).holds
      (account (.str "9007199254740993")) none = true := by decide +kernel
  exact absurd (hrule.mp hholds) (by decide)

end Condition

/-! ## Days -/

namespace Value
open Calendar
variable {s t : String} {d e : Date}

structure WritesDay (s : String) (d : Date) : Prop where
  noNumber : Number.read? s = none
  day : Date.read? s = some d

theorem WritesDay.comparable (h : WritesDay s d) : (Value.str s).comparable = .str d.text := by
  rw [Value.comparable, comparableText, h.noNumber, h.day]

variable (hs : WritesDay s d) (ht : WritesDay t e)
include hs ht

theorem matching_days : (Value.str s).matching (.str t) = true ↔ d = e := by
  rw [matching, hs.comparable, ht.comparable, same, beq_iff_eq]
  exact Date.text_eq_iff (Date.isValid_of_read? hs.day) (Date.isValid_of_read? ht.day)

theorem compares_days (test : Comparison) :
    (Value.str s).compares test (.str t) = test.onSizes d.number e.number := by
  have hd := Date.isValid_of_read? hs.day
  have he := Date.isValid_of_read? ht.day
  have heq : d.text = e.text ↔ d.number = e.number :=
    (Date.text_eq_iff hd he).trans (Date.number_eq_iff hd he).symm
  rw [compares, hs.comparable, ht.comparable, ordered?, Option.getD_some, Bool.eq_iff_iff]
  cases test with
  | lt | gt =>
    simp [Comparison.onText, Comparison.onSizes, Date.text_lt_iff hd he, Date.text_lt_iff he hd]
  | le | ge =>
    simp [Comparison.onText, Comparison.onSizes, Date.text_lt_iff hd he, Date.text_lt_iff he hd, heq]
    omega

end Value

namespace Condition
open Calendar
variable {record : Value} {field s t : String} {d e : Date}

/-- Of two texts that write days the leaves say what is true of the days. -/
theorem holds_of_days (previous : Option Value) (hrecord : record.resolve field = .found (.str s))
    (hs : Value.WritesDay s d) (ht : Value.WritesDay t e) :
    ((leaf field .eq (.str t)).holds record previous = true ↔ d = e)
      ∧ ((leaf field .ne (.str t)).holds record previous = true ↔ d ≠ e)
      ∧ ((leaf field .gt (.str t)).holds record previous = true ↔ e.number < d.number)
      ∧ ((leaf field .gte (.str t)).holds record previous = true ↔ e.number ≤ d.number)
      ∧ ((leaf field .lt (.str t)).holds record previous = true ↔ d.number < e.number)
      ∧ ((leaf field .lte (.str t)).holds record previous = true ↔ d.number ≤ e.number) := by
  have hequal : (leaf field .eq (.str t)).holds record previous = (Value.str s).matching (.str t) := by
    rw [holds, hrecord]
    rfl
  have hdiffer : (leaf field .ne (.str t)).holds record previous
      = !(Value.str s).matching (.str t) := by
    rw [holds, hrecord]
    rfl
  have hmatching := Value.matching_days hs ht
  have hcompares := Value.compares_days hs ht
  refine ⟨hequal ▸ hmatching, ?_, ?_, ?_, ?_, ?_⟩
  · rw [hdiffer, Bool.not_eq_true', ← Bool.not_eq_true, hmatching]
  all_goals
    rw [holds_comparison rfl hrecord, hcompares]
    exact decide_eq_true_iff

/-- The first day of the first week of a year may lie in the year before. -/
theorem holds_of_days_mixed :
    (leaf "due" .lt (.str "2025-12-30")).holds (.obj [("due", .str "2026-W01-1")]) none = true
      ∧ (leaf "due" .gte (.str "2025-12-30")).holds (.obj [("due", .str "2026-W01-1")]) none = false
      ∧ (leaf "due" .ne (.str "2025-12-30")).holds (.obj [("due", .str "2026-W01-1")]) none
        = true := by
  have hweek : Value.WritesDay "2026-W01-1" ⟨2025, 12, 29⟩ :=
    ⟨by decide +kernel, by decide +kernel⟩
  have hmonth : Value.WritesDay "2025-12-30" ⟨2025, 12, 30⟩ :=
    ⟨by decide +kernel, by decide +kernel⟩
  have hrecord : (Value.obj [("due", .str "2026-W01-1")]).resolve "due"
      = .found (.str "2026-W01-1") := rfl
  obtain ⟨-, hne, -, hgte, hlt, -⟩ := holds_of_days none hrecord hweek hmonth
  exact ⟨hlt.mpr (by decide), Bool.eq_false_iff.mpr (mt hgte.mp (by decide)), hne.mpr (by decide)⟩

end Condition

/-! ## Texts of the missing number -/

namespace Double

theorem nearest_ne_nan (negative : Bool) (num den : Nat) : nearest negative num den ≠ .nan := by
  unfold nearest
  dsimp only
  split_ifs <;> exact nofun

theorem ofDecimal_ne_nan (negative : Bool) (n : Nat) (power : Int) :
    ofDecimal negative n power ≠ .nan := by
  unfold ofDecimal
  dsimp only
  split_ifs
  · exact nofun
  · exact nofun
  · exact nofun
  · exact nearest_ne_nan _ _ _
  · exact nearest_ne_nan _ _ _

end Double

namespace Number
variable {cs : List Char}

theorem decimal?_ne_nan (negative : Bool) (cs : List Char) : decimal? negative cs ≠ some .nan := by
  have notNan (n : Nat) (places : Nat) (x : Option Int) :
      (x.map fun x => Double.ofDecimal negative n (x - places)) ≠ some .nan := by
    intro h
    obtain ⟨x, -, hx⟩ := Option.map_eq_some_iff.mp h
    exact Double.ofDecimal_ne_nan _ _ _ hx
  unfold decimal?
  dsimp only
  split_ifs
  · exact nofun
  · exact notNan _ _ _

theorem decimal?_eq_none {c : Char} (negative : Bool) (hdigit : Text.asciiDigit? c = none)
    (hpoint : c ≠ '.') : decimal? negative (c :: cs) = none := by
  unfold decimal?
  simp only [splitDigits, hdigit]
  split
  · next heq => exact absurd (List.cons.inj heq).1 hpoint
  · rfl

theorem letter_of_toLower {c : Char} (h : c.toLower = 'n') : 'A'.toNat ≤ c.toNat := by
  by_contra hsmall
  have hsame : c.toLower = c := by
    unfold Char.toLower
    refine dif_neg fun hupper => hsmall ?_
    exact UInt32.le_iff_toNat_le.mp hupper.1
  rw [← hsame, h] at hsmall
  exact hsmall (by decide)

/-- A text writes the missing number if it is its name, with a sign or without. -/
theorem read?_eq_nan_iff {s : String} : read? s = some .nan
    ↔ ∃ cs, ungroup false (asciiDigits (trim s.toList)) = some cs
      ∧ (splitSign cs).2.map Char.toLower = ['n', 'a', 'n'] := by
  unfold read?
  cases ungroup false (asciiDigits (trim s.toList)) with
  | none => exact ⟨nofun, nofun⟩
  | some cs =>
    rw [show (∃ cs', some cs = some cs' ∧ (splitSign cs').2.map Char.toLower = ['n', 'a', 'n'])
      ↔ (splitSign cs).2.map Char.toLower = ['n', 'a', 'n'] by simp]
    simp only [Option.bind_eq_bind, Option.bind_some]
    obtain ⟨negative, rest⟩ := splitSign cs
    dsimp only
    constructor
    · intro h
      cases hdecimal : decimal? negative rest with
      | some d =>
        rw [hdecimal] at h
        exact absurd (hdecimal.trans h) (decimal?_ne_nan _ _)
      | none =>
        rw [hdecimal] at h
        have hname : name? negative rest = some .nan := h
        unfold name? at hname
        dsimp only at hname
        split_ifs at hname with _ hnan
        · cases hname
        · rw [← String.toList_ofList (l := rest.map Char.toLower), hnan]
          rfl
    · intro h
      have hname : name? negative rest = some .nan := by
        unfold name?
        rw [h]
        rfl
      obtain ⟨c, more, rfl⟩ : ∃ c more, rest = c :: more := by
        cases rest with
        | nil => cases h
        | cons c more => exact ⟨c, more, rfl⟩
      have hletter := letter_of_toLower (List.cons.inj h).1
      have hends : '9'.toNat < 'A'.toNat ∧ '.'.toNat < 'A'.toNat := by decide
      have hdigit : Text.asciiDigit? c = none := if_neg (by omega)
      have hpoint : c ≠ '.' := by
        rintro rfl
        omega
      rw [decimal?_eq_none negative hdigit hpoint]
      exact hname

end Number

/-! ## Leaves on a text and itself -/

namespace Value

/-- A text is equal to itself unless it writes the missing number. -/
theorem matching_self {s : String} :
    (Value.str s).matching (.str s) = decide (Number.read? s ≠ some .nan) := by
  rw [Bool.eq_iff_iff, decide_eq_true_eq, matching, comparable, comparableText]
  cases hread : Number.read? s with
  | some d =>
    have hnan : some d ≠ some Double.nan ↔ d ≠ .nan := not_congr Option.some_inj
    exact same_double_self_iff.trans hnan.symm
  | none =>
    refine ⟨fun _ hnan => Option.some_ne_none _ hnan.symm, fun _ => ?_⟩
    cases Calendar.Date.read? s with
    | some d => exact beq_self_eq_true d.text
    | none => exact beq_self_eq_true s

end Value

namespace Condition
variable {record : Value} {field s : String}

/-- What the leaves say of a text and itself. -/
theorem holds_of_text (h : record.resolve field = .found (.str s)) (previous : Option Value)
    (target : Value) :
    (leaf field .eq (.str s)).holds record previous = decide (Number.read? s ≠ some .nan)
      ∧ (leaf field .ne (.str s)).holds record previous = decide (Number.read? s = some .nan)
      ∧ (leaf field .isIn (.list [.str s])).holds record previous
        = decide (Number.read? s ≠ some .nan)
      ∧ (leaf field .changed target).holds record (some record) = decide (Number.read? s = some .nan)
      ∧ (leaf field .changedTo (.str s)).holds record (some record) = false
      ∧ (leaf field .changedFrom (.str s)).holds record (some record) = false := by
  have hself := Value.matching_self (s := s)
  simp only [holds, Option.map_some, h, Operator.holds, Operator.holdsOfValue, Operator.holdsOfChange,
    Lookup.orNull, Lookup.isFound, Value.among?, List.any_cons, List.any_nil, Option.getD_some, hself]
  by_cases hread : Number.read? s = some .nan
  · simp [hread]
  · simp [hread]

end Condition

end RecordFlow
