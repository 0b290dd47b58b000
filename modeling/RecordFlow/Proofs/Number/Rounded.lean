import Mathlib.Algebra.Order.Ring.Nat
import Mathlib.Data.Int.ConditionallyCompleteOrder
import Mathlib.Data.Nat.Digits.Defs
import Mathlib.Order.WithBot
import Mathlib.Tactic.Linarith
import Mathlib.Tactic.Ring
import RecordFlow.Number.Double
import RecordFlow.Proofs.Number.Line

/-! # Numbers that are rounded

A number below `2 ^ 52` keeps at least one binary place, and the more the smaller it is. Whole numbers
of this size are kept as they are; as their last place is even, what lies half a place below one is
rounded to it.

A double keeps 53 binary places of a whole number. Numbers up to `2 ^ 53` are kept as they are, and of
a greater one the nearest multiple of the last place that is kept, unless it lies beyond the range.
Rounding never puts two numbers in the other order.
-/
namespace RecordFlow.Double
variable {num num' den : Nat}

/-- A number is reached by rounding from more than half below it on, and an even one from half below it
on, as a tie goes to it. -/
theorem le_roundQuotient_iff {n : Nat} (hden : 0 < den) :
    n ≤ roundQuotient num den ↔
      2 * n * den < 2 * num + den ∨ n % 2 = 0 ∧ 2 * n * den = 2 * num + den := by
  have hnum : den * (num / den) + num % den = num := Nat.div_add_mod num den
  have hrest : num % den < den := Nat.mod_lt num hden
  unfold roundQuotient
  generalize num / den = q at *
  generalize num % den = r at *
  subst hnum
  have reached (h : n ≤ q) : 2 * n * den ≤ 2 * (den * q + r) := by nlinarith
  have next (h : n = q + 1) : 2 * n * den = 2 * (den * q) + 2 * den := by rw [h]; ring
  have missed (h : q + 2 ≤ n) : 2 * (den * q + r) + den < 2 * n * den := by nlinarith
  by_cases hle : n ≤ q
  · have := reached hle
    dsimp only
    split_ifs <;> omega
  · by_cases heq : n = q + 1
    · have := next heq
      dsimp only
      split_ifs <;> omega
    · have := missed (by omega)
      dsimp only
      split_ifs <;> omega

theorem even_le_roundQuotient {n : Nat} (hden : 0 < den) (hn : n % 2 = 0) :
    n ≤ roundQuotient num den ↔ 2 * n * den ≤ 2 * num + den := by
  rw [le_roundQuotient_iff hden]
  omega

theorem scaled_mono {num' : Nat} (den : Nat) (h : num ≤ num') (e : Int) :
    (scaled num den e).1 / (scaled num den e).2 ≤ (scaled num' den e).1 / (scaled num' den e).2 := by
  unfold scaled
  split
  · exact Nat.div_le_div_right h
  · exact Nat.div_le_div_right (Nat.mul_le_mul_right _ h)

theorem exponentFor_mono {num' : Nat} (den : Nat) (h : num ≤ num') :
    exponentFor num den ≤ exponentFor num' den := by
  have hlog : Nat.log2 num ≤ Nat.log2 num' := by
    rcases Nat.eq_zero_or_pos num with rfl | hnum
    · rw [Nat.log2_zero]
      exact Nat.zero_le _
    · exact (Nat.le_log2 (by omega)).mpr (Nat.le_trans (Nat.log2_self_le (by omega)) h)
  unfold exponentFor
  dsimp only
  rcases Nat.lt_or_eq_of_le hlog with hlt | heq
  · split_ifs <;> omega
  · rw [← heq]
    have := scaled_mono den h ((Nat.log2 num : Int) - (Nat.log2 den : Int) - 53)
    split_ifs <;> omega

theorem exponentFor_neg (hnum : 0 < num) (hsmall : num < 2 ^ 52 * den) :
    exponentFor num den < 0 := by
  have hlog : Nat.log2 num < 53 + Nat.log2 den := by
    refine (Nat.log2_lt (by omega)).mpr ?_
    calc num < 2 ^ 52 * den := hsmall
      _ < 2 ^ 52 * 2 ^ (den.log2 + 1) := Nat.mul_lt_mul_of_pos_left Nat.lt_log2_self (by decide)
      _ = 2 ^ (53 + Nat.log2 den) := by rw [← Nat.pow_add]; congr 1; omega
  have halved : num * Nat.pow 2 1 / den < mantissaBound := by
    refine Nat.div_lt_of_lt_mul ?_
    show num * 2 < den * 2 ^ 53
    omega
  unfold exponentFor leastExponent
  dsimp only
  split
  · omega
  · next hbig =>
    by_cases hguess : (Nat.log2 num : Int) - Nat.log2 den - 53 = -1
    · rw [hguess] at hbig
      exact absurd halved hbig
    · omega

def places (num den : Nat) : Nat := (-exponentFor num den).toNat

theorem exponentFor_eq (hnum : 0 < num) (hsmall : num < 2 ^ 52 * den) :
    exponentFor num den = -(places num den : Int) ∧ 0 < places num den := by
  have hneg := exponentFor_neg hnum hsmall
  unfold places
  omega

theorem places_anti {num' : Nat} (h : num ≤ num') : places num' den ≤ places num den := by
  have := exponentFor_mono den h
  unfold places
  omega

/-- A number below `2 ^ 52` is rounded to a whole number of its last places. -/
theorem nearest_eq (hnum : 0 < num) (hsmall : num < 2 ^ 52 * den) (negative : Bool) :
    ∃ m e, nearest negative num den = .finite negative m e
      ∧ (finite negative m e).ratio.1 * 2 ^ places num den
        = roundQuotient (num * 2 ^ places num den) den * (finite negative m e).ratio.2 := by
  obtain ⟨hexponent, hplaces⟩ := exponentFor_eq hnum hsmall
  have hscaled : scaled num den (-(places num den : Int)) = (num * 2 ^ places num den, den) := by
    rw [scaled, if_neg (by omega), Int.neg_neg]
    rfl
  unfold nearest
  rw [if_neg (by omega), hexponent]
  dsimp only
  rw [hscaled]
  generalize roundQuotient (num * 2 ^ places num den) den = m
  generalize places num den = s at *
  obtain ⟨n, rfl⟩ : ∃ n, s = n + 1 := ⟨s - 1, by omega⟩
  -- A mantissa that is rounded up to its bound is halved, and one place is left out.
  by_cases hm : m = mantissaBound
  · have hleft : (-((n + 1 : Nat) : Int) + 1).toNat = 0 ∧ (-(-((n + 1 : Nat) : Int) + 1)).toNat = n := by
      omega
    rw [if_pos hm]
    dsimp only
    rw [if_neg (by unfold greatestExponent; omega)]
    refine ⟨_, _, rfl, ?_⟩
    rw [hm, ratio, hleft.1, hleft.2]
    show mantissaBound / 2 * 2 ^ 0 * 2 ^ (n + 1) = mantissaBound * 2 ^ n
    have doubled : mantissaBound / 2 * 2 = mantissaBound := by decide
    rw [Nat.pow_zero, Nat.mul_one, Nat.pow_succ', ← Nat.mul_assoc, doubled]
  · have hkept : (-((n + 1 : Nat) : Int)).toNat = 0 ∧ (- -((n + 1 : Nat) : Int)).toNat = n + 1 := by omega
    rw [if_neg hm]
    dsimp only
    rw [if_neg (by unfold greatestExponent; omega)]
    refine ⟨_, _, rfl, ?_⟩
    rw [ratio, hkept.1, hkept.2]
    show m * 2 ^ 0 * 2 ^ (n + 1) = m * 2 ^ (n + 1)
    rw [Nat.pow_zero, Nat.mul_one]

theorem ratio_pos (negative : Bool) (m : Nat) (e : Int) : 0 < (finite negative m e).ratio.2 :=
  Nat.two_pow_pos _

theorem ofInt?_eq {n : Int} (hpos : 0 < n) (hsmall : n < 2 ^ 52) :
    ∃ m e, ofInt? n = some (.finite false m e)
      ∧ ((finite false m e).ratio.1 : Int) = n * (finite false m e).ratio.2 := by
  obtain ⟨size, rfl⟩ := Int.eq_ofNat_of_zero_le (Int.le_of_lt hpos)
  obtain ⟨m, e, hnearest, hratio⟩ :=
    nearest_eq (show 0 < size by omega) (show size < 2 ^ 52 * 1 by omega) false
  have exact (a : Nat) : roundQuotient a 1 = a := by
    rw [roundQuotient, Nat.div_one, Nat.mod_one]
    rfl
  refine ⟨m, e, ?_, ?_⟩
  · have hsign : decide ((size : Int) < 0) = false := decide_eq_false (by omega)
    rw [ofInt?, hsign, Int.natAbs_natCast, hnearest]
  · rw [exact, Nat.mul_right_comm] at hratio
    exact_mod_cast Nat.eq_of_mul_eq_mul_right (Nat.two_pow_pos _) hratio

/-- Of numbers that are not negative a quotient is above a whole number as their ratios say. -/
theorem le_floorQuotient_iff {m m' : Nat} {e e' k : Int} (hpos : 0 < (finite false m' e').ratio.1) :
    k ≤ (finite false m e).floorQuotient (finite false m' e')
      ↔ k * ((finite false m e).ratio.2 * (finite false m' e').ratio.1)
        ≤ (finite false m e).ratio.1 * (finite false m' e').ratio.2 := by
  have hdivisor : (0 : Int) < (finite false m e).ratio.2 * (finite false m' e').ratio.1 :=
    Int.mul_pos (Int.natCast_pos.mpr (ratio_pos false m e)) (Int.natCast_pos.mpr hpos)
  show k ≤ Int.fdiv _ _ ↔ _
  rw [Int.fdiv_eq_ediv_of_nonneg _ (Int.le_of_lt hdivisor), Int.le_ediv_iff_mul_le hdivisor]

/-- The whole parts of a number that is rounded to some of its places, by a whole number. -/
theorem le_floorQuotient_whole {m m' length rounded s k : Nat} {e e' : Int} (hlength : 0 < length)
    (h : (finite false m e).ratio.1 * 2 ^ s = rounded * (finite false m e).ratio.2)
    (h' : ((finite false m' e').ratio.1 : Int) = length * (finite false m' e').ratio.2) :
    (k : Int) ≤ (finite false m e).floorQuotient (finite false m' e') ↔ k * length * 2 ^ s ≤ rounded := by
  have hb := ratio_pos false m e
  have hb' := ratio_pos false m' e'
  have h' : (finite false m' e').ratio.1 = length * (finite false m' e').ratio.2 := by exact_mod_cast h'
  rw [le_floorQuotient_iff (h' ▸ Nat.mul_pos hlength hb'), h']
  generalize (finite false m e).ratio.1 = a at *
  generalize (finite false m e).ratio.2 = b at *
  generalize (finite false m' e').ratio.2 = b' at *
  calc (k : Int) * ((b : Int) * ((length * b' : Nat) : Int)) ≤ a * b'
      ↔ k * (b * (length * b')) ≤ a * b' := by exact_mod_cast Iff.rfl
    _ ↔ k * length * b * b' ≤ a * b' := by
      rw [show k * (b * (length * b')) = k * length * b * b' by ring]
    _ ↔ k * length * b ≤ a := Nat.mul_le_mul_right_iff hb'
    _ ↔ k * length * b * 2 ^ s ≤ a * 2 ^ s := (Nat.mul_le_mul_right_iff (Nat.two_pow_pos s)).symm
    _ ↔ k * length * 2 ^ s * b ≤ rounded * b := by rw [h, Nat.mul_right_comm _ b]
    _ ↔ k * length * 2 ^ s ≤ rounded := Nat.mul_le_mul_right_iff hb

/-! ## Rounding a quotient -/

theorem roundQuotient_mono (hden : 0 < den) (h : num ≤ num') :
    roundQuotient num den ≤ roundQuotient num' den := by
  have hself := (le_roundQuotient_iff hden).mp (Nat.le_refl (roundQuotient num den))
  exact (le_roundQuotient_iff hden).mpr (by omega)

theorem roundQuotient_mul (k : Nat) (hden : 0 < den) : roundQuotient (k * den) den = k := by
  unfold roundQuotient
  rw [Nat.mul_div_cancel _ hden, Nat.mul_mod_left]
  exact if_pos hden

/-- No multiple of the denominator is nearer than the one that is reached by rounding. -/
theorem roundQuotient_nearest (num : Nat) (hden : 0 < den) (k : Nat) :
    ((roundQuotient num den * den : Nat) - num : Int).natAbs ≤ ((k * den : Nat) - num : Int).natAbs := by
  have hnum : den * (num / den) + num % den = num := Nat.div_add_mod num den
  have hrest : num % den < den := Nat.mod_lt num hden
  unfold roundQuotient
  generalize num / den = q at *
  generalize num % den = r at *
  subst hnum
  have below (h : k ≤ q) : k * den ≤ den * q := by nlinarith
  have above (h : q + 1 ≤ k) : den * q + den ≤ k * den := by nlinarith
  have here : q * den = den * q := Nat.mul_comm q den
  have next : (q + 1) * den = den * q + den := by ring
  have side : k ≤ q ∨ q + 1 ≤ k := by omega
  dsimp only
  split_ifs
  all_goals
    rcases side with h | h
    · have := below h
      omega
    · have := above h
      omega

/-! ## Rounding a whole number -/

variable {n : Nat}

/-- The binary places of a whole number beyond those that a double keeps. -/
def excess (n : Nat) : Nat := Nat.log2 n - 52

/-- The multiple of the last place that is kept which is nearest to a whole number; a tie goes to the
even one. -/
def kept (n : Nat) : Nat := roundQuotient n (2 ^ excess n) * 2 ^ excess n

theorem excess_eq (h : n < 2 ^ 53) : excess n = 0 := by
  rcases Nat.eq_zero_or_pos n with rfl | hn
  · rfl
  · have := (Nat.log2_lt (by omega)).mpr h
    unfold excess
    omega

theorem log2_eq (h : 2 ^ 52 ≤ n) : Nat.log2 n = 52 + excess n := by
  have : 52 ≤ Nat.log2 n := (Nat.le_log2 (by omega)).mpr h
  unfold excess
  omega

theorem kept_of_lt (h : n < 2 ^ 53) : kept n = n := by
  have hwhole := roundQuotient_mul n Nat.one_pos
  rw [Nat.mul_one] at hwhole
  rw [kept, excess_eq h, Nat.pow_zero, Nat.mul_one, hwhole]

/-- The mantissa of a number that has at least 53 places. -/
theorem mantissa_bounds (h : 2 ^ 52 ≤ n) :
    2 ^ 52 ≤ roundQuotient n (2 ^ excess n) ∧ roundQuotient n (2 ^ excess n) ≤ 2 ^ 53 := by
  have hunit : 0 < 2 ^ excess n := Nat.two_pow_pos _
  have low : 2 ^ 52 * 2 ^ excess n ≤ n := by
    rw [← Nat.pow_add, ← log2_eq h]
    exact Nat.log2_self_le (by omega)
  have high : n ≤ 2 ^ 53 * 2 ^ excess n := by
    rw [← Nat.pow_add, show 53 + excess n = Nat.log2 n + 1 by rw [log2_eq h]; omega]
    exact Nat.le_of_lt Nat.lt_log2_self
  have hlow := roundQuotient_mono hunit low
  have hhigh := roundQuotient_mono hunit high
  rw [roundQuotient_mul _ hunit] at hlow hhigh
  exact ⟨hlow, hhigh⟩

theorem kept_bounds (hn : n ≠ 0) : 2 ^ Nat.log2 n ≤ kept n ∧ kept n ≤ 2 ^ (Nat.log2 n + 1) := by
  by_cases h : n < 2 ^ 53
  · rw [kept_of_lt h]
    exact ⟨Nat.log2_self_le hn, Nat.le_of_lt Nat.lt_log2_self⟩
  · have hlarge : 2 ^ 52 ≤ n := by omega
    obtain ⟨hlow, hhigh⟩ := mantissa_bounds hlarge
    rw [log2_eq hlarge, Nat.pow_add, show 52 + excess n + 1 = 53 + excess n by omega, Nat.pow_add]
    exact ⟨Nat.mul_le_mul_right _ hlow, Nat.mul_le_mul_right _ hhigh⟩

/-- Rounding never puts two numbers in the other order. -/
theorem kept_mono {m : Nat} (h : m ≤ n) : kept m ≤ kept n := by
  rcases Nat.eq_zero_or_pos m with rfl | hm
  · exact Nat.zero_le _
  · have hlog : Nat.log2 m ≤ Nat.log2 n :=
      (Nat.le_log2 (by omega)).mpr (Nat.le_trans (Nat.log2_self_le (by omega)) h)
    rcases Nat.lt_or_eq_of_le hlog with hlt | heq
    · calc kept m ≤ 2 ^ (Nat.log2 m + 1) := (kept_bounds (by omega)).2
        _ ≤ 2 ^ Nat.log2 n := Nat.pow_le_pow_right (by decide) hlt
        _ ≤ kept n := (kept_bounds (by omega)).1
    · have hexcess : excess m = excess n := congrArg (· - 52) heq
      rw [kept, kept, hexcess]
      exact Nat.mul_le_mul_right _ (roundQuotient_mono (Nat.two_pow_pos _) h)

/-- No whole number of 53 places is nearer. -/
theorem kept_nearest (n : Nat) {m e : Nat} (hm : m ≤ 2 ^ 53) :
    ((kept n : Int) - n).natAbs ≤ ((m * 2 ^ e : Nat) - n : Int).natAbs := by
  have hunit : 0 < 2 ^ excess n := Nat.two_pow_pos _
  rcases Nat.lt_or_ge e (excess n) with he | he
  · -- Numbers of smaller places are not above the least one that has the places of `n`.
    have hlarge : 2 ^ 52 ≤ n := by
      by_contra hsmall
      rw [excess_eq (by omega)] at he
      omega
    have hleast : 2 ^ 52 * 2 ^ excess n ≤ n := by
      rw [← Nat.pow_add, ← log2_eq hlarge]
      exact Nat.log2_self_le (by omega)
    have hbelow : m * 2 ^ e ≤ 2 ^ 52 * 2 ^ excess n := by
      calc m * 2 ^ e ≤ 2 ^ 53 * 2 ^ e := Nat.mul_le_mul_right _ hm
        _ = 2 ^ (53 + e) := (Nat.pow_add 2 53 e).symm
        _ ≤ 2 ^ (52 + excess n) := Nat.pow_le_pow_right (by decide) (by omega)
        _ = 2 ^ 52 * 2 ^ excess n := Nat.pow_add 2 52 _
    have hnear := roundQuotient_nearest n hunit (2 ^ 52)
    unfold kept
    omega
  · have hmultiple : m * 2 ^ e = m * 2 ^ (e - excess n) * 2 ^ excess n := by
      rw [Nat.mul_assoc, ← Nat.pow_add, Nat.sub_add_cancel he]
    rw [hmultiple]
    exact roundQuotient_nearest n hunit _

theorem kept_of_places {m : Nat} (e : Nat) (hm : m ≤ 2 ^ 53) : kept (m * 2 ^ e) = m * 2 ^ e := by
  have hnear := kept_nearest (m * 2 ^ e) (e := e) hm
  omega

/-- What is kept reaches a power of two from half of the last place below it on. -/
theorem two_pow_le_kept_iff (k : Nat) : 2 ^ (54 + k) ≤ kept n ↔ 2 ^ (54 + k) ≤ n + 2 ^ k := by
  have hself (e : Nat) : kept (2 ^ e) = 2 ^ e := by
    have := kept_of_places (m := 1) e (by decide)
    rwa [Nat.one_mul] at this
  have hhalf : 2 ^ (54 + k) = 2 * 2 ^ (53 + k) := by
    rw [← Nat.pow_succ']
    congr 1
    omega
  have hunit : 2 ^ (53 + k) = 2 ^ 53 * 2 ^ k := Nat.pow_add 2 53 k
  have hpos : 0 < 2 ^ k := Nat.two_pow_pos k
  rcases Nat.lt_or_ge n (2 ^ (53 + k)) with hsmall | hlow
  · have hkept := kept_mono (Nat.le_of_lt hsmall)
    rw [hself] at hkept
    omega
  · rcases Nat.lt_or_ge n (2 ^ (54 + k)) with hhigh | hlarge
    · have hn : n ≠ 0 := by omega
      have hexcess : excess n = k + 1 := by
        have hle := (Nat.le_log2 hn).mpr hlow
        have hlt := (Nat.log2_lt hn).mpr hhigh
        unfold excess
        omega
      have hplace : 0 < 2 ^ (k + 1) := Nat.two_pow_pos _
      have hbound : 2 ^ (54 + k) = 2 ^ 53 * 2 ^ (k + 1) := by
        rw [← Nat.pow_add]
        congr 1
        omega
      have hdouble : 2 ^ (k + 1) = 2 * 2 ^ k := Nat.pow_succ'
      rw [kept, hexcess, hbound, Nat.mul_le_mul_right_iff hplace,
        even_le_roundQuotient hplace (by decide)]
      omega
    · have hkept := kept_mono hlarge
      rw [hself] at hkept
      omega

/-! ## The double of a whole number -/

theorem exponentFor_whole (hn : n ≠ 0) : exponentFor n 1 = (Nat.log2 n : Int) - 52 := by
  have hself : 2 ^ Nat.log2 n ≤ n := Nat.log2_self_le hn
  have hfull : ¬ (scaled n 1 ((Nat.log2 n : Int) - (Nat.log2 1 : Int) - 53)).1
      / (scaled n 1 ((Nat.log2 n : Int) - (Nat.log2 1 : Int) - 53)).2 < mantissaBound := by
    have hone : Nat.log2 1 = 0 := by decide
    rw [hone, Nat.not_lt, scaled]
    split
    · next h =>
      have hpow : 2 ^ 53 * 2 ^ (Nat.log2 n - 53) = 2 ^ Nat.log2 n := by
        rw [← Nat.pow_add]
        congr 1
        omega
      have hplaces : ((Nat.log2 n : Int) - (0 : Nat) - 53).toNat = Nat.log2 n - 53 := by omega
      rw [hplaces]
      refine (Nat.le_div_iff_mul_le (Nat.mul_pos Nat.one_pos (Nat.two_pow_pos _))).mpr ?_
      show 2 ^ 53 * (1 * 2 ^ (Nat.log2 n - 53)) ≤ n
      omega
    · next h =>
      have hpow : 2 ^ Nat.log2 n * 2 ^ (53 - Nat.log2 n) = 2 ^ 53 := by
        rw [← Nat.pow_add]
        congr 1
        omega
      have hplaces : (-((Nat.log2 n : Int) - (0 : Nat) - 53)).toNat = 53 - Nat.log2 n := by omega
      rw [hplaces, Nat.div_one]
      show 2 ^ 53 ≤ n * 2 ^ (53 - Nat.log2 n)
      rw [← hpow]
      exact Nat.mul_le_mul_right _ hself
  unfold exponentFor
  dsimp only
  rw [if_neg hfull]
  have hone : Nat.log2 1 = 0 := by decide
  rw [hone]
  unfold leastExponent
  omega

/-- The mantissa of a whole number, which may have been rounded up to its bound. -/
theorem mantissa_whole (hn : n ≠ 0) {e : Int} (he : e = (Nat.log2 n : Int) - 52) {m : Nat}
    (hm : m = roundQuotient (scaled n 1 e).1 (scaled n 1 e).2) :
    2 ^ 52 ≤ m ∧ m ≤ 2 ^ 53 ∧ m * 2 ^ e.toNat = kept n * 2 ^ (-e).toNat := by
  unfold scaled at hm
  split at hm
  · next h =>
    have hlarge : 2 ^ 52 ≤ n := (Nat.le_log2 hn).mp (by omega)
    have hplaces : e.toNat = excess n ∧ (-e).toNat = 0 := by
      have := log2_eq hlarge
      omega
    have hsame : m = roundQuotient n (2 ^ excess n) := by
      rw [hm, hplaces.1]
      exact congrArg (roundQuotient n) (Nat.one_mul _)
    obtain ⟨hlow, hhigh⟩ := mantissa_bounds hlarge
    rw [hplaces.1, hplaces.2, Nat.pow_zero, Nat.mul_one, hsame]
    exact ⟨hlow, hhigh, rfl⟩
  · next h =>
    have hplaces : e.toNat = 0 ∧ (-e).toNat = 52 - Nat.log2 n := by omega
    have hsmall : n < 2 ^ 53 :=
      Nat.lt_of_lt_of_le Nat.lt_log2_self (Nat.pow_le_pow_right (by decide) (by omega))
    have hwhole := roundQuotient_mul (n * 2 ^ (52 - Nat.log2 n)) Nat.one_pos
    rw [Nat.mul_one] at hwhole
    have hsame : m = n * 2 ^ (52 - Nat.log2 n) := by
      rw [hm, hplaces.2]
      exact hwhole
    rw [hplaces.1, hplaces.2, Nat.pow_zero, Nat.mul_one, hsame, kept_of_lt hsmall]
    refine ⟨?_, ?_, rfl⟩
    · calc 2 ^ 52 = 2 ^ Nat.log2 n * 2 ^ (52 - Nat.log2 n) := by
            rw [← Nat.pow_add]
            congr 1
            omega
        _ ≤ n * 2 ^ (52 - Nat.log2 n) := Nat.mul_le_mul_right _ (Nat.log2_self_le hn)
    · calc n * 2 ^ (52 - Nat.log2 n)
          ≤ 2 ^ (Nat.log2 n + 1) * 2 ^ (52 - Nat.log2 n) :=
            Nat.mul_le_mul_right _ (Nat.le_of_lt Nat.lt_log2_self)
        _ = 2 ^ 53 := by
            rw [← Nat.pow_add]
            congr 1
            omega

/-- The double nearest to a whole number is what is kept of it, if that is in range. -/
theorem nearest_whole (hn : n ≠ 0) : ∃ m e,
    nearest false n 1 = (if greatestExponent < e then .infinite false else .finite false m e)
      ∧ 2 ^ 52 ≤ m ∧ m < 2 ^ 53 ∧ m * 2 ^ e.toNat = kept n * 2 ^ (-e).toNat := by
  unfold nearest
  rw [if_neg hn, exponentFor_whole hn]
  dsimp only
  generalize he : (Nat.log2 n : Int) - 52 = e
  generalize hm : roundQuotient (scaled n 1 e).1 (scaled n 1 e).2 = m
  obtain ⟨hlow, hhigh, hvalue⟩ := mantissa_whole hn he.symm hm.symm
  by_cases hbound : m = mantissaBound
  · rw [if_pos hbound]
    refine ⟨2 ^ 52, e + 1, rfl, Nat.le_refl _, by decide, ?_⟩
    have hdouble : m = 2 ^ 52 * 2 := hbound
    rcases Int.lt_or_le e 0 with hneg | hpos
    · obtain ⟨d, rfl⟩ : ∃ d : Nat, e = -((d : Int) + 1) := ⟨(-e).toNat - 1, by omega⟩
      have hbefore : (-((d : Int) + 1)).toNat = 0 ∧ (- -((d : Int) + 1)).toNat = d + 1 := by omega
      have hafter : (-((d : Int) + 1) + 1).toNat = 0 ∧ (-(-((d : Int) + 1) + 1)).toNat = d := by omega
      have hstep : 2 ^ (d + 1) = 2 ^ d * 2 := Nat.pow_succ 2 d
      rw [hbefore.1, hbefore.2, Nat.pow_zero, Nat.mul_one, hdouble, hstep, ← Nat.mul_assoc] at hvalue
      rw [hafter.1, hafter.2, Nat.pow_zero, Nat.mul_one]
      exact Nat.eq_of_mul_eq_mul_right (by decide) hvalue
    · have hafter : (e + 1).toNat = e.toNat + 1 ∧ (-(e + 1)).toNat = (-e).toNat := by omega
      rw [hdouble, Nat.mul_assoc, Nat.mul_comm 2, ← Nat.pow_succ] at hvalue
      rw [hafter.1, hafter.2]
      exact hvalue
  · rw [if_neg hbound]
    exact ⟨m, e, rfl, hlow, Nat.lt_of_le_of_ne hhigh hbound, hvalue⟩

def wholeBound : Nat := 2 ^ (53 + greatestExponent.toNat)

/-- A double of a whole number is in range if what is kept of the number is. -/
theorem exponent_le_iff {m : Nat} {e : Int} (hlow : 2 ^ 52 ≤ m) (hhigh : m < 2 ^ 53) {k : Nat}
    (hvalue : m * 2 ^ e.toNat = k * 2 ^ (-e).toNat) : e ≤ greatestExponent ↔ k < wholeBound := by
  have hnat : 0 ≤ greatestExponent := by decide
  unfold wholeBound
  generalize greatestExponent = g at *
  constructor
  · intro he
    calc k ≤ k * 2 ^ (-e).toNat := Nat.le_mul_of_pos_right _ (Nat.two_pow_pos _)
      _ = m * 2 ^ e.toNat := hvalue.symm
      _ ≤ m * 2 ^ g.toNat := Nat.mul_le_mul_left _ (Nat.pow_le_pow_right (by decide) (by omega))
      _ < 2 ^ 53 * 2 ^ g.toNat := Nat.mul_lt_mul_of_pos_right hhigh (Nat.two_pow_pos _)
      _ = 2 ^ (53 + g.toNat) := (Nat.pow_add 2 53 g.toNat).symm
  · intro hk
    by_contra he
    have hplaces : (-e).toNat = 0 ∧ 53 + g.toNat ≤ 52 + e.toNat := by omega
    rw [hplaces.1, Nat.pow_zero, Nat.mul_one] at hvalue
    refine absurd hk (Nat.not_lt.mpr ?_)
    calc 2 ^ (53 + g.toNat) ≤ 2 ^ (52 + e.toNat) := Nat.pow_le_pow_right (by decide) hplaces.2
      _ = 2 ^ 52 * 2 ^ e.toNat := Nat.pow_add 2 52 _
      _ ≤ m * 2 ^ e.toNat := Nat.mul_le_mul_right _ hlow
      _ = k := hvalue

/-- What a whole number is taken for: the nearest one that a double keeps, or what is above all
numbers. -/
def rounded (n : Nat) : WithTop ℤ := if kept n < wholeBound then ((kept n : ℤ) : WithTop ℤ) else ⊤

/-- Numbers up to `2 ^ 53` are taken for what they are. -/
theorem rounded_of_le (h : n ≤ 2 ^ 53) : rounded n = ((n : ℤ) : WithTop ℤ) := by
  have hkept : kept n = n := by
    rcases Nat.lt_or_eq_of_le h with hlt | rfl
    · exact kept_of_lt hlt
    · exact kept_of_places 53 (show 1 ≤ 2 ^ 53 by decide)
  have hrange : n < wholeBound :=
    Nat.lt_of_le_of_lt h (Nat.pow_lt_pow_right (by decide) (by decide))
  rw [rounded, hkept, if_pos hrange]

/-- What is within half of the last place from the bound lies beyond the range. -/
theorem rounded_eq_top_iff :
    rounded n = ⊤ ↔ wholeBound ≤ n + 2 ^ (greatestExponent.toNat - 1) := by
  obtain ⟨k, hk⟩ : ∃ k, greatestExponent.toNat = k + 1 := ⟨_, Nat.succ_pred (by decide) |>.symm⟩
  have hplaces : 53 + (k + 1) = 54 + k := by omega
  have htop : rounded n = ⊤ ↔ wholeBound ≤ kept n := by
    unfold rounded
    split
    · next h => exact ⟨nofun, fun hle => absurd h (Nat.not_lt.mpr hle)⟩
    · next h => exact ⟨fun _ => Nat.not_lt.mp h, fun _ => rfl⟩
  rw [htop, wholeBound, hk, hplaces, Nat.add_sub_cancel]
  exact two_pow_le_kept_iff k

theorem rounded_mono : Monotone rounded := by
  intro m n h
  have hkept := kept_mono h
  unfold rounded
  split
  · split
    · exact WithTop.coe_le_coe.mpr (Int.ofNat_le.mpr hkept)
    · exact le_top
  · next hm => rw [if_neg fun hn => hm (Nat.lt_of_le_of_lt hkept hn)]

end RecordFlow.Double

namespace RecordFlow.Extended

def ofTop : WithTop ℤ → Extended
  | ⊤ => .above
  | (n : ℤ) => .ofInt n

theorem pointEq_zero_iff {m e n : Int} :
    pointEq m e n 0 = true ↔ m * 2 ^ e.toNat = n * 2 ^ (-e).toNat := by
  have hplaces : (e - min e 0).toNat = e.toNat ∧ (0 - min e 0).toNat = (-e).toNat := by omega
  rw [pointEq_iff (Int.min_le_left e 0) (Int.min_le_right e 0), inUnits, inUnits, hplaces.1, hplaces.2]
  rfl

end RecordFlow.Extended

namespace RecordFlow.Double

/-- The double nearest to a whole number lies where the number is taken to be. -/
theorem place_nearest (n : Nat) :
    (Extended.ofDouble (nearest false n 1)).eq (.ofTop (rounded n)) = true := by
  rcases Nat.eq_zero_or_pos n with rfl | hn
  · rw [rounded_of_le (Nat.zero_le _)]
    exact Extended.pointEq_zero_iff.mpr (by rw [Int.natCast_zero, Int.zero_mul, if_neg nofun, Int.zero_mul])
  · obtain ⟨m, e, hnearest, hlow, hhigh, hvalue⟩ := nearest_whole (Nat.pos_iff_ne_zero.mp hn)
    have hrange := exponent_le_iff hlow hhigh hvalue
    rw [hnearest, rounded]
    by_cases he : greatestExponent < e
    · rw [if_pos he, if_neg fun hk => absurd (hrange.mpr hk) (Int.not_le.mpr he)]
      rfl
    · rw [if_neg he, if_pos (hrange.mp (Int.not_lt.mp he))]
      refine Extended.pointEq_zero_iff.mpr ?_
      simpa using congrArg (Nat.cast (R := Int)) hvalue

end RecordFlow.Double
