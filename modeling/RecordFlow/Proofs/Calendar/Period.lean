import RecordFlow.Calendar.Instant
import RecordFlow.Proofs.Number.Rounded

/-! # Spans and periods of time

A span of seconds can be computed with as long as its days can be counted, and a time as long as the
calendar reaches. The period that a time lies in is counted from the start of 1970 by dividing
doubles, so a time may be counted to a period that is still to begin. Yet no period is counted twice
by times that are a whole period apart.
-/
namespace RecordFlow.Calendar

/-! ## Spans of seconds -/

/-- The least number of seconds whose days cannot be counted. -/
def uncounted : Int := 86400 * 1000000000

theorem days_of_seconds (n : Int) : (n * microsPerSecond).fdiv microsPerDay = n / 86400 := by
  rw [Int.fdiv_eq_ediv_of_nonneg _ (by decide), microsPerDay]
  exact Int.mul_ediv_mul_of_pos_left n 86400 (by decide)

theorem seconds?_eq {n : Int} (hleast : 0 ≤ n) (hmost : n < uncounted) :
    seconds? n = .ok (n * microsPerSecond) := by
  unfold uncounted at hmost
  unfold seconds? span?
  dsimp only
  rw [days_of_seconds, if_neg (by omega), if_neg (by omega)]

theorem seconds?_stuck {n : Int} (h : uncounted ≤ n) : ∃ cause, seconds? n = .error cause := by
  unfold uncounted at h
  unfold seconds? span?
  dsimp only
  rw [days_of_seconds]
  split
  · exact ⟨_, rfl⟩
  · rw [if_pos (by omega)]
    exact ⟨_, rfl⟩

theorem eq_of_seconds? {n micros : Int} (h : seconds? n = .ok micros) :
    micros = n * microsPerSecond := by
  unfold seconds? span? at h
  dsimp only at h
  split at h
  · cases h
  · split at h
    · cases h
    · exact (Except.ok.inj h).symm

namespace Instant

theorem eq_of_add? {t u : Instant} {micros : Int} (h : t.add? micros = .ok u) : u = t.add micros := by
  unfold add? at h
  split at h
  · exact (Except.ok.inj h).symm
  · cases h

/-- The calendar reaches from the year 1 to the year 9999. -/
theorem inRange_iff (t : Instant) : t.inRange = true
    ↔ -719162 * 86400000000 ≤ t.micros ∧ t.micros < 2932897 * 86400000000 := by
  have hday : t.dayNumber = t.micros / 86400000000 + 719163 := by
    rw [dayNumber, Int.fdiv_eq_ediv_of_nonneg _ (by decide)]
    rfl
  rw [inRange, Bool.and_eq_true, decide_eq_true_eq, decide_eq_true_eq]
  omega

end Instant

end RecordFlow.Calendar

/-! ## Periods that are counted -/

namespace RecordFlow.Calendar.Instant
open Double
variable {t u : Instant} {seconds n : Int}

/-- How many binary places the seconds of a time keep. -/
def precision (t : Instant) : Nat := places t.micros.toNat 1000000

theorem precision_anti (h : t.micros ≤ u.micros) : u.precision ≤ t.precision :=
  places_anti (Int.toNat_le_toNat h)

/-- What a period and a time have to do with each other: a period has begun when the time is rounded to
its start or beyond, which it is from half a place before it on. -/
def Reaches (t : Instant) (seconds n : Int) : Prop :=
  ∀ k : Nat, k ≤ n ↔ (k * seconds * 1000000 - t.micros) * 2 ^ (t.precision + 1) ≤ 1000000

theorem period?_after (ht : 0 < t.micros) (hsmall : t.micros < 2 ^ 52 * 1000000) (hseconds : 0 < seconds)
    (hlength : seconds < 2 ^ 52) : ∃ n, t.period? seconds = .ok n ∧ t.Reaches seconds n := by
  obtain ⟨micros, hmicros⟩ := Int.eq_ofNat_of_zero_le (Int.le_of_lt ht)
  obtain ⟨length, rfl⟩ := Int.eq_ofNat_of_zero_le (Int.le_of_lt hseconds)
  obtain ⟨m', e', hlength', hratio'⟩ := ofInt?_eq hseconds hlength
  obtain ⟨m, e, hnearest, hratio⟩ :=
    nearest_eq (show 0 < micros by omega) (show micros < 2 ^ 52 * 1000000 by omega) false
  have hsign : decide (t.micros < 0) = false := decide_eq_false (by omega)
  have htimes : t.seconds = .finite false m e := by
    rw [Instant.seconds, hsign, hmicros, Int.natAbs_natCast, hnearest]
  have hprecision : t.precision = places micros 1000000 := by rw [precision, hmicros]; rfl
  have hplaces : 0 < places micros 1000000 := (exponentFor_eq (by omega) (by omega)).2
  refine ⟨_, by rw [period?, if_neg (by omega), hlength', htimes], fun k => ?_⟩
  rw [le_floorQuotient_whole (by omega) hratio hratio', hprecision, hmicros]
  generalize places micros 1000000 = s at *
  have even : (k * length * 2 ^ s) % 2 = 0 := by
    obtain ⟨r, rfl⟩ : ∃ r, s = r + 1 := ⟨s - 1, by omega⟩
    rw [Nat.pow_succ, ← Nat.mul_assoc, Nat.mul_mod_left]
  rw [even_le_roundQuotient (by decide) even]
  zify
  rw [pow_succ]
  constructor <;> intro h <;> linarith

/-- At the start of 1970 the first period has just begun. -/
theorem period?_start (ht : t.micros = 0) (hseconds : 0 < seconds) (hlength : seconds < 2 ^ 52) :
    ∃ n, t.period? seconds = .ok n ∧ t.Reaches seconds n := by
  obtain ⟨m', e', hlength', -⟩ := ofInt?_eq hseconds hlength
  have htimes : t.seconds = .zero false := by rw [Instant.seconds, ht]; rfl
  refine ⟨0, ?_, fun k => ?_⟩
  · rw [period?, if_neg (by omega), hlength', htimes]
    show Except.ok (Int.fdiv ((0 : Nat) * _) _) = _
    rw [Int.natCast_zero, Int.zero_mul, Int.zero_fdiv]
  · have hpow : (2 : Int) ≤ 2 ^ (t.precision + 1) := by
      have := Nat.two_pow_pos t.precision
      rw [pow_succ]
      zify at this
      omega
    rw [ht, Int.sub_zero]
    constructor
    · intro hk
      obtain rfl : k = 0 := by omega
      simp
    · intro hk
      by_contra hpos
      have begun : 1 ≤ (k : Int) * seconds := by nlinarith
      nlinarith

theorem period?_reaches (ht : 0 ≤ t.micros) (hsmall : t.micros < 2 ^ 52 * 1000000)
    (hseconds : 0 < seconds) (hlength : seconds < 2 ^ 52) :
    ∃ n, t.period? seconds = .ok n ∧ t.Reaches seconds n := by
  rcases Int.lt_or_eq_of_le ht with hlt | heq
  · exact period?_after hlt hsmall hseconds hlength
  · exact period?_start heq.symm hseconds hlength

/-- A time that is a whole period later lies in a later period, whichever way both are rounded: what
is missing to the start of the next one is no more, and the places it is rounded to are no finer. -/
theorem Reaches.lt {m : Int} (ht : t.Reaches seconds n) (hu : u.Reaches seconds m)
    (hstart : 0 ≤ t.micros) (hseconds : 0 < seconds)
    (hlater : t.micros + seconds * 1000000 ≤ u.micros) : n < m := by
  have hpos (s : Nat) : (0 : Int) ≤ 2 ^ s := Int.le_of_lt (Int.pow_pos (by decide))
  have hn : 0 ≤ n := by
    refine (ht 0).mpr (Int.le_trans (Int.mul_nonpos_of_nonpos_of_nonneg ?_ (hpos _)) (by decide))
    simpa using hstart
  obtain ⟨k, rfl⟩ := Int.eq_ofNat_of_zero_le hn
  have begun := (ht k).mp (Int.le_refl _)
  refine Int.lt_of_lt_of_le (Int.lt_succ k) ((hu (k + 1)).mpr ?_)
  have missing : ((k + 1 : Nat) : Int) * seconds * 1000000 - u.micros
      ≤ k * seconds * 1000000 - t.micros := by
    push_cast
    linarith
  rcases Int.le_total (((k + 1 : Nat) : Int) * seconds * 1000000 - u.micros) 0 with hdone | hmissing
  · exact Int.le_trans (Int.mul_nonpos_of_nonpos_of_nonneg hdone (hpos _)) (by decide)
  · have coarser : (2 : Int) ^ (u.precision + 1) ≤ 2 ^ (t.precision + 1) := by
      have := precision_anti (t := t) (u := u) (by nlinarith)
      exact pow_le_pow_right₀ (by decide) (by omega)
    calc (((k + 1 : Nat) : Int) * seconds * 1000000 - u.micros) * 2 ^ (u.precision + 1)
        ≤ (k * seconds * 1000000 - t.micros) * 2 ^ (t.precision + 1) :=
          Int.mul_le_mul missing coarser (hpos _) (Int.le_trans hmissing missing)
      _ ≤ 1000000 := begun

/-- Before the year 2514 a time keeps so many places that it is not rounded across a second. -/
theorem precision_of_lt (ht : t.micros < 2 ^ 34 * 1000000) : 19 ≤ t.precision := by
  have hlast : 19 ≤ precision ⟨2 ^ 34 * 1000000 - 1⟩ := by decide
  exact Nat.le_trans hlast (precision_anti (Int.le_sub_one_of_lt ht))

/-- From 1970 until 2514 the period of a time is the whole part of its quotient. -/
theorem period?_eq (ht : 0 ≤ t.micros) (hsmall : t.micros < 2 ^ 34 * 1000000) (hseconds : 0 < seconds)
    (hlength : seconds < 2 ^ 52) : t.period? seconds = .ok (t.micros / (seconds * 1000000)) := by
  obtain ⟨n, hn, hreaches⟩ := period?_reaches ht (by omega) hseconds hlength
  have hspan : 0 < seconds * 1000000 := by omega
  have hplaces : (2 : Int) ^ 20 ≤ 2 ^ (t.precision + 1) :=
    pow_le_pow_right₀ (by decide) (Nat.succ_le_succ (precision_of_lt hsmall))
  -- a microsecond short of the start of a period is too much to be rounded away
  have begun (k : Nat) : k ≤ n ↔ k ≤ t.micros / (seconds * 1000000) := by
    rw [hreaches k, Int.le_ediv_iff_mul_le hspan, ← Int.mul_assoc]
    constructor
    · intro h
      by_contra hshort
      have : (1 : Int) ≤ k * seconds * 1000000 - t.micros := by omega
      nlinarith
    · intro h
      have hdone : k * seconds * 1000000 - t.micros ≤ 0 := by omega
      nlinarith
  have hleast : 0 ≤ t.micros / (seconds * 1000000) := Int.ediv_nonneg ht (Int.le_of_lt hspan)
  obtain ⟨m, hm⟩ := Int.eq_ofNat_of_zero_le ((begun 0).mpr hleast)
  obtain ⟨k, hk⟩ := Int.eq_ofNat_of_zero_le hleast
  have hmk := (begun m).mp (Int.le_of_eq hm.symm)
  have hkm := (begun k).mpr (Int.le_of_eq hk.symm)
  rw [hn, show n = t.micros / (seconds * 1000000) by omega]

end RecordFlow.Calendar.Instant
