import RecordFlow.Proofs.Text.Digits
import RecordFlow.Schema.Scalar

/-! # Days that are read again

A day that is read from a text or from a Unix time is a day of the calendar, of one of the years 1
to 9999. Such a day is written with four digits of the year and two of the month and the day, and
what is written is read as the same day.
-/
namespace RecordFlow

namespace Calendar
open Text

theorem length_padded {width n : Nat} (hwidth : 0 < width) (hn : n < 10 ^ width) :
    (padded width n).toList.length = width := by
  have short : (Nat.toDigits 10 n).length ≤ width :=
    (Nat.length_toDigits_le_iff (by decide) hwidth).mpr hn
  simp only [padded, String.toList_ofList, List.length_append, List.length_replicate]
  omega

/-- A number that is padded to a width is read as a number of that width. -/
theorem digits?_padded {width n : Nat} (hwidth : 0 < width) (hn : n < 10 ^ width)
    (rest : List Char) : digits? width ((padded width n).toList ++ rest) = some (n, rest) := by
  obtain ⟨ds, hread, hvalue⟩ := mapM_asciiDigit?_toDigits n
  have hlen := length_padded hwidth hn
  have front : ((padded width n).toList ++ rest).take width = (padded width n).toList :=
    List.take_left' hlen
  have back : ((padded width n).toList ++ rest).drop width = rest := List.drop_left' hlen
  have written : (padded width n).toList.mapM asciiDigit?
      = some (List.replicate (width - (Nat.toDigits 10 n).length) 0 ++ ds) := by
    simp [padded, List.mapM_append, mapM_asciiDigit?_zeros, hread]
  unfold digits?
  simp only [front, back, hlen, if_true, written, Option.map_some, ofDigits_zeros, hvalue]

theorem digits?_lt {width n : Nat} {cs rest : List Char} (h : digits? width cs = some (n, rest)) :
    n < 10 ^ width := by
  unfold digits? at h
  dsimp only at h
  split at h
  · next hlen =>
    cases hds : (cs.take width).mapM asciiDigit? with
    | none => simp [hds] at h
    | some ds =>
      have low := foldl_lt_of_mapM (fun _ _ => asciiDigit?_lt) hds 0
      rw [hlen, Nat.zero_add, Nat.one_mul] at low
      simp only [hds, Option.map_some, Option.some.injEq, Prod.mk.injEq] at h
      rw [← h.1]
      exact low
  · cases h

namespace Date

theorem toList_text (d : Date) : d.text.toList = (padded 4 d.year).toList
    ++ '-' :: ((padded 2 d.month).toList ++ '-' :: (padded 2 d.day).toList) := by
  have dash : "-".toList = ['-'] := rfl
  simp [text, dash]

/-- The days of so many months after the first, which is one of them. -/
def daysFrom (year : Nat) : (month more : Nat) → Nat
  | month, 0 => monthLength year month
  | month, more + 1 => monthLength year month + daysFrom year (month + 1) more

theorem daysFrom_january (year : Nat) :
    daysFrom year 1 11 = if isLeap year = true then 366 else 365 := by
  by_cases h : isLeap year = true <;> simp [daysFrom, monthLength, h]

theorem inYear_spec {year month more rest : Nat} (h : rest < daysFrom year month more) :
    month ≤ (inYear year month more rest).1 ∧ (inYear year month more rest).1 ≤ month + more
      ∧ 1 ≤ (inYear year month more rest).2
      ∧ (inYear year month more rest).2 ≤ monthLength year (inYear year month more rest).1 := by
  induction more generalizing month rest with
  | zero =>
    rw [daysFrom] at h
    simp only [inYear]
    omega
  | succ more ih =>
    rw [daysFrom] at h
    rw [inYear]
    by_cases hsize : rest < monthLength year month
    · rw [if_pos hsize]
      dsimp only
      omega
    · rw [if_neg hsize]
      have later := @ih (month + 1) (rest - monthLength year month) (by omega)
      omega

/-- The numbers from 1 to that of the last day of the year 9999 are numbers of days. -/
theorem isValid_ofNumber {n : Nat} (hpos : 1 ≤ n) (hlast : n ≤ 3652059) :
    (ofNumber n).isValid = true := by
  unfold ofNumber
  dsimp only
  generalize h400 : (n - 1) / 146097 = n400
  generalize hr : (n - 1) % 146097 = r
  generalize h100 : min (r / 36524) 3 = n100
  generalize hr100 : r - n100 * 36524 = r100
  generalize h4 : r100 / 1461 = n4
  generalize hr4 : r100 % 1461 = r4
  generalize h1 : min (r4 / 365) 3 = n1
  generalize hr1 : r4 - n1 * 365 = r1
  generalize hyear : n400 * 400 + n100 * 100 + n4 * 4 + n1 + 1 = year
  have bound : year ≤ 9999 := by omega
  have inside : r1 < daysFrom year 1 11 := by
    rw [daysFrom_january]
    by_cases hleap : isLeap year = true
    · rw [if_pos hleap]
      omega
    · rw [if_neg hleap]
      simp only [isLeap, Bool.and_eq_true, Bool.or_eq_true, beq_iff_eq, bne_iff_ne] at hleap
      omega
  obtain ⟨first, last, low, high⟩ := inYear_spec inside
  simp only [isValid, Bool.and_eq_true, decide_eq_true_eq]
  omega

end Date
end Calendar

namespace Schema
open Calendar Text

theorem isValid_of_dayOfMicros {micros : Int} {d : Date} (h : dayOfMicros micros = .valid d) :
    d.isValid = true := by
  unfold dayOfMicros at h
  dsimp only at h
  split at h
  · cases h
  · next hrange =>
    split at h
    · cases h
    · split at h
      · cases h
      · next hyear =>
        obtain rfl := Checked.valid.inj h
        apply Date.isValid_ofNumber <;> omega

theorem isValid_of_dayIn {d e : Date} (hd : (dayIn d.year d) = .valid e)
    (hmonth : 1 ≤ d.month ∧ d.month ≤ 12 ∧ 1 ≤ d.day ∧ d.day ≤ monthLength d.year d.month)
    (hyear : d.year < 10 ^ 4) : e.isValid = true := by
  unfold dayIn at hd
  split at hd
  · cases hd
  · next hzero =>
    obtain rfl := Checked.valid.inj hd
    simp only [Date.isValid, Bool.and_eq_true, decide_eq_true_eq]
    omega

theorem monthDay?_spec {cs rest : List Char} {d : Date} (h : monthDay? cs = some (d, rest)) :
    (1 ≤ d.month ∧ d.month ≤ 12 ∧ 1 ≤ d.day ∧ d.day ≤ monthLength d.year d.month)
      ∧ d.year < 10 ^ 4 := by
  unfold monthDay? at h
  simp only [Option.bind_eq_bind, Option.bind_eq_some_iff] at h
  obtain ⟨⟨year, r⟩, hyear, _, _, ⟨month, r'⟩, _, _, _, ⟨day, r''⟩, _, h⟩ := h
  have low := digits?_lt hyear
  dsimp only at h
  split at h
  · next hin =>
    simp only [Option.some.injEq, Prod.mk.injEq] at h
    obtain ⟨rfl, rfl⟩ := h
    exact ⟨hin, low⟩
  · cases h

theorem isValid_of_writtenDay? {cs : List Char} {d : Date}
    (h : writtenDay? cs = some (.valid d)) : d.isValid = true := by
  unfold writtenDay? at h
  simp only [Option.bind_eq_bind, Option.bind_eq_some_iff] at h
  obtain ⟨⟨e, rest⟩, hday, h⟩ := h
  obtain ⟨hmonth, hyear⟩ := monthDay?_spec hday
  dsimp only at h
  split at h
  · exact isValid_of_dayIn (Option.some.inj h) hmonth hyear
  · split at h
    · simp only [Option.bind_eq_some_iff] at h
      obtain ⟨midnight, _, h⟩ := h
      split at h
      · exact isValid_of_dayIn (Option.some.inj h) hmonth hyear
      · cases Option.some.inj h
    · cases h

theorem isValid_of_dayOfDecimal {x : Double} {d : Date} (h : dayOfDecimal x = .valid d) :
    d.isValid = true := by
  unfold dayOfDecimal at h
  dsimp only at h
  split at h
  · exact isValid_of_dayOfMicros h
  · cases h

theorem isValid_of_timestampText {cs : List Char} {d : Date} (h : timestampText cs = .valid d) :
    d.isValid = true := by
  unfold timestampText at h
  dsimp only at h
  split at h
  · split at h
    · cases h
    · exact isValid_of_dayOfMicros h
  · split at h
    · exact isValid_of_dayOfDecimal h
    · cases h
  · cases h

theorem isValid_of_dayText {s : String} {d : Date} (h : dayText s = .valid d) :
    d.isValid = true := by
  unfold dayText at h
  cases hday : writtenDay? s.toList with
  | none =>
    rw [hday] at h
    exact isValid_of_timestampText h
  | some checked =>
    rw [hday] at h
    obtain rfl : checked = .valid d := h
    exact isValid_of_writtenDay? hday

/-- Whatever is read as a day is a day of the calendar. -/
theorem isValid_of_date {v : Value} {d : Date} (h : date v = .valid d) : d.isValid = true := by
  cases v with
  | str s => exact isValid_of_dayText h
  | int n =>
    have h : (if (Double.ofInt? n).isNone then .fail .date else dayOfTime n 0) = .valid d := h
    split at h
    · cases h
    · exact isValid_of_dayOfMicros h
  | double x =>
    rw [date, dayOfDouble] at h
    split at h
    · exact isValid_of_dayOfMicros h
    · cases h
  | _ => cases h

theorem monthLength_lt (year month : Nat) : monthLength year month < 10 ^ 2 := by
  unfold monthLength
  split <;> split <;> decide

theorem monthDay?_text {d : Date} (hd : d.isValid = true) :
    monthDay? d.text.toList = some (d, []) := by
  simp only [Date.isValid, Bool.and_eq_true, decide_eq_true_eq] at hd
  have days := monthLength_lt d.year d.month
  have year := fun rest => @digits?_padded 4 d.year (by decide) (by omega) rest
  have month := fun rest => @digits?_padded 2 d.month (by decide) (by omega) rest
  have day : digits? 2 (padded 2 d.day).toList = some (d.day, []) := by
    rw [← List.append_nil (padded 2 d.day).toList]
    exact digits?_padded (by decide) (by omega) []
  have step (rest : List Char) : midnight?.dash? '-' ('-' :: rest) = some rest := rfl
  unfold monthDay?
  rw [Date.toList_text]
  simp only [year, month, day, step, Option.bind_eq_bind, Option.bind_some]
  rw [if_pos (by omega)]

/-- A day of the calendar is read as it is written. -/
theorem dayText_text {d : Date} (hd : d.isValid = true) : dayText d.text = .valid d := by
  have known : d.year ≠ 0 := by
    simp only [Date.isValid, Bool.and_eq_true, decide_eq_true_eq] at hd
    omega
  have day : writtenDay? d.text.toList = some (dayIn d.year d) := by
    simp [writtenDay?, monthDay?_text hd]
  rw [dayText, day, Option.getD_some, dayIn, if_neg known]

end Schema

end RecordFlow
