import RecordFlow.Number.Whole
import RecordFlow.Proofs.Number.Rounded
import RecordFlow.Proofs.Schema.Identifier
import RecordFlow.Proofs.Text.Digits

/-! # Numerals of every script

A text of decimal digits, of whatever scripts, writes a whole number. Read as a number it is the double
nearest to this, and read as a whole number it is the number itself if it is not too long. Other digit
characters write no whole number.
-/
namespace RecordFlow

namespace Text
variable {c : Char} {cs : List Char} {s : String}

/-! ## Decimal digits -/

def decimalValue (c : Char) : Nat := (decimalValue? c).getD 0

theorem decimalValue?_eq (h : isDecimal c = true) : decimalValue? c = some (decimalValue c) := by
  obtain ⟨d, hd⟩ := Option.isSome_iff_exists.mp h
  rw [decimalValue, hd, Option.getD_some]

/-- A decimal digit is one of the ten that start with a zero. -/
theorem isDecimal_iff : isDecimal c = true
    ↔ ∃ start ∈ zeroPoints, start ≤ c.toNat ∧ c.toNat < start + 10 := by
  simp only [isDecimal, decimalValue?, Option.isSome_map, List.find?_isSome, decide_eq_true_eq]

theorem decimalValue_lt (h : isDecimal c = true) : decimalValue c < 10 := by
  have hvalue := decimalValue?_eq h
  generalize decimalValue c = d at hvalue ⊢
  simp only [decimalValue?, Option.map_eq_some_iff] at hvalue
  obtain ⟨start, hfind, rfl⟩ := hvalue
  have hpoint := List.find?_some hfind
  rw [decide_eq_true_eq] at hpoint
  omega

theorem isDecimal_of_asciiDigit? {d : Nat} (h : asciiDigit? c = some d) : isDecimal c = true := by
  have hends : '0'.toNat = 48 ∧ '9'.toNat = 57 := ⟨rfl, rfl⟩
  unfold asciiDigit? at h
  split at h
  · exact isDecimal_iff.mpr ⟨48, by decide, by omega, by omega⟩
  · cases h

theorem decimalValue_of_asciiDigit? {d : Nat} (h : asciiDigit? c = some d) : decimalValue c = d := by
  have hends : '0'.toNat = 48 ∧ '9'.toNat = 57 := ⟨rfl, rfl⟩
  unfold asciiDigit? at h
  split at h
  · have hfirst : 48 ≤ c.toNat ∧ c.toNat < 48 + 10 := by omega
    obtain ⟨more, hmore⟩ : ∃ more, zeroPoints = 48 :: more := ⟨_, rfl⟩
    simp only [decimalValue, decimalValue?, hmore, List.find?_cons, decide_eq_true hfirst,
      Option.map_some, Option.getD_some]
    exact Option.some.inj h
  · cases h

/-- What is read as ASCII digits is read alike as decimal digits. -/
theorem decimals_of_mapM {ds : List Nat} (h : cs.mapM asciiDigit? = some ds) :
    (∀ c ∈ cs, isDecimal c = true) ∧ cs.map decimalValue = ds := by
  induction cs generalizing ds with
  | nil => exact ⟨nofun, Option.some.inj h⟩
  | cons c rest ih =>
    simp only [List.mapM_cons, Option.bind_eq_bind, Option.bind_eq_some_iff, Option.pure_def,
      Option.some.injEq] at h
    obtain ⟨d, hd, more, hmore, rfl⟩ := h
    obtain ⟨hdecimal, hvalues⟩ := ih hmore
    refine ⟨List.forall_mem_cons.mpr ⟨isDecimal_of_asciiDigit? hd, hdecimal⟩, ?_⟩
    rw [List.map_cons, hvalues, decimalValue_of_asciiDigit? hd]

theorem isBlank_eq_false (h : isDigit c = true) : isBlank c = false := by
  have apart : ∀ point ∈ blankPoints, (∀ start ∈ zeroPoints, ¬ (start ≤ point ∧ point < start + 10))
      ∧ otherDigits.has point = false := by
    decide +kernel
  by_contra hblank
  rw [Bool.not_eq_false, isBlank, List.contains_iff_mem] at hblank
  obtain ⟨hdecimal, hother⟩ := apart c.toNat hblank
  rw [isDigit, hother, Bool.or_false] at h
  obtain ⟨start, hstart, hpoint⟩ := isDecimal_iff.mp h
  exact hdecimal start hstart hpoint

def IsNumeral (s : String) : Prop := s.toList ≠ [] ∧ ∀ c ∈ s.toList, isDecimal c = true

instance : DecidablePred IsNumeral := fun _ => inferInstanceAs (Decidable (_ ∧ _))

def digitValues (s : String) : List Nat := s.toList.map decimalValue

def denoted (s : String) : Nat := ofDigits (digitValues s)

theorem IsNumeral.isDigit (h : IsNumeral s) : ∀ c ∈ s.toList, isDigit c = true := by
  intro c hc
  rw [Text.isDigit, h.2 c hc, Bool.true_or]

theorem IsNumeral.digitValues_lt (h : IsNumeral s) : ∀ d ∈ digitValues s, d < 10 := by
  intro d hd
  obtain ⟨c, hc, rfl⟩ := List.mem_map.mp hd
  exact decimalValue_lt (h.2 c hc)

theorem IsNumeral.digitValues_ne_nil (h : IsNumeral s) : digitValues s ≠ [] := by
  simpa [digitValues] using h.1

/-- The text of a whole number is a numeral that denotes it. -/
theorem denoted_toString (n : Nat) : IsNumeral (toString n) ∧ denoted (toString n) = n := by
  obtain ⟨ds, hread, hvalue⟩ := mapM_asciiDigit?_toDigits n
  obtain ⟨hdecimal, hvalues⟩ := decimals_of_mapM hread
  have htext : (toString n).toList = Nat.toDigits 10 n := by simp
  rw [IsNumeral, denoted, digitValues, htext, hvalues]
  exact ⟨⟨Nat.toDigits_ne_nil, hdecimal⟩, hvalue⟩

end Text

namespace Number
open Text
variable {c : Char} {cs : List Char} {s : String}

/-! ## Reading digits -/

theorem trim_digits (h : ∀ c ∈ cs, isDigit c = true) : trim cs = cs := by
  refine dropEnds_eq fun c hc => ?_
  rw [isMargin, isBlank_eq_false (h c hc), Bool.false_and]

theorem asciiDigits_decimal (h : ∀ c ∈ cs, isDecimal c = true) :
    asciiDigits cs = (cs.map decimalValue).map Nat.digitChar := by
  have ascii : ∀ d < 10, Char.ofNat ('0'.toNat + d) = Nat.digitChar d := by decide
  rw [asciiDigits, List.map_map]
  refine List.map_congr_left fun c hc => ?_
  rw [decimalValue?_eq (h c hc)]
  exact ascii _ (decimalValue_lt (h c hc))

theorem isDigit_asciiDigits (h : ∀ c ∈ cs, isDigit c = true) :
    ∀ c ∈ asciiDigits cs, isDigit c = true := by
  have ascii : ∀ d < 10, isDigit (Char.ofNat ('0'.toNat + d)) = true := by decide
  intro c hc
  obtain ⟨b, hb, rfl⟩ := List.mem_map.mp hc
  cases hvalue : decimalValue? b with
  | none => exact h b hb
  | some d =>
    have hdecimal : isDecimal b = true := Option.isSome_iff_exists.mpr ⟨d, hvalue⟩
    obtain rfl : decimalValue b = d := Option.some.inj ((decimalValue?_eq hdecimal).symm.trans hvalue)
    exact ascii _ (decimalValue_lt hdecimal)

theorem isDecimal_of_asciiDigits (h : ∀ c ∈ asciiDigits cs, isDecimal c = true) :
    ∀ c ∈ cs, isDecimal c = true := by
  intro c hc
  have himage := h _ (List.mem_map_of_mem hc)
  cases hvalue : decimalValue? c with
  | some d => exact Option.isSome_iff_exists.mpr ⟨d, hvalue⟩
  | none =>
    rw [hvalue] at himage
    exact himage

theorem splitSign_digits (h : ∀ c ∈ cs, isDigit c = true) : splitSign cs = (false, cs) := by
  unfold splitSign
  split
  · exact absurd (h '-' List.mem_cons_self) (by decide)
  · exact absurd (h '+' List.mem_cons_self) (by decide)
  · rfl

theorem dropMark_ten (cs : List Char) : dropMark 10 cs = cs := by
  unfold dropMark
  split
  · exact if_neg fun hmark => absurd hmark.1 (by decide)
  · rfl

section Digits
variable {ds : List Nat} (h : ∀ d ∈ ds, d < 10)
include h

theorem ungroup_digits (afterDigit : Bool) :
    ungroup afterDigit (ds.map Nat.digitChar) = some (ds.map Nat.digitChar) := by
  induction ds generalizing afterDigit with
  | nil => rfl
  | cons d rest ih =>
    have hplain : Nat.digitChar d ≠ '_' := by
      have : ∀ d < 10, Nat.digitChar d ≠ '_' := by decide
      exact this d (h d List.mem_cons_self)
    have hrest := ih (fun e he => h e (List.mem_cons_of_mem d he)) (asciiDigit? (Nat.digitChar d)).isSome
    rw [List.map_cons]
    unfold ungroup
    split
    · next heq => cases heq
    · next heq => exact absurd (List.cons.inj heq).1 hplain
    · next heq => exact absurd (List.cons.inj heq).1 hplain
    · next c cs _ _ heq =>
      obtain ⟨rfl, rfl⟩ := List.cons.inj heq
      rw [hrest]
      rfl

theorem splitDigits_digits : splitDigits (ds.map Nat.digitChar) = (ds, []) := by
  induction ds with
  | nil => rfl
  | cons d rest ih =>
    have hfirst := asciiDigit?_digitChar d (h d List.mem_cons_self)
    have hrest := ih fun e he => h e (List.mem_cons_of_mem d he)
    simp only [List.map_cons, splitDigits, hfirst, hrest]

theorem decimal?_digits (negative : Bool) (hne : ds ≠ []) : decimal? negative (ds.map Nat.digitChar)
    = some (Double.ofDecimal negative (ofDigits ds) 0) := by
  have hsome : ds.isEmpty = false := by simpa using hne
  unfold decimal?
  simp only [splitDigits_digits h, hsome, Bool.false_and, List.append_nil]
  rfl

theorem groupedDigits?_digits {due : Bool} (hne : due = true → ds ≠ []) :
    groupedDigits? 10 due (ds.map Nat.digitChar) = some (ds, []) := by
  induction ds generalizing due with
  | nil =>
    cases due with
    | false => rfl
    | true => exact absurd rfl (hne rfl)
  | cons d rest ih =>
    have hdigit : ∀ d < 10, digitValue? 10 (Nat.digitChar d) = some d := by decide
    have hrest : groupedDigits? 10 false (rest.map Nat.digitChar) = some (rest, []) :=
      ih (fun e he => h e (List.mem_cons_of_mem d he)) nofun
    simp only [List.map_cons, groupedDigits?, hdigit d (h d List.mem_cons_self), hrest, Option.map_some]

end Digits

/-- Decimal digits are read as the double that their decimal is rounded to. -/
theorem read?_numeral (h : IsNumeral s) : read? s = some (Double.ofDecimal false (denoted s) 0) := by
  have hvalues := h.digitValues_lt
  have hsign := splitSign_digits (isDigit_asciiDigits h.isDigit)
  rw [asciiDigits_decimal h.2] at hsign
  unfold read?
  rw [trim_digits h.isDigit, asciiDigits_decimal h.2]
  simp only [← digitValues.eq_def, ungroup_digits hvalues, Option.bind_eq_bind, Option.bind_some]
  rw [digitValues, hsign]
  simp only [← digitValues.eq_def, decimal?_digits hvalues _ h.digitValues_ne_nil]
  rfl

/-- Decimal digits are read as the whole number that they write, if they are not too many. -/
theorem readWhole_numeral (h : IsNumeral s) : readWhole 10 s
    = if numeralLimit < s.toList.length then .error (.tooLong s.toList.length)
      else .ok (denoted s : Int) := by
  have hsign := splitSign_digits (isDigit_asciiDigits h.isDigit)
  rw [asciiDigits_decimal h.2] at hsign
  have hgroups : groupedDigits? 10 true _ = some (_, []) :=
    groupedDigits?_digits h.digitValues_lt fun _ => h.digitValues_ne_nil
  unfold readWhole
  rw [trim_digits h.isDigit, asciiDigits_decimal h.2, hsign]
  simp only [← digitValues.eq_def, dropMark_ten, hgroups]
  simp only [digitValues, List.length_map, true_and]
  rfl

/-- Letters are no digits of base 10. -/
theorem isDecimal_of_digitValue? {d : Nat} (h : digitValue? 10 c = some d) : isDecimal c = true := by
  obtain ⟨hvalue, hd⟩ := Option.filter_eq_some_iff.mp h
  rw [decide_eq_true_eq] at hd
  cases hdigit : asciiDigit? c with
  | some d' => exact isDecimal_of_asciiDigit? hdigit
  | none =>
    rw [hdigit] at hvalue
    have hletter : letterValue? c = some d := hvalue
    have hleast : 10 ≤ d := by
      unfold letterValue? at hletter
      split_ifs at hletter <;> cases hletter <;> exact Nat.le_add_left 10 _
    exact absurd hd (Nat.not_lt.mpr hleast)

/-- Without low lines only digits are read to the end. -/
theorem isDecimal_of_groupedDigits? {due : Bool} {ds : List Nat} (hplain : '_' ∉ cs)
    (h : groupedDigits? 10 due cs = some (ds, [])) : ∀ c ∈ cs, isDecimal c = true := by
  induction cs generalizing due ds with
  | nil => exact nofun
  | cons c rest ih =>
    have hmark : c ≠ '_' := fun heq => hplain (heq ▸ List.mem_cons_self)
    unfold groupedDigits? at h
    cases hdigit : digitValue? 10 c with
    | none =>
      rw [hdigit] at h
      dsimp only at h
      rw [if_neg hmark] at h
      split at h <;> cases h
    | some d =>
      rw [hdigit] at h
      obtain ⟨⟨more, left⟩, hrest, heq⟩ := Option.map_eq_some_iff.mp h
      obtain rfl : left = [] := (Prod.mk.inj heq).2
      refine List.forall_mem_cons.mpr ⟨?_, ih (fun hmem => hplain (List.mem_cons_of_mem c hmem)) hrest⟩
      exact isDecimal_of_digitValue? hdigit

/-- Of digit characters only decimal digits write a whole number, and only so many. -/
theorem readWhole_digits (h : allDigits s = true) : (∃ n, readWhole 10 s = .ok n)
    ↔ (∀ c ∈ s.toList, isDecimal c = true) ∧ s.toList.length ≤ numeralLimit := by
  rw [allDigits, Bool.and_eq_true, List.all_eq_true, Bool.not_eq_true', ← Bool.not_eq_true,
    String.isEmpty_iff, ← String.toList_eq_nil_iff] at h
  obtain ⟨hdigits, hne⟩ := h
  by_cases hdecimal : ∀ c ∈ s.toList, isDecimal c = true
  · rw [readWhole_numeral ⟨hne, hdecimal⟩]
    by_cases hlong : numeralLimit < s.toList.length
    · rw [if_pos hlong]
      exact ⟨nofun, fun h => absurd h.2 (Nat.not_le.mpr hlong)⟩
    · rw [if_neg hlong]
      exact ⟨fun _ => ⟨hdecimal, Nat.not_lt.mp hlong⟩, fun _ => ⟨_, rfl⟩⟩
  · refine ⟨fun ⟨n, hn⟩ => absurd (fun c hc => ?_) hdecimal, fun h => absurd h.1 hdecimal⟩
    have hascii := isDigit_asciiDigits hdigits
    unfold readWhole at hn
    rw [trim_digits hdigits, splitSign_digits hascii] at hn
    simp only [dropMark_ten] at hn
    split at hn
    · cases hn
    · next ds rest hgroups =>
      split at hn
      · cases hn
      · split at hn
        · next hrest =>
          rw [List.isEmpty_iff.mp hrest] at hgroups
          have hplain : '_' ∉ asciiDigits s.toList := fun hmem => absurd (hascii _ hmem) (by decide)
          exact isDecimal_of_asciiDigits
            (fun a ha => isDecimal_of_groupedDigits? hplain hgroups a ha) c hc
        · cases hn

end Number

/-! ## The double of a numeral -/

namespace Double

/-- A number of more than 400 digits lies beyond the range. -/
theorem wholeBound_le {n : Nat} (h : 400 < digitCount n) : wholeBound ≤ n := by
  have hlong : 10 ^ 400 ≤ n := by
    rw [← Nat.not_lt, ← Nat.length_toDigits_le_iff (by decide) (by decide)]
    exact Nat.not_le.mpr h
  have hpow (k : Nat) (hk : 53 + greatestExponent.toNat ≤ 3 * k) : wholeBound ≤ 10 ^ k :=
    calc wholeBound ≤ 2 ^ (3 * k) := Nat.pow_le_pow_right (by decide) hk
      _ = (2 ^ 3) ^ k := Nat.pow_mul 2 3 k
      _ ≤ 10 ^ k := Nat.pow_le_pow_left (by decide) k
  exact Nat.le_trans (hpow 400 (by decide)) hlong

/-- The double of a whole decimal lies where the number is taken to be. -/
theorem place_ofDecimal (n : Nat) :
    (Extended.ofDouble (ofDecimal false n 0)).eq (.ofTop (rounded n)) = true := by
  unfold ofDecimal
  split
  · next hzero =>
    subst hzero
    exact place_nearest 0
  · by_cases hlong : 400 < digitCount n
    · rw [rounded_eq_top_iff.mpr (Nat.le_add_right_of_le (wholeBound_le hlong))]
      dsimp only
      rw [if_pos (by omega)]
      rfl
    · dsimp only
      rw [if_neg (by omega), if_neg (by omega), if_pos (Int.le_refl 0)]
      have hone : n * Nat.pow 10 (0 : Int).toNat = n := Nat.mul_one n
      rw [hone]
      exact place_nearest n

end Double

end RecordFlow
