import RecordFlow.Proofs.Text.Digits
import RecordFlow.Schema.Scalar
import RecordFlow.Uuid

/-! # Identifiers in text

Different identifiers are written differently, and a text that was written for an identifier is read
as that identifier or as none. An identifier that was read is one of 128 bits, and the text that is
written for such an identifier is read as the identifier itself.
-/
namespace RecordFlow

namespace Text

def IsHexDigit (c : Char) : Prop := ∃ d < 16, c = Nat.digitChar d

def hexDigitValue (c : Char) : Nat := (Number.digitValue? 16 c).getD 0

theorem digitValue?_digitChar : ∀ d < 16, Number.digitValue? 16 (Nat.digitChar d) = some d := by
  decide

theorem IsHexDigit.digitValue? {c : Char} (h : IsHexDigit c) :
    Number.digitValue? 16 c = some (hexDigitValue c) := by
  obtain ⟨d, hd, rfl⟩ := h
  rw [hexDigitValue, digitValue?_digitChar d hd, Option.getD_some]

/-- What a test says of the sixteen digits it says of every digit. -/
theorem IsHexDigit.holds {c : Char} (h : IsHexDigit c) (test : Char → Bool)
    (htest : ∀ d < 16, test (Nat.digitChar d) = true) : test c = true := by
  obtain ⟨d, hd, rfl⟩ := h
  exact htest d hd

theorem isHexDigit_of_mem_toDigits {n : Nat} {c : Char} (h : c ∈ Nat.toDigits 16 n) :
    IsHexDigit c := by
  induction n using Nat.strongRecOn with
  | ind n ih =>
    rw [Nat.toDigits_eq_if (by decide)] at h
    split at h
    · next hn => exact ⟨n, hn, List.mem_singleton.mp h⟩
    · next hn =>
      rcases List.mem_append.mp h with h | h
      · exact ih (n / 16) (by omega) h
      · exact ⟨n % 16, Nat.mod_lt _ (by decide), List.mem_singleton.mp h⟩

theorem isHexDigit_of_mem_hexDigits {width n : Nat} {c : Char} (h : c ∈ hexDigits width n) :
    IsHexDigit c := by
  rcases List.mem_append.mp h with h | h
  · exact ⟨0, by decide, (List.mem_replicate.mp h).2⟩
  · exact isHexDigit_of_mem_toDigits h

theorem hexDigits_ne_nil (width n : Nat) : hexDigits width n ≠ [] := by
  intro h
  exact Nat.toDigits_ne_nil (List.append_eq_nil_iff.mp h).2

theorem ofDigitsIn_toDigits (n : Nat) :
    Number.ofDigitsIn 16 ((Nat.toDigits 16 n).map hexDigitValue) = n := by
  have value (d : Nat) (hd : d < 16) : hexDigitValue d.digitChar = d := by
    rw [hexDigitValue, digitValue?_digitChar d hd, Option.getD_some]
  induction n using Nat.strongRecOn with
  | ind n ih =>
    rw [Nat.toDigits_eq_if (by decide)]
    split
    · next hn => simp [Number.ofDigitsIn, value n hn]
    · next hn =>
      have high := ih (n / 16) (by omega)
      unfold Number.ofDigitsIn at high ⊢
      rw [List.map_append, List.foldl_append, high]
      have low := value (n % 16) (Nat.mod_lt _ (by decide))
      simp only [List.map_cons, List.map_nil, List.foldl_cons, List.foldl_nil, low]
      omega

/-- The digits of a number, padded or not, have its value. -/
theorem ofDigitsIn_hexDigits (width n : Nat) :
    Number.ofDigitsIn 16 ((hexDigits width n).map hexDigitValue) = n := by
  have padded (k : Nat) : (List.replicate k (0 : Nat)).foldl (fun n d => n * 16 + d) 0 = 0 := by
    induction k with
    | zero => rfl
    | succ k ih => exact ih
  have zero : hexDigitValue '0' = 0 := by decide
  have digits := ofDigitsIn_toDigits n
  unfold Number.ofDigitsIn at digits ⊢
  rw [hexDigits, List.map_append, List.map_replicate, zero, List.foldl_append, padded, digits]

end Text

namespace Number
open Text

theorem groupedDigits?_hex {cs : List Char} (h : ∀ c ∈ cs, IsHexDigit c) :
    groupedDigits? 16 false cs = some (cs.map hexDigitValue, []) := by
  induction cs with
  | nil => rfl
  | cons c rest ih =>
    have head := (h c List.mem_cons_self).digitValue?
    have tail := ih fun d hd => h d (List.mem_cons_of_mem c hd)
    rw [groupedDigits?]
    simp only [head, tail, Option.map_some, List.map_cons]

theorem dropMark_hex {cs : List Char} (h : ∀ c ∈ cs, IsHexDigit c) : dropMark 16 cs = cs := by
  unfold dropMark
  split
  · next mark rest =>
    have plain : (mark != 'x' && mark != 'X') = true :=
      (h mark (by simp)).holds (fun c => c != 'x' && c != 'X') (by decide)
    have unmarked : ¬ (16 = 16 ∧ (mark = 'x' ∨ mark = 'X')) := by simpa using plain
    rw [if_neg unmarked]
  · rfl

theorem splitSign_hex {cs : List Char} (h : ∀ c ∈ cs, IsHexDigit c) :
    splitSign cs = (false, cs) := by
  have unsigned (c : Char) (hc : c ∈ cs) : (c != '-' && c != '+') = true :=
    (h c hc).holds (fun c => c != '-' && c != '+') (by decide)
  unfold splitSign
  split
  · exact absurd (unsigned '-' (by simp)) (by decide)
  · exact absurd (unsigned '+' (by simp)) (by decide)
  · rfl

theorem asciiDigits_hex {cs : List Char} (h : ∀ c ∈ cs, IsHexDigit c) : asciiDigits cs = cs := by
  induction cs with
  | nil => rfl
  | cons c rest ih =>
    have head : asciiDigits [c] = [c] :=
      eq_of_beq ((h c List.mem_cons_self).holds (fun c => asciiDigits [c] == [c]) (by decide))
    have tail := ih fun d hd => h d (List.mem_cons_of_mem c hd)
    calc asciiDigits (c :: rest) = asciiDigits [c] ++ asciiDigits rest := rfl
      _ = c :: rest := by rw [head, tail, List.singleton_append]

theorem dropEnds_eq {drops : Char → Bool} {cs : List Char} (h : ∀ c ∈ cs, drops c = false) :
    ((cs.dropWhile drops).reverse.dropWhile drops).reverse = cs := by
  have front (ds : List Char) (hds : ∀ c ∈ ds, drops c = false) : ds.dropWhile drops = ds := by
    cases ds with
    | nil => rfl
    | cons d rest => rw [List.dropWhile_cons_of_neg (by simp [hds d List.mem_cons_self])]
  rw [front cs h, front cs.reverse fun c hc => h c (List.mem_reverse.mp hc), List.reverse_reverse]

theorem readWhole_hex {cs : List Char} (h : ∀ c ∈ cs, IsHexDigit c) (hne : cs ≠ []) :
    readWhole 16 (String.ofList cs) = .ok (ofDigitsIn 16 (cs.map hexDigitValue) : Nat) := by
  have trimmed : trim cs = cs := dropEnds_eq fun c hc => by
    have test := (h c hc).holds (fun c => !isMargin c) (by decide)
    simpa using test
  have grouped : groupedDigits? 16 true cs = some (cs.map hexDigitValue, []) := by
    cases cs with
    | nil => exact absurd rfl hne
    | cons c rest =>
      have head := (h c List.mem_cons_self).digitValue?
      have tail := groupedDigits?_hex fun d hd => h d (List.mem_cons_of_mem c hd)
      rw [groupedDigits?]
      simp only [head, tail, Option.map_some, List.map_cons]
  unfold readWhole
  simp only [String.toList_ofList, trimmed, asciiDigits_hex h, splitSign_hex h, dropMark_hex h,
    grouped]
  rfl

end Number

namespace Uuid
open Text

def digits (u : Uuid) : List Char := hexDigits 32 u.value

theorem isHexDigit_of_mem_digits {u : Uuid} {c : Char} (h : c ∈ u.digits) : IsHexDigit c :=
  isHexDigit_of_mem_hexDigits h

theorem toList_text (u : Uuid) : u.text.toList = u.digits.take 8 ++ '-' :: (
    (u.digits.drop 8).take 4 ++ '-' :: ((u.digits.drop 12).take 4 ++ '-' :: (
      (u.digits.drop 16).take 4 ++ '-' :: u.digits.drop 20))) := by
  have dash : "-".toList = ['-'] := rfl
  simp [text, digits, dash]

theorem filter_text (u : Uuid) : u.text.toList.filter (· != '-') = u.digits := by
  have undashed (ds : List Char) (h : ∀ c ∈ ds, c ∈ u.digits) : ds.filter (· != '-') = ds :=
    List.filter_eq_self.mpr fun c hc =>
      (isHexDigit_of_mem_digits (h c hc)).holds ((· != '-')) (by decide)
  have part (i k : Nat) (c : Char) (h : c ∈ (u.digits.drop i).take k) : c ∈ u.digits :=
    List.mem_of_mem_drop (List.mem_of_mem_take h)
  have dash (ds : List Char) : ('-' :: ds).filter (· != '-') = ds.filter (· != '-') := rfl
  rw [toList_text]
  simp only [List.filter_append, dash]
  rw [undashed _ (fun _ h => List.mem_of_mem_take h), undashed _ (part 8 4), undashed _ (part 12 4),
    undashed _ (part 16 4), undashed _ (fun _ h => List.mem_of_mem_drop h)]
  have joined (i k : Nat) :
      (u.digits.drop i).take k ++ u.digits.drop (i + k) = u.digits.drop i := by
    rw [← List.drop_drop, List.take_append_drop]
  rw [joined 16 4, joined 12 4, joined 8 4, List.take_append_drop]

theorem text_injective {u v : Uuid} (h : u.text = v.text) : u = v := by
  have hdigits : u.digits = v.digits := by rw [← filter_text, ← filter_text, h]
  have hvalue : u.value = v.value := by
    rw [← ofDigitsIn_hexDigits 32 u.value, ← ofDigitsIn_hexDigits 32 v.value]
    exact congrArg (fun ds => Number.ofDigitsIn 16 (ds.map hexDigitValue)) hdigits
  cases u
  cases v
  exact congrArg mk hvalue

/-- Where the first character of a mark is missing, there is nothing to remove. -/
theorem without_eq {m : Char} {mark cs : List Char} (h : m ∉ cs) : without (m :: mark) cs = cs := by
  induction cs with
  | nil => rw [without]
  | cons c rest ih =>
    have hc : m ≠ c := fun hm => h (hm ▸ List.mem_cons_self)
    have marked : (m :: mark).isPrefixOf (c :: rest) = false := by
      simp [List.isPrefixOf, hc]
    rw [without, if_neg (by simp [marked]), ih fun hm => h (List.mem_cons_of_mem c hm)]

/-- What is read from the text of an identifier is that identifier. -/
theorem eq_of_read_text {u v : Uuid} (h : read u.text = .ok v) : v = u := by
  have written (c : Char) (hc : c ∈ u.text.toList) : (c != 'u' && !isBrace c) = true := by
    by_cases hdash : c = '-'
    · rw [hdash]
      decide
    · have hfiltered : c ∈ u.text.toList.filter (· != '-') :=
        List.mem_filter.mpr ⟨hc, by simpa using hdash⟩
      rw [filter_text] at hfiltered
      exact (isHexDigit_of_mem_digits hfiltered).holds (fun c => c != 'u' && !isBrace c)
        (by decide)
  have unmarked : 'u' ∉ u.text.toList := fun hu => absurd (written 'u' hu) (by decide)
  have unbraced : ∀ c ∈ u.text.toList, isBrace c = false := fun c hc => by
    have hc := written c hc
    simp only [Bool.and_eq_true, Bool.not_eq_true'] at hc
    exact hc.2
  have digits : ∀ c ∈ u.digits, IsHexDigit c := fun c hc => isHexDigit_of_mem_digits hc
  have hread := Number.readWhole_hex digits (hexDigits_ne_nil 32 u.value)
  have urn : without "urn:".toList u.text.toList = u.text.toList := without_eq unmarked
  have uuid : without "uuid:".toList u.text.toList = u.text.toList := without_eq unmarked
  unfold read at h
  simp only [urn, uuid, Number.dropEnds_eq unbraced, filter_text, hread] at h
  split at h
  · cases h
    have hvalue : Number.ofDigitsIn 16 (u.digits.map hexDigitValue) = u.value :=
      ofDigitsIn_hexDigits 32 u.value
    exact congrArg mk (by simpa using hvalue)
  · cases h

end Uuid

/-! ## Identifiers that are read again -/

namespace Json
open Text

theorem hexValue?_digitChar : ∀ d < 16, hexValue? (Nat.digitChar d) = some d := by
  decide

theorem hexValue?_of_isHexDigit {c : Char} (h : IsHexDigit c) :
    hexValue? c = some (hexDigitValue c) := by
  obtain ⟨d, hd, rfl⟩ := h
  rw [hexValue?_digitChar d hd, hexDigitValue, digitValue?_digitChar d hd, Option.getD_some]

theorem hexValue?_lt {c : Char} {d : Nat} (h : hexValue? c = some d) : d < 16 := by
  unfold hexValue? at h
  have point {a b : Char} (hab : a ≤ b) : a.toNat ≤ b.toNat := hab
  split at h
  · next hc =>
    have upper := point hc.2
    simp only [Option.some.injEq] at h
    have nine : '9'.toNat = '0'.toNat + 9 := rfl
    omega
  · split at h
    · next hc =>
      have upper := point hc.2
      simp only [Option.some.injEq] at h
      have last : 'f'.toNat = 'a'.toNat + 5 := rfl
      omega
    · split at h
      · next hc =>
        have upper := point hc.2
        simp only [Option.some.injEq] at h
        have last : 'F'.toNat = 'A'.toNat + 5 := rfl
        omega
      · cases h

theorem mapM_hexValue? {cs : List Char} (h : ∀ c ∈ cs, IsHexDigit c) :
    cs.mapM hexValue? = some (cs.map hexDigitValue) := by
  induction cs with
  | nil => rfl
  | cons c rest ih =>
    have head := hexValue?_of_isHexDigit (h c List.mem_cons_self)
    have tail := ih fun d hd => h d (List.mem_cons_of_mem c hd)
    simp [List.mapM_cons, head, tail]

end Json

namespace Uuid
open Text

/-- Identifiers of 128 bits, which 32 hexadecimal digits write. -/
def IsShort (u : Uuid) : Prop := u.value < 16 ^ 32

theorem isShort_of_ofHex? {cs : List Char} {u : Uuid} (h : ofHex? cs = some u) : u.IsShort := by
  unfold ofHex? at h
  split at h
  · next hlen =>
    cases hds : cs.mapM Json.hexValue? with
    | none => simp [hds] at h
    | some ds =>
      have bound := Text.foldl_lt_of_mapM (fun _ _ => Json.hexValue?_lt) hds 0
      rw [hlen, Nat.zero_add, Nat.one_mul] at bound
      simp only [hds, Option.map_some, Option.some.injEq] at h
      rw [← h]
      exact bound
  · cases h

theorem isShort_of_ofGroups? {cs : List Char} {u : Uuid} (h : ofGroups? cs = some u) :
    u.IsShort := by
  unfold ofGroups? at h
  split at h
  · exact isShort_of_ofHex? h
  · cases h

theorem isShort_of_parse? {s : String} {u : Uuid} (h : parse? s = some u) : u.IsShort := by
  unfold parse? at h
  dsimp only at h
  split at h
  · split at h
    · exact isShort_of_ofGroups? h
    · cases h
  · split at h
    · exact isShort_of_ofGroups? h
    · cases hgroups : ofGroups? s.toList with
      | none =>
        rw [hgroups] at h
        exact isShort_of_ofHex? h
      | some v =>
        rw [hgroups] at h
        obtain rfl : v = u := Option.some.inj h
        exact isShort_of_ofGroups? hgroups

theorem length_digits {u : Uuid} (hu : u.IsShort) : u.digits.length = 32 := by
  have short : (Nat.toDigits 16 u.value).length ≤ 32 :=
    (Nat.length_toDigits_le_iff (by decide) (by decide)).mpr hu
  unfold digits hexDigits
  simp only [List.length_append, List.length_replicate]
  omega

theorem ofHex?_digits {u : Uuid} (hu : u.IsShort) : ofHex? u.digits = some u := by
  have read := Json.mapM_hexValue? fun c (hc : c ∈ u.digits) => isHexDigit_of_mem_digits hc
  have value : (u.digits.map hexDigitValue).foldl (fun n d => n * 16 + d) 0 = u.value :=
    ofDigitsIn_hexDigits 32 u.value
  rw [ofHex?, if_pos (length_digits hu), read, Option.map_some, value]

/-- A list of 32 characters in the five groups of an identifier. -/
theorem eq_groups {ds : List Char} (h : ds.length = 32) : ∃ a b c d e : List Char,
    ds = a ++ (b ++ (c ++ (d ++ e))) ∧ a.length = 8 ∧ b.length = 4 ∧ c.length = 4 ∧ d.length = 4
      ∧ e.length = 12 := by
  refine ⟨ds.take 8, (ds.drop 8).take 4, (ds.drop 12).take 4, (ds.drop 16).take 4, ds.drop 20,
    ?_, ?_, ?_, ?_, ?_, ?_⟩
  · have joined (i k : Nat) : (ds.drop i).take k ++ ds.drop (i + k) = ds.drop i := by
      rw [← List.drop_drop, List.take_append_drop]
    rw [joined 16 4, joined 12 4, joined 8 4, List.take_append_drop]
  all_goals
    simp only [List.length_take, List.length_drop]
    omega

/-- The text of an identifier whose digits are known by groups. -/
theorem toList_text_of_groups {u : Uuid} {a b c d e : List Char}
    (hu : u.digits = a ++ (b ++ (c ++ (d ++ e)))) (ha : a.length = 8) (hb : b.length = 4)
    (hc : c.length = 4) (hd : d.length = 4) :
    u.text.toList = a ++ '-' :: (b ++ '-' :: (c ++ '-' :: (d ++ '-' :: e))) := by
  rw [toList_text, hu]
  simp (disch := omega) [List.drop_append, List.drop_of_length_le, ha, hb, hc]

theorem ofGroups?_toList_text {u : Uuid} (hu : u.IsShort) : ofGroups? u.text.toList = some u := by
  obtain ⟨a, b, c, d, e, hds, ha, hb, hc, hd, he⟩ := eq_groups (length_digits hu)
  have read := ofHex?_digits hu
  rw [hds] at read
  rw [toList_text_of_groups hds ha hb hc hd, ofGroups?, if_pos]
  · simpa (disch := omega) [List.take_append, List.drop_append, List.drop_of_length_le, ha, hb, hc,
      hd] using read
  · constructor
    · simp [ha, hb, hc, hd, he]
    · simp [List.getElem?_append, ha, hb, hc, hd]

theorem length_toList_text {u : Uuid} (hu : u.IsShort) : u.text.toList.length = 36 := by
  obtain ⟨a, b, c, d, e, hds, ha, hb, hc, hd, he⟩ := eq_groups (length_digits hu)
  rw [toList_text_of_groups hds ha hb hc hd]
  simp [ha, hb, hc, hd, he]

theorem toList_text_ne_brace (u : Uuid) (rest : List Char) : u.text.toList ≠ '\x7b' :: rest := by
  intro h
  have member : '\x7b' ∈ u.text.toList := h ▸ List.mem_cons_self
  have digit : '\x7b' ∈ u.digits := by
    rw [← filter_text]
    exact List.mem_filter.mpr ⟨member, by decide⟩
  have plain := (isHexDigit_of_mem_digits digit).holds (· != '\x7b') (by decide)
  simp at plain

theorem parse?_text {u : Uuid} (hu : u.IsShort) : parse? u.text = some u := by
  unfold parse?
  dsimp only
  split
  · next rest h => exact absurd h (u.toList_text_ne_brace rest)
  · have short : ¬ (u.text.toList.length = 45 ∧ urnMark.isPrefixOf u.text.toList = true) := by
      rw [length_toList_text hu]
      simp
    rw [if_neg short, ofGroups?_toList_text hu]
    rfl

end Uuid

namespace Schema

theorem isShort_of_uuid {v : Value} {u : Uuid} (h : uuid v = .valid u) : u.IsShort := by
  cases v with
  | str s =>
    rw [uuid] at h
    split at h
    · next w hw =>
      obtain rfl : w = u := Checked.valid.inj h
      exact Uuid.isShort_of_parse? hw
    · cases h
  | _ => cases h

theorem uuid_text {u : Uuid} (hu : u.IsShort) : uuid (.str u.text) = .valid u := by
  rw [uuid, Uuid.parse?_text hu]

end Schema

end RecordFlow
