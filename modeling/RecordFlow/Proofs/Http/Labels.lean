import RecordFlow.Http.Path
import RecordFlow.Proofs.Number.Numeral

/-! # Labels of paths

A label holds no identifier that stands alone and no segment of digits, so that a label that is taken
for a path stays as it is. An identifier that is found is replaced, and two of them cannot overlap. Nor
does a replacement bring one about: the characters that are put in belong to no word and to no
identifier, and no word goes on next to what was replaced.
-/
namespace RecordFlow

namespace Text

theorem splitAll_eq (isSeparator : Char → Bool) (cs : List Char) :
    ∃ parts, splitAll isSeparator cs = cs.takeWhile (!isSeparator ·) :: parts := by
  induction cs with
  | nil => exact ⟨[], rfl⟩
  | cons c rest ih =>
    obtain ⟨parts, hparts⟩ := ih
    cases hc : isSeparator c with
    | true => exact ⟨splitAll isSeparator rest, by simp [splitAll, hc]⟩
    | false => exact ⟨parts, by simp [splitAll, hc, hparts]⟩

end Text

namespace Http
open Text
variable {cs front back : List Char} {inWord : Bool} {ps qs : List (Char → Bool)}

/-! ## What a label is without -/

def IsGroup (size : Nat) (cs : List Char) : Prop := cs.length = size ∧ ∀ c ∈ cs, isHex c = true

/-- An identifier as it is written: five groups between dashes, of a version from 1 to 5 and of the
common variant. -/
inductive IsIdentifier : List Char → Prop
  | groups {time middle high clock node : List Char} {version variant : Char}
      (htime : IsGroup 8 time) (hmiddle : IsGroup 4 middle)
      (hversion : '1' ≤ version ∧ version ≤ '5') (hhigh : IsGroup 3 high)
      (hvariant : variant ∈ ['8', '9', 'a', 'b', 'A', 'B']) (hclock : IsGroup 3 clock)
      (hnode : IsGroup 12 node) :
      IsIdentifier (time ++ ['-'] ++ middle ++ ['-'] ++ [version] ++ high ++ ['-'] ++ [variant]
        ++ clock ++ ['-'] ++ node)

/-- What stands between two texts is no part of a longer word. -/
def StandsAlone (before after : List Char) : Prop :=
  (∀ c ∈ before.getLast?, isWord c = false) ∧ ∀ c ∈ after.head?, isWord c = false

/-- No identifier starts in a text that would be replaced. -/
def LacksIdentifiers : (inWord : Bool) → List Char → Prop
  | _, [] => True
  | inWord, c :: rest =>
    startsIdentifier inWord (c :: rest) = false ∧ LacksIdentifiers (isWord c) rest

def LacksNumbers : List Char → Prop
  | [] => True
  | c :: rest => (c = '/' → numberLength rest = 0) ∧ LacksNumbers rest

theorem replaceIdentifiers_of_lacks (h : LacksIdentifiers inWord cs) :
    replaceIdentifiers 0 inWord cs = cs := by
  induction cs generalizing inWord with
  | nil => rfl
  | cons c rest ih => rw [replaceIdentifiers, h.1, if_neg Bool.false_ne_true, ih h.2]

theorem replaceNumbers_cons {c : Char} {rest : List Char} (h : c = '/' → numberLength rest = 0) :
    replaceNumbers 0 (c :: rest) = c :: replaceNumbers 0 rest := by
  have hsize : (if c = '/' then numberLength rest else 0) = 0 := by
    split
    · next hc => exact h hc
    · rfl
  rw [replaceNumbers, hsize, if_pos rfl]

theorem replaceNumbers_of_lacks (h : LacksNumbers cs) : replaceNumbers 0 cs = cs := by
  induction cs with
  | nil => rfl
  | cons c rest ih => rw [replaceNumbers_cons h.1, ih h.2]

/-! ## Words -/

theorem isWord_of_isHex {c : Char} (h : isHex c = true) : isWord c = true := by
  have few : ∀ n < 128, isHex (Char.ofNat n) = true → isWord (Char.ofNat n) = true := by
    decide +kernel
  have hsmall : c.toNat < 128 := by
    have hnine : '9'.val.toNat = 57 := rfl
    have hsmallF : 'f'.val.toNat = 102 := rfl
    have hlargeF : 'F'.val.toNat = 70 := rfl
    simp only [isHex, Bool.or_eq_true, Bool.and_eq_true, decide_eq_true_eq, Char.le_def,
      UInt32.le_iff_toNat_le] at h
    show c.val.toNat < 128
    omega
  rw [← Char.ofNat_toNat c] at h ⊢
  exact few _ hsmall h

def wordAfter (inWord : Bool) (cs : List Char) : Bool := cs.foldl (fun _ c => isWord c) inWord

theorem wordAfter_concat (inWord : Bool) (cs : List Char) (c : Char) :
    wordAfter inWord (cs ++ [c]) = isWord c := by
  rw [wordAfter, List.foldl_append]
  rfl

theorem endsWord_iff : endsWord cs = true ↔ ∀ c ∈ cs.head?, isWord c = false := by
  cases cs <;> simp [endsWord]

theorem StandsAlone.wordAfter {before after : List Char} (h : StandsAlone before after) :
    wordAfter false before = false := by
  rcases List.eq_nil_or_concat before with rfl | ⟨front, c, rfl⟩
  · rfl
  · rw [List.concat_eq_append] at h ⊢
    rw [wordAfter_concat]
    exact h.1 c (by simp)

/-! ## Where an identifier starts -/

def Fills (ps : List (Char → Bool)) (cs : List Char) : Prop :=
  cs.length = ps.length ∧ matchesPattern ps cs = true

theorem matchesPattern_append (hlength : front.length = ps.length) :
    matchesPattern (ps ++ qs) (front ++ back)
      = (matchesPattern ps front && matchesPattern qs back) := by
  induction ps generalizing front with
  | nil =>
    obtain rfl := List.length_eq_zero_iff.mp hlength
    rfl
  | cons p ps ih =>
    cases front with
    | nil => cases hlength
    | cons c front =>
      simp only [List.cons_append, matchesPattern, ih (Nat.succ.inj hlength), Bool.and_assoc]

/-- What follows after the places of a pattern does not matter. -/
theorem matchesPattern_front (hlength : front.length = ps.length) :
    matchesPattern ps (front ++ back) = matchesPattern ps front := by
  have h : matchesPattern (ps ++ []) (front ++ back) = (matchesPattern ps front && true) :=
    matchesPattern_append hlength
  rwa [List.append_nil, Bool.and_true] at h

theorem Fills.append (hfront : Fills ps front) (hback : Fills qs back) :
    Fills (ps ++ qs) (front ++ back) := by
  constructor
  · rw [List.length_append, List.length_append, hfront.1, hback.1]
  · rw [matchesPattern_append hfront.1, hfront.2, hback.2]
    rfl

theorem fills_place {p : Char → Bool} {c : Char} (h : p c = true) : Fills [p] [c] :=
  ⟨rfl, by rw [matchesPattern, h]; rfl⟩

theorem IsGroup.fills {size : Nat} (h : IsGroup size cs) : Fills (List.replicate size isHex) cs := by
  obtain ⟨rfl, hhex⟩ := h
  induction cs with
  | nil => exact ⟨rfl, rfl⟩
  | cons c rest ih =>
    exact (fills_place (hhex c List.mem_cons_self)).append
      (ih fun d hd => hhex d (List.mem_cons_of_mem c hd))

theorem IsIdentifier.fills (h : IsIdentifier cs) : Fills identifierPattern cs := by
  obtain ⟨htime, hmiddle, hversion, hhigh, hvariant, hclock, hnode⟩ := h
  have dash : Fills [(· == '-')] ['-'] := fills_place rfl
  have version := fills_place (p := fun c => '1' ≤ c && c ≤ '5') (by simpa using hversion)
  have variant := fills_place (p := "89abAB".toList.contains) (List.contains_iff_mem.mpr hvariant)
  exact htime.fills.append dash |>.append hmiddle.fills |>.append dash |>.append version
    |>.append hhigh.fills |>.append dash |>.append variant |>.append hclock.fills |>.append dash
    |>.append hnode.fills

/-- An identifier starts with two hexadecimal digits and ends with one. -/
theorem identifierPattern_eq : ∃ places, identifierPattern = isHex :: isHex :: places ++ [isHex] :=
  ⟨(identifierPattern.drop 2).dropLast, rfl⟩

/-- A word goes on after an identifier, whatever was before it. -/
theorem Fills.wordAfter (h : Fills identifierPattern front) : wordAfter inWord front = true := by
  obtain ⟨places, hplaces⟩ := identifierPattern_eq
  obtain ⟨hlength, hmatches⟩ := h
  rcases List.eq_nil_or_concat front with rfl | ⟨init, c, rfl⟩
  · cases hlength
  · rw [List.concat_eq_append] at hlength hmatches ⊢
    rw [hplaces, List.length_append, List.length_append] at hlength
    rw [hplaces, matchesPattern_append (Nat.succ.inj hlength), Bool.and_eq_true, matchesPattern,
      Bool.and_eq_true] at hmatches
    rw [wordAfter_concat]
    exact isWord_of_isHex hmatches.2.1

theorem startsIdentifier_append (hlength : front.length = identifierPattern.length) :
    startsIdentifier inWord (front ++ back)
      = (!inWord && matchesPattern identifierPattern front && endsWord back) := by
  rw [startsIdentifier, matchesPattern_front hlength, ← hlength, List.drop_left]

theorem startsIdentifier_of_head {c : Char} (h : isHex c = false) :
    startsIdentifier inWord (c :: cs) = false := by
  obtain ⟨places, hplaces⟩ := identifierPattern_eq
  rw [startsIdentifier, hplaces, List.cons_append, matchesPattern, h]
  simp

theorem startsIdentifier_of_second {c d : Char} (h : isHex d = false) :
    startsIdentifier inWord (c :: d :: cs) = false := by
  obtain ⟨places, hplaces⟩ := identifierPattern_eq
  rw [startsIdentifier, hplaces, List.cons_append, List.cons_append, matchesPattern, matchesPattern, h]
  simp

theorem startsIdentifier_of_endsWord (h : endsWord cs = true) : startsIdentifier inWord cs = false := by
  cases cs with
  | nil =>
    obtain ⟨places, hplaces⟩ := identifierPattern_eq
    rw [startsIdentifier, hplaces, List.cons_append, matchesPattern, Bool.and_false, Bool.false_and]
  | cons c rest =>
    refine startsIdentifier_of_head (Bool.eq_false_iff.mpr fun hc => ?_)
    simp [endsWord, isWord_of_isHex hc] at h

/-! ## What a replacement leaves -/

/-- A replacement goes through a text from its start. It keeps a character or puts a mark there that
occurs in no identifier, and in the middle of a word it keeps it in any case. -/
structure IsReplacement (replace : Bool → List Char → List Char) : Prop where
  nil : ∀ inWord, replace inWord [] = []
  cons : ∀ inWord c rest, replace inWord (c :: rest) = c :: replace (isWord c) rest
    ∨ ∃ mark more, replace inWord (c :: rest) = mark :: more
      ∧ ∀ place ∈ identifierPattern, place mark = false
  head : ∀ cs, (replace true cs).head? = cs.head?

namespace IsReplacement
variable {replace : Bool → List Char → List Char}

/-- Where the places of an identifier are filled after a replacement, they were so before. -/
theorem exists_front (h : IsReplacement replace) (hps : ∀ p ∈ ps, p ∈ identifierPattern)
    (hmatches : matchesPattern ps (replace inWord cs) = true) :
    ∃ front back, cs = front ++ back ∧ Fills ps front
      ∧ replace inWord cs = front ++ replace (wordAfter inWord front) back := by
  induction ps generalizing inWord cs with
  | nil => exact ⟨[], cs, rfl, ⟨rfl, rfl⟩, rfl⟩
  | cons p ps ih =>
    cases cs with
    | nil =>
      rw [h.nil] at hmatches
      cases hmatches
    | cons c rest =>
      obtain hkept | ⟨mark, more, hmark, hno⟩ := h.cons inWord c rest
      · rw [hkept, matchesPattern, Bool.and_eq_true] at hmatches
        obtain ⟨front, back, rfl, hfront, hrest⟩ :=
          ih (fun q hq => hps q (List.mem_cons_of_mem p hq)) hmatches.2
        exact ⟨c :: front, back, rfl, (fills_place hmatches.1).append hfront,
          hkept.trans (congrArg (c :: ·) hrest)⟩
      · rw [hmark, matchesPattern, hno p (hps p List.mem_cons_self)] at hmatches
        cases hmatches

/-- Where an identifier starts after a replacement, one started before. -/
theorem startsIdentifier (h : IsReplacement replace)
    (hstarts : startsIdentifier inWord (replace inWord cs) = true) :
    Http.startsIdentifier inWord cs = true := by
  have hmatches : matchesPattern identifierPattern (replace inWord cs) = true := by
    rw [Http.startsIdentifier, Bool.and_eq_true, Bool.and_eq_true] at hstarts
    exact hstarts.1.2
  obtain ⟨front, back, rfl, hfront, hrest⟩ := h.exists_front (fun _ hp => hp) hmatches
  rw [hrest, hfront.wordAfter, startsIdentifier_append hfront.1] at hstarts
  rw [startsIdentifier_append hfront.1, ← hstarts, endsWord, endsWord, h.head]

end IsReplacement

theorem no_place_of_mark : ∀ place ∈ identifierPattern, place '\x7b' = false ∧ place '/' = false := by
  decide

theorem isReplacement_identifiers : IsReplacement (replaceIdentifiers 0) where
  nil _ := rfl
  cons inWord c rest := by
    rw [replaceIdentifiers]
    split
    · exact .inr ⟨'\x7b', _, rfl, fun place h => (no_place_of_mark place h).1⟩
    · exact .inl rfl
  head cs := by cases cs <;> rfl

theorem replaceNumbers_skip (skip : Nat) (cs : List Char) :
    replaceNumbers skip cs = replaceNumbers 0 (cs.drop skip) := by
  induction skip generalizing cs with
  | zero => rfl
  | succ skip ih =>
    cases cs with
    | nil => rfl
    | cons c rest => exact ih rest

/-- A number after a slash is replaced with all of its digits, and no word goes on after them. -/
theorem replaceNumbers_slash {rest : List Char} (h : numberLength rest ≠ 0) :
    replaceNumbers 0 ('/' :: rest)
        = '/' :: (marker ++ replaceNumbers 0 (rest.drop (numberLength rest)))
      ∧ endsWord (rest.drop (numberLength rest)) = true := by
  constructor
  · rw [replaceNumbers, if_pos rfl, if_neg h, replaceNumbers_skip]
    rfl
  · unfold numberLength at h ⊢
    dsimp only at h ⊢
    split at h
    · next hends => rwa [if_pos hends]
    · exact absurd rfl h

theorem replaceNumbers_head (cs : List Char) : (replaceNumbers 0 cs).head? = cs.head? := by
  cases cs with
  | nil => rfl
  | cons c rest =>
    by_cases hc : c = '/' → numberLength rest = 0
    · rw [replaceNumbers_cons hc]
      rfl
    · obtain ⟨rfl, hsize⟩ := Classical.not_imp.mp hc
      rw [(replaceNumbers_slash hsize).1]
      rfl

theorem isReplacement_numbers : IsReplacement fun _ => replaceNumbers 0 where
  nil _ := rfl
  cons inWord c rest := by
    by_cases hc : c = '/'
    · obtain ⟨more, hmore⟩ := List.head?_eq_some_iff.mp (replaceNumbers_head (c :: rest))
      exact .inr ⟨c, more, hmore, fun place h => hc ▸ (no_place_of_mark place h).2⟩
    · exact .inl (replaceNumbers_cons fun h => absurd h hc)
  head := replaceNumbers_head

/-! ## Identifiers are replaced -/

/-- Both replacements go on after what they replaced: what is shown of a text may be used of all that is
left of it after some characters. -/
theorem drop_induction {P : List Char → Prop} (nil : P [])
    (cons : ∀ c rest, (∀ n, P (rest.drop n)) → P (c :: rest)) (cs : List Char) : P cs := by
  have all : ∀ n, P (cs.drop n) := by
    induction cs with
    | nil => simpa using nil
    | cons c rest ih =>
      intro n
      cases n with
      | zero => exact cons c rest ih
      | succ n => exact ih n
  exact all 0

namespace LacksIdentifiers

theorem starts (h : LacksIdentifiers inWord cs) : startsIdentifier inWord cs = false := by
  cases cs with
  | nil => exact startsIdentifier_of_endsWord rfl
  | cons c rest => exact h.1

theorem of_append (h : LacksIdentifiers inWord (front ++ back)) :
    LacksIdentifiers (wordAfter inWord front) back := by
  induction front generalizing inWord with
  | nil => exact h
  | cons c front ih => exact ih h.2

theorem of_endsWord {other : Bool} (h : LacksIdentifiers other cs) (hends : endsWord cs = true) :
    LacksIdentifiers inWord cs := by
  cases cs with
  | nil => trivial
  | cons c rest => exact ⟨startsIdentifier_of_endsWord hends, h.2⟩

theorem marked (h : LacksIdentifiers false cs) : LacksIdentifiers inWord (marker ++ cs) :=
  ⟨startsIdentifier_of_head (by decide), startsIdentifier_of_head (by decide),
    startsIdentifier_of_second (by decide), startsIdentifier_of_head (by decide), h⟩

end LacksIdentifiers

theorem replaceIdentifiers_skip (skip : Nat) (inWord : Bool) (cs : List Char) :
    replaceIdentifiers skip inWord cs
      = replaceIdentifiers 0 (wordAfter inWord (cs.take skip)) (cs.drop skip) := by
  induction skip generalizing inWord cs with
  | zero => rfl
  | succ skip ih =>
    cases cs with
    | nil => rfl
    | cons c rest => exact ih (isWord c) rest

theorem replaceIdentifiers_of_endsWord (hends : endsWord cs = true) (other : Bool) :
    replaceIdentifiers 0 inWord cs = replaceIdentifiers 0 other cs := by
  cases cs with
  | nil => rfl
  | cons c rest =>
    rw [replaceIdentifiers, replaceIdentifiers, startsIdentifier_of_endsWord hends,
      startsIdentifier_of_endsWord hends]

/-- No identifier is left where identifiers were replaced. -/
theorem lacksIdentifiers_replaceIdentifiers (inWord : Bool) (cs : List Char) :
    LacksIdentifiers inWord (replaceIdentifiers 0 inWord cs) := by
  induction cs using drop_induction generalizing inWord with
  | nil => trivial
  | cons c rest ih =>
    cases hstarts : startsIdentifier inWord (c :: rest) with
    | true =>
      have hends : endsWord (rest.drop (identifierPattern.length - 1)) = true := by
        rw [startsIdentifier, Bool.and_eq_true] at hstarts
        exact hstarts.2
      rw [replaceIdentifiers, if_pos hstarts, replaceIdentifiers_skip,
        replaceIdentifiers_of_endsWord hends false]
      exact (ih _ _).marked
    | false =>
      have hkept := mt isReplacement_identifiers.startsIdentifier (Bool.eq_false_iff.mp hstarts)
      rw [replaceIdentifiers, if_neg (Bool.eq_false_iff.mp hstarts)] at hkept ⊢
      exact ⟨Bool.eq_false_iff.mpr hkept, ih 0 _⟩

/-! ## Numbers are replaced -/

theorem numberLength_append (hfront : ∀ c ∈ front, isDecimal c = true)
    (hback : ∀ c ∈ back.head?, isDecimal c = false) :
    numberLength (front ++ back) = if endsWord back then front.length else 0 := by
  have hdigits : (front ++ back).takeWhile isDecimal = front := by
    rw [List.takeWhile_append_of_pos hfront]
    cases back with
    | nil => simp
    | cons c rest => simp [hback c rfl]
  rw [numberLength, hdigits, List.drop_left]

theorem replaceNumbers_append (h : '/' ∉ front) :
    replaceNumbers 0 (front ++ back) = front ++ replaceNumbers 0 back := by
  induction front with
  | nil => rfl
  | cons c front ih =>
    obtain ⟨hc, hfront⟩ := not_or.mp (mt List.mem_cons.mpr h)
    rw [List.cons_append, replaceNumbers_cons fun h => absurd h.symm hc, ih hfront, List.cons_append]

/-- Whether a number is at the front of a text is not changed by replacing others. -/
theorem numberLength_replaceNumbers (cs : List Char) :
    numberLength (replaceNumbers 0 cs) = numberLength cs := by
  have hfront : ∀ c ∈ cs.takeWhile isDecimal, isDecimal c = true :=
    List.all_eq_true.mp List.all_takeWhile
  have hslash : '/' ∉ cs.takeWhile isDecimal := fun h => absurd (hfront '/' h) (by decide)
  have hback : ∀ c ∈ (cs.dropWhile isDecimal).head?, isDecimal c = false := by
    intro c hc
    have hstop := List.head?_dropWhile_not isDecimal cs
    rw [hc] at hstop
    exact hstop
  rw [← List.takeWhile_append_dropWhile (p := isDecimal) (l := cs), replaceNumbers_append hslash,
    numberLength_append hfront hback, numberLength_append hfront, endsWord, replaceNumbers_head]
  · rfl
  · rwa [replaceNumbers_head]

/-- No number is left where numbers were replaced. -/
theorem lacksNumbers_replaceNumbers (cs : List Char) : LacksNumbers (replaceNumbers 0 cs) := by
  induction cs using drop_induction with
  | nil => trivial
  | cons c rest ih =>
    by_cases hc : c = '/' → numberLength rest = 0
    · rw [replaceNumbers_cons hc]
      exact ⟨fun h => (numberLength_replaceNumbers rest).trans (hc h), ih 0⟩
    · obtain ⟨rfl, hsize⟩ := Classical.not_imp.mp hc
      rw [(replaceNumbers_slash hsize).1]
      exact ⟨fun _ => rfl, nofun, nofun, nofun, nofun, ih _⟩

/-- Replacing numbers brings no identifier about. -/
theorem LacksIdentifiers.replaceNumbers (h : LacksIdentifiers inWord cs) :
    LacksIdentifiers inWord (replaceNumbers 0 cs) := by
  induction cs using drop_induction generalizing inWord with
  | nil => trivial
  | cons c rest ih =>
    by_cases hc : c = '/' → numberLength rest = 0
    · have hkept := mt isReplacement_numbers.startsIdentifier (Bool.eq_false_iff.mp h.1)
      rw [replaceNumbers_cons hc] at hkept ⊢
      exact ⟨Bool.eq_false_iff.mpr hkept, ih 0 h.2⟩
    · obtain ⟨rfl, hsize⟩ := Classical.not_imp.mp hc
      obtain ⟨hreplaced, hends⟩ := replaceNumbers_slash hsize
      have hrest := h.2
      rw [← List.take_append_drop (numberLength rest) rest] at hrest
      have hlacks : LacksIdentifiers false (rest.drop (numberLength rest)) :=
        hrest.of_append.of_endsWord hends
      rw [hreplaced]
      exact ⟨startsIdentifier_of_head (by decide), (ih _ hlacks).marked⟩

/-! ## Segments -/

/-- A segment of digits that follows a slash would be replaced. -/
theorem numberLength_of_segment {rest : List Char}
    (h : IsNumeral (String.ofList (rest.takeWhile fun c => !decide (c = '/')))) :
    numberLength rest ≠ 0 := by
  let segment := rest.takeWhile fun c => !decide (c = '/')
  let back := rest.dropWhile fun c => !decide (c = '/')
  obtain ⟨hne, hdigits⟩ : segment ≠ [] ∧ ∀ c ∈ segment, isDecimal c = true := by
    rwa [IsNumeral, String.toList_ofList] at h
  have hslash : ∀ c ∈ back.head?, c = '/' := by
    intro c hc
    have hstop := List.head?_dropWhile_not (fun c => !decide (c = '/')) rest
    rw [show (rest.dropWhile _).head? = some c from hc] at hstop
    simpa using hstop
  have hends : endsWord back = true :=
    endsWord_iff.mpr fun c hc => (hslash c hc).symm ▸ (by decide)
  have hlength : numberLength (segment ++ back) = segment.length := by
    rw [numberLength_append hdigits fun c hc => (hslash c hc).symm ▸ (by decide), hends]
    rfl
  rw [show segment ++ back = rest from List.takeWhile_append_dropWhile] at hlength
  rw [hlength]
  exact mt List.length_eq_zero_iff.mp hne

/-- No segment after the first is a number. -/
theorem LacksNumbers.not_numeral (h : LacksNumbers cs) :
    ∀ segment ∈ (splitAll (· = '/') cs).tail, ¬ IsNumeral (String.ofList segment) := by
  induction cs with
  | nil => exact nofun
  | cons c rest ih =>
    obtain ⟨parts, hparts⟩ := splitAll_eq (· = '/') rest
    have htail := ih h.2
    rw [hparts, List.tail_cons] at htail
    by_cases hc : c = '/'
    · have hsplit : (splitAll (· = '/') (c :: rest)).tail = splitAll (· = '/') rest := by
        simp [splitAll, hc]
      rw [hsplit, hparts]
      refine List.forall_mem_cons.mpr ⟨fun hnumeral => ?_, htail⟩
      exact numberLength_of_segment hnumeral (h.1 hc)
    · have hsplit : (splitAll (· = '/') (c :: rest)).tail = parts := by
        simp [splitAll, hc, hparts]
      rwa [hsplit]

/-! ## Labels -/

theorem toList_sanitize (path : String) : (sanitize path).toList
    = replaceNumbers 0 (replaceIdentifiers 0 false path.toList) := by
  rw [sanitize, String.toList_ofList]

theorem sanitize_lacks (path : String) : LacksIdentifiers false (sanitize path).toList
    ∧ LacksNumbers (sanitize path).toList := by
  rw [toList_sanitize]
  exact ⟨(lacksIdentifiers_replaceIdentifiers false _).replaceNumbers, lacksNumbers_replaceNumbers _⟩

theorem sanitize_slash {path : String} (h : path.toList.head? = some '/') :
    ∃ rest, (sanitize path).toList = '/' :: rest := by
  obtain ⟨rest, hrest⟩ := List.head?_eq_some_iff.mp h
  refine List.head?_eq_some_iff.mp ?_
  rw [toList_sanitize, replaceNumbers_head, hrest, replaceIdentifiers,
    startsIdentifier_of_head (by decide), if_neg Bool.false_ne_true]
  rfl

/-- The label of a path has no segment of decimal digits and no identifier that stands alone, and it is
its own label. -/
theorem sanitize_isLabel {path : String} (h : path.toList.head? = some '/') :
    (∀ segment ∈ splitAll (· = '/') (sanitize path).toList, ¬ IsNumeral (String.ofList segment))
      ∧ (∀ before name after, (sanitize path).toList = before ++ name ++ after → IsIdentifier name →
        ¬ StandsAlone before after)
      ∧ sanitize (sanitize path) = sanitize path := by
  obtain ⟨hidentifiers, hnumbers⟩ := sanitize_lacks path
  refine ⟨?_, fun before name after heq hname halone => ?_, ?_⟩
  · obtain ⟨rest, hrest⟩ := sanitize_slash h
    have hsplit : splitAll (· = '/') ('/' :: rest) = [] :: splitAll (· = '/') rest := rfl
    have htail := hnumbers.not_numeral
    rw [hrest, hsplit] at htail ⊢
    exact List.forall_mem_cons.mpr ⟨fun hnumeral => hnumeral.1 rfl, htail⟩
  · rw [heq, List.append_assoc] at hidentifiers
    have hstarts := hidentifiers.of_append.starts
    rw [halone.wordAfter, startsIdentifier_append hname.fills.1, hname.fills.2,
      endsWord_iff.mpr halone.2] at hstarts
    cases hstarts
  · rw [sanitize, replaceIdentifiers_of_lacks hidentifiers, replaceNumbers_of_lacks hnumbers,
      String.ofList_toList]

/-- A path with digits of two scripts, with two identifiers next to one another, and with numbers that
are no segments. -/
def dealPath : String :=
  "/deals/42/\u0664\u0662/0aE1b2c3-0001-4abc-9def-0123456789AB-0ae1b2c3-0001-1abc-bdef-0123456789ab/v2/7.5"

theorem sanitize_isLabel_deal :
    sanitize dealPath = "/deals/\x7bid\x7d/\x7bid\x7d/\x7bid\x7d-\x7bid\x7d/v2/\x7bid\x7d.5"
      ∧ (∀ segment ∈ splitAll (· = '/') (sanitize dealPath).toList,
        ¬ IsNumeral (String.ofList segment))
      ∧ (∀ before name after, (sanitize dealPath).toList = before ++ name ++ after →
        IsIdentifier name → ¬ StandsAlone before after)
      ∧ sanitize (sanitize dealPath) = sanitize dealPath :=
  ⟨by decide +kernel, sanitize_isLabel (by decide +kernel)⟩

end Http

end RecordFlow
