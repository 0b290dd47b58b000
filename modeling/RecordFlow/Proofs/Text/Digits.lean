import Mathlib.Algebra.Group.Nat.Defs
import RecordFlow.Text.Digit

/-! # What digits write

Digits write a number that is bounded by how many they are. The decimal digits of a number write the
number, with zeros in front of them or without.
-/
namespace RecordFlow.Text

/-- What digits write is bounded by their number. -/
theorem foldl_lt_of_mapM {read : Char → Option Nat} {base : Nat}
    (hread : ∀ c d, read c = some d → d < base) {cs : List Char} {ds : List Nat}
    (h : cs.mapM read = some ds) (n : Nat) :
    ds.foldl (fun n d => n * base + d) n < (n + 1) * base ^ cs.length := by
  induction cs generalizing ds n with
  | nil =>
    obtain rfl : [] = ds := by simpa using h
    simp
  | cons c rest ih =>
    rw [List.mapM_cons] at h
    cases hc : read c with
    | none => simp [hc] at h
    | some d =>
      cases hrest : rest.mapM read with
      | none => simp [hc, hrest] at h
      | some more =>
        obtain rfl : d :: more = ds := by simpa [hc, hrest] using h
        have low : n * base + d + 1 ≤ (n + 1) * base := by
          rw [Nat.succ_mul]
          exact Nat.add_lt_add_left (hread c d hc) (n * base)
        calc more.foldl (fun n d => n * base + d) (n * base + d)
          _ < (n * base + d + 1) * base ^ rest.length := ih hrest (n * base + d)
          _ ≤ (n + 1) * base * base ^ rest.length := Nat.mul_le_mul_right _ low
          _ = (n + 1) * base ^ (c :: rest).length := by
            rw [List.length_cons, Nat.pow_succ', Nat.mul_assoc]

theorem asciiDigit?_digitChar : ∀ d < 10, asciiDigit? (Nat.digitChar d) = some d := by
  decide

theorem asciiDigit?_lt {c : Char} {d : Nat} (h : asciiDigit? c = some d) : d < 10 := by
  unfold asciiDigit? at h
  split at h
  · next hc =>
    have nine : '9'.toNat = '0'.toNat + 9 := rfl
    simp only [Option.some.injEq] at h
    omega
  · cases h

theorem mapM_asciiDigit?_toDigits (n : Nat) :
    ∃ ds, (Nat.toDigits 10 n).mapM asciiDigit? = some ds ∧ ofDigits ds = n := by
  induction n using Nat.strongRecOn with
  | ind n ih =>
    rw [Nat.toDigits_eq_if (by decide)]
    split
    · next hn => exact ⟨[n], by simp [List.mapM_cons, asciiDigit?_digitChar n hn], by simp [ofDigits]⟩
    · next hn =>
      obtain ⟨ds, hread, hvalue⟩ := ih (n / 10) (by omega)
      have last := asciiDigit?_digitChar (n % 10) (Nat.mod_lt n (by decide))
      refine ⟨ds ++ [n % 10], ?_, ?_⟩
      · simp [List.mapM_append, List.mapM_cons, hread, last]
      · unfold ofDigits at hvalue ⊢
        rw [List.foldl_append, hvalue]
        simp only [List.foldl_cons, List.foldl_nil]
        omega

theorem mapM_asciiDigit?_zeros (k : Nat) :
    (List.replicate k '0').mapM asciiDigit? = some (List.replicate k 0) := by
  induction k with
  | zero => rfl
  | succ k ih =>
    have zero : asciiDigit? '0' = some 0 := rfl
    simp [List.replicate_succ, List.mapM_cons, zero, ih]

theorem ofDigits_zeros (k : Nat) (ds : List Nat) :
    ofDigits (List.replicate k 0 ++ ds) = ofDigits ds := by
  induction k with
  | zero => rfl
  | succ k ih => exact ih

/-! ## Numbers in text -/

theorem toDigits_injective {m n : Nat} (h : Nat.toDigits 10 m = Nat.toDigits 10 n) : m = n := by
  obtain ⟨ds, hread, hvalue⟩ := mapM_asciiDigit?_toDigits m
  obtain ⟨ds', hread', hvalue'⟩ := mapM_asciiDigit?_toDigits n
  rw [h, hread'] at hread
  rw [← hvalue, ← hvalue', Option.some.inj hread]

theorem dash_not_mem_toDigits (n : Nat) : '-' ∉ Nat.toDigits 10 n := by
  intro h
  have hdigit := Nat.isDigit_of_mem_toDigits (by decide) (by decide) h
  exact absurd hdigit (by decide)

/-- Different whole numbers are written differently. -/
theorem toString_injective {m n : Int} (h : toString m = toString n) : m = n := by
  have digits (k : Nat) : (toString (Int.ofNat k)).toList = Nat.toDigits 10 k := by simp [Int.repr]
  have signed (k : Nat) : (toString (Int.negSucc k)).toList = '-' :: Nat.toDigits 10 (k + 1) := by
    simp [Int.repr]
  have hlist := congrArg String.toList h
  cases m with
  | ofNat m =>
    cases n with
    | ofNat n =>
      rw [digits, digits] at hlist
      rw [toDigits_injective hlist]
    | negSucc n =>
      rw [digits, signed] at hlist
      exact absurd (hlist ▸ List.mem_cons_self) (dash_not_mem_toDigits m)
  | negSucc m =>
    cases n with
    | ofNat n =>
      rw [digits, signed] at hlist
      exact absurd (hlist ▸ List.mem_cons_self) (dash_not_mem_toDigits n)
    | negSucc n =>
      rw [signed, signed] at hlist
      have hnext := toDigits_injective (List.cons.inj hlist).2
      exact congrArg Int.negSucc (Nat.succ.inj hnext)

/-- A text is told from what follows the first mark that is not in it. -/
theorem append_cons_inj {mark : Char} {cs ds more rest : List Char} (hc : mark ∉ cs) (hd : mark ∉ ds)
    (h : cs ++ mark :: more = ds ++ mark :: rest) : cs = ds ∧ more = rest := by
  induction cs generalizing ds with
  | nil =>
    cases ds with
    | nil => exact ⟨rfl, (List.cons.inj h).2⟩
    | cons d ds => exact absurd (List.cons.inj h).1 fun heq => hd (heq ▸ List.mem_cons_self)
  | cons c cs ih =>
    cases ds with
    | nil => exact absurd (List.cons.inj h).1 fun heq => hc (heq ▸ List.mem_cons_self)
    | cons d ds =>
      obtain ⟨rfl, htail⟩ := List.cons.inj h
      obtain ⟨rfl, hrest⟩ := ih (fun hm => hc (List.mem_cons_of_mem _ hm))
        (fun hm => hd (List.mem_cons_of_mem _ hm)) htail
      exact ⟨rfl, hrest⟩

end RecordFlow.Text
