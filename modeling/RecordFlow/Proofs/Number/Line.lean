import RecordFlow.Number.Double

/-! # Places on the line of numbers

Two points are compared in a unit that both are whole multiples of. Any smaller unit does as well,
so several points can be compared in one. Hence what is equal to a place lies on the same side of
every other one, and the places that are not missing are in order.
-/
namespace RecordFlow.Extended
variable {m e n f unit : Int}

theorem inUnits_finer {unit' : Int} (h : unit' ≤ unit) (he : unit ≤ e) :
    inUnits m e unit' = inUnits m e unit * Int.pow 2 (unit - unit').toNat := by
  have hexponent : (e - unit').toNat = (e - unit).toNat + (unit - unit').toNat := by omega
  have hpow : Int.pow 2 (e - unit').toNat
      = Int.pow 2 (e - unit).toNat * Int.pow 2 (unit - unit').toNat :=
    hexponent ▸ Int.pow_add 2 (e - unit).toNat (unit - unit').toNat
  rw [inUnits, inUnits, hpow, Int.mul_assoc]

theorem pow_two_pos (n : Nat) : 0 < Int.pow 2 n := Int.pow_pos (by decide)

theorem pointLt_iff (he : unit ≤ e) (hf : unit ≤ f) :
    pointLt m e n f = true ↔ inUnits m e unit < inUnits n f unit := by
  have hunit : unit ≤ min e f := Int.le_min.mpr ⟨he, hf⟩
  rw [inUnits_finer hunit (Int.min_le_left e f), inUnits_finer hunit (Int.min_le_right e f),
    Int.mul_lt_mul_right (pow_two_pos _)]
  simp only [pointLt, decide_eq_true_eq]

theorem pointEq_iff (he : unit ≤ e) (hf : unit ≤ f) :
    pointEq m e n f = true ↔ inUnits m e unit = inUnits n f unit := by
  have hunit : unit ≤ min e f := Int.le_min.mpr ⟨he, hf⟩
  rw [inUnits_finer hunit (Int.min_le_left e f), inUnits_finer hunit (Int.min_le_right e f),
    Int.mul_eq_mul_right_iff (Int.ne_of_gt (pow_two_pos _))]
  simp only [pointEq, beq_iff_eq]

/-- Equal places lie on the same side of every other one. -/
theorem alike_of_eq {x y : Extended} (h : x.eq y = true) (z : Extended) :
    x.eq z = y.eq z ∧ x.lt z = y.lt z ∧ z.lt x = z.lt y := by
  cases x with
  | unplaced => cases h
  | below =>
    cases y with
    | below => exact ⟨rfl, rfl, rfl⟩
    | unplaced | point | above => cases h
  | above =>
    cases y with
    | above => exact ⟨rfl, rfl, rfl⟩
    | unplaced | below | point => cases h
  | point m e =>
    cases y with
    | unplaced | below | above => cases h
    | point n f =>
      cases z with
      | unplaced | below | above => exact ⟨rfl, rfl, rfl⟩
      | point k g =>
        -- All three are compared in the smallest of their units.
        let unit := min (min e f) g
        have he : unit ≤ e := by omega
        have hf : unit ≤ f := by omega
        have hg : unit ≤ g := by omega
        have hsame : inUnits m e unit = inUnits n f unit := (pointEq_iff he hf).mp h
        refine ⟨Bool.eq_iff_iff.mpr ?_, Bool.eq_iff_iff.mpr ?_, Bool.eq_iff_iff.mpr ?_⟩
        · rw [Extended.eq, Extended.eq, pointEq_iff he hg, pointEq_iff hf hg, hsame]
        · rw [lt, lt, pointLt_iff he hg, pointLt_iff hf hg, hsame]
        · rw [lt, lt, pointLt_iff hg he, pointLt_iff hg hf, hsame]

theorem eq_comm (x y : Extended) : x.eq y = y.eq x := by
  have swap (m e n f : Int) : pointEq m e n f = pointEq n f m e := by
    rw [pointEq, pointEq, Int.min_comm, Bool.beq_comm]
  cases x with
  | unplaced | below | above => cases y <;> rfl
  | point m e =>
    cases y with
    | point n f => exact swap m e n f
    | unplaced | below | above => rfl

theorem lt_irrefl (x : Extended) : x.lt x = false := by
  cases x with
  | unplaced | below | above => rfl
  | point m e =>
    have hpoint : ¬ pointLt m e m e = true := by
      rw [pointLt_iff (Int.le_refl e) (Int.le_refl e)]
      exact Int.lt_irrefl _
    exact Bool.not_eq_true _ ▸ hpoint

theorem lt_trans {x y z : Extended} (hxy : x.lt y = true) (hyz : y.lt z = true) :
    x.lt z = true := by
  cases x with
  | unplaced | above => cases hxy
  | below =>
    cases z with
    | point | above => rfl
    | unplaced | below => cases y <;> cases hyz
  | point m e =>
    cases z with
    | above => rfl
    | unplaced | below => cases y <;> cases hyz
    | point k g =>
      cases y with
      | unplaced | below => cases hxy
      | above => cases hyz
      | point n f =>
        let unit := min (min e f) g
        have he : unit ≤ e := by omega
        have hf : unit ≤ f := by omega
        have hg : unit ≤ g := by omega
        exact (pointLt_iff he hg).mpr
          (Int.lt_trans ((pointLt_iff he hf).mp hxy) ((pointLt_iff hf hg).mp hyz))

end RecordFlow.Extended
