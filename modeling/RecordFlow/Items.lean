/-! # Items of lists

Rows and names are put in order by a test that says which of two may come first; what the test does
not tell apart keeps its order. A position in a list counts from zero; a negative one counts from the
end.
-/
namespace RecordFlow
variable {α : Type}

/-! ## Sorting -/

/-- Puts an item in front of the first one that it may come before. -/
def insertSorted (le : α → α → Bool) (a : α) : List α → List α
  | [] => [a]
  | b :: rest => if le a b then a :: b :: rest else b :: insertSorted le a rest

def sorted (le : α → α → Bool) : List α → List α
  | [] => []
  | a :: rest => insertSorted le a (sorted le rest)

/-! ## Positions -/

def itemAt? (items : List α) (position : Int) : Option α :=
  let position := if position < 0 then position + items.length else position
  if position < 0 then none else items[position.toNat]?

theorem mem_of_itemAt? {items : List α} {position : Int} {item : α}
    (h : itemAt? items position = some item) : item ∈ items := by
  rw [itemAt?, Option.ite_none_left_eq_some] at h
  exact List.mem_of_getElem? h.2

example : itemAt? [1, 2, 3] (-1) = some 3 ∧ itemAt? [1, 2, 3] (-4) = none := by decide

end RecordFlow
