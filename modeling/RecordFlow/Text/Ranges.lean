/-! # Sets of code points

A set of code points is a list of closed ranges in ascending order.
-/
namespace RecordFlow.Text

abbrev Ranges := List (Nat × Nat)

/-- Ranges ascend, so the search stops at the first range that ends at or after the point. -/
def Ranges.has : Ranges → Nat → Bool
  | [], _ => false
  | (first, last) :: rest, point =>
    if point ≤ last then first ≤ point else Ranges.has rest point

/-- Whether a point is the first of a range or lies an even number of points behind it. -/
def Ranges.hasEveryOther (rs : Ranges) (point : Nat) : Bool :=
  rs.any fun r => r.1 ≤ point && point ≤ r.2 && (point - r.1) % 2 == 0

end RecordFlow.Text
