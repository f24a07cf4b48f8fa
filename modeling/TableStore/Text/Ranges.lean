/-!
# Classes of characters given by ranges of code points

* `covers ranges n`   some range of the list holds `n`, both ends counted.
-/

namespace TableStore.Text

/-- some range of the list holds the number -/
def covers (ranges : List (Nat × Nat)) (n : Nat) : Bool :=
  ranges.any fun r => r.1 ≤ n && n ≤ r.2

end TableStore.Text
