/-!
# Powers of two and ten

The powers on which the binary and the decimal forms of numbers rest.
-/

namespace InfraSmells

/-- The `n`-th power of two. -/
def twoPow (n : Nat) : Nat :=
  Nat.pow 2 n

/-- The `n`-th power of ten. -/
def tenPow (n : Nat) : Nat :=
  Nat.pow 10 n

end InfraSmells
