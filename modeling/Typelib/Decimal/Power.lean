/-!
# Powers of ten
-/

namespace Typelib.Decimal

/-- Ten to the power `n`. -/
def tenTo (n : Nat) : Nat := Nat.pow 10 n

end Typelib.Decimal
