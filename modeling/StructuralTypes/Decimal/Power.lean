/-!
Powers of the two bases that number formats use.
-/

namespace StructuralTypes.Decimal

def twoTo (n : Nat) : Nat := Nat.pow 2 n

def tenTo (n : Nat) : Nat := Nat.pow 10 n

end StructuralTypes.Decimal
