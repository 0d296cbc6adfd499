/-!
# Powers of ten

What a decimal is scaled by.
-/

namespace DocTable.Decimal
set_option autoImplicit false

/-- One and `n` zeros. -/
def power (n : Nat) : Nat := Nat.pow 10 n

end DocTable.Decimal
