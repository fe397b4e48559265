/-! # Arithmetic of whole numbers

Lists of whole numbers are summed, and whole numbers raised to powers, as in the core library. Other
libraries have instances of their own for these; the ones here go first, so that a definition means
the same beside any of them. -/

namespace Salvo

scoped instance (priority := high) zeroNat : Zero Nat := Zero.ofOfNat0

scoped instance (priority := high) zeroInt : Zero Int := Zero.ofOfNat0

-- The literals of `2 ^ 64` leave open what kind of exponent is meant.
@[default_instance 20000]
scoped instance (priority := high) powNat : Pow Nat Nat := instPowNat

scoped instance (priority := high) powInt : Pow Int Nat := instPowNat

end Salvo
