/-! Powers and sums of natural numbers. -/

namespace Columnar

/-- A power with a natural exponent is the one of the number type itself, whatever structure is known of the
type. -/
@[default_instance 20000]
instance (priority := 2000) naturalPower {α : Type} [NatPow α] : Pow α Nat := instPowNat

def total : List Nat → Nat
  | [] => 0
  | n :: rest => n + total rest

end Columnar
