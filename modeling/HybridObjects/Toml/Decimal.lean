/-!
# HybridObjects.Toml.Decimal

Decimal numbers without a sign, and which of them are too large for a double. The largest double is
`(2 ^ 53 - 1) * 2 ^ 971`; numbers from the middle between it and `2 ^ 1024` on are nearest to
infinity.
-/

namespace HybridObjects

/-- The number `digits * 10 ^ exponent`, with the digits as they were written. -/
structure Decimal where
  digits : List Char
  exponent : Int

namespace Decimal

/-- The number of some decimal digits. -/
def value (digits : List Char) : Nat :=
  digits.foldl (fun n c => n * 10 + (c.toNat - 48)) 0

/-- The least number that rounds to infinity. -/
def infinityBound : Nat :=
  Nat.pow 2 1024 - Nat.pow 2 970

/-- Whether the nearest double is infinite. The place of the first digit other than zero decides,
unless it is that of the bound itself. -/
def isInfinite (d : Decimal) : Bool :=
  let digits := d.digits.dropWhile (· == '0')
  let places : Int := digits.length + d.exponent
  if digits.isEmpty || places < 309 then false
  else if 309 < places then true
  else if 0 ≤ d.exponent then infinityBound ≤ value digits * Nat.pow 10 d.exponent.toNat
  else infinityBound * Nat.pow 10 (-d.exponent).toNat ≤ value digits

end Decimal
end HybridObjects
