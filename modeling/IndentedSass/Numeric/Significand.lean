/-
  Quotients with 53 significant bits.

  Column counts are divided by a tab size and the quotient is rounded to the
  nearest value of 53 significant bits, ties to the even one, before it is
  rounded to a whole number.  Values are held as natural numbers in units of
  `2 ^ -200`, so that every step is exact integer arithmetic; the quotients of
  64-bit numbers never need more than 117 fractional bits.

  * `divEven` is the nearest whole number to a quotient, `keepBits` the nearest
    value of 53 significant bits;
  * `Scaled` is a value in units of `2 ^ -200`; `Scaled.div` and `Scaled.sub`
    round their exact results, `Scaled.round` goes to the nearest whole number,
    a half going up.
-/
namespace IndentedSass

/-- The whole number nearest to `n / d`, the even one when two are as near. -/
def divEven (n d : Nat) : Nat :=
  let q := n / d
  let r := n % d
  if 2 * r < d then q
  else if d < 2 * r then q + 1
  else if q % 2 = 0 then q else q + 1

/-- The value of 53 significant bits nearest to `n / d`, when `n / d` is at
    least `2 ^ 52`; for a smaller quotient, the nearest whole number. -/
def keepBits (n d : Nat) : Nat :=
  let unit := Nat.pow 2 ((n / d).log2 + 1 - 53)
  divEven n (d * unit) * unit

/-- A non-negative value, counted in units of `2 ^ -200`. -/
structure Scaled where
  /-- How many units the value has. -/
  units : Nat
  deriving DecidableEq, Repr

namespace Scaled

/-- The number of units in one. -/
def one : Nat := Nat.pow 2 200

/-- A natural number, rounded to 53 significant bits. -/
def ofNat (n : Nat) : Scaled := ⟨keepBits n 1 * one⟩

/-- The value nearest to one tenth: `3602879701896397 / 2 ^ 55`. -/
def tenth : Scaled := ⟨3602879701896397 * Nat.pow 2 145⟩

/-- The quotient, rounded to 53 significant bits. -/
def div (x y : Scaled) : Scaled := ⟨keepBits (x.units * one) y.units⟩

/-- The difference, rounded to 53 significant bits; zero when `y` is larger. -/
def sub (x y : Scaled) : Scaled := ⟨keepBits (x.units - y.units) 1⟩

/-- The nearest whole number; a half goes up. -/
def round (x : Scaled) : Nat := (x.units + one / 2) / one

end Scaled

end IndentedSass
