/-
  Numbers written with digits.

  * `Radix.digit?` is the value of one digit;
  * `Radix.read?` is the number that a text of digits writes, with 0 for no digit
    at all (`read?_nil`).
-/
import IndentedSass.Text.Basic

namespace IndentedSass.Radix

/-- The value of a digit of a number in a radix up to sixteen.  The digits from
    ten on are letters of either case. -/
def digit? (radix : Nat) (c : Char) : Option Nat :=
  let value : Option Nat :=
    if '0' ≤ c ∧ c ≤ '9' then some (c.toNat - 48)
    else if 'A' ≤ c ∧ c ≤ 'F' then some (c.toNat - 55)
    else if 'a' ≤ c ∧ c ≤ 'f' then some (c.toNat - 87)
    else none
  value.filter (· < radix)

/-- The number that digits write. -/
def read? (radix : Nat) (t : Text) : Option Nat :=
  t.foldlM (fun n c => (digit? radix c).map (radix * n + ·)) 0

@[simp] theorem read?_nil (radix : Nat) : read? radix [] = some 0 := rfl

end IndentedSass.Radix
