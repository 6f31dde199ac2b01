/-!
# Fewest digits

A binary floating-point value stands for every real number that rounds to it. Among the decimals in
that interval this module finds the one with the fewest digits, and of those the one nearest to the
value, in exact integer arithmetic.

The search goes over decimal grids from coarse to fine. On a grid with a point in the interval, one
of the two neighbours of the value lies in it too, so only those are tested. The first grid with a
hit has the fewest digits, and its point has no final zero, as it would else lie on a coarser grid.

## Main definitions

* `Binary`: a positive value `mantissa * 2 ^ exponent` of a binary format
* `Decimal`: a decimal `coefficient * 10 ^ exponent`
* `Binary.shortest`: the decimal with the fewest digits that rounds to the value
-/
namespace IdlBindings

/-- A positive value of a binary floating-point format. -/
structure Binary where
  mantissa : Nat
  exponent : Int
  /-- The next smaller value is half as far away as the next larger one. -/
  narrowBelow : Bool
deriving DecidableEq, Repr

/-- The number `coefficient * 10 ^ exponent`. -/
structure Decimal where
  coefficient : Nat
  exponent : Int
deriving DecidableEq, Repr

namespace Binary

/-- The finite double with the given bits, without its sign; none for zero. -/
def ofBits (bits : UInt64) : Option Binary :=
  let field := (bits.toNat >>> 52) % 0x800
  let fraction := bits.toNat % 0x10000000000000
  if field = 0 then
    if fraction = 0 then none else some ⟨fraction, -1074, false⟩
  else some ⟨fraction + 0x10000000000000, (field : Int) - 1075, fraction == 0 && field != 1⟩

/-- Multiplies `n` by `base ^ e` where `e` is positive. -/
def scaleUp (n base : Nat) (e : Int) : Nat := n * Nat.pow base e.toNat

/-- The point of the grid with step `10 ^ k` that rounds to the value and is nearest to it, if the
grid has one. A tie goes to the even coefficient, and the ends of the interval count when the
mantissa is even, since a tie between two binary values goes to the even mantissa too. -/
def onGrid (v : Binary) (k : Int) : Option Nat :=
  -- All quantities are multiplied by the same factor, which makes them integers.
  let scale (n : Nat) := scaleUp (scaleUp n 2 (v.exponent - 2)) 10 (-k)
  let step := scaleUp (scaleUp 1 2 (2 - v.exponent)) 10 k
  let value := scale (4 * v.mantissa)
  let low := scale (4 * v.mantissa - if v.narrowBelow then 1 else 2)
  let high := scale (4 * v.mantissa + 2)
  let inside (c : Nat) : Bool :=
    if v.mantissa % 2 = 0 then low ≤ c * step && c * step ≤ high
    else low < c * step && c * step < high
  let below := value / step
  let above := below + 1
  match inside below, inside above with
  | false, false => none
  | true, false => some below
  | false, true => some above
  | true, true =>
    let down := value - below * step
    let up := above * step - value
    if down < up || (down == up && below % 2 == 0) then some below else some above

/-- Tries the grids with steps `10 ^ k`, `10 ^ (k - 1)` and so on, `n` of them. -/
def search (v : Binary) : Nat → Int → Option Decimal
  | 0, _ => none
  | n + 1, k =>
    match v.onGrid k with
    | some c => some ⟨c, k⟩
    | none => v.search n (k - 1)

/-- The shortest decimal of a double. Doubles lie below `10 ^ 309`, and seventeen digits tell any
two of them apart, so the search ends before the grid with step `10 ^ (-345)`. -/
def shortest (v : Binary) : Option Decimal := v.search 655 309

end Binary
end IdlBindings
