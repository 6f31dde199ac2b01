import IdlBindings.Decimal.Shortest

/-!
# Numbers of a JSON text

A number is an integer if it is written as one and fits in 64 bits, and a double otherwise.

A double is read from at most nineteen or twenty leading digits, the ones that fit in 64 bits, and a
power of ten. The digits become a double and are then multiplied or divided by the power. Both steps
round, so the result may differ in the last place from the double nearest to the written number.

## Main definitions

* `Json.Number`: an integer or a double
* `Json.scaled?`: the double for leading digits and a power of ten
* `Json.Number.text`: how a number is written
-/
namespace IdlBindings.Json

/-- A number. Integers range from `-2 ^ 63` to `2 ^ 64 - 1`. -/
inductive Number where
  | integer (n : Int)
  | real (x : Float)
deriving Repr

/-! ## Reading -/

/-- The double next to `10 ^ n`. -/
def powerOfTen (n : Nat) : Float := Float.ofScientific 1 false n

/-- The largest power of ten that is a finite double. -/
def maxPower : Nat := 308

/-- Divides by `10 ^ n`, in steps where the power alone is no finite double. -/
def divideByPower (x : Float) (n : Nat) : Float :=
  if n ≤ maxPower then x / powerOfTen n
  else if x == 0 then x
  else divideByPower (x / powerOfTen maxPower) (n - maxPower)
termination_by n
decreasing_by all_goals simp_all [maxPower]; omega

/-- The double for `digits * 10 ^ exponent`, or none when that is too large for one. -/
def scaled? (digits : Nat) (exponent : Int) : Option Float :=
  let x := Float.ofNat digits
  match exponent with
  | .negSucc n => some (divideByPower x (n + 1))
  | .ofNat n =>
    if x == 0 then some x
    else if n ≤ maxPower then
      let y := x * powerOfTen n
      if y.isInf then none else some y
    else none

/-- The number for digits that fit in 64 bits, written without fraction or exponent. A negative zero
and negative integers below the range are doubles. -/
def Number.ofDigits (negative : Bool) (digits : Nat) : Number :=
  if !negative then .integer digits
  else if digits = 0 || digits > 0x8000000000000000 then .real (-(Float.ofNat digits))
  else .integer (-(digits : Int))

/-! ## Writing -/

/-- Positional notation, with at least one digit on each side of the point, for powers of the first
digit from `-5` to `15`; beyond that, scientific notation with a signed exponent. -/
def layout (d : Decimal) : String :=
  let digits := (toString d.coefficient).toList
  let power := d.exponent + digits.length - 1
  if -5 ≤ power ∧ power < 16 then
    if 0 ≤ d.exponent then
      String.ofList (digits ++ List.replicate d.exponent.toNat '0') ++ ".0"
    else if 0 ≤ power then
      let (whole, fraction) := digits.splitAt (power.toNat + 1)
      String.ofList whole ++ "." ++ String.ofList fraction
    else
      "0." ++ String.ofList (List.replicate (-power - 1).toNat '0' ++ digits)
  else
    let sign := if power < 0 then "e-" else "e+"
    let fraction := match digits.tail with
      | [] => ""
      | tail => "." ++ String.ofList tail
    String.ofList (digits.take 1) ++ fraction ++ sign ++ toString power.natAbs

/-- A finite double with the fewest digits that read back as it. -/
def realText (x : Float) : String :=
  let bits := x.toBits
  let sign := if bits >>> 63 = 1 then "-" else ""
  match (Binary.ofBits bits).bind Binary.shortest with
  | some d => sign ++ layout d
  | none => sign ++ "0.0"

def Number.text : Number → String
  | integer n => toString n
  | real x => realText x

end IdlBindings.Json
