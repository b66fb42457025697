/-!
# Rounding between decimal and binary numbers

A result of arithmetic is rounded to a binary number, and a binary number is written as a decimal that is
rounded to it.
-/

/-!
## Rounding to binary64

Every finite binary64 number is a whole multiple of the least positive one, `2 ^ (-1074)`, which is the
unit of this module. Sums and differences are exact in units, so that one rounding makes a result: to 53
binary digits, to the nearest, and a tie to the even neighbour.
-/

namespace Pipework.Decimal

/-- The binary digits of a significand. -/
def precision : Nat := 53

/-- The units that make one. -/
def unitsOfOne : Nat := Nat.pow 2 1074

/-- The whole number nearest to `num / den`; a half goes to the even one. -/
def nearestEven (num den : Nat) : Nat :=
  let below := num / den
  let twiceRest := 2 * (num % den)
  if twiceRest < den then below else if den < twiceRest then below + 1 else below + below % 2

/-- The number of at most 53 binary digits nearest to `num / den`, in units. -/
def roundQuotient (num den : Nat) : Nat :=
  let shift := (num / den).log2 + 1 - precision
  nearestEven num (den * Nat.pow 2 shift) * Nat.pow 2 shift

/-- A whole number of units to 53 binary digits; the sign makes no difference. -/
def roundUnits (n : Int) : Int := n.sign * (roundQuotient n.natAbs 1 : Nat)

end Pipework.Decimal

/-!
## The shortest decimal of a binary number

A binary floating-point number stands for every real that rounds to it. Among the decimals in that
interval `shortest` takes one with the fewest digits, and of those the nearest. All arithmetic is on
natural numbers.
-/

namespace Pipework.Decimal

/-- A positive number `significand * 2 ^ exponent`, with the reals that round to it. The gap below is
half the gap above where the significand is the least of its binade. -/
structure Binary where
  significand : Nat
  exponent : Int
  narrowBelow : Bool
deriving DecidableEq, Repr

/-- A positive decimal `digits * 10 ^ exponent`. -/
structure Digits where
  digits : Nat
  exponent : Int
deriving DecidableEq, Repr

/-- `n * base ^ e`, or 1 times it where the exponent is negative: the numerator of the product. -/
def scaleUp (base : Nat) (e : Int) (n : Nat) : Nat := n * Nat.pow base e.toNat

/-- A quarter count `q` of units `2 ^ exponent` and the decimal `c * 10 ^ g`, brought to one scale. -/
def compareScaled (x : Binary) (q c : Nat) (g : Int) : Nat × Nat :=
  (scaleUp 2 (x.exponent - 2) (scaleUp 10 (-g) q), scaleUp 10 g (scaleUp 2 (2 - x.exponent) c))

/-- Whether the decimal `c * 10 ^ g` rounds to `x`; the ends belong to an even significand. -/
def rounds (x : Binary) (g : Int) (c : Nat) : Bool :=
  let low := compareScaled x (4 * x.significand - if x.narrowBelow then 1 else 2) c g
  let high := compareScaled x (4 * x.significand + 2) c g
  if x.significand % 2 = 0 then low.1 ≤ low.2 && high.2 ≤ high.1
  else low.1 < low.2 && high.2 < high.1

/-- The neighbours of `x` on the grid of step `10 ^ g` that round to it, the nearer alone if both do;
of two at the same distance the even one. -/
def onGrid (x : Binary) (g : Int) : Option Digits :=
  let num := scaleUp 2 x.exponent (scaleUp 10 (-g) x.significand)
  let den := scaleUp 2 (-x.exponent) (scaleUp 10 g 1)
  let below := num / den
  let twiceRest := 2 * (num % den)
  let lowFits := below != 0 && rounds x g below
  let highFits := rounds x g (below + 1)
  if lowFits && highFits then
    let takeLow := if twiceRest = den then below % 2 = 0 else twiceRest < den
    some ⟨if takeLow then below else below + 1, g⟩
  else if lowFits then some ⟨below, g⟩
  else if highFits then some ⟨below + 1, g⟩
  else none

/-- The coarsest grid with a hit, searched from the step `10 ^ top` downwards. -/
def firstHit (x : Binary) (top : Int) : Nat → Digits
  | 0 => ⟨x.significand, 0⟩
  | steps + 1 =>
    match onGrid x top with
    | some d => d
    | none => firstHit x (top - 1) steps

/-- The decimal with the fewest digits that rounds to `x`. Binary64 needs no step above `10 ^ 309` and
none below `10 ^ (-343)`. -/
def shortest (x : Binary) : Digits := firstHit x 309 660

end Pipework.Decimal
