import Pipework.Decimal.Double

/-!
# Time

The clock counts seconds in binary64. A point in time, or a span, is kept as a whole number of units of
`2 ^ (-1074)` seconds, of which every such number is made; each sum and each difference is rounded to 53
binary digits. The order of times is the order of their units.
-/

namespace Pipework

/-- A point in time, or a span. -/
structure Time where
  units : Int
deriving DecidableEq, Repr, Inhabited

namespace Time

instance : Zero Time := ⟨⟨0⟩⟩

instance : Add Time := ⟨fun s t => ⟨Decimal.roundUnits (s.units + t.units)⟩⟩

instance : Sub Time := ⟨fun s t => ⟨Decimal.roundUnits (s.units - t.units)⟩⟩

instance : LE Time := ⟨fun s t => s.units ≤ t.units⟩

instance : LT Time := ⟨fun s t => s.units < t.units⟩

instance (s t : Time) : Decidable (s ≤ t) := inferInstanceAs (Decidable (s.units ≤ t.units))

instance (s t : Time) : Decidable (s < t) := inferInstanceAs (Decidable (s.units < t.units))

instance : Min Time := ⟨fun s t => if s ≤ t then s else t⟩

instance : Max Time := ⟨fun s t => if s ≤ t then t else s⟩

/-- The span nearest to `mantissa * 10 ^ (-places)` seconds. -/
def ofDecimal (mantissa : Int) (places : Nat) : Time :=
  ⟨mantissa.sign * (Double.ofScientific false mantissa.natAbs (-places)).units⟩

/-- A span of whole seconds. -/
def seconds (n : Nat) : Time := ofDecimal n 0

/-- A span in seconds, as the text of a binary64 number. -/
def secondsText (t : Time) : Text := (Double.ofUnits (t.units < 0) t.units.natAbs).text

/-- A span in whole milliseconds: the product with a thousand is rounded like any other number, then to
the nearest whole one, where a half goes to the even neighbour. -/
def milliseconds (t : Time) : Int :=
  t.units.sign
    * (Decimal.nearestEven (Decimal.roundQuotient (t.units.natAbs * 1000) 1) Decimal.unitsOfOne : Nat)

end Time

end Pipework
