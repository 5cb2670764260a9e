import SealedLua.Number.Numeral

/-!
# The fewest digits that read back

Of all decimals that read back as a double, the ones with the fewest digits,
and of these the one that is nearest to the double.  For each number of digits
only the two decimals next to the double can be it: if any decimal of that many
digits reads back, one of its two neighbours does.
-/

namespace SealedLua

/-- A decimal `digits * 10 ^ power`. -/
structure Decimal where
  digits : Nat
  power : Int
deriving DecidableEq, Repr

namespace Decimal

def trimmed (d : Decimal) : Decimal :=
  if h : d.digits ≠ 0 ∧ d.digits % 10 = 0 then trimmed ⟨d.digits / 10, d.power + 1⟩ else d
termination_by d.digits
decreasing_by omega

end Decimal

namespace Double

def sufficientDigits : Nat := 17

/-- Whether a decimal reads back as a finite double, signs aside. -/
def isReadFrom (x : Double) (d : Decimal) : Bool :=
  Number.decimalDouble x.negative d.digits d.power == x

/-- The decimals next to `num / den` whose last digit counts `10 ^ power`, the nearer one first. -/
def neighbours (num den : Nat) (power : Int) : List Decimal :=
  let (num, den) := if 0 ≤ power then (num, den * 10 ^ power.toNat)
    else (num * 10 ^ (-power).toNat, den)
  let low := num / den
  let ordered := if roundDiv num den = low then [low, low + 1] else [low + 1, low]
  ordered.map fun digits => ⟨digits, power⟩

/-- Tries `left` more powers, each ten times finer than the one before it. -/
def shortestFrom (x : Double) (num den : Nat) : Nat → Int → Decimal
  | 0, power => (neighbours num den power).headD ⟨0, 0⟩
  | left + 1, power =>
    match (neighbours num den power).find? x.isReadFrom with
    | some d => d
    | none => shortestFrom x num den left (power - 1)

/-- The shortest decimal that reads back as a finite double, without its sign. -/
def shortest (x : Double) : Decimal :=
  if x.isZero then ⟨0, 0⟩
  else
    let (num, den) := x.ratio
    (shortestFrom x num den (sufficientDigits - 1) (log10Ratio num den)).trimmed

end Double
end SealedLua
