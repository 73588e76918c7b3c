/-!
# Fractions, rounded

Quantities are printed from numbers of double precision. Those that occur are nonnegative
and neither very large nor very small, so a double is the fraction with 53 significant bits
that is nearest the exact result, and a decimal is the nearest multiple of a power of ten.
Both roundings take the even neighbour of a tie.
-/

namespace BeatPatch.Text

/-- The natural number nearest `n / d`, the even one of two that are equally near. -/
def nearest (n d : Nat) : Nat :=
  let below := n / d
  let excess := 2 * (n % d)
  if excess < d then below
  else if d < excess then below + 1
  else if below % 2 = 0 then below
  else below + 1

/-- A nonnegative fraction. -/
structure Fraction where
  numerator : Nat
  denominator : Nat
deriving DecidableEq, Repr

namespace Fraction

/-- The exponent of the greatest power of two that is not above the fraction. -/
def exponent (x : Fraction) : Int :=
  let e : Int := x.numerator.log2 - x.denominator.log2
  if x.denominator <<< e.toNat ≤ x.numerator <<< (-e).toNat then e else e - 1

/-- The nearest fraction with 53 significant bits. -/
def toDouble (x : Fraction) : Fraction :=
  if x.numerator = 0 then ⟨0, 1⟩
  else
    let unit := x.exponent - 52
    let significand := nearest (x.numerator <<< (-unit).toNat) (x.denominator <<< unit.toNat)
    ⟨significand <<< unit.toNat, 1 <<< (-unit).toNat⟩

/-- The double nearest a natural number. -/
def ofNat (n : Nat) : Fraction := toDouble ⟨n, 1⟩

/-- The quotient of two doubles as a double. -/
def div (x y : Fraction) : Fraction :=
  toDouble ⟨x.numerator * y.denominator, x.denominator * y.numerator⟩

/-- The product of two doubles as a double. -/
def mul (x y : Fraction) : Fraction :=
  toDouble ⟨x.numerator * y.numerator, x.denominator * y.denominator⟩

/-- The fraction is at least `n`. -/
def isAtLeast (x : Fraction) (n : Nat) : Bool := n * x.denominator ≤ x.numerator

/-- The part after the point is at most `2 ^ -52`. -/
def isWhole (x : Fraction) : Bool := (x.numerator % x.denominator) <<< 52 ≤ x.denominator

/-- The fraction in decimals with `places` digits after the point. -/
def decimal (places : Nat) (x : Fraction) : String :=
  let one := Nat.pow 10 places
  let scaled := nearest (x.numerator * one) x.denominator
  if places = 0 then toString scaled
  else
    let digits := toString (scaled % one)
    toString (scaled / one) ++ "." ++ "".pushn '0' (places - digits.length) ++ digits

end Fraction

end BeatPatch.Text
