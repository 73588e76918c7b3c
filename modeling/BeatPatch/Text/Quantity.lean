import BeatPatch.Text.Fraction

/-!
# Quantities

Sizes are given in decimal units, a whole number without a point and any other with two
places; shares in percent with one.
-/

namespace BeatPatch.Text

/-- The units of sizes, each a thousand times the one before. -/
def sizeUnits : List String := ["kB", "MB", "GB", "TB", "PB", "EB", "ZB", "YB"]

/-- A size in units of `unit`, in the first of the greater ones in which it is below a thousand. -/
def sizeIn (x : Fraction) (unit : String) : List String → String
  | [] => amount
  | greater :: rest =>
    if x.isAtLeast 1000 then sizeIn (x.div (Fraction.ofNat 1000)) greater rest else amount
where
  /-- The size in the unit at hand. -/
  amount : String := x.decimal (if x.isWhole then 0 else 2) ++ " " ++ unit

/-- A number of bytes. -/
def size (bytes : Nat) : String := sizeIn (Fraction.ofNat bytes) "B" sizeUnits

/-- A share of a total. -/
def share (part total : Nat) : String :=
  if total = 0 then "N/A"
  else
    (((Fraction.ofNat part).div (Fraction.ofNat total)).mul (Fraction.ofNat 100)).decimal 1 ++ "%"

/-- The text at the right of a column of this width. -/
def padLeft (width : Nat) (text : String) : String := "".pushn ' ' (width - text.length) ++ text

/-- The text at the left of a column of this width. -/
def padRight (width : Nat) (text : String) : String := text.pushn ' ' (width - text.length)

end BeatPatch.Text
