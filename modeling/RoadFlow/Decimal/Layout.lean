import RoadFlow.Decimal.Shortest

/-!
# Number text

How floating-point numbers are written: in full with the fewest digits, with a fixed number of
places, or with the fewest digits and an exponent outside a middle range.
-/

namespace RoadFlow.Decimal

def zeros (n : Nat) : String := String.ofList (List.replicate n '0')

/-- `text` with blanks in front up to `width`. -/
def padLeft (width : Nat) (text : String) : String :=
  String.ofList (List.replicate (width - text.length) ' ') ++ text

/-- `n` in decimal with zeros in front up to `width`. -/
def zeroPadded (width n : Nat) : String :=
  let digits := toString n
  zeros (width - digits.length) ++ digits

def signed (negative : Bool) (text : String) : String :=
  if negative then "-" ++ text else text

namespace Numeral

/-- The number written out without an exponent. -/
def positional (d : Numeral) : String :=
  let digits := (toString d.digits).toList
  if 0 ≤ d.power then String.ofList digits ++ zeros d.power.toNat
  else
    let places := (-d.power).toNat
    if places < digits.length then
      let whole := digits.length - places
      String.ofList (digits.take whole) ++ "." ++ String.ofList (digits.drop whole)
    else "0." ++ zeros (places - digits.length) ++ String.ofList digits

/-- The number as one digit, the other digits after a point, and an exponent that carries its
sign. -/
def scientific (d : Numeral) : String :=
  let digits := (toString d.digits).toList
  let exponent := d.power + digits.length - 1
  let lead := String.ofList (digits.take 1)
  let rest := if digits.length = 1 then "" else "." ++ String.ofList (digits.drop 1)
  let sign := if exponent < 0 then "-" else "+"
  lead ++ rest ++ "e" ++ sign ++ toString exponent.natAbs

/-- The power of ten just above the number: `d < 10 ^ point` and `10 ^ (point - 1) ≤ d`. -/
def point (d : Numeral) : Int := d.power + (toString d.digits).length

end Numeral

namespace Format

/-- The number with the fewest digits that read back, never with an exponent. -/
def plain (f : Format) (bits : Nat) : String :=
  match f.exact bits with
  | .nan => "NaN"
  | .infinite negative => signed negative "inf"
  | .finite negative 0 _ => signed negative "0"
  | .finite negative mantissa power => signed negative (f.shortest .up mantissa power).positional

/-- The exact value rounded to `places` decimal places, a half going to the even neighbour. -/
def fixed (f : Format) (places : Nat) (bits : Nat) : String :=
  match f.exact bits with
  | .nan => "NaN"
  | .infinite negative => signed negative "inf"
  | .finite negative mantissa power =>
    let scaled := roundHalfEven (mantissa * twoTo power.toNat * tenTo places) (twoTo (-power).toNat)
    let whole := toString (scaled / tenTo places)
    let tail := if places = 0 then "" else "." ++ zeroPadded places (scaled % tenTo places)
    signed negative (whole ++ tail)

/-- The number as a document of settings holds it: the fewest digits, always with a point or an
exponent, and an exponent outside `1e-6 ≤ x < 1e13`. -/
def document (f : Format) (bits : Nat) : String :=
  match f.exact bits with
  | .nan | .infinite _ => "null"
  | .finite negative 0 _ => signed negative "0.0"
  | .finite negative mantissa power =>
    let d := f.shortest .toEven mantissa power
    let text :=
      if -6 < d.point && d.point ≤ 13 then
        if 0 ≤ d.power then d.positional ++ ".0" else d.positional
      else d.scientific
    signed negative text

end Format

end RoadFlow.Decimal
