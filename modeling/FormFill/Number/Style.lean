import FormFill.Number.Binary64
import FormFill.Number.Shortest

/-! # Number text

A style lists the decisions of one way to write numbers; the digits are always those of the shortest
decimal. `Binary64.text` follows a style: digits in place while the decimal exponent is within the
style's bounds, and otherwise one leading digit, the others after a point, and a signed exponent.
-/

namespace FormFill

/-- The decisions of one way to write numbers. -/
structure NumberStyle where
  tie : TieRule
  /-- The least decimal exponent that is written in place. -/
  lowest : Int
  /-- The greatest decimal exponent that is written in place. -/
  highest : Int
  /-- What follows a whole number that is written in place. -/
  wholeMark : Text
  zero : Text
  negativeZero : Text
  nan : Text
  infinity : Text
  negativeInfinity : Text

namespace DecimalForm

/-- The decimal exponent of the first digit. -/
def scale (d : DecimalForm) : Int := d.exponent + ((Text.ofNat d.coefficient).length - 1 : Nat)

/-- The digits in place, with zeros up to the point, or after it, as needed. -/
def positional (d : DecimalForm) (wholeMark : Text) : Text :=
  let digits := Text.ofNat d.coefficient
  if 0 ≤ d.exponent then digits ++ List.replicate d.exponent.toNat '0' ++ wholeMark
  else if 0 ≤ d.scale then
    let whole := d.scale.toNat + 1
    digits.take whole ++ '.' :: digits.drop whole
  else '0' :: '.' :: (List.replicate (-d.scale - 1).toNat '0' ++ digits)

/-- One digit, the others after a point, and the exponent with its sign. -/
def scientific (d : DecimalForm) : Text :=
  let mantissa : Text :=
    match Text.ofNat d.coefficient with
    | first :: second :: rest => first :: '.' :: second :: rest
    | digits => digits
  mantissa ++ 'e' :: (if 0 ≤ d.scale then '+' else '-') :: Text.ofNat d.scale.natAbs

end DecimalForm

namespace Magnitude

/-- The text of a positive magnitude. -/
def text (style : NumberStyle) (x : Magnitude) : Text :=
  let d := x.shortest style.tie
  if style.lowest ≤ d.scale ∧ d.scale ≤ style.highest then d.positional style.wholeMark
  else d.scientific

end Magnitude

namespace Binary64

/-- The text of a number in a style. -/
def text (style : NumberStyle) : Binary64 → Text
  | .nan => style.nan
  | .infinity negative => if negative then style.negativeInfinity else style.infinity
  | .finite negative magnitude =>
    if magnitude.rank = 0 then if negative then style.negativeZero else style.zero
    else if negative then '-' :: magnitude.text style
    else magnitude.text style

end Binary64

end FormFill
