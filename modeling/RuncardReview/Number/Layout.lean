import RuncardReview.Number.Integer
import RuncardReview.Number.Shortest

/-!
# The text of a double

The digits are the shortest that read back; a `Layout` says how they are set:
up to which magnitude the text is positional, whether a whole number keeps a
`.0`, and which of two equally near decimals is taken.
-/

namespace RuncardReview
namespace Number

/-- How the shortest digits of a double are set. -/
structure Layout where
  /-- The exponents of the leading digit for which no exponent is written;
  `none` means all of them. -/
  positional : Option (Int × Int)
  /-- Whether a whole number is written with `.0`. -/
  keepPoint : Bool
  /-- Whether a positive exponent is written with its sign. -/
  plusSign : Bool
  tie : Tie

/-- The digits with the point set where it belongs, zeros filled in. -/
def positionalText (keepPoint : Bool) (ds : List Char) (exponent : Int) : List Char :=
  if 0 ≤ exponent then
    ds ++ List.replicate exponent.toNat '0' ++ (if keepPoint then ['.', '0'] else [])
  else
    let places := (-exponent).toNat
    if places < ds.length then
      ds.take (ds.length - places) ++ '.' :: ds.drop (ds.length - places)
    else '0' :: '.' :: List.replicate (places - ds.length) '0' ++ ds

/-- One digit before the point, and the exponent of that digit. -/
def exponentText (plusSign : Bool) (ds : List Char) (leading : Int) : List Char :=
  let exponent :=
    (if leading < 0 then ['-'] else if plusSign then ['+'] else []) ++ natText leading.natAbs
  match ds with
  | [] => 'e' :: exponent
  | [d] => d :: 'e' :: exponent
  | d :: rest => d :: '.' :: rest ++ 'e' :: exponent

def Layout.decimalText (layout : Layout) (d : Decimal) : List Char :=
  let ds := natText d.coefficient
  let leading := (ds.length : Int) - 1 + d.exponent
  match layout.positional with
  | none => positionalText layout.keepPoint ds d.exponent
  | some (low, high) =>
      if low ≤ leading ∧ leading ≤ high then positionalText layout.keepPoint ds d.exponent
      else exponentText layout.plusSign ds leading

/-- The text of a double.  Zero keeps its sign. -/
def Layout.text (layout : Layout) (x : Float) : String :=
  match parts x with
  | .nan => "NaN"
  | .infinite neg => if neg then "-inf" else "inf"
  | .finite neg m e =>
      let body := layout.decimalText (shortest m e layout.tie)
      String.ofList (if neg then '-' :: body else body)

end Number
end RuncardReview
