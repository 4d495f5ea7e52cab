import EngineBench.Decimal.Shortest

/-!
# Plain positional notation

Numbers on command lines and in messages are written with the shortest digits that read back,
always positionally: no exponent, and no point without a digit after it. Of two equally near
digit strings the larger is written.
-/

namespace EngineBench

namespace Decimal

def zeros (n : Nat) : List Char := List.replicate n '0'

def positional (x : Decimal) : List Char :=
  let ds := digitsOf x.digits
  if 0 ≤ x.exponent then ds ++ zeros x.exponent.toNat
  else
    let places := (-x.exponent).toNat
    if places < ds.length then ds.take (ds.length - places) ++ '.' :: ds.drop (ds.length - places)
    else '0' :: '.' :: zeros (places - ds.length) ++ ds

end Decimal

namespace Binary64

/-- The text of a number in options and messages. -/
def plain : Binary64 → String
  | .finite negative m =>
    let text := (m.shortest .away).positional
    String.ofList (if negative then '-' :: text else text)
  | .infinite negative => if negative then "-inf" else "inf"
  | .nan => "NaN"

end Binary64

end EngineBench
