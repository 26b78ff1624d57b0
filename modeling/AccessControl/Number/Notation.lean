import AccessControl.Number.Shortest

/-! Decimal notation. A layout says which exponents are written positionally; all others are
written in scientific notation. -/
namespace AccessControl

structure DecimalLayout where
  leastPositional : Int
  mostPositional : Int

namespace DecimalLayout

def positional (d : Decimal) : List Char :=
  if d.exponent < 0 then
    '0' :: '.' :: List.replicate (-d.exponent - 1).toNat '0' ++ d.digits
  else
    let width := d.exponent.toNat + 1
    let fraction := d.digits.drop width
    (d.digits.take width).rightpad width '0' ++ '.' :: if fraction.isEmpty then ['0'] else fraction

/-- One digit before the point, no point after a lone digit, and a signed exponent. -/
def scientific (d : Decimal) : List Char :=
  let sign := if d.exponent < 0 then '-' else '+'
  let exponent := 'e' :: sign :: Nat.toDigits 10 d.exponent.natAbs
  match d.digits with
  | first :: second :: rest => first :: '.' :: second :: rest ++ exponent
  | digits => digits ++ exponent

def magnitude (layout : DecimalLayout) (d : Decimal) : List Char :=
  if layout.leastPositional ≤ d.exponent ∧ d.exponent ≤ layout.mostPositional then positional d
  else scientific d

def text (layout : DecimalLayout) (x : Binary64) : String :=
  let magnitude := if x.rank = 0 then ['0', '.', '0'] else layout.magnitude x.shortest
  String.ofList (if x.negative then '-' :: magnitude else magnitude)

end DecimalLayout
end AccessControl
