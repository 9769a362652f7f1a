import ContractHost.Decimal.Shortest

/-!
# Layouts of decimal numerals

How a double is written: its shortest decimal, positionally or with an exponent. A `Layout` holds
the decisions of one format, and `Layout.numeral` lays the finite numbers out by them.
-/

namespace ContractHost.Decimal

/-- The decisions of a decimal format: which of two equally near decimals is written, whether a
number is written positionally when its leading digit stands for a given power of ten, and whether
a whole number shows a zero after the point. -/
structure Layout where
  tie : TieRule
  positional : Int → Bool
  pointZero : Bool

/-- Digits with the point behind the one that stands for ten to the zero. -/
def positionalNumeral (pointZero negative : Bool) (ds : List Digit) (exponent : Int) : Numeral :=
  let point : Int := ds.length + exponent
  if 0 ≤ exponent then
    let fraction := if pointZero then [.zero] else []
    ⟨negative, ds ++ List.replicate exponent.toNat .zero, fraction, none⟩
  else if 0 < point then
    ⟨negative, ds.take point.toNat, ds.drop point.toNat, none⟩
  else
    ⟨negative, [.zero], List.replicate (-point).toNat .zero ++ ds, none⟩

/-- A finite number by the rules of a layout. -/
def Layout.numeral (layout : Layout) (x : Binary64) : Numeral :=
  if x.isZero then
    positionalNumeral layout.pointZero x.isNegative [.zero] 0
  else
    let d := x.shortest layout.tie
    let ds := Decimal.digits d.coefficient
    let lead := d.exponent + ds.length - 1
    if layout.positional lead then
      positionalNumeral layout.pointZero x.isNegative ds d.exponent
    else
      ⟨x.isNegative, ds.take 1, ds.drop 1, some lead⟩

end ContractHost.Decimal
