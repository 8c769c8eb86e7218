import Graft.Number.Double
/-!
# The shortest decimal that reads back

`Double.shortest` gives the digits and the decimal point of the shortest decimal that rounds to a
given finite value; among decimals of that length it takes the one nearest to the value. For each
number of digits in turn, only the two neighbours of the value on that decimal grid are tried.
-/

namespace Graft

/-- Decimal digits, most significant first without leading or trailing zeros, and the position of
the decimal point: the value is `0.d₁d₂… · 10^point`. -/
structure Digits where
  digits : List Nat
  point : Int
  deriving DecidableEq, Repr

namespace Digits

def toDigits (n : Nat) : List Nat := (Nat.toDigits 10 n).map fun c => c.toNat - '0'.toNat

def dropTrailingZeros (ds : List Nat) : List Nat := (ds.reverse.dropWhile (· = 0)).reverse

def text (ds : List Nat) : List Char := ds.map Nat.digitChar

end Digits

namespace Double

/-- The reals that round to a positive finite value, in units of a quarter of the last place: a lower
and an upper end, both included iff the mantissa is even, and the value itself. The unit is
`2^(scale - 2)`. -/
structure Interval where
  low : Nat
  value : Nat
  high : Nat
  closed : Bool

def interval (x : Double) : Interval :=
  let m := x.mantissa
  let narrow := x.fractionField = 0 && 1 < x.exponentField
  { low := 4 * m - (if narrow then 1 else 2), value := 4 * m, high := 4 * m + 2, closed := m % 2 = 0 }

/-- Does `c · num / den` lie in the interval, whose unit is 1? -/
def Interval.holds (i : Interval) (c num den : Nat) : Bool :=
  let lowOk := if i.closed then i.low * den ≤ c * num else i.low * den < c * num
  let highOk := if i.closed then c * num ≤ i.high * den else c * num < i.high * den
  lowOk && highOk

/-- A power of ten over a power of two, as a fraction. -/
def gridStep (p : Int) (unit : Int) : Nat × Nat :=
  let num := (if 0 ≤ p then tenTo p.toNat else 1) * (if unit < 0 then twoTo (-unit).toNat else 1)
  let den := (if p < 0 then tenTo (-p).toNat else 1) * (if 0 ≤ unit then twoTo unit.toNat else 1)
  (num, den)

/-- The multiple of `10^p` nearest to the value among its two neighbours on that grid, if one of them
reads back. -/
def onGrid (i : Interval) (unit p : Int) : Option Nat :=
  let (num, den) := gridStep p unit
  let lower := i.value * den / num
  let below := i.value * den - lower * num
  let above := (lower + 1) * num - i.value * den
  let lowerOk := i.holds lower num den
  let upperOk := i.holds (lower + 1) num den
  if lowerOk && upperOk then some (if below < above || (below = above && lower % 2 = 0) then lower else lower + 1)
  else if lowerOk then some lower
  else if upperOk then some (lower + 1)
  else none

/-- The least `p` with value below `10^p`. -/
def decimalPoint (i : Interval) (unit : Int) : Int :=
  let guess : Int := (((Nat.log2 i.value : Int) + unit) * 30103) / 100000
  let reaches (p : Int) : Bool := let (num, den) := gridStep p unit; num ≤ i.value * den
  if reaches (guess + 1) then guess + 2 else if reaches guess then guess + 1 else guess

/-- Tries grids of ever finer steps below the value's first digit. -/
def searchGrids (i : Interval) (unit point : Int) : Nat → Nat → Nat × Int
  | 0, _ => (i.value, 0)
  | fuel + 1, count =>
    match onGrid i unit (point - count) with
    | some c => (c, point - count)
    | none => searchGrids i unit point fuel (count + 1)

/-- The shortest decimal that reads back as the positive finite value `x`. Seventeen digits always
suffice. -/
def shortest (x : Double) : Digits :=
  let i := x.interval
  let unit := x.scale - 2
  let (c, p) := searchGrids i unit (decimalPoint i unit) 18 1
  let ds := Digits.toDigits c
  { digits := Digits.dropTrailingZeros ds, point := p + ds.length }

/-! ## Decimal notations -/

/-- Digits and point written without an exponent. -/
def positional (d : Digits) : List Char :=
  let ds := Digits.text d.digits
  if d.point ≤ 0 then '0' :: '.' :: (List.replicate (-d.point).toNat '0' ++ ds)
  else if ds.length ≤ d.point.toNat then ds ++ List.replicate (d.point.toNat - ds.length) '0'
  else ds.take d.point.toNat ++ '.' :: ds.drop d.point.toNat

def signed (x : Double) (text : List Char) : String :=
  String.ofList (if x.negative then '-' :: text else text)

/-- Shortest digits, never an exponent, no decimal point for an integer. -/
def toPlain (x : Double) : String :=
  if x.isNaN then "NaN"
  else if !x.isFinite then signed x "inf".toList
  else if x.magnitude = 0 then signed x ['0']
  else signed x (positional x.shortest)

/-- The exponents, of `d.ddd · 10^e`, that JSON text writes without an exponent. -/
def plainInJson (e : Int) : Bool := -5 ≤ e && e < 16

/-- JSON's spelling of a finite value: at least one decimal when positional, otherwise a mantissa and
an exponent with its sign. -/
def toJson (x : Double) : String :=
  if x.magnitude = 0 then signed x "0.0".toList
  else
    let d := x.shortest
    let e := d.point - 1
    if plainInJson e then
      let text := positional d
      signed x (if text.contains '.' then text else text ++ ['.', '0'])
    else
      let ds := Digits.text d.digits
      let head := if ds.length ≤ 1 then ds else ds.take 1 ++ '.' :: ds.drop 1
      let sign := if e < 0 then '-' else '+'
      signed x (head ++ 'e' :: sign :: Nat.toDigits 10 e.natAbs)

/-! ## Reading decimals -/

def digitsValue (ds : List Char) : Nat := ds.foldl (fun n c => 10 * n + (c.toNat - '0'.toNat)) 0

/-- The value of `digits[.digits][e[sign]digits]` from its parts. -/
def ofParts (negative : Bool) (whole fraction : List Char) (exponent : Int) : Double :=
  ofDecimal negative (digitsValue (whole ++ fraction)) (exponent - fraction.length)

end Double
end Graft
