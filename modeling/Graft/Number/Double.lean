import Graft.Number.Power
/-!
# Binary64 numbers, exactly

A `Double` is the bit pattern of a binary64 number. Nothing here computes with machine floats: a
finite value is read as `± m · 2^q` with natural `m`, and every result is rounded once, to the
nearest representable value with ties going to the even mantissa (`Double.ofRatio`).
-/

namespace Graft

/-- A binary64 number, kept as its bits. -/
structure Double where
  bits : UInt64
  deriving DecidableEq, Inhabited

namespace Double

/-- Sign, exponent field and fraction field put together. -/
def ofFields (negative : Bool) (magnitude : Nat) : Double :=
  ⟨UInt64.ofNat (magnitude + if negative then twoTo 63 else 0)⟩

def negative (x : Double) : Bool := x.bits.toNat / twoTo 63 = 1

/-- All bits but the sign. They order the magnitudes. -/
def magnitude (x : Double) : Nat := x.bits.toNat % twoTo 63

def exponentField (x : Double) : Nat := x.magnitude / twoTo 52

def fractionField (x : Double) : Nat := x.magnitude % twoTo 52

def infinityMagnitude : Nat := 2047 * twoTo 52

def infinity (negative : Bool) : Double := ofFields negative infinityMagnitude

def zero : Double := ⟨0⟩

/-- The one NaN that computations give. -/
def nan : Double := ofFields false (infinityMagnitude + twoTo 51)

def isNaN (x : Double) : Bool := infinityMagnitude < x.magnitude

def isFinite (x : Double) : Bool := x.magnitude < infinityMagnitude

/-- The natural `m` of a finite value `± m · 2^q`. -/
def mantissa (x : Double) : Nat :=
  if x.exponentField = 0 then x.fractionField else x.fractionField + twoTo 52

/-- The integer `q` of a finite value `± m · 2^q`. -/
def scale (x : Double) : Int :=
  if x.exponentField = 0 then -1074 else (x.exponentField : Int) - 1075

def neg (x : Double) : Double := ofFields (!x.negative) x.magnitude

/-! ## Rounding -/

/-- The integer nearest to `num / den`, a tie going to the even one. -/
def roundHalfEven (num den : Nat) : Nat :=
  let q := num / den
  let r := num % den
  if 2 * r < den then q
  else if den < 2 * r then q + 1
  else if q % 2 = 0 then q else q + 1

/-- `num / den` in units of `2^e`, as a fraction of naturals. -/
def inUnits (num den : Nat) (e : Int) : Nat × Nat :=
  if 0 ≤ e then (num, den * twoTo e.toNat) else (num * twoTo (-e).toNat, den)

/-- The exponent of the last mantissa bit of a number near `num / den`. -/
def unitExponent (num den : Nat) : Int :=
  let e : Int := (Nat.log2 num : Int) - Nat.log2 den - 52
  let (n, d) := inUnits num den e
  max (-1074) (if n < d * twoTo 52 then e - 1 else e)

/-- `± num / den` to the nearest multiple of `2^e`, the unit of its last mantissa bit. -/
def inUnit (negative : Bool) (num den : Nat) (e : Int) : Double :=
  let (n, d) := inUnits num den e
  ofFields negative (min ((e + 1074).toNat * twoTo 52 + roundHalfEven n d) infinityMagnitude)

/-- The double nearest to `± num / den` (`den` positive), ties to even. -/
def ofRatio (negative : Bool) (num den : Nat) : Double :=
  if num = 0 then ofFields negative 0 else inUnit negative num den (unitExponent num den)

/-- The double nearest to `± digits · 10^e`. Exponents far outside the range are answered without
computing the power. -/
def ofDecimal (negative : Bool) (digits : Nat) (e : Int) : Double :=
  if digits = 0 then ofFields negative 0
  else
    let top := (Nat.log2 digits : Int) / 4 + e
    if 400 < top then infinity negative
    else if (Nat.log2 digits : Int) + e < -400 then ofFields negative 0
    else if 0 ≤ e then ofRatio negative (digits * tenTo e.toNat) 1
    else ofRatio negative digits (tenTo (-e).toNat)

def ofNat (n : Nat) : Double := ofRatio false n 1

def ofInt (n : Int) : Double := ofRatio (n < 0) n.natAbs 1

/-- The finite magnitude of `x` as a fraction of naturals. -/
def ratio (x : Double) : Nat × Nat := inUnits x.mantissa 1 (-x.scale)

/-- The rounded product of two finite numbers. -/
def mul (x y : Double) : Double :=
  ofRatio (x.negative != y.negative) (x.ratio.1 * y.ratio.1) (x.ratio.2 * y.ratio.2)

/-- The rounded quotient of two finite numbers, the second not zero. -/
def div (x y : Double) : Double :=
  ofRatio (x.negative != y.negative) (x.ratio.1 * y.ratio.2) (x.ratio.2 * y.ratio.1)

/-- `x · a + b`, rounded after the product and again after the sum, for nonnegative finite `x`. -/
def mulAdd (x : Double) (a b : Nat) : Double :=
  let product := if x.isFinite then
      let (n, d) := inUnits (x.mantissa * a) 1 (-x.scale)
      ofRatio false n d
    else x
  if product.isFinite then
    let (n, d) := inUnits product.mantissa 1 (-product.scale)
    ofRatio false (n + b * d) d
  else product

/-! ## Comparison and integers -/

/-- Numeric equality: the two zeros are equal and a NaN equals nothing. -/
def eqv (x y : Double) : Bool :=
  !x.isNaN && !y.isNaN && (x.bits = y.bits || (x.magnitude = 0 && y.magnitude = 0))

/-- The integer a finite value is, if it is one. -/
def toInt? (x : Double) : Option Int :=
  if !x.isFinite then none
  else
    let (n, d) := inUnits x.mantissa 1 (-x.scale)
    if n % d = 0 then some (if x.negative then -(n / d : Nat) else (n / d : Nat)) else none

/-! ## Bits as text -/

def hexDigit (n : Nat) : Char := Nat.digitChar n

/-- The sixteen hexadecimal digits of the bits; every NaN shows as the one NaN. -/
def toHex (x : Double) : String :=
  let bits := if x.isNaN then nan.bits.toNat else x.bits.toNat
  String.ofList ((List.range 16).map fun i => hexDigit (bits / twoTo (4 * (15 - i)) % 16))

end Double
end Graft
