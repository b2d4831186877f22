
namespace JvmAsm.Number

structure FloatFormat where
  fractionBits : Nat
  exponentBits : Nat

namespace FloatFormat

def single : FloatFormat := ⟨23, 8⟩

def double : FloatFormat := ⟨52, 11⟩

def signBit (format : FloatFormat) : Nat := Nat.pow 2 (format.fractionBits + format.exponentBits)

/-- The pattern of the positive infinity, which is above every finite pattern. -/
def infinity (format : FloatFormat) : Nat :=
  (Nat.pow 2 format.exponentBits - 1) * Nat.pow 2 format.fractionBits

/-- The pattern of the usual value that is no number. -/
def canonicalNaN (format : FloatFormat) : Nat :=
  format.infinity + Nat.pow 2 (format.fractionBits - 1)

/-- The exponent of the last place of the smallest values. -/
def leastExponent (format : FloatFormat) : Int :=
  2 - Nat.pow 2 (format.exponentBits - 1) - format.fractionBits

def isNegative (format : FloatFormat) (bits : Nat) : Bool := format.signBit ≤ bits

/-- The pattern without its sign. -/
def magnitude (format : FloatFormat) (bits : Nat) : Nat := bits % format.signBit

def isNaN (format : FloatFormat) (bits : Nat) : Bool := format.infinity < format.magnitude bits

/-- A finite magnitude is `mantissa * 2 ^ exponent`. -/
structure Scaled where
  mantissa : Nat
  exponent : Int

def scaled (format : FloatFormat) (magnitude : Nat) : Scaled :=
  let field := magnitude / Nat.pow 2 format.fractionBits
  let fraction := magnitude % Nat.pow 2 format.fractionBits
  if field = 0 then ⟨fraction, format.leastExponent⟩
  else ⟨Nat.pow 2 format.fractionBits + fraction, format.leastExponent + (field - 1 : Nat)⟩

end FloatFormat

structure Decimal where
  digits : Nat
  exponent : Int

/-- The whole number nearest to a quotient; a tie goes to the even neighbour. -/
def roundDiv (numerator denominator : Nat) : Nat :=
  let quotient := numerator / denominator
  let remainder := numerator % denominator
  if denominator < 2 * remainder || (2 * remainder = denominator && quotient % 2 = 1) then
    quotient + 1
  else quotient

def roundScaled (numerator denominator : Nat) (exponent : Int) : Nat :=
  if 0 ≤ exponent then roundDiv numerator (denominator * Nat.pow 2 exponent.toNat)
  else roundDiv (numerator * Nat.pow 2 (-exponent).toNat) denominator

namespace FloatFormat

/--
The pattern nearest to a quotient. The mantissa keeps one more bit than the fraction, so that a
carry out of the rounding moves into the exponent by itself.
-/
def ofRatio (format : FloatFormat) (numerator denominator : Nat) : Nat :=
  if numerator = 0 then 0
  else
    let size : Int := Nat.log2 numerator - Nat.log2 denominator
    let low := max format.leastExponent (size - 1 - format.fractionBits)
    let fine := roundScaled numerator denominator low
    let exponent := if Nat.pow 2 (format.fractionBits + 1) ≤ fine then low + 1 else low
    let mantissa := roundScaled numerator denominator exponent
    let bits := (exponent - format.leastExponent).toNat * Nat.pow 2 format.fractionBits + mantissa
    min bits format.infinity

/--
The pattern nearest to a decimal. A power of ten is at least as large as the same power of eight,
so that values far outside of the range of the formats are decided by their sizes.
-/
def ofDecimal (format : FloatFormat) (decimal : Decimal) : Nat :=
  let ⟨digits, exponent⟩ := decimal
  if digits = 0 then 0
  else
    let size : Int := Nat.log2 digits + 3 * exponent
    if 0 ≤ exponent then
      if 1200 < size then format.infinity
      else format.ofRatio (digits * Nat.pow 10 exponent.toNat) 1
    else if size < -1200 then 0
    else format.ofRatio digits (Nat.pow 10 (-exponent).toNat)

end FloatFormat

end JvmAsm.Number
