import JvmAsm.Number.Integer
import JvmAsm.Number.Binary

namespace JvmAsm.Number

/-- The reasons why a text is no floating point value. -/
inductive DecimalFault where
  | empty
  | invalid
  deriving DecidableEq, Repr

/-- More digits than any value has that lies halfway between two values of a format. -/
def enoughDigits : Nat := 1000

/-- The number with the given digits. -/
def digitsValue (digits : List Char) : Nat :=
  digits.foldl (fun value c => value * 10 + (c.toNat - '0'.toNat)) 0

/--
The value of some digits times a power of ten. Of the digits after the first ones it only matters
for rounding whether all of them are zero, which a single digit tells.
-/
def Decimal.ofDigits (digits : List Char) (exponent : Int) : Decimal :=
  let digits := digits.dropWhile (· == '0')
  let rest := digits.drop enoughDigits
  if rest.isEmpty then ⟨digitsValue digits, exponent⟩
  else
    let last := if rest.all (· == '0') then 0 else 1
    ⟨digitsValue (digits.take enoughDigits) * 10 + last, exponent + rest.length - 1⟩

/-- The digits of an exponent count until it is out of reach of every format. -/
def exponentDigits : Nat → List Char → Option Nat
  | value, [] => some value
  | value, c :: rest => do
    let digit ← digit? 10 c
    exponentDigits (if value < 0x10000 then value * 10 + digit else value) rest

/-- An exponent takes up all that is left of the text. -/
def readExponent : List Char → Option Int
  | [] => some 0
  | mark :: rest =>
    if mark == 'e' || mark == 'E' then
      let (negative, digits) := match rest with
        | '-' :: digits => (true, digits)
        | '+' :: digits => (false, digits)
        | digits => (false, digits)
      if digits.isEmpty then none
      else (exponentDigits 0 digits).map fun value =>
        if negative then -Int.ofNat value else Int.ofNat value
    else none

def readMagnitude (format : FloatFormat) (text : List Char) : Option Nat :=
  let word := String.ofList (text.map Char.toLower)
  if word == "inf" || word == "infinity" then some format.infinity
  else if word == "nan" then some format.canonicalNaN
  else
    let whole := text.takeWhile Char.isDigit
    let (fraction, rest) := match text.dropWhile Char.isDigit with
      | '.' :: rest => (rest.takeWhile Char.isDigit, rest.dropWhile Char.isDigit)
      | rest => ([], rest)
    if whole.isEmpty && fraction.isEmpty then none
    else
      (readExponent rest).map fun exponent =>
        format.ofDecimal (Decimal.ofDigits (whole ++ fraction) (exponent - fraction.length))

/-- The bit pattern of a decimal text, rounded to the nearest value of the format. -/
def readFloat (format : FloatFormat) (text : String) : Except DecimalFault Nat :=
  match text.toList with
  | [] => .error .empty
  | '-' :: rest => match readMagnitude format rest with
    | some magnitude => .ok (format.signBit + magnitude)
    | none => .error .invalid
  | '+' :: rest => match readMagnitude format rest with
    | some magnitude => .ok magnitude
    | none => .error .invalid
  | rest => match readMagnitude format rest with
    | some magnitude => .ok magnitude
    | none => .error .invalid

/--
The values that round to one pattern lie between two bounds. Everything is given in units of a
quarter of the last place, divided by `denominator`.
-/
structure Neighbourhood where
  lower : Nat
  value : Nat
  upper : Nat
  denominator : Nat
  inclusive : Bool

/-- The neighbourhood of a finite magnitude; below a power of two the values are closer together. -/
def FloatFormat.neighbourhood (format : FloatFormat) (magnitude : Nat) : Neighbourhood :=
  let ⟨mantissa, exponent⟩ := format.scaled magnitude
  let narrow := mantissa = Nat.pow 2 format.fractionBits && format.leastExponent < exponent
  let scale := Nat.pow 2 exponent.toNat
  { lower := (4 * mantissa - if narrow then 1 else 2) * scale
    value := 4 * mantissa * scale
    upper := (4 * mantissa + 2) * scale
    denominator := 4 * Nat.pow 2 (-exponent).toNat
    inclusive := mantissa % 2 = 0 }

/-- Whether `count * 10 ^ exponent` rounds to the pattern. -/
def Neighbourhood.contains (near : Neighbourhood) (count : Nat) (exponent : Int) : Bool :=
  let point := count * Nat.pow 10 exponent.toNat * near.denominator
  let scale := Nat.pow 10 (-exponent).toNat
  if near.inclusive then near.lower * scale ≤ point && point ≤ near.upper * scale
  else near.lower * scale < point && point < near.upper * scale

/-- The two neighbours of the value on the grid of the multiples of `10 ^ exponent`. -/
def Neighbourhood.floor (near : Neighbourhood) (exponent : Int) : Nat :=
  near.value * Nat.pow 10 (-exponent).toNat / (near.denominator * Nat.pow 10 exponent.toNat)

/-- Whether the upper neighbour on the grid is at least as near as the lower one. -/
def Neighbourhood.nearsUp (near : Neighbourhood) (exponent : Int) : Bool :=
  let unit := near.denominator * Nat.pow 10 exponent.toNat
  unit ≤ 2 * (near.value * Nat.pow 10 (-exponent).toNat % unit)

/--
Of the two neighbours on a grid the one that rounds to the pattern is taken, and of two such the
nearer one, where a tie goes up.
-/
def Neighbourhood.onGrid (near : Neighbourhood) (exponent : Int) : Option Decimal :=
  let below := near.floor exponent
  let down := near.contains below exponent
  let up := near.contains (below + 1) exponent
  if up && (!down || near.nearsUp exponent) then some ⟨below + 1, exponent⟩
  else if down then some ⟨below, exponent⟩
  else none

def Neighbourhood.coarsest (near : Neighbourhood) : Nat → Int → Decimal
  | 0, exponent => ⟨near.floor exponent, exponent⟩
  | count + 1, exponent =>
    match near.onGrid exponent with
    | some decimal => decimal
    | none => near.coarsest count (exponent - 1)

/-- The power of ten below a positive value, or a larger one. -/
def Neighbourhood.magnitude (near : Neighbourhood) : Int :=
  let quotient := near.value / near.denominator
  if quotient = 0 then
    -- The value is below one: count the zeros after the point.
    1 - (Nat.toDigits 10 (near.denominator / near.value)).length
  else (Nat.toDigits 10 quotient).length

/-- The shortest decimal that reads back as the pattern. -/
def FloatFormat.shortest (format : FloatFormat) (magnitude : Nat) : Decimal :=
  let near := format.neighbourhood magnitude
  near.coarsest 20 near.magnitude

/-- The digits of a decimal without trailing zeros, and the place of the point before them. -/
def Decimal.normal (decimal : Decimal) : List Char × Int :=
  let digits := Nat.toDigits 10 decimal.digits
  let significant := (digits.reverse.dropWhile (· == '0')).reverse
  (significant, digits.length + decimal.exponent)

/--
Values from `10 ^ -4` up to `10 ^ 16` are written positionally with at least one digit after the
point, all others with an exponent.
-/
def Decimal.text (decimal : Decimal) : String :=
  let (digits, point) := decimal.normal
  if -4 < point && point ≤ 16 then
    if point ≤ 0 then
      String.ofList ('0' :: '.' :: List.replicate (-point).toNat '0' ++ digits)
    else
      let whole := digits.take point.toNat
      let whole := whole ++ List.replicate (point.toNat - whole.length) '0'
      let fraction := digits.drop point.toNat
      String.ofList (whole ++ '.' :: if fraction.isEmpty then ['0'] else fraction)
  else
    match digits with
    | [] => "0.0"
    | [digit] => String.ofList [digit] ++ "e" ++ toString (point - 1)
    | digit :: rest => String.ofList (digit :: '.' :: rest) ++ "e" ++ toString (point - 1)

/-- The text of a pattern; the texts of infinities and of values that are no number are plain. -/
def FloatFormat.text (format : FloatFormat) (bits : Nat) : String :=
  let magnitude := format.magnitude bits
  if format.isNaN bits then "NaN"
  else
    let sign := if format.isNegative bits then "-" else ""
    if magnitude = format.infinity then sign ++ "inf"
    else if magnitude = 0 then sign ++ "0.0"
    else sign ++ (format.shortest magnitude).text

end JvmAsm.Number
