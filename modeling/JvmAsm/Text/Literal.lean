import JvmAsm.Failure.Basic

namespace JvmAsm.Text

open Number

inductive Literal where
  | integer (value : Int32)
  | long (value : Int64)
  | float (value : Single)
  | double (value : Double)
  deriving BEq

namespace Literal

inductive Suffix where
  | long | float | double
  deriving DecidableEq, Repr

def suffix? (c : Char) : Option Suffix :=
  if c == 'L' || c == 'l' then some .long
  else if c == 'F' || c == 'f' then some .float
  else if c == 'D' || c == 'd' then some .double
  else none

/-- The number without its suffix. -/
def split (text : String) : String × Option Suffix :=
  match text.toList.reverse with
  | c :: before =>
    match suffix? c with
    | some suffix => (String.ofList before.reverse, some suffix)
    | none => (text, none)
  | [] => (text, none)

/-- What stands in place of the digits when the bits are given. -/
def bits? (body : String) : Option String :=
  match body.toList with
  | 'N' :: 'a' :: 'N' :: '(' :: '0' :: 'x' :: rest =>
    match rest.reverse with
    | ')' :: digits => some (String.ofList digits.reverse)
    | _ => none
  | _ => none

def invalid {α β : Type} (text : String) (cause : α → TextCause) (result : Except α β) :
    Except Failure β :=
  result.mapError fun fault =>
    (Failure.ofCause (.text (cause fault))).within (.text (.invalidLiteral text))

def readBits (text : String) (format : FloatFormat) (digits : String) : Except Failure Nat := do
  let bits ← invalid text .number
    (readNatural 16 (Nat.pow 2 (format.fractionBits + format.exponentBits + 1) - 1) digits)
  if format.isNaN bits then return bits
  else throw (.ofCause (.text (.literalNoNaN text)))

def readDecimal (text : String) (format : FloatFormat) (body : String) : Except Failure Nat :=
  invalid text .decimal (readFloat format body)

def ofSingle (bits : Nat) : Literal := .float ⟨UInt32.ofNat bits⟩

def ofDouble (bits : Nat) : Literal := .double ⟨UInt64.ofNat bits⟩

def read (text : String) : Except Failure Literal :=
  let (body, suffix) := split text
  match bits? body, suffix with
  | some digits, some .float => ofSingle <$> readBits text .single digits
  | some digits, some .double => ofDouble <$> readBits text .double digits
  | some _, _ => .error (.ofCause (.text (.literalSuffix text)))
  | none, some .long => .long <$> invalid text .number (readInt64 body)
  | none, some .float => ofSingle <$> readDecimal text .single body
  | none, some .double => ofDouble <$> readDecimal text .double body
  | none, none =>
    if body.toList.any fun c => c == '.' || c == 'e' || c == 'E' then
      ofDouble <$> readDecimal text .double body
    else .integer <$> invalid text .number (readInt32 body)

/--
The text of a number with the given bits. A pattern that is no number is written with its bits,
unless it is the usual one.
-/
def floatText (format : FloatFormat) (bits : Nat) : String :=
  if bits == format.canonicalNaN then "NaN"
  else if format.isNaN bits then
    "NaN(0x" ++ hexPadded ((format.fractionBits + format.exponentBits + 1) / 4) bits ++ ")"
  else if format.magnitude bits == format.infinity then
    if format.isNegative bits then "-Infinity" else "Infinity"
  else format.text bits

def text : Literal → String
  | .integer value => toString value.toInt
  | .long value => toString value.toInt ++ "L"
  | .float value => floatText .single value.bits.toNat ++ "F"
  | .double value => floatText .double value.bits.toNat ++ "D"

end Literal

end JvmAsm.Text
