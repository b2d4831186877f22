import JvmAsm.JavaString.Basic
import JvmAsm.Number.Integer
import JvmAsm.Text.Blank

namespace JvmAsm

namespace JavaString

/-- The reasons why a text between quotes is no string. -/
inductive EscapeFault where
  | unfinished
  | missingHexDigits
  | unknown (c : Char)
  deriving DecidableEq, Repr

/-- An escape gives a unit by its four digits. -/
def unitEscape (n : Nat) : List Char :=
  '\\' :: 'u' :: (Text.hexPadded 4 n).toList

/-- The quote, the backslash, the controls and the lone surrogates are escaped. -/
def escapePiece : Piece → List Char
  | .lone unit => unitEscape unit.toNat
  | .char c =>
    if c == '"' then ['\\', '"']
    else if c == '\\' then ['\\', '\\']
    else if c == '\n' then ['\\', 'n']
    else if c == '\t' then ['\\', 't']
    else if c == '\r' then ['\\', 'r']
    else if c == '\x08' then ['\\', 'b']
    else if c == '\x0c' then ['\\', 'f']
    else if Text.isControl c then unitEscape c.toNat
    else [c]

/-- The contents of a quoted string. -/
def escape (string : JavaString) : String :=
  String.ofList (string.pieces.flatMap escapePiece)

/-- The value of four digits in base sixteen. -/
def hexUnit? (a b c d : Char) : Option UInt16 := do
  let a ← Number.digit? 16 a
  let b ← Number.digit? 16 b
  let c ← Number.digit? 16 c
  let d ← Number.digit? 16 d
  return UInt16.ofNat (((a * 16 + b) * 16 + c) * 16 + d)

/-- The unit of an escape with a single letter. -/
def simpleEscape? (c : Char) : Option UInt16 :=
  if c == 'n' then some 0x0a
  else if c == 't' then some 0x09
  else if c == 'r' then some 0x0d
  else if c == 'b' then some 0x08
  else if c == 'f' then some 0x0c
  else if c == '"' then some 0x22
  else if c == '\'' then some 0x27
  else if c == '\\' then some 0x5c
  else none

def unescapeFrom (found : List UInt16) : List Char → Except EscapeFault (List UInt16)
  | [] => .ok found.reverse
  | '\\' :: [] => .error .unfinished
  | '\\' :: 'u' :: a :: b :: c :: d :: rest =>
    match hexUnit? a b c d with
    | some unit => unescapeFrom (unit :: found) rest
    | none => .error .missingHexDigits
  | '\\' :: 'u' :: _ => .error .missingHexDigits
  | '\\' :: c :: rest =>
    match simpleEscape? c with
    | some unit => unescapeFrom (unit :: found) rest
    | none => .error (.unknown c)
  | c :: rest => unescapeFrom ((unitsOf c).reverse ++ found) rest

def unescape (text : List Char) : Except EscapeFault JavaString :=
  (unescapeFrom [] text).map JavaString.mk

end JavaString

end JvmAsm
