import JvmAsm.Text.Quoted

namespace JvmAsm

structure JavaString where
  units : List UInt16
  deriving DecidableEq, Repr

namespace JavaString

def isHigh (unit : UInt16) : Bool := 0xd800 ≤ unit && unit < 0xdc00

def isLow (unit : UInt16) : Bool := 0xdc00 ≤ unit && unit < 0xe000

def unitsOf (c : Char) : List UInt16 :=
  let n := c.toNat
  if n < 0x10000 then [UInt16.ofNat n]
  else
    let rest := n - 0x10000
    [UInt16.ofNat (0xd800 + rest / 0x400), UInt16.ofNat (0xdc00 + rest % 0x400)]

def ofString (text : String) : JavaString := ⟨text.toList.flatMap unitsOf⟩

/-- The supplementary character of a pair of surrogates. -/
def paired (high low : UInt16) : Char :=
  Char.ofNat (0x10000 + (high.toNat - 0xd800) * 0x400 + (low.toNat - 0xdc00))

/-- A string is made of characters and of surrogates that stand alone. -/
inductive Piece where
  | char (c : Char)
  | lone (unit : UInt16)
  deriving DecidableEq, Repr

def piecesFrom : List Piece → List UInt16 → List Piece
  | found, [] => found.reverse
  | found, high :: low :: rest =>
    if isHigh high && isLow low then piecesFrom (.char (paired high low) :: found) rest
    else if isHigh high || isLow high then piecesFrom (.lone high :: found) (low :: rest)
    else piecesFrom (.char (Char.ofNat high.toNat) :: found) (low :: rest)
  | found, [unit] =>
    if isHigh unit || isLow unit then (.lone unit :: found).reverse
    else (.char (Char.ofNat unit.toNat) :: found).reverse
termination_by _ units => units.length

def Piece.char? : Piece → Option Char
  | .char c => some c
  | .lone _ => none

/-- A high surrogate and a low surrogate right after it are one character. -/
def pieces (string : JavaString) : List Piece := piecesFrom [] string.units

/-- The text of a string in which no surrogate stands alone. -/
def text? (string : JavaString) : Option String :=
  (string.pieces.mapM Piece.char?).map String.ofList

def Piece.quoted : Piece → String
  | .char c => Text.quotedChar '"' c
  | .lone unit => Text.numbered unit.toNat

/-- The string between double quotes, with its lone surrogates shown by their numbers. -/
def quoted (string : JavaString) : String :=
  "\"" ++ String.join (string.pieces.map Piece.quoted) ++ "\""

instance : Hashable JavaString where
  hash string := string.units.foldl (fun code unit => mixHash code unit.toUInt64) 7

end JavaString

end JvmAsm
