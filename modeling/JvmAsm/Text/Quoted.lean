import JvmAsm.Text.Printable

namespace JvmAsm.Text

/-- The digits of a number in base sixteen, in lower case. -/
def hex (n : Nat) : String := String.ofList (Nat.toDigits 16 n)

/-- The digits in base sixteen, with leading zeros up to the given width. -/
def hexPadded (width n : Nat) : String :=
  let digits := Nat.toDigits 16 n
  String.ofList (List.replicate (width - digits.length) '0' ++ digits)

/-- A code point is shown by its number. -/
def numbered (n : Nat) : String := "\\u\x7b" ++ hex n ++ "\x7d"

/-- A character inside quotes is shown by itself unless it is unprintable or one of the quotes. -/
def quotedChar (quote : Char) (c : Char) : String :=
  if c == '\x00' then "\\0"
  else if c == '\t' then "\\t"
  else if c == '\r' then "\\r"
  else if c == '\n' then "\\n"
  else if c == '\\' then "\\\\"
  else if c == quote then "\\" ++ c.toString
  else if isPrintable c then c.toString
  else numbered c.toNat

def quoted (text : String) : String :=
  "\"" ++ String.join (text.toList.map (quotedChar '"')) ++ "\""

def quotedSingle (c : Char) : String :=
  "'" ++ quotedChar '\'' c ++ "'"

end JvmAsm.Text
