import JvmAsm.JavaString.Escape

namespace JvmAsm.Text

/-- The characters that are tokens by themselves. -/
inductive Mark where
  | openBrace | closeBrace | comma | equals | colon
  deriving DecidableEq, Repr

namespace Mark

def char : Mark → Char
  | .openBrace => '\x7b'
  | .closeBrace => '\x7d'
  | .comma => ','
  | .equals => '='
  | .colon => ':'

def all : List Mark := [.openBrace, .closeBrace, .comma, .equals, .colon]

def ofChar? (c : Char) : Option Mark := all.find? fun mark => mark.char == c

end Mark

inductive Token where
  | word (text : String)
  | string (value : JavaString)
  | mark (mark : Mark)
  deriving DecidableEq

namespace Token

/-- The way messages speak of a token. -/
def description : Token → String
  | .word text => "`" ++ text ++ "`"
  | .string _ => "a string"
  | .mark sign => "`" ++ sign.char.toString ++ "`"

/-- The token as it is written. -/
def text : Token → String
  | .word text => text
  | .string value => "\"" ++ value.escape ++ "\""
  | .mark sign => sign.char.toString

end Token

/-- A token and the column of its first character, counted from one. -/
structure Located where
  token : Token
  column : Nat
  deriving DecidableEq

structure Line where
  number : Nat
  tokens : List Located
  endColumn : Nat
  deriving DecidableEq

end JvmAsm.Text
