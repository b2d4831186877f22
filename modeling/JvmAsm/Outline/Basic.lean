import JvmAsm.Text.Quoted

namespace JvmAsm

inductive Outline where
  | word (text : String)
  /-- A name, and what it is given in parentheses. -/
  | case (name : String) (parts : List Outline)
  /-- A name, and parts with names of their own between braces. -/
  | record (name : String) (parts : List (String × Outline))
  | list (parts : List Outline)

namespace Outline

def listed (texts : Array String) : String := ", ".intercalate texts.toList

mutual

def text : Outline → String
  | .word text => text
  | .case name parts => name ++ "(" ++ listed (texts #[] parts) ++ ")"
  | .record name parts => name ++ " \x7b " ++ listed (namedTexts #[] parts) ++ " \x7d"
  | .list parts => "[" ++ listed (texts #[] parts) ++ "]"

/-- The texts of some outlines after those found so far. -/
def texts (found : Array String) : List Outline → Array String
  | [] => found
  | part :: rest => texts (found.push part.text) rest

def namedTexts (found : Array String) : List (String × Outline) → Array String
  | [] => found
  | (name, part) :: rest => namedTexts (found.push (name ++ ": " ++ part.text)) rest

end

def nat (value : Nat) : Outline := .word (toString value)

def int (value : Int) : Outline := .word (toString value)

def bool (value : Bool) : Outline := .word (if value then "true" else "false")

def quoted (text : String) : Outline := .word (Text.quoted text)

def pair (first second : Outline) : Outline := .case "" [first, second]

def listOf {α : Type} (outline : α → Outline) (values : List α) : Outline :=
  .list (values.map outline)

def optional {α : Type} (outline : α → Outline) : Option α → Outline
  | some value => .case "Some" [outline value]
  | none => .word "None"

end Outline

end JvmAsm
