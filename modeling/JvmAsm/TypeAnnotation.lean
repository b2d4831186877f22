import JvmAsm.Annotation
import JvmAsm.Instruction.Basic

namespace JvmAsm

open Number

/-- A step from a type to a part of it. -/
inductive PathStep where
  | array
  | nested
  | wildcard
  | argument (index : UInt8)
  deriving DecidableEq, Repr

abbrev TypePath := List PathStep

namespace TypePath

/-- The reasons why a text is no path. -/
inductive Fault where
  | missingSemicolon
  | badIndex (fault : IntegerFault)
  | unexpected (c : Char)
  deriving DecidableEq, Repr

def stepText : PathStep → String
  | .array => "["
  | .nested => "."
  | .wildcard => "*"
  | .argument index => toString index.toNat ++ ";"

def text (path : TypePath) : String := String.join (path.map stepText)

def readFrom (found : List PathStep) (chars : List Char) : Except Fault TypePath :=
  match chars with
  | [] => .ok found.reverse
  | c :: rest =>
    if c == '[' then readFrom (.array :: found) rest
    else if c == '.' then readFrom (.nested :: found) rest
    else if c == '*' then readFrom (.wildcard :: found) rest
    else if c.isDigit then
      match _after : rest.dropWhile (· != ';') with
      | _ :: after =>
        match readUInt8 (String.ofList (c :: rest.takeWhile (· != ';'))) with
        | .ok index => readFrom (.argument index :: found) after
        | .error fault => .error (.badIndex fault)
      | [] => .error .missingSemicolon
    else .error (.unexpected c)
termination_by chars.length
decreasing_by
  all_goals simp_wf
  all_goals have := length_dropWhile_le (· != ';') rest
  all_goals simp_all
  all_goals omega

/-- An index is followed by a semicolon, and the other steps are single characters. -/
def read (text : String) : Except Fault TypePath := readFrom [] text.toList

end TypePath

structure LabelRange where
  start : Label
  stop : Label
  deriving DecidableEq, Repr

inductive ClassTarget where
  | typeParameter (index : UInt8)
  | extends
  | implements (index : UInt16)
  | typeBound (parameter bound : UInt8)
  deriving DecidableEq, Repr

/-- The only type of a field or record component. -/
inductive FieldTarget where
  | field
  deriving DecidableEq, Repr

inductive MethodTarget where
  | typeParameter (index : UInt8)
  | typeBound (parameter bound : UInt8)
  | returned
  | receiver
  | parameter (index : UInt8)
  | throws (index : UInt16)
  deriving DecidableEq, Repr

/-- The instructions that hold one type. -/
inductive InstructionTarget where
  | instanceOf | new | constructorReference | methodReference
  deriving DecidableEq, Repr

namespace InstructionTarget

def code : InstructionTarget → UInt8
  | .instanceOf => 0x43
  | .new => 0x44
  | .constructorReference => 0x45
  | .methodReference => 0x46

def keyword : InstructionTarget → String
  | .instanceOf => "instanceof"
  | .new => "new"
  | .constructorReference => "constructorref"
  | .methodReference => "methodref"

def all : List InstructionTarget := [.instanceOf, .new, .constructorReference, .methodReference]

def ofCode? (code : UInt8) : Option InstructionTarget := all.find? fun target => target.code == code

def ofKeyword? (text : String) : Option InstructionTarget :=
  all.find? fun target => target.keyword == text

end InstructionTarget

/-- The instructions that hold a list of types. -/
inductive ArgumentTarget where
  | cast | constructorCall | methodCall | constructorReference | methodReference
  deriving DecidableEq, Repr

namespace ArgumentTarget

def code : ArgumentTarget → UInt8
  | .cast => 0x47
  | .constructorCall => 0x48
  | .methodCall => 0x49
  | .constructorReference => 0x4a
  | .methodReference => 0x4b

def keyword : ArgumentTarget → String
  | .cast => "cast"
  | .constructorCall => "constructorcall"
  | .methodCall => "methodcall"
  | .constructorReference => "constructorreftype"
  | .methodReference => "methodreftype"

def all : List ArgumentTarget :=
  [.cast, .constructorCall, .methodCall, .constructorReference, .methodReference]

def ofCode? (code : UInt8) : Option ArgumentTarget := all.find? fun target => target.code == code

def ofKeyword? (text : String) : Option ArgumentTarget :=
  all.find? fun target => target.keyword == text

end ArgumentTarget

/-- The types inside code. A variable has its type in the given ranges and local variables. -/
inductive CodeTarget where
  | variables (isResource : Bool) (table : List (LabelRange × UInt16))
  | exceptionParameter (index : UInt16)
  | instruction (target : InstructionTarget) (label : Label)
  | argument (target : ArgumentTarget) (label : Label) (index : UInt8)
  deriving DecidableEq, Repr

namespace CodeTarget

def labels : CodeTarget → List Label
  | .variables _ table => table.flatMap fun entry => [entry.1.start, entry.1.stop]
  | .exceptionParameter _ => []
  | .instruction _ label => [label]
  | .argument _ label _ => [label]

def mapLabels (rename : Label → Label) : CodeTarget → CodeTarget
  | .variables isResource table =>
    .variables isResource (table.map fun entry =>
      (⟨rename entry.1.start, rename entry.1.stop⟩, entry.2))
  | .exceptionParameter index => .exceptionParameter index
  | .instruction target label => .instruction target (rename label)
  | .argument target label index => .argument target (rename label) index

end CodeTarget

structure AnnotatedType (τ : Type) where
  target : τ
  path : TypePath
  note : Annotation
  deriving BEq

abbrev TypeAnnotations (τ : Type) := ByVisibility (AnnotatedType τ)

end JvmAsm
