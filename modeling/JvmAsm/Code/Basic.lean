import JvmAsm.TypeAnnotation

namespace JvmAsm

/-- An attribute whose contents are kept as they are. -/
structure RawAttribute where
  name : String
  bytes : List UInt8
  deriving DecidableEq

/-- An instruction together with the label that is bound to it. -/
structure Entry where
  label : Option Label := none
  instruction : Instruction
  deriving BEq

structure ExceptionHandler where
  start : Label
  stop : Label
  handler : Label
  caught : Option ClassName
  deriving DecidableEq

structure LocalVariable where
  range : LabelRange
  name : String
  type : Option FieldType
  signature : Option String
  index : UInt16
  deriving DecidableEq

structure Code where
  maxStack : Option UInt16 := none
  maxLocals : Option UInt16 := none
  instructions : List Entry := []
  handlers : List ExceptionHandler := []
  /-- The label that is bound to the end of the code. -/
  lastLabel : Option Label := none
  lineNumbers : List (Label × UInt16) := []
  localVariables : List LocalVariable := []
  typeAnnotations : TypeAnnotations CodeTarget := {}
  attributes : List RawAttribute := []
  deriving BEq

end JvmAsm
