import JvmAsm.Constant

namespace JvmAsm

inductive VerificationType where
  | top
  | int
  | float
  | long
  | double
  | null
  | uninitializedThis
  | object (name : ClassName)
  /-- The object created by the instruction at an index, before its constructor has been called. -/
  | uninitialized (index : Nat)
  deriving DecidableEq

namespace VerificationType

def ofClass (name : ObjectName) : VerificationType := .object (.object name)

def ofPrimitive : Primitive → VerificationType
  | .byte | .char | .int | .short | .boolean => .int
  | .float => .float
  | .long => .long
  | .double => .double

def ofFieldType : FieldType → VerificationType
  | .element (.primitive kind) => ofPrimitive kind
  | .element (.object name) => ofClass name
  | .array type => .object (.array type)

/-- Values of a wide type take two local variables. -/
def isWide : VerificationType → Bool
  | .long | .double => true
  | _ => false

def size (type : VerificationType) : Nat := if type.isWide then 2 else 1

def isReference : VerificationType → Bool
  | .null | .object _ | .uninitializedThis | .uninitialized _ => true
  | _ => false

def text : VerificationType → String
  | .top => "top"
  | .int => "int"
  | .float => "float"
  | .long => "long"
  | .double => "double"
  | .null => "null"
  | .uninitializedThis => "uninitializedThis"
  | .object name => name.text
  | .uninitialized index => "uninitialized(" ++ toString index ++ ")"

/-- The type of a constant that code loads. -/
def ofLoadable : Loadable → VerificationType
  | .integer _ => .int
  | .float _ => .float
  | .long _ => .long
  | .double _ => .double
  | .className _ => ofClass .classLiteral
  | .string _ => ofClass .string
  | .methodHandle _ => ofClass .methodHandle
  | .methodType _ => ofClass .methodType
  | .dynamic _ type _ _ => ofFieldType type

end VerificationType

end JvmAsm
