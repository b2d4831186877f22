import JvmAsm.Name

namespace JvmAsm

inductive Primitive where
  | byte | char | double | float | int | long | short | boolean
  deriving DecidableEq, Repr

namespace Primitive

def letter : Primitive → Char
  | .byte => 'B'
  | .char => 'C'
  | .double => 'D'
  | .float => 'F'
  | .int => 'I'
  | .long => 'J'
  | .short => 'S'
  | .boolean => 'Z'

def ofLetter? : Char → Option Primitive
  | 'B' => some .byte
  | 'C' => some .char
  | 'D' => some .double
  | 'F' => some .float
  | 'I' => some .int
  | 'J' => some .long
  | 'S' => some .short
  | 'Z' => some .boolean
  | _ => none

def keyword : Primitive → String
  | .byte => "byte"
  | .char => "char"
  | .double => "double"
  | .float => "float"
  | .int => "int"
  | .long => "long"
  | .short => "short"
  | .boolean => "boolean"

def all : List Primitive := [.byte, .char, .double, .float, .int, .long, .short, .boolean]

def ofKeyword? (text : String) : Option Primitive :=
  all.find? fun primitive => primitive.keyword == text

/-- The number by which an instruction that creates an array names the type of its elements. -/
def arrayCode : Primitive → UInt8
  | .boolean => 4
  | .char => 5
  | .float => 6
  | .double => 7
  | .byte => 8
  | .short => 9
  | .int => 10
  | .long => 11

def ofArrayCode? (code : UInt8) : Option Primitive :=
  all.find? fun primitive => primitive.arrayCode == code

end Primitive

/-- The types that arrays are made of in the end. -/
inductive ElementType where
  | primitive (primitive : Primitive)
  | object (name : ObjectName)
  deriving DecidableEq

structure ArrayType where
  dimensions : Nat
  element : ElementType
  positive : 0 < dimensions
  bounded : dimensions ≤ 255
  deriving DecidableEq

def ArrayType.single (element : ElementType) : ArrayType :=
  ⟨1, element, Nat.one_pos, Nat.le_of_ble_eq_true rfl⟩

inductive FieldType where
  | element (element : ElementType)
  | array (type : ArrayType)
  deriving DecidableEq

/-- The classes that the constant pool can name. -/
inductive ClassName where
  | object (name : ObjectName)
  | array (type : ArrayType)
  deriving DecidableEq

structure MethodDescriptor where
  parameters : List FieldType
  returned : Option FieldType
  deriving DecidableEq

namespace FieldType

def primitive (primitive : Primitive) : FieldType := .element (.primitive primitive)

def object (name : ObjectName) : FieldType := .element (.object name)

/-- The number of local variables that a value of the type takes. -/
def size : FieldType → Nat
  | .element (.primitive .double) => 2
  | .element (.primitive .long) => 2
  | _ => 1

end FieldType

def ArrayType.component (type : ArrayType) : FieldType :=
  if positive : 0 < type.dimensions - 1 then
    .array ⟨type.dimensions - 1, type.element, positive, Nat.le_trans (Nat.sub_le _ _) type.bounded⟩
  else .element type.element

/-- The arrays of a type, unless they would have too many dimensions. -/
def FieldType.arrayOf? : FieldType → Option ArrayType
  | .element base => some ⟨1, base, by decide, by decide⟩
  | .array type =>
    if bounded : type.dimensions + 1 ≤ 255 then
      some ⟨type.dimensions + 1, type.element, Nat.succ_pos _, bounded⟩
    else none

def FieldType.component? : FieldType → Option FieldType
  | .element _ => none
  | .array type => some type.component

def FieldType.className? : FieldType → Option ClassName
  | .element (.primitive _) => none
  | .element (.object name) => some (.object name)
  | .array type => some (.array type)

namespace ClassName

def root : ClassName := .object .root

def throwable : ClassName := .object .throwable

def isArray : ClassName → Bool
  | .object _ => false
  | .array _ => true

def fieldType : ClassName → FieldType
  | .object name => .object name
  | .array type => .array type

/-- The arrays of a class, unless they would have too many dimensions. -/
def arrayOf? (name : ClassName) : Option ClassName := name.fieldType.arrayOf?.map .array

end ClassName

/-- The number of local variables of an instance method's arguments, counted in sixteen bits. -/
def MethodDescriptor.argumentSize (descriptor : MethodDescriptor) : UInt16 :=
  descriptor.parameters.foldl (fun size type => size + UInt16.ofNat type.size) 0 + 1

end JvmAsm
