import JvmAsm.Constant

namespace JvmAsm

inductive ElementValue where
  | byte (value : Int8)
  | char (value : UInt16)
  | double (value : Double)
  | float (value : Single)
  | int (value : Int32)
  | long (value : Int64)
  | short (value : Int16)
  | boolean (value : Bool)
  | string (value : JavaString)
  | enumConstant (type : FieldType) (name : String)
  | classLiteral (type : Option FieldType)
  | nested (type : FieldType) (elements : List (String × ElementValue))
  | array (values : List ElementValue)

structure Annotation where
  type : FieldType
  elements : List (String × ElementValue)

mutual

def ElementValue.same : ElementValue → ElementValue → Bool
  | .byte a, .byte b => a == b
  | .char a, .char b => a == b
  | .double a, .double b => a == b
  | .float a, .float b => a == b
  | .int a, .int b => a == b
  | .long a, .long b => a == b
  | .short a, .short b => a == b
  | .boolean a, .boolean b => a == b
  | .string a, .string b => a == b
  | .enumConstant type name, .enumConstant type' name' => type == type' && name == name'
  | .classLiteral a, .classLiteral b => a == b
  | .nested type elements, .nested type' elements' =>
    type == type' && ElementValue.sameElements elements elements'
  | .array values, .array values' => ElementValue.sameAll values values'
  | _, _ => false

def ElementValue.sameAll : List ElementValue → List ElementValue → Bool
  | [], [] => true
  | a :: rest, b :: rest' => a.same b && ElementValue.sameAll rest rest'
  | _, _ => false

def ElementValue.sameElements : List (String × ElementValue) → List (String × ElementValue) → Bool
  | [], [] => true
  | (name, value) :: rest, (name', value') :: rest' =>
    name == name' && value.same value' && ElementValue.sameElements rest rest'
  | _, _ => false

end

instance : BEq ElementValue := ⟨ElementValue.same⟩

instance : BEq Annotation where
  beq a b := a.type == b.type && ElementValue.sameElements a.elements b.elements

/-- Annotations are kept apart by whether they can be seen at run time. -/
structure ByVisibility (α : Type) where
  visible : List α := []
  invisible : List α := []
  deriving BEq

abbrev Annotations := ByVisibility Annotation

end JvmAsm
