import JvmAsm.Constant
import JvmAsm.Outline.Basic
import JvmAsm.Pool.Entry

namespace JvmAsm

open Number

namespace Outline

def className (name : ClassName) : Outline := .case "ClassName" [quoted name.text]

def fieldName (name : UnqualifiedName) : Outline := .case "FieldName" [quoted name.text]

def methodName (name : MethodName) : Outline := .case "MethodName" [quoted name.text]

def fieldType (type : FieldType) : Outline := .case "FieldDescriptor" [quoted type.text]

def methodDescriptor (descriptor : MethodDescriptor) : Outline :=
  .case "MethodDescriptor" [quoted descriptor.text]

def single (value : Single) : Outline := .word (FloatFormat.single.text value.bits.toNat)

def double (value : Double) : Outline := .word (FloatFormat.double.text value.bits.toNat)

def javaString (value : JavaString) : Outline := .word value.quoted

def uint16 (value : UInt16) : Outline := nat value.toNat

def uint8 (value : UInt8) : Outline := nat value.toNat

def int32 (value : Int32) : Outline := int value.toInt

def int64 (value : Int64) : Outline := int value.toInt

def fieldRef (field : FieldRef) : Outline :=
  .record "FieldRef"
    [("class", className field.owner), ("name", fieldName field.name),
      ("desc", fieldType field.type)]

def methodRef (method : MethodRef) : Outline :=
  .record "MethodRef"
    [("class", className method.owner), ("name", methodName method.name),
      ("desc", methodDescriptor method.descriptor)]

def handle : Handle → Outline
  | .field .getField field => .case "GetField" [fieldRef field]
  | .field .getStatic field => .case "GetStatic" [fieldRef field]
  | .field .putField field => .case "PutField" [fieldRef field]
  | .field .putStatic field => .case "PutStatic" [fieldRef field]
  | .method .virtual method => .case "InvokeVirtual" [methodRef method]
  | .method (.static onInterface) method =>
    .case "InvokeStatic" [methodRef method, bool onInterface]
  | .method (.special onInterface) method =>
    .case "InvokeSpecial" [methodRef method, bool onInterface]
  | .method .constructor method => .case "NewInvokeSpecial" [methodRef method]
  | .method .interface method => .case "InvokeInterface" [methodRef method]

mutual

def loadable : Loadable → Outline
  | .integer value => .case "Integer" [int32 value]
  | .float value => .case "Float" [single value]
  | .long value => .case "Long" [int64 value]
  | .double value => .case "Double" [double value]
  | .className name => .case "Class" [className name]
  | .string value => .case "String" [javaString value]
  | .methodHandle found => .case "MethodHandle" [handle found]
  | .methodType descriptor => .case "MethodType" [methodDescriptor descriptor]
  | .dynamic name type found arguments =>
    .case "Dynamic"
      [.record "ConstantDynamic"
        [("name", fieldName name), ("descriptor", fieldType type), ("handle", handle found),
          ("arguments", .list (loadables #[] arguments).toList)]]

/-- The outlines of some constants after those found so far. -/
def loadables (found : Array Outline) : List Loadable → Array Outline
  | [] => found
  | value :: rest => loadables (found.push (loadable value)) rest

end

def callSite (site : CallSite) : Outline :=
  .record "InvokeDynamic"
    [("name", methodName site.name), ("descriptor", methodDescriptor site.descriptor),
      ("handle", handle site.handle), ("arguments", listOf loadable site.arguments)]

def constantValue : ConstantValue → Outline
  | .integer value => .case "Integer" [int32 value]
  | .float value => .case "Float" [single value]
  | .long value => .case "Long" [int64 value]
  | .double value => .case "Double" [double value]
  | .string value => .case "String" [javaString value]

def memberEntry (name : String) (owner nameAndType : UInt16) : Outline :=
  .record name [("class_index", uint16 owner), ("name_and_type_index", uint16 nameAndType)]

def computedEntry (name : String) (bootstrapMethod nameAndType : UInt16) : Outline :=
  .record name
    [("bootstrap_method_attribute_index", uint16 bootstrapMethod),
      ("name_and_type_index", uint16 nameAndType)]

def poolEntry : PoolEntry → Outline
  | .utf8 string => .record "Utf8" [("string", javaString string)]
  | .integer value => .record "Integer" [("bytes", int32 value)]
  | .float bits => .record "Float" [("bytes", nat bits.toNat)]
  | .long value => .record "Long" [("bytes", int64 value)]
  | .double bits => .record "Double" [("bytes", nat bits.toNat)]
  | .className name => .record "Class" [("name_index", uint16 name)]
  | .string text => .record "String" [("string_index", uint16 text)]
  | .fieldRef owner nameAndType => memberEntry "FieldRef" owner nameAndType
  | .methodRef owner nameAndType => memberEntry "MethodRef" owner nameAndType
  | .interfaceMethodRef owner nameAndType => memberEntry "InterfaceMethodRef" owner nameAndType
  | .nameAndType name descriptor =>
    .record "NameAndType" [("name_index", uint16 name), ("descriptor_index", uint16 descriptor)]
  | .methodHandle kind reference =>
    .record "MethodHandle"
      [("reference_kind", uint8 kind), ("reference_index", uint16 reference)]
  | .methodType descriptor => .record "MethodType" [("descriptor_index", uint16 descriptor)]
  | .dynamic bootstrapMethod nameAndType => computedEntry "Dynamic" bootstrapMethod nameAndType
  | .invokeDynamic bootstrapMethod nameAndType =>
    computedEntry "InvokeDynamic" bootstrapMethod nameAndType
  | .moduleName _ => .word "Module"
  | .packageName _ => .word "Package"

/-- A method that computes constants, with the indices of its arguments. -/
def bootstrapMethod (name : String) (found : Handle) (arguments : List UInt16) : Outline :=
  .record name [("handle", handle found), ("arguments", listOf uint16 arguments)]

end Outline

end JvmAsm
