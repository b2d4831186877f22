import JvmAsm.Descriptor.Text
import JvmAsm.JavaString.Basic
import JvmAsm.Number.Decimal

namespace JvmAsm

open Number

/-- A floating point number of thirty-two bits, kept with its exact bits. -/
structure Single where
  bits : UInt32
  deriving Repr

/-- A floating point number of sixty-four bits, kept with its exact bits. -/
structure Double where
  bits : UInt64
  deriving Repr

/-- Numbers are compared as numbers: both zeros are equal, and what is no number equals nothing. -/
def Number.FloatFormat.sameNumber (format : FloatFormat) (a b : Nat) : Bool :=
  !format.isNaN a && !format.isNaN b &&
    (a == b || (format.magnitude a == 0 && format.magnitude b == 0))

instance : BEq Single where
  beq a b := FloatFormat.single.sameNumber a.bits.toNat b.bits.toNat

instance : BEq Double where
  beq a b := FloatFormat.double.sameNumber a.bits.toNat b.bits.toNat

structure FieldRef where
  owner : ClassName
  name : UnqualifiedName
  type : FieldType
  deriving DecidableEq

structure MethodRef where
  owner : ClassName
  name : MethodName
  descriptor : MethodDescriptor
  deriving DecidableEq

inductive FieldHandleKind where
  | getField | getStatic | putField | putStatic
  deriving DecidableEq, Repr

/--
The ways in which a method handle gets to a method. Static and special methods say whether their
owner is an interface.
-/
inductive MethodHandleKind where
  | virtual
  | static (onInterface : Bool)
  | special (onInterface : Bool)
  | constructor
  | interface
  deriving DecidableEq, Repr

namespace FieldHandleKind

def code : FieldHandleKind → UInt8
  | .getField => 1
  | .getStatic => 2
  | .putField => 3
  | .putStatic => 4

def keyword : FieldHandleKind → String
  | .getField => "H_GETFIELD"
  | .getStatic => "H_GETSTATIC"
  | .putField => "H_PUTFIELD"
  | .putStatic => "H_PUTSTATIC"

def all : List FieldHandleKind := [.getField, .getStatic, .putField, .putStatic]

def ofKeyword? (text : String) : Option FieldHandleKind :=
  all.find? fun kind => kind.keyword == text

end FieldHandleKind

namespace MethodHandleKind

def code : MethodHandleKind → UInt8
  | .virtual => 5
  | .static _ => 6
  | .special _ => 7
  | .constructor => 8
  | .interface => 9

def keyword : MethodHandleKind → String
  | .virtual => "H_INVOKEVIRTUAL"
  | .static _ => "H_INVOKESTATIC"
  | .special _ => "H_INVOKESPECIAL"
  | .constructor => "H_NEWINVOKESPECIAL"
  | .interface => "H_INVOKEINTERFACE"

/-- The kinds, where the owner is an interface or not. -/
def all (onInterface : Bool) : List MethodHandleKind :=
  [.virtual, .static onInterface, .special onInterface, .constructor, .interface]

def ofKeyword? (text : String) (onInterface : Bool) : Option MethodHandleKind :=
  (all onInterface).find? fun kind => kind.keyword == text

def onInterface : MethodHandleKind → Bool
  | .static onInterface => onInterface
  | .special onInterface => onInterface
  | .interface => true
  | _ => false

end MethodHandleKind

inductive Handle where
  | field (kind : FieldHandleKind) (field : FieldRef)
  | method (kind : MethodHandleKind) (method : MethodRef)
  deriving DecidableEq

/-- The constants that code can load. -/
inductive Loadable where
  | integer (value : Int32)
  | float (value : Single)
  | long (value : Int64)
  | double (value : Double)
  | className (name : ClassName)
  | string (value : JavaString)
  | methodHandle (handle : Handle)
  | methodType (descriptor : MethodDescriptor)
  | dynamic (name : UnqualifiedName) (type : FieldType) (handle : Handle)
    (arguments : List Loadable)

mutual

def Loadable.same : Loadable → Loadable → Bool
  | .integer a, .integer b => a == b
  | .float a, .float b => a == b
  | .long a, .long b => a == b
  | .double a, .double b => a == b
  | .className a, .className b => a == b
  | .string a, .string b => a == b
  | .methodHandle a, .methodHandle b => a == b
  | .methodType a, .methodType b => a == b
  | .dynamic name type handle arguments, .dynamic name' type' handle' arguments' =>
    name == name' && type == type' && handle == handle' && Loadable.sameAll arguments arguments'
  | _, _ => false

def Loadable.sameAll : List Loadable → List Loadable → Bool
  | [], [] => true
  | a :: rest, b :: rest' => a.same b && Loadable.sameAll rest rest'
  | _, _ => false

end

instance : BEq Loadable := ⟨Loadable.same⟩

/-- A call site whose target is computed when it is first reached. -/
structure CallSite where
  name : MethodName
  descriptor : MethodDescriptor
  handle : Handle
  arguments : List Loadable
  deriving BEq

/-- The value that a field starts with. -/
inductive ConstantValue where
  | integer (value : Int32)
  | float (value : Single)
  | long (value : Int64)
  | double (value : Double)
  | string (value : JavaString)
  deriving BEq

namespace ConstantValue

def fits : ConstantValue → FieldType → Bool
  | .integer _, .element (.primitive kind) =>
    match kind with
    | .int | .short | .char | .byte | .boolean => true
    | _ => false
  | .float _, type => type == .primitive .float
  | .long _, type => type == .primitive .long
  | .double _, type => type == .primitive .double
  | .string _, type => type == .object .string
  | _, _ => false

end ConstantValue

end JvmAsm
