import JvmAsm.Binary.Writer
import Std.Data.HashMap

namespace JvmAsm

open Binary

/-- The constants that the pool can hold. -/
inductive Constant where
  | utf8 (string : JavaString)
  | integer (value : Int32)
  | float (value : Single)
  | long (value : Int64)
  | double (value : Double)
  | className (name : ClassName)
  | string (value : JavaString)
  | fieldRef (field : FieldRef)
  | methodRef (method : MethodRef)
  | interfaceMethodRef (method : MethodRef)
  | nameAndType (name descriptor : String)
  | methodHandle (handle : Handle)
  | methodType (descriptor : MethodDescriptor)
  | dynamic (name : UnqualifiedName) (type : FieldType) (handle : Handle)
    (arguments : List Loadable)
  | invokeDynamic (site : CallSite)

/-- A method that computes constants, given by indices of the pool. -/
structure BootstrapEntry where
  handle : UInt16
  arguments : List UInt16
  deriving DecidableEq, Hashable

structure PoolBuilder where
  entries : Array PoolEntry := #[]
  indices : Std.HashMap PoolEntry UInt16 := ∅
  /-- The index of the next entry. -/
  count : Nat := 1
  bootstrapMethods : Array BootstrapEntry := #[]
  bootstrapIndices : Std.HashMap BootstrapEntry UInt16 := ∅

abbrev PoolM := EStateM Failure PoolBuilder

namespace PoolBuilder

/-- The index of an entry, which is added unless it is there already. -/
def put (entry : PoolEntry) : PoolM UInt16 := fun pool =>
  match pool.indices[entry]? with
  | some index => .ok index pool
  | none =>
    if pool.count + entry.size ≤ 0xffff then
      let index := UInt16.ofNat pool.count
      .ok index { pool with
        entries := pool.entries.push entry
        indices := pool.indices.insert entry index
        count := pool.count + entry.size }
    else .error ((Failure.ofKind .poolOverflow).within
      (.encoding (.poolCount entry pool.count))) pool

/-- The index of a bootstrap method with the given handle, which is added unless it is there. -/
def putBootstrap (handle : Handle) (entry : BootstrapEntry) : PoolM UInt16 := fun pool =>
  match pool.bootstrapIndices[entry]? with
  | some index => .ok index pool
  | none =>
    if pool.bootstrapMethods.size ≤ 0xffff then
      let index := UInt16.ofNat pool.bootstrapMethods.size
      .ok index { pool with
        bootstrapMethods := pool.bootstrapMethods.push entry
        bootstrapIndices := pool.bootstrapIndices.insert entry index }
    else .error ((Failure.ofKind .encoding).within
      (.encoding (.bootstrapCount handle entry.arguments))) pool

def javaUtf8 (string : JavaString) : PoolM UInt16 := put (.utf8 string)

def utf8 (text : String) : PoolM UInt16 := javaUtf8 (.ofString text)

def integer (value : Int32) : PoolM UInt16 := put (.integer value)

def float (value : Single) : PoolM UInt16 := put (.float value.bits)

def long (value : Int64) : PoolM UInt16 := put (.long value)

def double (value : Double) : PoolM UInt16 := put (.double value.bits)

def className (name : ClassName) : PoolM UInt16 := do
  put (.className (← utf8 name.text))

def string (value : JavaString) : PoolM UInt16 := do
  put (.string (← javaUtf8 value))

def nameAndType (name descriptor : String) : PoolM UInt16 := do
  let nameIndex ← utf8 name
  put (.nameAndType nameIndex (← utf8 descriptor))

def fieldRef (field : FieldRef) : PoolM UInt16 := do
  let owner ← className field.owner
  put (.fieldRef owner (← nameAndType field.name.text field.type.text))

def methodRef (method : MethodRef) (onInterface : Bool) : PoolM UInt16 := do
  let owner ← className method.owner
  let pair ← nameAndType method.name.text method.descriptor.text
  put (if onInterface then .interfaceMethodRef owner pair else .methodRef owner pair)

def methodHandle : Handle → PoolM UInt16
  | .field kind field => do
    put (.methodHandle kind.code (← fieldRef field))
  | .method kind method => do
    put (.methodHandle kind.code (← methodRef method kind.onInterface))

def methodType (descriptor : MethodDescriptor) : PoolM UInt16 := do
  put (.methodType (← utf8 descriptor.text))

mutual

/-- A constant that code loads or that a bootstrap method is given. -/
def loadable : Loadable → PoolM UInt16
  | .integer value => integer value
  | .float value => float value
  | .long value => long value
  | .double value => double value
  | .className name => className name
  | .string value => string value
  | .methodHandle handle => methodHandle handle
  | .methodType descriptor => methodType descriptor
  | .dynamic name type handle values => do
    let pair ← nameAndType name.text type.text
    let indices ← arguments #[] values
    let method ← putBootstrap handle ⟨← methodHandle handle, indices⟩
    put (.dynamic method pair)

/-- The indices of some constants; those found so far are kept. -/
def arguments (found : Array UInt16) : List Loadable → PoolM (List UInt16)
  | [] => return found.toList
  | value :: rest => do
    let index ← loadable value
    arguments (found.push index) rest

end

def dynamic (name : UnqualifiedName) (type : FieldType) (handle : Handle)
    (values : List Loadable) : PoolM UInt16 :=
  loadable (.dynamic name type handle values)

def invokeDynamic (site : CallSite) : PoolM UInt16 := do
  let pair ← nameAndType site.name.text site.descriptor.text
  let indices ← arguments #[] site.arguments
  let method ← putBootstrap site.handle ⟨← methodHandle site.handle, indices⟩
  put (.invokeDynamic method pair)

def constantValue : ConstantValue → PoolM UInt16
  | .integer value => integer value
  | .float value => float value
  | .long value => long value
  | .double value => double value
  | .string value => string value

/-- The index of a constant, which is added with all it refers to unless it is there already. -/
def intern : Constant → PoolM UInt16
  | .utf8 value => javaUtf8 value
  | .integer value => integer value
  | .float value => float value
  | .long value => long value
  | .double value => double value
  | .className name => className name
  | .string value => string value
  | .fieldRef field => fieldRef field
  | .methodRef method => methodRef method false
  | .interfaceMethodRef method => methodRef method true
  | .nameAndType name descriptor => nameAndType name descriptor
  | .methodHandle handle => methodHandle handle
  | .methodType descriptor => methodType descriptor
  | .dynamic name type handle values => dynamic name type handle values
  | .invokeDynamic site => invokeDynamic site

/-- The index of a constant that is given, and zero for none. -/
def optional {α : Type} (intern : α → PoolM UInt16) : Option α → PoolM UInt16
  | some value => intern value
  | none => return 0

end PoolBuilder

def PoolEntry.bytes (entry : PoolEntry) : Except Failure (List UInt8) := do
  let contents ← match entry with
    | .utf8 contents => do
      let encoded := contents.toBytes
      match size16 encoded.length with
      | .ok length => pure (length ++ encoded)
      | .error failure =>
        throw ((failure.withKind .encoding).within (.encoding .stringLength))
    | .integer value => pure (bytes32 value.toUInt32)
    | .float bits => pure (bytes32 bits)
    | .long value => pure (bytes64 value.toUInt64)
    | .double bits => pure (bytes64 bits)
    | .className index | .string index | .methodType index | .moduleName index
    | .packageName index => pure (bytes16 index)
    | .fieldRef a b | .methodRef a b | .interfaceMethodRef a b | .nameAndType a b | .dynamic a b
    | .invokeDynamic a b => pure (bytes16 a ++ bytes16 b)
    | .methodHandle kind reference => pure (kind :: bytes16 reference)
  return entry.tag :: contents

/-- The bytes of a pool, which start with the number of its indices. -/
def PoolBuilder.bytes (pool : PoolBuilder) : Except Failure (List UInt8) := do
  let entries ← pool.entries.toList.mapM PoolEntry.bytes
  return bytes16 (UInt16.ofNat pool.count) ++ entries.flatten

end JvmAsm
