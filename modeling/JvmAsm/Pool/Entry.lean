import JvmAsm.JavaString.Basic

namespace JvmAsm

inductive PoolEntry where
  | utf8 (string : JavaString)
  | integer (value : Int32)
  | float (bits : UInt32)
  | long (value : Int64)
  | double (bits : UInt64)
  | className (name : UInt16)
  | string (text : UInt16)
  | fieldRef (owner nameAndType : UInt16)
  | methodRef (owner nameAndType : UInt16)
  | interfaceMethodRef (owner nameAndType : UInt16)
  | nameAndType (name descriptor : UInt16)
  | methodHandle (kind : UInt8) (reference : UInt16)
  | methodType (descriptor : UInt16)
  | dynamic (bootstrapMethod nameAndType : UInt16)
  | invokeDynamic (bootstrapMethod nameAndType : UInt16)
  | moduleName (name : UInt16)
  | packageName (name : UInt16)
  deriving DecidableEq

namespace PoolEntry

/-- The number of indices that an entry takes. -/
def size : PoolEntry → Nat
  | .long _ | .double _ => 2
  | _ => 1

def tag : PoolEntry → UInt8
  | .utf8 _ => 1
  | .integer _ => 3
  | .float _ => 4
  | .long _ => 5
  | .double _ => 6
  | .className _ => 7
  | .string _ => 8
  | .fieldRef .. => 9
  | .methodRef .. => 10
  | .interfaceMethodRef .. => 11
  | .nameAndType .. => 12
  | .methodHandle .. => 15
  | .methodType _ => 16
  | .dynamic .. => 17
  | .invokeDynamic .. => 18
  | .moduleName _ => 19
  | .packageName _ => 20

/-- A number that is the same for equal entries. -/
def hashCode (entry : PoolEntry) : UInt64 :=
  let both (a b : UInt16) : UInt64 := mixHash a.toUInt64 b.toUInt64
  mixHash entry.tag.toUInt64 <| match entry with
    | .utf8 contents => hash contents
    | .integer value => value.toUInt32.toUInt64
    | .float bits => bits.toUInt64
    | .long value => value.toUInt64
    | .double bits => bits
    | .className name => name.toUInt64
    | .string text => text.toUInt64
    | .fieldRef a b | .methodRef a b | .interfaceMethodRef a b | .nameAndType a b => both a b
    | .methodHandle kind reference => mixHash kind.toUInt64 reference.toUInt64
    | .methodType descriptor => descriptor.toUInt64
    | .dynamic a b | .invokeDynamic a b => both a b
    | .moduleName name | .packageName name => name.toUInt64

instance : Hashable PoolEntry := ⟨hashCode⟩

end PoolEntry

end JvmAsm
