import JvmAsm.Binary.Reader

namespace JvmAsm

open Binary ByteReader

/-- The entries by their indices. The first index and the second ones of wide entries have none. -/
structure PoolTable where
  entries : Array (Option PoolEntry)

/-- A method that computes constants, with its arguments as indices. -/
structure BootstrapMethod where
  handle : Handle
  arguments : List UInt16
  deriving DecidableEq

def readUtf8 (index : Nat) : ByteReader PoolEntry := do
  let length ← u16
  let contents ← bytes length.toNat
  match JavaString.ofBytes contents with
  | .ok string => return .utf8 string
  | .error fault =>
    throw (((Failure.ofCause (.binary (.utf8 fault))).within (.binary .invalidUtf8)).within
      (.binary (.readingEntry index)))

/-- Reads two indices. -/
def readPair (entry : UInt16 → UInt16 → PoolEntry) : ByteReader PoolEntry := do
  let first ← u16
  return entry first (← u16)

def PoolEntry.read (index : Nat) : ByteReader PoolEntry := do
  let tag ← u8
  match tag with
  | 1 => readUtf8 index
  | 3 => return .integer (← i32)
  | 4 => return .float (← u32)
  | 5 => return .long (← i64)
  | 6 => return .double (← u64)
  | 7 => return .className (← u16)
  | 8 => return .string (← u16)
  | 9 => readPair .fieldRef
  | 10 => readPair .methodRef
  | 11 => readPair .interfaceMethodRef
  | 12 => readPair .nameAndType
  | 15 =>
    let kind ← u8
    return .methodHandle kind (← u16)
  | 16 => return .methodType (← u16)
  | 17 => readPair .dynamic
  | 18 => readPair .invokeDynamic
  | 19 => return .moduleName (← u16)
  | 20 => return .packageName (← u16)
  | _ => fail (.unknownTag tag index)

namespace PoolTable

/-- Reads entries until there are enough; every turn adds one at least. -/
def readFrom (count : Nat) : Nat → Array (Option PoolEntry) → ByteReader (Array (Option PoolEntry))
  | 0, entries => return entries
  | fuel + 1, entries =>
    if entries.size < count then do
      let entry ← PoolEntry.read entries.size
      let entries := entries.push (some entry)
      readFrom count fuel (if entry.size == 2 then entries.push none else entries)
    else return entries

def read : ByteReader PoolTable := do
  let count ← u16
  let count := count.toNat
  let entries ← readFrom count count #[none]
  if max count 1 < entries.size then fail (.entryPastEnd count)
  return ⟨entries⟩

abbrev Result := Except Failure

/-- A failure with a single cause. -/
def refuse {α : Type} (cause : BinaryCause) : Result α := .error (.ofCause (.binary cause))

/-- Puts the index of the entry that is asked for around a failure. -/
def gettingEntry {α : Type} (index : UInt16) (result : Result α) : Result α :=
  result.mapError fun failure => failure.within (.binary (.gettingEntry index))

def entry (table : PoolTable) (index : UInt16) : Result PoolEntry :=
  match table.entries[index.toNat]? with
  | some (some entry) => .ok entry
  | _ => refuse (.noEntry index)

/-- Index zero stands for nothing. -/
def optional {α : Type} (index : UInt16) (result : Result α) : Result (Option α) :=
  if index == 0 then .ok none else result.map some

def javaString (table : PoolTable) (index : UInt16) : Result JavaString := do
  match ← table.entry index with
  | .utf8 string => return string
  | found => refuse (.wrongEntry .utf8 found)

/-- A text such as a name or a descriptor. -/
def text (table : PoolTable) (index : UInt16) : Result String :=
  gettingEntry index do
    let string ← table.javaString index
    match string.text? with
    | some text => return text
    | none => .error (.ofCause (.text (.loneSurrogates string)))

def checked {α : Type} (kind : NameKind) (read? : String → Option α) (text : String) : Result α :=
  match read? text with
  | some value => .ok value
  | none => .error (.ofCause (.text (.invalidName kind text)))

def fieldType (table : PoolTable) (index : UInt16) : Result FieldType := do
  checked .fieldDescriptor FieldType.ofString? (← table.text index)

def methodDescriptor (table : PoolTable) (index : UInt16) : Result MethodDescriptor := do
  checked .methodDescriptor MethodDescriptor.ofString? (← table.text index)

def fieldName (table : PoolTable) (index : UInt16) : Result UnqualifiedName := do
  checked .fieldName UnqualifiedName.ofString? (← table.text index)

def methodName (table : PoolTable) (index : UInt16) : Result MethodName := do
  checked .methodName MethodName.ofString? (← table.text index)

def recordName (table : PoolTable) (index : UInt16) : Result UnqualifiedName := do
  checked .recordName UnqualifiedName.ofString? (← table.text index)

def string (table : PoolTable) (index : UInt16) : Result JavaString := do
  match ← table.entry index with
  | .string text => table.javaString text
  | found => refuse (.wrongEntry .string found)

def className (table : PoolTable) (index : UInt16) : Result ClassName :=
  gettingEntry index do
    match ← table.entry index with
    | .className name => checked .className ClassName.ofString? (← table.text name)
    | found => refuse (.wrongEntry .className found)

/-- The name and the descriptor of a member, with the given readers for both. -/
def nameAndType {α β : Type} (table : PoolTable) (name : UInt16 → Result α)
    (descriptor : UInt16 → Result β) (index : UInt16) : Result (α × β) :=
  gettingEntry index do
    match ← table.entry index with
    | .nameAndType nameIndex descriptorIndex =>
      let name ← name nameIndex
      return (name, ← descriptor descriptorIndex)
    | found => refuse (.wrongEntry .nameAndType found)

def fieldNameAndType (table : PoolTable) (index : UInt16) : Result (UnqualifiedName × FieldType) :=
  table.nameAndType table.fieldName table.fieldType index

def methodNameAndType (table : PoolTable) (index : UInt16) :
    Result (MethodName × MethodDescriptor) :=
  table.nameAndType table.methodName table.methodDescriptor index

def fieldRef (table : PoolTable) (index : UInt16) : Result FieldRef :=
  gettingEntry index do
    match ← table.entry index with
    | .fieldRef owner nameAndType =>
      let owner ← table.className owner
      let (name, type) ← table.fieldNameAndType nameAndType
      return ⟨owner, name, type⟩
    | found => refuse (.wrongEntry .fieldRef found)

def anyMethodRef (table : PoolTable) (index : UInt16) : Result (MethodRef × Bool) :=
  gettingEntry index do
    let found (owner nameAndType : UInt16) (onInterface : Bool) : Result (MethodRef × Bool) := do
      let owner ← table.className owner
      let (name, descriptor) ← table.methodNameAndType nameAndType
      return (⟨owner, name, descriptor⟩, onInterface)
    match ← table.entry index with
    | .methodRef owner nameAndType => found owner nameAndType false
    | .interfaceMethodRef owner nameAndType => found owner nameAndType true
    | found => refuse (.wrongEntry .anyMethodRef found)

def methodRef (table : PoolTable) (index : UInt16) : Result MethodRef := do
  match ← table.anyMethodRef index with
  | (method, false) => return method
  | (_, true) => refuse (.wrongOwner index true)

def interfaceMethodRef (table : PoolTable) (index : UInt16) : Result MethodRef := do
  match ← table.anyMethodRef index with
  | (method, true) => return method
  | (_, false) => refuse (.wrongOwner index false)

def integer (table : PoolTable) (index : UInt16) : Result Int32 := do
  match ← table.entry index with
  | .integer value => return value
  | found => refuse (.wrongEntryAt index .integer found)

def float (table : PoolTable) (index : UInt16) : Result Single := do
  match ← table.entry index with
  | .float bits => return ⟨bits⟩
  | found => refuse (.wrongEntryAt index .float found)

def long (table : PoolTable) (index : UInt16) : Result Int64 := do
  match ← table.entry index with
  | .long value => return value
  | found => refuse (.wrongEntryAt index .long found)

def double (table : PoolTable) (index : UInt16) : Result Double := do
  match ← table.entry index with
  | .double bits => return ⟨bits⟩
  | found => refuse (.wrongEntryAt index .double found)

def methodHandle (table : PoolTable) (index : UInt16) : Result Handle :=
  gettingEntry index do
    match ← table.entry index with
    | .methodHandle kind reference =>
      match kind with
      | 1 => return .field .getField (← table.fieldRef reference)
      | 2 => return .field .getStatic (← table.fieldRef reference)
      | 3 => return .field .putField (← table.fieldRef reference)
      | 4 => return .field .putStatic (← table.fieldRef reference)
      | 5 => return .method .virtual (← table.methodRef reference)
      | 6 =>
        let (method, onInterface) ← table.anyMethodRef reference
        return .method (.static onInterface) method
      | 7 =>
        let (method, onInterface) ← table.anyMethodRef reference
        return .method (.special onInterface) method
      | 8 => return .method .constructor (← table.methodRef reference)
      | 9 => return .method .interface (← table.interfaceMethodRef reference)
      | _ => refuse (.unknownHandleKind kind)
    | found => refuse (.wrongEntry .methodHandle found)

def methodType (table : PoolTable) (index : UInt16) : Result MethodDescriptor := do
  match ← table.entry index with
  | .methodType descriptor => table.methodDescriptor descriptor
  | found => refuse (.wrongEntry .methodType found)

/-- The bootstrap methods, if the class has them. -/
abbrev Bootstrap := Option (Array BootstrapMethod)

def bootstrapMethod (bootstrap : Bootstrap) (index : UInt16) : Result BootstrapMethod :=
  match bootstrap with
  | none => refuse .noBootstrapMethods
  | some methods =>
    match methods[index.toNat]? with
    | some method => .ok method
    | none => refuse (.noBootstrapMethod index)

/-- Constants for each of the indices; those found so far are kept. -/
def allOf (get : UInt16 → Result Loadable) : List UInt16 → Array Loadable → Result (List Loadable)
  | [], found => .ok found.toList
  | index :: rest, found => do
    let value ← get index
    allOf get rest (found.push value)

/--
A constant that code can load, whose dynamic constants are nested at most as deep as the fuel. A
dynamic constant takes one level.
-/
def loadableWithin (table : PoolTable) (bootstrap : Bootstrap) (fuel : Nat) (index : UInt16) :
    Result Loadable :=
  gettingEntry index do
    match ← table.entry index with
    | .integer value => return .integer value
    | .float bits => return .float ⟨bits⟩
    | .long value => return .long value
    | .double bits => return .double ⟨bits⟩
    | .className _ => return .className (← table.className index)
    | .string _ => return .string (← table.string index)
    | .methodHandle .. => return .methodHandle (← table.methodHandle index)
    | .methodType _ => return .methodType (← table.methodType index)
    | .dynamic bootstrapMethod nameAndType =>
      match fuel with
      | 0 => refuse .dynamicDepth
      | fuel + 1 =>
        let (name, type) ← table.fieldNameAndType nameAndType
        let method ← PoolTable.bootstrapMethod bootstrap bootstrapMethod
        let arguments ← (allOf (loadableWithin table bootstrap fuel) method.arguments #[]).mapError
          fun failure => failure.within (.binary (.inDynamic name type))
        return .dynamic name type method.handle arguments
    | found => refuse (.notLoadable found)

/-- How deep dynamic constants may be nested in the arguments of one. -/
def maxDynamicDepth : Nat := 32

def loadable (table : PoolTable) (bootstrap : Bootstrap) (index : UInt16) : Result Loadable :=
  table.loadableWithin bootstrap (maxDynamicDepth + 1) index

def callSite (table : PoolTable) (bootstrap : Bootstrap) (index : UInt16) : Result CallSite :=
  gettingEntry index do
    match ← table.entry index with
    | .invokeDynamic bootstrapMethod nameAndType =>
      let (name, descriptor) ← table.methodNameAndType nameAndType
      let method ← PoolTable.bootstrapMethod bootstrap bootstrapMethod
      let arguments ← (allOf (table.loadableWithin bootstrap maxDynamicDepth) method.arguments
        #[]).mapError fun failure => failure.within (.binary (.inInvokeDynamic name descriptor))
      return ⟨name, descriptor, method.handle, arguments⟩
    | found => refuse (.wrongEntry .invokeDynamic found)

def constantValue (table : PoolTable) (index : UInt16) : Result ConstantValue :=
  gettingEntry index do
    match ← table.entry index with
    | .integer value => return .integer value
    | .float bits => return .float ⟨bits⟩
    | .long value => return .long value
    | .double bits => return .double ⟨bits⟩
    | .string _ => return .string (← table.string index)
    | found => refuse (.notConstantValue found)

end PoolTable

end JvmAsm
