import JvmAsm.Decode.Code

namespace JvmAsm

namespace Decode

open Binary ByteReader

/-- The attributes of a field, as far as they have been read. -/
structure FieldDraft where
  marks : Marks := {}
  shared : Shared FieldTarget := {}
  constantValue : Option ConstantValue := none

namespace FieldDraft

def step (table : PoolTable) (fieldName : UnqualifiedName) (type : FieldType) (draft : FieldDraft)
    (name : String) (length : Nat) : ByteReader FieldDraft := do
  match name with
  | "Deprecated" =>
    contents name length (pure ())
    return { draft with marks := { draft.marks with isDeprecated := true } }
  | "Synthetic" =>
    contents name length (pure ())
    return { draft with marks := { draft.marks with isSynthetic := true } }
  | "ConstantValue" =>
    let value ← contents name length (entry table.constantValue)
    if !value.fits type then fail (.unfitConstant value fieldName type)
    let constantValue ← only name Outline.constantValue draft.constantValue value
    return { draft with constantValue }
  | _ =>
    let shared ← draft.shared.step table fieldTarget Outline.fieldTarget name length
    return { draft with shared }

end FieldDraft

def readField (table : PoolTable) : ByteReader Field := do
  let access ← u16
  let name ← entry table.fieldName
  let type ← entry table.fieldType
  let draft ← attributes table (FieldDraft.step table name type) {}
  return {
    access := ⟨access⟩
    name
    type
    isDeprecated := draft.marks.isDeprecated
    isSynthetic := draft.marks.isSynthetic
    constantValue := draft.constantValue
    signature := draft.shared.signature
    annotations := draft.shared.annotations
    typeAnnotations := draft.shared.typeAnnotations
    attributes := draft.shared.raw.toList }

/-- The attributes of a method, as far as they have been read. -/
structure MethodDraft where
  marks : Marks := {}
  shared : Shared MethodTarget := {}
  code : Option Code := none
  exceptions : Option (List ClassName) := none
  visibleParameters : Option (List (List Annotation)) := none
  invisibleParameters : Option (List (List Annotation)) := none
  annotationDefault : Option ElementValue := none
  parameters : Option (List MethodParameter) := none

def methodParameter (table : PoolTable) : ByteReader MethodParameter := do
  let name ← optionalEntry table.text
  return ⟨name, ⟨← u16⟩⟩

namespace MethodDraft

def step (table : PoolTable) (bootstrap : PoolTable.Bootstrap) (classStart : Nat)
    (methodName : MethodName) (descriptor : MethodDescriptor) (draft : MethodDraft)
    (name : String) (length : Nat) : ByteReader MethodDraft := do
  match name with
  | "Deprecated" =>
    contents name length (pure ())
    return { draft with marks := { draft.marks with isDeprecated := true } }
  | "Synthetic" =>
    contents name length (pure ())
    return { draft with marks := { draft.marks with isSynthetic := true } }
  | "Code" =>
    let code ← within (.inCode methodName descriptor)
      (contents name length (readCode table bootstrap classStart))
    return { draft with code := ← only name Outline.code draft.code code }
  | "Exceptions" =>
    let exceptions ← once name length (Outline.listOf Outline.className) draft.exceptions
      (list16 (entry table.className))
    return { draft with exceptions }
  | "RuntimeVisibleParameterAnnotations" =>
    let visibleParameters ←
      once name length (Outline.listOf Outline.notes) draft.visibleParameters
        (list8 (annotationList table))
    return { draft with visibleParameters }
  | "RuntimeInvisibleParameterAnnotations" =>
    let invisibleParameters ←
      once name length (Outline.listOf Outline.notes) draft.invisibleParameters
        (list8 (annotationList table))
    return { draft with invisibleParameters }
  | "AnnotationDefault" =>
    let annotationDefault ←
      once name length Outline.elementValue draft.annotationDefault (elementValue table)
    return { draft with annotationDefault }
  | "MethodParameters" =>
    let parameters ←
      once name length (Outline.listOf Outline.methodParameter) draft.parameters
        (list8 (methodParameter table))
    return { draft with parameters }
  | _ =>
    let shared ← draft.shared.step table methodTarget Outline.methodTarget name length
    return { draft with shared }

end MethodDraft

def readMethod (table : PoolTable) (bootstrap : PoolTable.Bootstrap) (classStart : Nat) :
    ByteReader Method := do
  let access ← u16
  let name ← entry table.methodName
  let descriptor ← entry table.methodDescriptor
  let draft ← attributes table (MethodDraft.step table bootstrap classStart name descriptor) {}
  return {
    access := ⟨access⟩
    name
    descriptor
    isDeprecated := draft.marks.isDeprecated
    isSynthetic := draft.marks.isSynthetic
    code := draft.code
    exceptions := draft.exceptions.getD []
    signature := draft.shared.signature
    annotations := draft.shared.annotations
    typeAnnotations := draft.shared.typeAnnotations
    parameterAnnotations := ⟨draft.visibleParameters, draft.invisibleParameters⟩
    annotationDefault := draft.annotationDefault
    parameters := draft.parameters
    attributes := draft.shared.raw.toList }

def recordComponent (table : PoolTable) : ByteReader RecordComponent := do
  let name ← entry table.recordName
  let type ← entry table.fieldType
  let shared ← attributes table (Shared.step table fieldTarget Outline.fieldTarget) {}
  return {
    name
    type
    signature := shared.signature
    annotations := shared.annotations
    typeAnnotations := shared.typeAnnotations
    attributes := shared.raw.toList }

def innerClass (table : PoolTable) : ByteReader InnerClass := do
  let inner ← entry table.className
  let outer ← optionalEntry table.className
  let name ← optionalEntry table.text
  return ⟨inner, outer, name, ⟨← u16⟩⟩

def enclosingMethod (table : PoolTable) : ByteReader EnclosingMethod := do
  let owner ← entry table.className
  return ⟨owner, ← optionalEntry table.methodNameAndType⟩

def bootstrapMethod (table : PoolTable) : ByteReader BootstrapMethod := do
  let handle ← entry table.methodHandle
  return ⟨handle, ← list16 u16⟩

def BootstrapMethod.outline (method : BootstrapMethod) : Outline :=
  Outline.bootstrapMethod "BootstrapMethodRead" method.handle method.arguments

/-- The attributes of a class, as far as they have been read. -/
structure ClassDraft where
  marks : Marks := {}
  shared : Shared ClassTarget := {}
  innerClasses : Option (List InnerClass) := none
  enclosingMethod : Option EnclosingMethod := none
  sourceFile : Option String := none
  nestHost : Option ClassName := none
  nestMembers : Option (List ClassName) := none
  recordComponents : Option (List RecordComponent) := none
  bootstrapMethods : Option (List BootstrapMethod) := none

namespace ClassDraft

def step (table : PoolTable) (draft : ClassDraft) (name : String) (length : Nat) :
    ByteReader ClassDraft := do
  match name with
  | "Deprecated" =>
    contents name length (pure ())
    return { draft with marks := { draft.marks with isDeprecated := true } }
  | "Synthetic" =>
    contents name length (pure ())
    return { draft with marks := { draft.marks with isSynthetic := true } }
  | "InnerClasses" =>
    let innerClasses ←
      once name length (Outline.listOf Outline.innerClass) draft.innerClasses
        (list16 (innerClass table))
    return { draft with innerClasses }
  | "EnclosingMethod" =>
    let enclosingMethod ←
      once name length Outline.enclosingMethod draft.enclosingMethod
        (Decode.enclosingMethod table)
    return { draft with enclosingMethod }
  | "SourceFile" =>
    let sourceFile ← once name length Outline.quoted draft.sourceFile (entry table.text)
    return { draft with sourceFile }
  | "NestHost" =>
    let nestHost ← once name length Outline.className draft.nestHost (entry table.className)
    return { draft with nestHost }
  | "NestMembers" =>
    let nestMembers ←
      once name length (Outline.listOf Outline.className) draft.nestMembers
        (list16 (entry table.className))
    return { draft with nestMembers }
  | "Record" =>
    let recordComponents ←
      once name length (Outline.listOf Outline.recordComponent) draft.recordComponents
        (list16 (recordComponent table))
    return { draft with recordComponents }
  | "BootstrapMethods" =>
    let bootstrapMethods ←
      once name length (Outline.listOf BootstrapMethod.outline) draft.bootstrapMethods
        (list16 (bootstrapMethod table))
    return { draft with bootstrapMethods }
  | _ =>
    let shared ← draft.shared.step table classTarget Outline.classTarget name length
    return { draft with shared }

end ClassDraft

def skipAttributes : ByteReader Unit := do
  discard <| list16 do
    discard u16
    skip (← u32).toNat

/-- Skips the fields, or the methods. -/
def skipMembers : ByteReader Unit := do
  discard <| list16 do
    skip 6
    skipAttributes

def magic : UInt32 := 0xcafebabe

def members (table : PoolTable) (bootstrap : PoolTable.Bootstrap) (classStart : Nat)
    (name : ClassName) : ByteReader (List Field × List Method) := do
  let fields ← list16 (within (.inField name) (readField table))
  let methods ← list16 (within (.inMethod name) (readMethod table bootstrap classStart))
  return (fields, methods)

def classBody : ByteReader ClassFile := do
  let classStart ← offset
  let found ← u32
  if found != magic then fail (.wrongMagic found)
  let minor ← u16
  let major ← u16
  if Version.latest.major < major || major < Version.oldestMajor then
    fail (.unsupportedVersion ⟨major, minor⟩)
  let table ← PoolTable.read
  let access ← u16
  let name ← entry table.className
  let superClass ← optionalEntry table.className
  let interfaces ← list16 (entry table.className)
  let membersStart ← get
  skipMembers
  skipMembers
  let draft ← attributes table (ClassDraft.step table) {}
  let classEnd ← get
  set membersStart
  let (fields, methods) ←
    members table (draft.bootstrapMethods.map List.toArray) classStart name
  set classEnd
  return {
    version := ⟨major, minor⟩
    access := ⟨access⟩
    name
    superClass
    interfaces
    fields
    methods
    isDeprecated := draft.marks.isDeprecated
    isSynthetic := draft.marks.isSynthetic
    innerClasses := draft.innerClasses.getD []
    enclosingMethod := draft.enclosingMethod
    signature := draft.shared.signature
    sourceFile := draft.sourceFile
    nestHost := draft.nestHost
    nestMembers := draft.nestMembers.getD []
    recordComponents := draft.recordComponents
    annotations := draft.shared.annotations
    typeAnnotations := draft.shared.typeAnnotations
    attributes := draft.shared.raw.toList }

end Decode

/--
Reads a class at the cursor. A failure without a kind is one at the offset where reading stopped,
counted from where the class starts.
-/
def readClass (cursor : Binary.Cursor) : Except Failure (ClassFile × Binary.Cursor) :=
  match Decode.classBody cursor with
  | .ok value next => .ok (value, next)
  | .error failure stopped =>
    .error (failure.orKind (.malformedClass (stopped.offset - cursor.offset)))

def decode (bytes : List UInt8) : Except Failure ClassFile := do
  let (value, next) ← readClass (Binary.Cursor.at bytes 0)
  if next.offset != bytes.length then
    throw ((Failure.ofCause (.binary (.trailingBytes (bytes.length - next.offset)))).withKind
      (.malformedClass next.offset))
  return value

end JvmAsm
