import JvmAsm.Encode.Code

namespace JvmAsm

namespace Encode

open Binary

def constantValue (field : Field) : AttributeEncoder := do
  match field.constantValue with
  | none => return []
  | some value =>
    if !value.fits field.type then fail (.unfitConstant value field.type)
    return [← namedBefore "ConstantValue" (index (PoolBuilder.constantValue value))]

def keepAll {τ : Type} (notes : List (AnnotatedType τ)) : Encoder (List (AnnotatedType τ)) :=
  return notes

def fieldBytes (field : Field) : Encoder (List UInt8) := do
  let name ← utf8 field.name.text
  let type ← utf8 field.type.text
  let attributes ← attributeTable .fieldAttributes [marks field.isDeprecated field.isSynthetic,
    constantValue field,
    signature field.signature,
    annotations field.annotations,
    typeAnnotations keepAll fieldTarget field.typeAnnotations,
    rawAttributes field.attributes]
  return bytes16 field.access.bits ++ name ++ type ++ attributes

def methodParameters (parameters : List MethodParameter) : Encoder (List UInt8) :=
  list8 (.tooMany .methodParameters) parameters fun parameter => do
    return (← index (PoolBuilder.optional PoolBuilder.utf8 parameter.name)) ++
      bytes16 parameter.flags.bits

def methodBytes (version : Version) (method : Method) (analysis : Analysis) :
    Encoder (List UInt8) := do
  let name ← utf8 method.name.text
  let descriptor ← utf8 method.descriptor.text
  let attributes ← attributeTable .methodAttributes [marks method.isDeprecated method.isSynthetic,
    attributeOf method.code fun code =>
      namedAfter "Code" (within .inCode (codeBody version code analysis)),
    attributeOfList method.exceptions fun exceptions =>
      namedAfter "Exceptions" (list16 (.tooMany .exceptions) exceptions className),
    signature method.signature,
    annotations method.annotations,
    typeAnnotations keepAll methodTarget method.typeAnnotations,
    parameterAnnotations method.parameterAnnotations,
    attributeOf method.annotationDefault fun value =>
      namedAfter "AnnotationDefault" (elementValue value),
    attributeOf method.parameters fun parameters =>
      namedAfter "MethodParameters" (methodParameters parameters),
    rawAttributes method.attributes]
  return bytes16 method.access.bits ++ name ++ descriptor ++ attributes

def innerClass (inner : InnerClass) : Encoder (List UInt8) := do
  let innerIndex ← className inner.inner
  let outerIndex ← index (PoolBuilder.optional PoolBuilder.className inner.outer)
  let nameIndex ← index (PoolBuilder.optional PoolBuilder.utf8 inner.name)
  return innerIndex ++ outerIndex ++ nameIndex ++ bytes16 inner.flags.bits

def enclosingMethod (enclosing : EnclosingMethod) : Encoder (List UInt8) := do
  let owner ← className enclosing.owner
  let pair (method : MethodName × MethodDescriptor) : PoolM UInt16 :=
    PoolBuilder.nameAndType method.1.text method.2.text
  return owner ++ (← index (PoolBuilder.optional pair enclosing.method))

def recordComponent (component : RecordComponent) : Encoder (List UInt8) := do
  let name ← utf8 component.name.text
  let type ← utf8 component.type.text
  let attributes ← attributeTable .componentAttributes [signature component.signature,
    annotations component.annotations,
    typeAnnotations keepAll fieldTarget component.typeAnnotations,
    rawAttributes component.attributes]
  return name ++ type ++ attributes

def bootstrapMethods : AttributeEncoder := do
  let methods := (← get).pool.bootstrapMethods.toList
  attributeOfList methods fun methods =>
    namedAfter "BootstrapMethods" <| list16 (.tooMany .bootstrapMethods) methods fun method => do
      let arguments ← list16 (.tooMany .bootstrapArguments) method.arguments fun argument =>
        return bytes16 argument
      return bytes16 method.handle ++ arguments

def classAttributes (value : ClassFile) : Encoder (List UInt8) :=
  attributeTable .classAttributes [marks value.isDeprecated value.isSynthetic,
    attributeOfList value.innerClasses fun inner =>
      namedAfter "InnerClasses" (list16 (.tooMany .innerClasses) inner innerClass),
    attributeOf value.enclosingMethod fun enclosing =>
      namedBefore "EnclosingMethod" (enclosingMethod enclosing),
    signature value.signature,
    attributeOf value.sourceFile fun file => namedBefore "SourceFile" (utf8 file),
    attributeOf value.nestHost fun host => namedBefore "NestHost" (className host),
    attributeOfList value.nestMembers fun members =>
      namedAfter "NestMembers" (list16 (.tooMany .nestMembers) members className),
    annotations value.annotations,
    typeAnnotations keepAll classTarget value.typeAnnotations,
    attributeOf value.recordComponents fun components =>
      namedAfter "Record" <| list16 (.tooMany .recordComponents) components fun component =>
        within (.inRecordComponent component.name) (recordComponent component),
    bootstrapMethods,
    rawAttributes value.attributes]

/-- What follows the constant pool. -/
def afterPool (value : ClassFile) (analyses : List Analysis) : Encoder (List UInt8) := do
  let name ← className value.name
  let superClass ← index (PoolBuilder.optional PoolBuilder.className value.superClass)
  let interfaces ← list16 (.numberOf .interfaces value.name) value.interfaces className
  let fields ← list16 (.numberOf .fields value.name) value.fields fun field =>
    within (.inField field.name value.name) (fieldBytes field)
  let methods ← list16 (.numberOf .methods value.name) (value.methods.zip analyses)
    fun (method, analysis) =>
      within (.inMethod method.title value.name) (methodBytes value.version method analysis)
  let attributes ← classAttributes value
  return bytes16 value.access.bits ++ name ++ superClass ++ interfaces ++ fields ++ methods ++
    attributes

def magic : UInt32 := 0xcafebabe

def classBytes (options : EncodeOptions) (value : ClassFile) : Encoder (List UInt8) := do
  if Version.latest.isBefore value.version then fail (.newerVersion value.version)
  if value.version.hasFrames && !options.computeFrames &&
      value.methods.any (fun method => method.code.isSome) then
    warn (.withoutFrames value.name value.version)
  let analyses ← value.methods.mapM (analyze options value)
  let body ← afterPool value analyses
  let pool ← ofResult (← get).pool.bytes
  return bytes32 magic ++ bytes16 value.version.minor ++ bytes16 value.version.major ++ pool ++ body

end Encode

def encodeWithWarnings (options : EncodeOptions) (value : ClassFile) :
    Except Failure (List UInt8) × List Warning :=
  match Encode.classBytes options value {} with
  | .ok bytes state => (.ok bytes, state.warnings.toList)
  | .error failure state =>
    (.error ((failure.within (.encoding (.inClass value.name))).orKind .encoding),
      state.warnings.toList)

def encode (options : EncodeOptions) (value : ClassFile) : Except Failure (List UInt8) :=
  (encodeWithWarnings options value).1

end JvmAsm
