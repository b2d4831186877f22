import JvmAsm.Encode.Basic

namespace JvmAsm

namespace Encode

open Binary

def tagged (tag : Char) (encoder : Encoder (List UInt8)) : Encoder (List UInt8) := do
  return UInt8.ofNat tag.toNat :: (← encoder)

mutual

def elementValue : ElementValue → Encoder (List UInt8)
  | .byte value => tagged 'B' (index (PoolBuilder.integer value.toInt32))
  | .char value => tagged 'C' (index (PoolBuilder.integer value.toUInt32.toInt32))
  | .double value => tagged 'D' (index (PoolBuilder.double value))
  | .float value => tagged 'F' (index (PoolBuilder.float value))
  | .int value => tagged 'I' (index (PoolBuilder.integer value))
  | .long value => tagged 'J' (index (PoolBuilder.long value))
  | .short value => tagged 'S' (index (PoolBuilder.integer value.toInt32))
  | .boolean value => tagged 'Z' (index (PoolBuilder.integer (if value then 1 else 0)))
  | .string value => tagged 's' (index (PoolBuilder.javaUtf8 value))
  | .enumConstant type name => tagged 'e' do
    let typeIndex ← utf8 type.text
    return typeIndex ++ (← utf8 name)
  | .classLiteral type => tagged 'c' (utf8 (returnedText type))
  | .nested type pairs => tagged '@' do
    let typeIndex ← utf8 type.text
    let count ← within (.tooMany .elements) (ofResult (size16 pairs.length))
    return typeIndex ++ count ++ (← elementsFrom #[] pairs)
  | .array values => tagged '[' do
    let count ← within (.tooMany .arrayElements) (ofResult (size16 values.length))
    return count ++ (← valuesFrom #[] values)

/-- The elements of an annotation; those encoded so far are kept. -/
def elementsFrom (written : Array (List UInt8)) :
    List (String × ElementValue) → Encoder (List UInt8)
  | [] => return written.toList.flatten
  | (name, value) :: rest => do
    let nameIndex ← utf8 name
    let contents ← elementValue value
    elementsFrom (written.push (nameIndex ++ contents)) rest

def valuesFrom (written : Array (List UInt8)) : List ElementValue → Encoder (List UInt8)
  | [] => return written.toList.flatten
  | value :: rest => do
    let contents ← elementValue value
    valuesFrom (written.push contents) rest

end

def annotationBody (note : Annotation) : Encoder (List UInt8) := do
  let typeIndex ← utf8 note.type.text
  let count ← within (.tooMany .elements) (ofResult (size16 note.elements.length))
  return typeIndex ++ count ++ (← elementsFrom #[] note.elements)

def annotationList (notes : List Annotation) : Encoder (List UInt8) :=
  list16 (.tooMany .annotations) notes annotationBody

def annotations (notes : Annotations) : AttributeEncoder := do
  let visible ← attributeOfList notes.visible fun visible =>
    namedAfter "RuntimeVisibleAnnotations" (annotationList visible)
  let invisible ← attributeOfList notes.invisible fun invisible =>
    namedAfter "RuntimeInvisibleAnnotations" (annotationList invisible)
  return visible ++ invisible

def parameterAnnotations (notes : ParameterAnnotations) : AttributeEncoder := do
  let parameters (lists : List (List Annotation)) : Encoder (List UInt8) :=
    list8 (.tooMany .annotatedParameters) lists annotationList
  let visible ← attributeOf notes.visible fun lists =>
    namedAfter "RuntimeVisibleParameterAnnotations" (parameters lists)
  let invisible ← attributeOf notes.invisible fun lists =>
    namedAfter "RuntimeInvisibleParameterAnnotations" (parameters lists)
  return visible ++ invisible

def pathStep : PathStep → List UInt8
  | .array => [0, 0]
  | .nested => [1, 0]
  | .wildcard => [2, 0]
  | .argument index => [3, index]

def typePath (path : TypePath) : Encoder (List UInt8) :=
  list8 .pathTooLong path fun step => return pathStep step

variable {τ : Type}

def annotatedType (target : τ → Encoder (List UInt8)) (note : AnnotatedType τ) :
    Encoder (List UInt8) := do
  let targetBytes ← target note.target
  let pathBytes ← typePath note.path
  return targetBytes ++ pathBytes ++ (← annotationBody note.note)

def annotatedTypes (name : String) (target : τ → Encoder (List UInt8))
    (notes : List (AnnotatedType τ)) : AttributeEncoder :=
  attributeOfList notes fun notes =>
    namedAfter name (list16 (.tooMany .typeAnnotations) notes (annotatedType target))

/-- Annotations on types, given which of them are kept. -/
def typeAnnotations (keep : List (AnnotatedType τ) → Encoder (List (AnnotatedType τ)))
    (target : τ → Encoder (List UInt8)) (notes : TypeAnnotations τ) : AttributeEncoder := do
  let visible ← annotatedTypes "RuntimeVisibleTypeAnnotations" target (← keep notes.visible)
  let invisible ← annotatedTypes "RuntimeInvisibleTypeAnnotations" target (← keep notes.invisible)
  return visible ++ invisible

def classTarget : ClassTarget → Encoder (List UInt8)
  | .typeParameter parameter => return [0x00, parameter]
  | .extends => return 0x10 :: bytes16 0xffff
  | .implements interface =>
    if interface == 0xffff then fail (.reservedInterface interface)
    else return 0x10 :: bytes16 interface
  | .typeBound parameter bound => return [0x11, parameter, bound]

def fieldTarget : FieldTarget → Encoder (List UInt8)
  | .field => return [0x13]

def methodTarget : MethodTarget → Encoder (List UInt8)
  | .typeParameter parameter => return [0x01, parameter]
  | .typeBound parameter bound => return [0x12, parameter, bound]
  | .returned => return [0x14]
  | .receiver => return [0x15]
  | .parameter parameter => return [0x16, parameter]
  | .throws exception => return 0x17 :: bytes16 exception

end Encode

end JvmAsm
