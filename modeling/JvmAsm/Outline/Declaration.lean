import JvmAsm.ClassFile
import JvmAsm.Outline.Instruction

namespace JvmAsm.Outline

mutual

def elementValue : ElementValue → Outline
  | .byte value => .case "Object" [.case "Byte" [int value.toInt]]
  | .char value => .case "Object" [.case "Char" [uint16 value]]
  | .double value => .case "Object" [.case "Double" [double value]]
  | .float value => .case "Object" [.case "Float" [single value]]
  | .int value => .case "Object" [.case "Integer" [int32 value]]
  | .long value => .case "Object" [.case "Long" [int64 value]]
  | .short value => .case "Object" [.case "Short" [int value.toInt]]
  | .boolean value => .case "Object" [.case "Boolean" [bool value]]
  | .string value => .case "Object" [.case "String" [javaString value]]
  | .enumConstant type name =>
    .record "Enum" [("type_name", fieldType type), ("const_name", quoted name)]
  | .classLiteral type => .case "Class" [quoted (returnedText type)]
  | .nested type elements =>
    .case "AnnotationInterface"
      [.record "Annotation"
        [("annotation_type", fieldType type),
          ("element_value_pairs", .list (elementPairs #[] elements).toList)]]
  | .array values => .case "ArrayType" [.list (elementValues #[] values).toList]

/-- The outlines of some values after those found so far. -/
def elementValues (found : Array Outline) : List ElementValue → Array Outline
  | [] => found
  | value :: rest => elementValues (found.push (elementValue value)) rest

/-- The outlines of some elements after those found so far. -/
def elementPairs (found : Array Outline) : List (String × ElementValue) → Array Outline
  | [] => found
  | (name, value) :: rest =>
    elementPairs
      (found.push (.record "ElementValuePair"
        [("name", quoted name), ("value", elementValue value)])) rest

end

def note (note : Annotation) : Outline :=
  .record "Annotation"
    [("annotation_type", fieldType note.type),
      ("element_value_pairs", .list (elementPairs #[] note.elements).toList)]

def notes (notes : List Annotation) : Outline := listOf note notes

/-- Annotations or annotations on types, under the given name. -/
def byVisibility {α : Type} (name : String) (outline : α → Outline) (found : ByVisibility α) :
    Outline :=
  .record name
    [("visible", listOf outline found.visible), ("invisible", listOf outline found.invisible)]

def pathStep : PathStep → Outline
  | .array => .word "ArrayDeeper"
  | .nested => .word "NestedDeeper"
  | .wildcard => .word "WildcardBound"
  | .argument index => .record "TypeArgument" [("index", uint8 index)]

def annotatedType {τ : Type} (target : τ → Outline) (annotated : AnnotatedType τ) : Outline :=
  .record "TypeAnnotation"
    [("type_reference", target annotated.target),
      ("type_path", .record "TypePath" [("path", listOf pathStep annotated.path)]),
      ("annotation", note annotated.note)]

def typeBound (name : String) (parameter bound : UInt8) : Outline :=
  .record name [("type_parameter_index", uint8 parameter), ("bound_index", uint8 bound)]

def classTarget : ClassTarget → Outline
  | .typeParameter index => .record "ClassTypeParameter" [("index", uint8 index)]
  | .extends => .word "Extends"
  | .implements index => .record "Implements" [("index", uint16 index)]
  | .typeBound parameter bound => typeBound "ClassTypeParameterBound" parameter bound

def fieldTarget : FieldTarget → Outline
  | .field => .word "Field"

def methodTarget : MethodTarget → Outline
  | .typeParameter index => .record "MethodTypeParameter" [("index", uint8 index)]
  | .typeBound parameter bound => typeBound "MethodTypeParameterBound" parameter bound
  | .returned => .word "Return"
  | .receiver => .word "Receiver"
  | .parameter index => .record "FormalParameter" [("index", uint8 index)]
  | .throws index => .record "Throws" [("index", uint16 index)]

def labelRange (range : LabelRange) : Outline :=
  .record "LabelRange" [("start", label range.start), ("end", label range.stop)]

def instructionTarget : InstructionTarget → String
  | .instanceOf => "InstanceOf"
  | .new => "New"
  | .constructorReference => "ConstructorReference"
  | .methodReference => "MethodReference"

def argumentTarget : ArgumentTarget → String
  | .cast => "Cast"
  | .constructorCall => "ConstructorInvocationTypeArgument"
  | .methodCall => "MethodInvocationTypeArgument"
  | .constructorReference => "ConstructorReferenceTypeArgument"
  | .methodReference => "MethodReferenceTypeArgument"

def codeTarget : CodeTarget → Outline
  | .variables isResource table =>
    .record (if isResource then "ResourceVariable" else "LocalVariable")
      [("table", listOf (fun (range, index) => pair (labelRange range) (localIndex index)) table)]
  | .exceptionParameter index => .record "ExceptionParameter" [("index", uint16 index)]
  | .instruction target found => .case (instructionTarget target) [label found]
  | .argument target found index =>
    .record (argumentTarget target) [("label", label found), ("index", uint8 index)]

def rawAttribute (raw : RawAttribute) : Outline :=
  .record "Attribute" [("name", quoted raw.name), ("bytes", listOf uint8 raw.bytes)]

def entry (entry : Entry) : Outline :=
  .record "InstructionListEntry"
    [("label", optional label entry.label), ("instruction", instruction entry.instruction)]

def exceptionHandler (handler : ExceptionHandler) : Outline :=
  .record "Exception"
    [("start", label handler.start), ("end", label handler.stop),
      ("handler", label handler.handler), ("catch", optional className handler.caught)]

def localVariable (found : LocalVariable) : Outline :=
  .record "Lv"
    [("range", labelRange found.range), ("name", quoted found.name),
      ("descriptor", optional fieldType found.type),
      ("signature", optional quoted found.signature), ("index", localIndex found.index)]

def code (code : Code) : Outline :=
  .record "Code"
    [("max_stack", optional uint16 code.maxStack), ("max_locals", optional uint16 code.maxLocals),
      ("instructions", listOf entry code.instructions),
      ("exception_table", listOf exceptionHandler code.handlers),
      ("last_label", optional label code.lastLabel),
      ("line_numbers",
        listOf (fun (start, line) => pair (label start) (uint16 line)) code.lineNumbers),
      ("local_variables", listOf localVariable code.localVariables),
      ("type_annotations",
        byVisibility "TypeAnnotations" (annotatedType codeTarget) code.typeAnnotations),
      ("attributes", listOf rawAttribute code.attributes)]

def methodParameter (parameter : MethodParameter) : Outline :=
  .record "MethodParameter"
    [("name", optional quoted parameter.name), ("flags", .word parameter.flags.description)]

def innerClass (found : InnerClass) : Outline :=
  .record "InnerClass"
    [("inner_class", className found.inner), ("outer_class", optional className found.outer),
      ("inner_name", optional quoted found.name), ("flags", .word found.flags.description)]

def nameAndDescriptor (name : MethodName) (descriptor : MethodDescriptor) : Outline :=
  .record "MethodNameAndDesc"
    [("name", methodName name), ("desc", methodDescriptor descriptor)]

def enclosingMethod (enclosing : EnclosingMethod) : Outline :=
  .record "EnclosingMethod"
    [("class", className enclosing.owner),
      ("method",
        optional (fun (name, descriptor) => nameAndDescriptor name descriptor) enclosing.method)]

def recordComponent (component : RecordComponent) : Outline :=
  .record "RecordComponent"
    [("name", .case "RecordName" [quoted component.name.text]),
      ("descriptor", fieldType component.type),
      ("signature", optional quoted component.signature),
      ("annotations", byVisibility "Annotations" note component.annotations),
      ("type_annotations",
        byVisibility "TypeAnnotations" (annotatedType fieldTarget) component.typeAnnotations),
      ("attributes", listOf rawAttribute component.attributes)]

end JvmAsm.Outline
