import JvmAsm.ClassFile
import JvmAsm.Code.Labels
import JvmAsm.Text.Piece

namespace JvmAsm.Text

open Pieces

def lineOf (indent : Nat) (start : String) (rest : Pieces → Pieces) : WrittenLine :=
  ⟨indent, rest (Pieces.word #[] start)⟩

/-- Between two parts of a class there is an empty line. -/
def emptyLine : WrittenLine := ⟨0, #[]⟩

/-- A line for what can be seen at run time, or for what cannot. -/
def visibleLine (indent : Nat) (visible : Bool) (pieces : Pieces → Pieces) : WrittenLine :=
  ⟨indent, pieces (if visible then #[] else Pieces.word #[] "invisible")⟩

def bothLines {α : Type} (indent : Nat) (notes : ByVisibility α) (pieces : Pieces → α → Pieces) :
    List WrittenLine :=
  notes.visible.map (fun note => visibleLine indent true fun start => pieces start note) ++
    notes.invisible.map (fun note => visibleLine indent false fun start => pieces start note)

/-- The directives before a declaration. -/
def directiveLines {τ : Type} (indent : Nat) (signature : Option String)
    (isDeprecated isSynthetic : Bool) (annotations : Annotations)
    (typeAnnotations : TypeAnnotations τ) (target : Pieces → τ → Pieces)
    (attributes : List RawAttribute) : List WrittenLine :=
  (signature.map fun text => lineOf indent "signature" (·.string text)).toList ++
    (if isDeprecated then [lineOf indent "deprecated" id] else []) ++
    (if isSynthetic then [lineOf indent "synthetic" id] else []) ++
    bothLines indent annotations Pieces.note ++
    bothLines indent typeAnnotations
      (fun pieces note => (pieces.word "type").typeNote target note) ++
    attributes.map fun contents => ⟨indent, Pieces.rawAttribute #[] contents⟩

def operandPieces (pieces : Pieces) : Instruction → Except TextCause Pieces
  | .simple _ => .ok pieces
  | .pushByte value => .ok (pieces.integer value.toInt)
  | .pushShort value => .ok (pieces.integer value.toInt)
  | .constant value => .ok (pieces.loadable value)
  | .load _ index | .store _ index | .ret index => .ok (pieces.number index.toNat)
  | .increment index amount => .ok ((pieces.number index.toNat).integer amount.toInt)
  | .branch _ target | .goto target | .jsr target => .ok (pieces.label target)
  | .tableSwitch default low high targets =>
    if high.toInt - low.toInt + 1 != targets.length then
      .error (.tableSize low high targets.length)
    else
      .ok ((((pieces.integer low.toInt).braced Pieces.label targets).word "default").label default)
  | .lookupSwitch default pairs =>
    let pairPieces (pieces : Pieces) (pair : Int32 × Label) : Pieces :=
      ((pieces.integer pair.1.toInt).mark .colon).label pair.2
    .ok (((pieces.braced pairPieces pairs).word "default").label default)
  | .field _ field => .ok (pieces.fieldRef field)
  | .invokeVirtual method | .invokeInterface method => .ok (pieces.methodRef method)
  | .invokeSpecial method onInterface | .invokeStatic method onInterface =>
    .ok ((pieces.methodRef method).onInterface onInterface)
  | .invokeDynamic site =>
    .ok ((((pieces.name site.name.text).name site.descriptor.text).handle site.handle).arguments
      site.arguments)
  | .type _ name => .ok (pieces.name name.text)
  | .newPrimitiveArray element => .ok (pieces.word element.keyword)
  | .newMultiArray name dimensions => .ok ((pieces.name name.text).number dimensions.toNat)

def instructionLine (instruction : Instruction) : Except TextCause WrittenLine := do
  return ⟨3, ← operandPieces (Pieces.word #[] instruction.mnemonic) instruction⟩

def linesByLabel (code : Code) : Std.HashMap Label (Array UInt16) :=
  code.lineNumbers.foldl (fun table (label, line) =>
    table.alter label fun lines => some ((lines.getD #[]).push line)) ∅

def labelLines (lines : Std.HashMap Label (Array UInt16)) (label : Label) : List WrittenLine :=
  lineOf 2 label.text id ::
    ((lines[label]?).getD #[]).toList.map fun line =>
      lineOf 3 "LINENUMBER" fun pieces => (pieces.number line.toNat).label label

def boundLabelLines (lines : Std.HashMap Label (Array UInt16)) (label : Option Label) :
    List WrittenLine :=
  match label with
  | some label => labelLines lines label
  | none => []

def localVariableLine (entry : LocalVariable) : WrittenLine :=
  lineOf 2 "LOCALVARIABLE" fun pieces =>
    let pieces := pieces.name entry.name
    let pieces := match entry.type with
      | some type => pieces.name type.text
      | none => pieces.word "-"
    let pieces := (pieces.labelRange entry.range).number entry.index.toNat
    match entry.signature with
    | some signature => pieces.string signature
    | none => pieces

def handlerLine (handler : ExceptionHandler) : WrittenLine :=
  lineOf 2 "TRYCATCHBLOCK" fun pieces =>
    let pieces := ((pieces.label handler.start).label handler.stop).label handler.handler
    match handler.caught with
    | some name => pieces.name name.text
    | none => pieces.word "*"

def codeTypeLine (visible : Bool) (note : AnnotatedType CodeTarget) : WrittenLine :=
  lineOf 2 "TYPEANNOTATION" fun pieces =>
    (if visible then pieces else pieces.word "invisible").typeNote Pieces.codeTarget note

def limitLine (text : String) (limit : Option UInt16) : List WrittenLine :=
  (limit.map fun value =>
    lineOf 2 text fun pieces => (pieces.mark .equals).number value.toNat).toList

/-- The lines of a method body. All labels have to be bound. -/
def codeLines (code : Code) : Except Failure (List WrittenLine) := do
  if let some label := code.unboundLabel? then
    throw (.ofKind (.unresolvedLabel label.text))
  let lines := linesByLabel code
  let instructions ← code.instructions.zipIdx.mapM fun (entry, index) =>
    match instructionLine entry.instruction with
    | .ok line => .ok (boundLabelLines lines entry.label ++ [line])
    | .error cause =>
      .error ((Failure.ofCause (.text cause)).within (.text (.printingInstruction index)))
  return instructions.flatten ++ boundLabelLines lines code.lastLabel ++
    code.localVariables.map localVariableLine ++ code.handlers.map handlerLine ++
    code.typeAnnotations.visible.map (codeTypeLine true) ++
    code.typeAnnotations.invisible.map (codeTypeLine false) ++
    limitLine "MAXSTACK" code.maxStack ++ limitLine "MAXLOCALS" code.maxLocals ++
    code.attributes.map fun contents => ⟨2, Pieces.rawAttribute #[] contents⟩

def literalOfConstant : ConstantValue → Token
  | .integer value => .word (Literal.integer value).text
  | .long value => .word (Literal.long value).text
  | .float value => .word (Literal.float value).text
  | .double value => .word (Literal.double value).text
  | .string value => .string value

/-- In a field's declaration a parenthesis would make it look like that of a method. -/
def fieldNameToken (text : String) : Token :=
  if text.toList.contains '(' then stringToken text else nameToken text

def fieldLines (field : Field) : List WrittenLine :=
  let pieces := ((Pieces.flags #[] field.access).token (fieldNameToken field.type.text)).token
    (fieldNameToken field.name.text)
  let pieces := match field.constantValue with
    | some value => (pieces.mark .equals).token (literalOfConstant value)
    | none => pieces
  directiveLines 1 field.signature field.isDeprecated field.isSynthetic field.annotations
    field.typeAnnotations Pieces.fieldTarget field.attributes ++ [⟨1, pieces⟩]

def parameterLines (visible : Bool) : Option (List (List Annotation)) → List WrittenLine
  | none => []
  | some lists =>
    visibleLine 1 visible (fun pieces => (pieces.word "params").number lists.length) ::
      lists.zipIdx.flatMap fun (notes, index) => notes.map fun note =>
        visibleLine 1 visible fun pieces => ((pieces.word "param").number index).note note

def methodParameterPieces (pieces : Pieces) (parameter : MethodParameter) : Pieces :=
  let pieces := match parameter.name with
    | some name => if name == "-" then pieces.string name else pieces.name name
    | none => pieces.word "-"
  pieces.flags parameter.flags

def methodHeaderPieces (method : Method) : Pieces :=
  let pieces := Pieces.flags #[] method.access
  let name := method.name.text
  let descriptor := method.descriptor.text
  let pieces :=
    if needsQuotes name || name.toList.contains '(' || needsQuotes descriptor then
      (pieces.string name).name descriptor
    else pieces.word (name ++ descriptor)
  if method.exceptions.isEmpty then pieces
  else (pieces.word "throws").names (method.exceptions.map ClassName.text)

def methodLines (method : Method) : Except Failure (List WrittenLine) := do
  let before := directiveLines 1 method.signature method.isDeprecated method.isSynthetic
      method.annotations method.typeAnnotations Pieces.methodTarget method.attributes ++
    parameterLines true method.parameterAnnotations.visible ++
    parameterLines false method.parameterAnnotations.invisible ++
    (method.annotationDefault.map fun value =>
      lineOf 1 "default" fun pieces => pieces.elementValue value).toList ++
    (method.parameters.map fun parameters =>
      lineOf 1 "parameters" fun pieces => pieces.braced methodParameterPieces parameters).toList
  let header := methodHeaderPieces method
  match method.code with
  | none => return before ++ [⟨1, header⟩]
  | some code =>
    let lines ← codeLines code
    return before ++ [⟨1, header.mark .openBrace⟩] ++ lines ++ [⟨1, Pieces.mark #[] .closeBrace⟩]

def recordComponentLines (component : RecordComponent) : List WrittenLine :=
  directiveLines 2 component.signature false false component.annotations component.typeAnnotations
      Pieces.fieldTarget component.attributes ++
    [⟨2, (Pieces.name #[] component.type.text).name component.name.text⟩]

def innerClassLine (inner : InnerClass) : WrittenLine :=
  lineOf 1 "innerclass" fun pieces =>
    let pieces := pieces.name inner.inner.text
    let pieces := match inner.outer with
      | some outer => (pieces.word "outer").name outer.text
      | none => pieces
    let pieces := match inner.name with
      | some name => (pieces.word "name").name name
      | none => pieces
    pieces.flags inner.flags

def enclosingMethodLine (enclosing : EnclosingMethod) : WrittenLine :=
  lineOf 1 "enclosing" fun pieces =>
    let pieces := pieces.name enclosing.owner.text
    match enclosing.method with
    | some (name, descriptor) => (pieces.name name.text).name descriptor.text
    | none => pieces

def classHeaderPieces (declared : ClassFile) : Pieces :=
  let pieces := ((Pieces.flags #[] declared.access).word "class").name declared.name.text
  let pieces := match declared.superClass with
    | some name => (pieces.word "extends").name name.text
    | none => pieces
  let pieces :=
    if declared.interfaces.isEmpty then pieces
    else (pieces.word "implements").names (declared.interfaces.map ClassName.text)
  pieces.mark .openBrace

def relationLines (declared : ClassFile) : List WrittenLine :=
  (declared.nestHost.map fun host => lineOf 1 "nesthost" (·.name host.text)).toList ++
    declared.nestMembers.map (fun name => lineOf 1 "nestmember" (·.name name.text)) ++
    (declared.enclosingMethod.map enclosingMethodLine).toList ++
    declared.innerClasses.map innerClassLine

def recordLines (components : List RecordComponent) : List WrittenLine :=
  [lineOf 1 "record" (·.mark .openBrace)] ++ components.flatMap recordComponentLines ++
    [⟨1, Pieces.mark #[] .closeBrace⟩]

def spaced (parts : List (List WrittenLine)) : List WrittenLine :=
  ((parts.filter fun part => !part.isEmpty).intersperse [emptyLine]).flatten

def classLines (declared : ClassFile) : Except Failure (List WrittenLine) := do
  let version := lineOf 0 "version" fun pieces =>
    (pieces.number declared.version.major.toNat).number declared.version.minor.toNat
  let source := declared.sourceFile.map fun text => lineOf 0 "source" (·.string text)
  let before := directiveLines 0 declared.signature declared.isDeprecated declared.isSynthetic
    declared.annotations declared.typeAnnotations Pieces.classTarget declared.attributes
  let methods ← declared.methods.mapM fun method =>
    (methodLines method).mapError fun failure =>
      failure.within (.text (.printingMethod method.name method.descriptor))
  let parts := [relationLines declared, (declared.recordComponents.map recordLines).getD []] ++
    declared.fields.map fieldLines ++ methods
  return [version] ++ source.toList ++ before ++ [⟨0, classHeaderPieces declared⟩] ++
    spaced parts ++ [⟨0, Pieces.mark #[] .closeBrace⟩]

def print (declared : ClassFile) : Except Failure String :=
  match classLines declared with
  | .ok lines => .ok (textOfLines lines)
  | .error failure => .error (failure.orKind .encoding)

end JvmAsm.Text
