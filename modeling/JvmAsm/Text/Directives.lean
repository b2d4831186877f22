import JvmAsm.ClassFile
import JvmAsm.Text.Operand

namespace JvmAsm.Text

open Number LineReader

/-- An annotation on a type whose declaration is still to come, and the line that it is on. -/
structure PendingAnnotatedType where
  visible : Bool
  line : Nat
  note : AnnotatedType MemberTarget

/-- The directives read so far. -/
structure Directives where
  /-- The first line with a directive. -/
  line : Option Nat := none
  /-- The first line with a directive that only methods can have. -/
  methodLine : Option Nat := none
  signature : Option String := none
  isDeprecated : Bool := false
  isSynthetic : Bool := false
  visible : Array Annotation := #[]
  invisible : Array Annotation := #[]
  typeAnnotations : Array PendingAnnotatedType := #[]
  attributes : Array RawAttribute := #[]
  visibleParameters : Option (Array (Array Annotation)) := none
  invisibleParameters : Option (Array (Array Annotation)) := none
  annotationDefault : Option ElementValue := none
  parameters : Option (List MethodParameter) := none

def isDirective (line : Line) : Bool :=
  match line.tokens.head?.map Located.token with
  | some (.word text) =>
    if ["signature", "invisible", "attribute", "type", "params", "param", "default",
        "parameters"].contains text then true
    else if text == "deprecated" || text == "synthetic" then line.tokens.length == 1
    else text.toList.head? == some '@'
  | _ => false

namespace Directives

def forMethods (directives : Directives) (line : Nat) : Directives :=
  { directives with methodLine := directives.methodLine.or (some line) }

def parameterLists (directives : Directives) (visible : Bool) : Option (Array (Array Annotation)) :=
  if visible then directives.visibleParameters else directives.invisibleParameters

def setParameterLists (directives : Directives) (visible : Bool)
    (lists : Array (Array Annotation)) : Directives :=
  if visible then { directives with visibleParameters := some lists }
  else { directives with invisibleParameters := some lists }

def once {α : Type} (what : Once) (given : Option α) (reader : LineReader α) : LineReader α := do
  let value ← reader
  if given.isSome then fail (.givenTwice what)
  return value

def methodParameter : LineReader MethodParameter := do
  let name ← if ← eatWord "-" then pure none else some <$> name
  return ⟨name, ← flags⟩

def parameterAnnotation (directives : Directives) (visible : Bool) : LineReader Directives := do
  let index ← number (readNatural 10 0xffffffffffffffff)
  match directives.parameterLists visible with
  | none => fail .noParameterCount
  | some lists =>
    if index < lists.size then
      let note ← readAnnotation
      return directives.setParameterLists visible (lists.modify index fun notes => notes.push note)
    else fail (.parameterIndex index lists.size)

def plainAnnotation (directives : Directives) (visible : Bool) : LineReader Directives := do
  let note ← readAnnotation
  return if visible then { directives with visible := directives.visible.push note }
    else { directives with invisible := directives.invisible.push note }

/-- Takes a directive; the word that it starts with is still to come. -/
def directive (directives : Directives) (line : Nat) : LineReader Directives := do
  let visible := !(← eatWord "invisible")
  match ← peekWord?, visible with
  | some "signature", true =>
    advance
    let signature ← once .signature directives.signature plainString
    return { directives with signature := some signature }
  | some "deprecated", true =>
    advance
    return { directives with isDeprecated := true }
  | some "synthetic", true =>
    advance
    return { directives with isSynthetic := true }
  | some "attribute", true =>
    advance
    let contents ← rawAttribute
    return { directives with attributes := directives.attributes.push contents }
  | some "type", _ =>
    advance
    let target ← memberTarget
    let path ← typePath
    let note ← readAnnotation
    return { directives with
      typeAnnotations := directives.typeAnnotations.push ⟨visible, line, ⟨target, path, note⟩⟩ }
  | some "params", _ =>
    advance
    let count ← once .annotatedParameters
      ((directives.parameterLists visible).map fun _ => 0) (number readUInt8)
    return (directives.setParameterLists visible (Array.replicate count.toNat #[])).forMethods line
  | some "param", _ =>
    advance
    let directives ← directives.parameterAnnotation visible
    return directives.forMethods line
  | some "default", true =>
    advance
    let value ← once .annotationDefault directives.annotationDefault elementValue
    return { directives with annotationDefault := some value }.forMethods line
  | some "parameters", true =>
    advance
    let parameters ← once .methodParameters directives.parameters (braced methodParameter)
    return { directives with parameters := some parameters }.forMethods line
  | _, _ => directives.plainAnnotation visible

def addLine (directives : Directives) (line : Line) : Except Failure Directives := do
  let directives ← line.read (directives.directive line.number)
  return { directives with line := directives.line.or (some line.number) }

/-- A fault that is found when the declaration is known is one of the directive's line. -/
def misplaced {α : Type} (line : Nat) (cause : TextCause) : Except Failure α :=
  .error ((Failure.ofCause (.text cause)).withKind (.syntaxError line 1))

def noMethodDirectives (directives : Directives) (place : Place) : Except Failure Unit :=
  match directives.methodLine with
  | some line => misplaced line (.methodDirective place)
  | none => .ok ()

def fitTypeAnnotations {τ : Type} (directives : Directives) (fit? : MemberTarget → Option τ)
    (place : Place) : Except Failure (TypeAnnotations τ) := do
  let fitted ← directives.typeAnnotations.toList.mapM fun pending =>
    match fit? pending.note.target with
    | some target => .ok (pending.visible, ⟨target, pending.note.path, pending.note.note⟩)
    | none => misplaced pending.line (.wrongTarget pending.note.target place)
  return ⟨(fitted.filter Prod.fst).map Prod.snd, (fitted.filter fun entry => !entry.1).map Prod.snd⟩

def annotations (directives : Directives) : Annotations :=
  ⟨directives.visible.toList, directives.invisible.toList⟩

def parameterAnnotations (directives : Directives) : ParameterAnnotations :=
  ⟨directives.visibleParameters.map fun lists => lists.toList.map Array.toList,
    directives.invisibleParameters.map fun lists => lists.toList.map Array.toList⟩

end Directives

namespace MemberTarget

def forClass? : MemberTarget → Option ClassTarget
  | .typeParameter index => some (.typeParameter index)
  | .typeBound index bound => some (.typeBound index bound)
  | .extends => some .extends
  | .implements index => some (.implements index)
  | _ => none

def forField? : MemberTarget → Option FieldTarget
  | .field => some .field
  | _ => none

def forMethod? : MemberTarget → Option MethodTarget
  | .typeParameter index => some (.typeParameter index)
  | .typeBound index bound => some (.typeBound index bound)
  | .returned => some .returned
  | .receiver => some .receiver
  | .parameter index => some (.parameter index)
  | .throws index => some (.throws index)
  | _ => none

end MemberTarget

namespace Directives

def applyClass (directives : Directives) (declared : ClassFile) : Except Failure ClassFile := do
  directives.noMethodDirectives .ofClass
  let typeAnnotations ← directives.fitTypeAnnotations MemberTarget.forClass? .ofClass
  return { declared with
    typeAnnotations
    signature := directives.signature
    isDeprecated := directives.isDeprecated
    isSynthetic := directives.isSynthetic
    annotations := directives.annotations
    attributes := directives.attributes.toList }

def applyField (directives : Directives) (declared : Field) : Except Failure Field := do
  directives.noMethodDirectives .ofField
  let typeAnnotations ← directives.fitTypeAnnotations MemberTarget.forField? .ofField
  return { declared with
    typeAnnotations
    signature := directives.signature
    isDeprecated := directives.isDeprecated
    isSynthetic := directives.isSynthetic
    annotations := directives.annotations
    attributes := directives.attributes.toList }

def applyMethod (directives : Directives) (declared : Method) : Except Failure Method := do
  let typeAnnotations ← directives.fitTypeAnnotations MemberTarget.forMethod? .ofMethod
  return { declared with
    typeAnnotations
    signature := directives.signature
    isDeprecated := directives.isDeprecated
    isSynthetic := directives.isSynthetic
    annotations := directives.annotations
    parameterAnnotations := directives.parameterAnnotations
    annotationDefault := directives.annotationDefault
    parameters := directives.parameters
    attributes := directives.attributes.toList }

def applyRecordComponent (directives : Directives) (declared : RecordComponent) :
    Except Failure RecordComponent := do
  directives.noMethodDirectives .ofRecordComponent
  if directives.isDeprecated || directives.isSynthetic then
    misplaced (directives.line.getD 0) .recordComponentFlags
  let typeAnnotations ← directives.fitTypeAnnotations MemberTarget.forField? .ofRecordComponent
  return { declared with
    typeAnnotations
    signature := directives.signature
    annotations := directives.annotations
    attributes := directives.attributes.toList }

end Directives

end JvmAsm.Text
