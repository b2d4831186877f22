import JvmAsm.Code.Basic
import JvmAsm.Flags
import JvmAsm.Text.LineReader
import JvmAsm.Text.Literal

namespace JvmAsm.Text

open Number LineReader

/-- Divides a text at its last dot. -/
def splitMember (text : String) : Except Failure (String × String) :=
  let before := text.toList.reverse.dropWhile (· != '.')
  match before with
  | _ :: owner =>
    let name := (text.toList.reverse.takeWhile (· != '.')).reverse
    .ok (String.ofList owner.reverse, String.ofList name)
  | [] => .error (.ofCause (.text (.noMember text)))

def member {α : Type} (kind : NameKind) (read? : String → Option α) : LineReader (ClassName × α) :=
  named fun text => do
    let (owner, name) ← splitMember text
    let owner ← checked .className ClassName.ofString? owner
    let name ← checked kind read? name
    return (owner, name)

def fieldRef : LineReader FieldRef := do
  let (owner, name) ← member .fieldName UnqualifiedName.ofString?
  expectMark .colon
  let type ← fieldType
  return ⟨owner, name, type⟩

def methodRef : LineReader MethodRef := do
  let (owner, name) ← member .methodName MethodName.ofString?
  let descriptor ← methodDescriptor
  return ⟨owner, name, descriptor⟩

/-- Takes the word that tells that a method is one of an interface. -/
def onInterface : LineReader Bool := eatWord "itf"

def handle : LineReader Handle := do
  expectWord "handle"
  let kind ← word
  match FieldHandleKind.ofKeyword? kind with
  | some kind => return .field kind (← fieldRef)
  | none =>
    match MethodHandleKind.ofKeyword? kind false with
    | some (.static _) =>
      let method ← methodRef
      return .method (.static (← onInterface)) method
    | some (.special _) =>
      let method ← methodRef
      return .method (.special (← onInterface)) method
    | some kind => return .method kind (← methodRef)
    | none => fail (.unknownHandleKind kind)

def loadableOfLiteral : Literal → Loadable
  | .integer value => .integer value
  | .long value => .long value
  | .float value => .float value
  | .double value => .double value

/-- Whether a class name follows that is written as a string. -/
def isQuotedClass : LineReader Bool := do
  match (← get).map Located.token with
  | .string _ :: .word ".class" :: _ => return true
  | _ => return false

def classConstant? (text : String) : Option String :=
  let chars := text.toList
  let size := chars.length - 6
  if 6 ≤ chars.length && chars.drop size == ".class".toList then
    some (String.ofList (chars.take size))
  else none

/--
Takes a constant whose dynamic constants are nested less deep than the fuel, on a line with no more
tokens than the limit.
-/
def loadableWithin (limit : Nat) : Nat → LineReader Loadable
  | 0 => fail .noConstant
  | fuel + 1 => do
    match ← peek? with
    | some (.string _) =>
      if ← isQuotedClass then
        let name ← className
        advance
        return .className name
      return .string (← string)
    | some (.word text) =>
      if text == "handle" then return .methodHandle (← handle)
      else if text == "type" then
        advance
        return .methodType (← methodDescriptor)
      else if text == "dynamic" then
        advance
        let name ← fieldName
        let type ← fieldType
        let handle ← handle
        let arguments ← bracedWithin limit (loadableWithin limit fuel)
        return .dynamic name type handle arguments
      else if text.toList.head? == some '(' then
        return .methodType (← parsed (checked .methodDescriptor MethodDescriptor.ofString?))
      else
        match classConstant? text with
        | some name =>
          return .className (← parsed fun _ => checked .className ClassName.ofString? name)
        | none => return loadableOfLiteral (← parsed Literal.read)
    | _ => fail .noConstant

/-- Takes a constant. Every level of nesting takes a token. -/
def loadable : LineReader Loadable := do
  let limit := (← get).length
  loadableWithin limit (limit + 1)

def arguments : LineReader (List Loadable) := do
  let limit := (← get).length
  bracedWithin limit (loadableWithin limit (limit + 1))

def elementOfLiteral : Literal → ElementValue
  | .integer value => .int value
  | .long value => .long value
  | .float value => .float value
  | .double value => .double value

/-- Takes the type of an annotation, which follows an at sign. -/
def annotationType : LineReader FieldType := do
  if ← eatWord "@" then fieldType
  else
    parsed fun text =>
      match text.toList with
      | '@' :: rest => checked .fieldDescriptor FieldType.ofString? (String.ofList rest)
      | _ => .error (.ofCause (.text (.annotationMissing text)))

def namedElement (value : LineReader ElementValue) : LineReader (String × ElementValue) := do
  let key ← name
  expectMark .equals
  return (key, ← value)

def classLiteral (text : String) : Except Failure ElementValue :=
  match returnedOfChars? text.toList with
  | some type => .ok (.classLiteral type)
  | none => .error (.ofCause (.text (.invalidClassLiteral text)))

/--
Takes a value that is nested less deep than the fuel, on a line with no more tokens than the limit.
-/
def elementValueWithin (limit : Nat) : Nat → LineReader ElementValue
  | 0 => fail .noElementValue
  | fuel + 1 => do
    match ← peek? with
    | some (.string _) => return .string (← string)
    | some (.word text) =>
      if text == "true" || text == "false" then
        advance
        return .boolean (text == "true")
      else if text == "byte" then
        advance
        return .byte (← number readInt8)
      else if text == "char" then
        advance
        return .char (← number readUInt16)
      else if text == "short" then
        advance
        return .short (← number readInt16)
      else if text == "enum" then
        advance
        let type ← fieldType
        return .enumConstant type (← name)
      else if text == "class" then
        advance
        named classLiteral
      else if text == "array" then
        advance
        return .array (← bracedWithin limit (elementValueWithin limit fuel))
      else if text.toList.head? == some '@' then
        let type ← annotationType
        return .nested type
          (← bracedWithin limit (namedElement (elementValueWithin limit fuel)))
      else return elementOfLiteral (← parsed Literal.read)
    | _ => fail .noElementValue

/-- Takes a value. Every level of nesting takes a token. -/
def elementValue : LineReader ElementValue := do
  let limit := (← get).length
  elementValueWithin limit (limit + 1)

def readAnnotation : LineReader Annotation := do
  let type ← annotationType
  let limit := (← get).length
  let elements ← bracedWithin limit (namedElement (elementValueWithin limit (limit + 1)))
  return ⟨type, elements⟩

/-- The values of pairs of digits; those found so far are kept in reverse. -/
def hexPairs (found : List UInt8) : List Char → Except IntegerFault (List UInt8)
  | a :: b :: rest =>
    match readNatural 16 0xff (String.ofList [a, b]) with
    | .ok value => hexPairs (UInt8.ofNat value :: found) rest
    | .error fault => .error fault
  | _ => .ok found.reverse

def rawAttribute : LineReader RawAttribute := do
  let name ← plainString
  let hex ← plainString
  let digits := hex.toList
  if digits.any (fun c => 0x80 ≤ c.toNat) || digits.length % 2 != 0 then
    fail (.invalidHex hex)
  match hexPairs [] digits with
  | .ok bytes => return ⟨name, bytes⟩
  | .error fault =>
    throw ((Failure.ofCause (.text (.number fault))).within (.text (.invalidHex hex)))

/-- The bits of a word that gives flags by their number. -/
def flagBits? (text : String) : Option UInt16 :=
  match text.toList with
  | '0' :: 'x' :: digits =>
    match readNatural 16 0xffff (String.ofList digits) with
    | .ok bits => some (UInt16.ofNat bits)
    | .error _ => none
  | _ => none

/-- The flags with one more word, if it is a flag. -/
def addFlag? {kind : FlagKind} (flags : Flags kind) (text : String) : Option (Flags kind) :=
  match flagBits? text with
  | some bits => some ⟨flags.bits ||| bits⟩
  | none => flags.set? text

/-- Takes words as long as they are flags; every turn takes a token. -/
def flagsFrom {kind : FlagKind} : Nat → Flags kind → LineReader (Flags kind)
  | 0, flags => return flags
  | fuel + 1, flags => do
    match ← peekWord? with
    | none => return flags
    | some text =>
      match addFlag? flags text with
      | none => return flags
      | some flags =>
        advance
        flagsFrom fuel flags

def flags {kind : FlagKind} : LineReader (Flags kind) := do
  flagsFrom (← get).length {}

/-- Takes the path of an annotation on a type, if there is one. -/
def typePath : LineReader TypePath := do
  if ← eatWord "path" then
    parsed fun text =>
      (TypePath.read text).mapError fun fault => .ofCause (.text (.typePath text fault))
  else return []

def memberTarget : LineReader MemberTarget := do
  let text ← word
  if text == "typeparam" then return .typeParameter (← number readUInt8)
  else if text == "typebound" then
    let index ← number readUInt8
    return .typeBound index (← number readUInt8)
  else if text == "extends" then return .extends
  else if text == "implements" then
    let index ← number readUInt16
    if index == 0xffff then fail (.reservedInterface index)
    return .implements index
  else if text == "field" then return .field
  else if text == "return" then return .returned
  else if text == "receiver" then return .receiver
  else if text == "param" then return .parameter (← number readUInt8)
  else if text == "throws" then return .throws (← number readUInt16)
  else fail (.unknownTarget text)

end JvmAsm.Text
