import JvmAsm.Text.CodeLines
import JvmAsm.Text.Directives

namespace JvmAsm.Text

open Number LineReader

def classHeader (version : Version) : LineReader ClassFile := do
  let access ← flags
  expectWord "class"
  let name ← className
  let superClass ← if ← eatWord "extends" then some <$> className else pure none
  let interfaces ← if ← eatWord "implements" then names className else pure []
  expectMark .openBrace
  return { version, access, name, superClass, interfaces }

def isFlagWord (text : String) : Bool :=
  (FlagKind.fields.named ++ FlagKind.methods.named).any (fun flag => flag.1 == text) ||
    (flagBits? text).isSome

/-- Whether what follows the name of a member is the descriptor of a method. -/
def startsDescriptor : Token → Bool
  | .word text => text.toList.head? == some '('
  | .string value => value.units.head? == some 0x28
  | .mark _ => false

/--
Whether a line declares a method: after the flags comes its name together with its descriptor, or
its name as a string and then its descriptor. No name of a method ends with a semicolon, but the
descriptor of a field may.
-/
def isMethodHeader : List Token → Bool
  | .word text :: rest => if isFlagWord text then isMethodHeader rest else text.toList.contains '('
  | .string name :: descriptor :: _ =>
    startsDescriptor descriptor && name.units.getLast? != some 0x3b
  | _ => false

def fitting (type : FieldType) (value : ConstantValue) : Except Failure ConstantValue :=
  if value.fits type then .ok value
  else .error (.ofCause (.text (.unfitConstant value type)))

def constantOfLiteral : Literal → ConstantValue
  | .integer value => .integer value
  | .long value => .long value
  | .float value => .float value
  | .double value => .double value

def constantValue (type : FieldType) : LineReader ConstantValue := do
  match ← peek? with
  | some (.string value) =>
    let value ← ofResult (fitting type (.string value))
    advance
    return value
  | _ => parsed fun text => do fitting type (constantOfLiteral (← Literal.read text))

def fieldHeader : LineReader Field := do
  let access ← flags
  let type ← fieldType
  let name ← fieldName
  let value ← if ← eatMark .equals then some <$> constantValue type else pure none
  return { access, name, type, constantValue := value }

def joinedMethodName (text : String) : Except Failure (MethodName × MethodDescriptor) := do
  let chars := text.toList
  if !chars.contains '(' then throw (.ofCause (.text (.noMethodHeader text)))
  let name ← checked .methodName MethodName.ofString? (String.ofList (chars.takeWhile (· != '(')))
  let descriptor ← checked .methodDescriptor MethodDescriptor.ofString?
    (String.ofList (chars.dropWhile (· != '(')))
  return (name, descriptor)

/-- Takes the declaration of a method, and whether its code follows. -/
def methodHeader : LineReader (Method × Bool) := do
  let access ← flags
  let (name, descriptor) ← match ← peek? with
    | some (.string _) => do
      let name ← methodName
      pure (name, ← methodDescriptor)
    | _ => parsed joinedMethodName
  let exceptions ← if ← eatWord "throws" then names className else pure []
  let hasCode ← eatMark .openBrace
  return ({ access, name, descriptor, exceptions }, hasCode)

/-- The class as far as its lines have been read. -/
structure ClassDraft where
  declared : ClassFile
  fields : Array Field := #[]
  methods : Array Method := #[]
  innerClasses : Array InnerClass := #[]
  nestMembers : Array ClassName := #[]
  recordComponents : Option (List RecordComponent) := none
  nestHost : Option ClassName := none
  enclosingMethod : Option EnclosingMethod := none

def ClassDraft.finish (draft : ClassDraft) : ClassFile :=
  { draft.declared with
    fields := draft.fields.toList
    methods := draft.methods.toList
    innerClasses := draft.innerClasses.toList
    nestMembers := draft.nestMembers.toList
    recordComponents := draft.recordComponents
    nestHost := draft.nestHost
    enclosingMethod := draft.enclosingMethod }

/-- The part of a class that the next line is in. -/
inductive Part where
  | header (version : Option Version) (source : Option String) (directives : Directives)
  | body (draft : ClassDraft) (directives : Directives)
  | record (draft : ClassDraft) (components : Array RecordComponent) (directives : Directives)
  | code (draft : ClassDraft) (method : Method) (code : CodeDraft)
  | finished (result : ClassFile)

def enclosingMethod : LineReader EnclosingMethod := do
  let owner ← className
  if ← isAtEnd then return ⟨owner, none⟩
  let name ← methodName
  let descriptor ← methodDescriptor
  return ⟨owner, some (name, descriptor)⟩

def innerClass : LineReader InnerClass := do
  let inner ← className
  let outer ← if ← eatWord "outer" then some <$> className else pure none
  let name ← if ← eatWord "name" then some <$> name else pure none
  return ⟨inner, outer, name, ← flags⟩

def recordComponent : LineReader RecordComponent := do
  let type ← fieldType
  let name ← named (checked .recordName UnqualifiedName.ofString?)
  return { name, type }

def isClosing (line : Line) : Bool := line.tokens.map Located.token == [.mark .closeBrace]

/-- Directives have to be followed by a declaration. -/
def noneLeft (directives : Directives) (inRecord : Bool) : Except Failure Unit :=
  match directives.line with
  | some line => Directives.misplaced line (.danglingDirective inRecord)
  | none => .ok ()

def versionLine : LineReader Version := do
  advance
  let number := parsed fun text =>
    (readUInt16 text).mapError fun fault => .ofCause (.text (.number fault))
  let major ← number
  return ⟨major, ← number⟩

def headerLine (version : Option Version) (source : Option String) (directives : Directives)
    (line : Line) : Except Failure Part := do
  if isDirective line then
    return .header version source (← directives.addLine line)
  match line.tokens.head?.map Located.token with
  | some (.word "version") =>
    let version ← line.read (Directives.once .version version versionLine)
    return .header (some version) source directives
  | some (.word "source") =>
    let source ← line.read (Directives.once .sourceFile source (advance *> plainString))
    return .header version (some source) directives
  | _ =>
    let declared ← line.read (classHeader (version.getD .standard))
    let declared ← directives.applyClass { declared with sourceFile := source }
    return .body { declared } {}

def memberLine (draft : ClassDraft) (directives : Directives) (line : Line) :
    Except Failure Part := do
  if isMethodHeader (line.tokens.map Located.token) then
    let (method, hasCode) ← line.read methodHeader
    let method ← directives.applyMethod method
    return if hasCode then .code draft method {}
      else .body { draft with methods := draft.methods.push method } {}
  else
    let field ← line.read fieldHeader
    let field ← directives.applyField field
    return .body { draft with fields := draft.fields.push field } {}

def bodyLine (draft : ClassDraft) (directives : Directives) (line : Line) :
    Except Failure Part := do
  if isClosing line then
    noneLeft directives false
    return .finished draft.finish
  if isDirective line then
    return .body draft (← directives.addLine line)
  match line.tokens.map Located.token with
  | [.word "record", .mark .openBrace] =>
    noneLeft directives false
    if draft.recordComponents.isSome then
      throw ((Failure.ofCause (.text (.givenTwice .recordComponents))).withKind
        (.syntaxError line.number (line.columnOf line.tokens)))
    return .record draft #[] {}
  | .word "nesthost" :: _ =>
    let host ← line.read (Directives.once .nestHost draft.nestHost (advance *> className))
    return .body { draft with nestHost := some host } directives
  | .word "nestmember" :: _ =>
    let nestMember ← line.read (advance *> className)
    return .body { draft with nestMembers := draft.nestMembers.push nestMember } directives
  | .word "enclosing" :: _ =>
    let enclosing ← line.read
      (Directives.once .enclosingMethod draft.enclosingMethod (advance *> enclosingMethod))
    return .body { draft with enclosingMethod := some enclosing } directives
  | .word "innerclass" :: _ =>
    let inner ← line.read (advance *> innerClass)
    return .body { draft with innerClasses := draft.innerClasses.push inner } directives
  | _ => memberLine draft directives line

def recordLine (draft : ClassDraft) (components : Array RecordComponent) (directives : Directives)
    (line : Line) : Except Failure Part := do
  if isClosing line then
    noneLeft directives true
    return .body { draft with recordComponents := some components.toList } {}
  if isDirective line then
    return .record draft components (← directives.addLine line)
  let component ← line.read recordComponent
  let component ← directives.applyRecordComponent component
  return .record draft (components.push component) {}

def codeLine (draft : ClassDraft) (method : Method) (code : CodeDraft) (line : Line) :
    Except Failure Part := do
  if isClosing line then
    let code ← code.finish line.number
    return .body { draft with methods := draft.methods.push { method with code := some code } } {}
  return .code draft method (← code.addLine line)

/-- The part of the class after one more line. -/
def nextPart (part : Part) (line : Line) : Except Failure Part :=
  match part with
  | .header version source directives => headerLine version source directives line
  | .body draft directives => bodyLine draft directives line
  | .record draft components directives => recordLine draft components directives line
  | .code draft method code => codeLine draft method code line
  | .finished _ => line.read (fail .afterEnd)

/-- The class, if its last line has been read. -/
def Part.result (part : Part) (lineCount : Nat) : Except Failure ClassFile :=
  let missing (cause : TextCause) : Except Failure ClassFile :=
    .error ((Failure.ofCause (.text cause)).withKind (.syntaxError (lineCount + 1) 1))
  match part with
  | .finished result => .ok result
  | .header .. => missing .missingHeader
  | _ => missing .missingEnd

def parse (text : String) : Except Failure ClassFile := do
  let found := lines text.toList
  let part ← (← tokenLines found).foldlM nextPart (.header none none {})
  part.result found.length

end JvmAsm.Text
