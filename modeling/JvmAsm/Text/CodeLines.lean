import JvmAsm.Code.Labels
import JvmAsm.Text.Operand

namespace JvmAsm.Text

open Number LineReader

structure LabelNames where
  labels : Std.HashMap String Label := ∅
  names : Array String := #[]

abbrev CodeReader := StateT LabelNames LineReader

def isLabelName (text : String) : Bool :=
  match text.toList with
  | 'L' :: digits => !digits.isEmpty && digits.all Char.isDigit
  | _ => false

def LabelNames.label (names : LabelNames) (text : String) : Except Failure (Label × LabelNames) :=
  if !isLabelName text then .error (.ofCause (.text (.noLabel text)))
  else
    match names.labels[text]? with
    | some label => .ok (label, names)
    | none =>
      if 0xffff < names.names.size then
        .error ((Failure.ofCause (.text (.number .tooLarge))).within (.text .tooManyLabels))
      else
        let label : Label := ⟨UInt16.ofNat names.names.size⟩
        .ok (label, ⟨names.labels.insert text label, names.names.push text⟩)

def label : CodeReader Label := do
  let names ← modifyGet fun names => (names, {})
  let (label, names) ← parsed names.label
  set names
  return label

def labelRange : CodeReader LabelRange := do
  let start ← label
  let stop ← label
  return ⟨start, stop⟩

def codeTarget : CodeReader CodeTarget := do
  let text ← word
  if text == "local" || text == "resource" then
    let table ← braced do
      let range ← labelRange
      return (range, ← number readUInt16)
    return .variables (text == "resource") table
  else if text == "catch" then return .exceptionParameter (← number readUInt16)
  else
    match InstructionTarget.ofKeyword? text with
    | some target => return .instruction target (← label)
    | none =>
      match ArgumentTarget.ofKeyword? text with
      | some target =>
        let label ← label
        return .argument target label (← number readUInt8)
      | none => fail (.unknownTarget text)

/-- The instructions that have operands, as far as their names tell. -/
inductive OperandOp where
  | pushByte | pushShort | constant
  | load (kind : ValueKind)
  | store (kind : ValueKind)
  | increment | ret
  | branch (condition : Condition)
  | goto | jsr | tableSwitch | lookupSwitch
  | field (op : FieldOp)
  | invokeVirtual | invokeSpecial | invokeStatic | invokeInterface | invokeDynamic
  | type (op : TypeOp)
  | newPrimitiveArray | newMultiArray
  deriving DecidableEq, Repr

/-- The names of instructions with operands; some have more than one. -/
def operandOps : List (String × OperandOp) :=
  [("BIPUSH", .pushByte), ("SIPUSH", .pushShort), ("LDC", .constant), ("LDC_W", .constant),
    ("LDC2_W", .constant), ("IINC", .increment), ("RET", .ret), ("GOTO", .goto), ("GOTO_W", .goto),
    ("JSR", .jsr), ("JSR_W", .jsr), ("TABLESWITCH", .tableSwitch), ("LOOKUPSWITCH", .lookupSwitch),
    ("INVOKEVIRTUAL", .invokeVirtual), ("INVOKESPECIAL", .invokeSpecial),
    ("INVOKESTATIC", .invokeStatic), ("INVOKEINTERFACE", .invokeInterface),
    ("INVOKEDYNAMIC", .invokeDynamic), ("NEWARRAY", .newPrimitiveArray),
    ("MULTIANEWARRAY", .newMultiArray)] ++
    ValueKind.all.map (fun kind => (kind.letter ++ "LOAD", .load kind)) ++
    ValueKind.all.map (fun kind => (kind.letter ++ "STORE", .store kind)) ++
    Condition.all.map (fun condition => (condition.mnemonic, .branch condition)) ++
    FieldOp.all.map (fun op => (op.mnemonic, .field op)) ++
    TypeOp.all.map (fun op => (op.mnemonic, .type op))

/-- All instructions by their names. -/
def mnemonics : Std.HashMap String (SimpleOp ⊕ OperandOp) :=
  let simple : Std.HashMap String (SimpleOp ⊕ OperandOp) :=
    SimpleOp.all.foldl (fun table op => table.insert op.mnemonic (.inl op)) ∅
  operandOps.foldl (fun table (text, op) => table.insert text (.inr op)) simple

/-- The bound of a table that starts at the given value. -/
def tableEnd (low : Int32) (count : Nat) : Except Failure Int32 :=
  let high := low.toInt + count - 1
  let tooFar (fault : IntegerFault) : Except Failure Int32 :=
    .error ((Failure.ofCause (.text (.number fault))).within (.text (.tableTooLarge low count)))
  if 0x7fffffff < high then tooFar .tooLarge
  else if high < -0x80000000 then tooFar .tooSmall
  else .ok (Int32.ofInt high)

def operands : OperandOp → CodeReader Instruction
  | .pushByte => return .pushByte (← number readInt8)
  | .pushShort => return .pushShort (← number readInt16)
  | .constant => return .constant (← loadable)
  | .load kind => return .load kind (← number readUInt16)
  | .store kind => return .store kind (← number readUInt16)
  | .increment => do
    let index ← number readUInt16
    return .increment index (← number readInt16)
  | .ret => return .ret (← number readUInt16)
  | .branch condition => return .branch condition (← label)
  | .goto => return .goto (← label)
  | .jsr => return .jsr (← label)
  | .tableSwitch => do
    let low ← number readInt32
    let targets ← braced label
    expectWord "default"
    let default ← label
    let high ← ofResult (tableEnd low targets.length)
    return .tableSwitch default low high targets
  | .lookupSwitch => do
    let pairs ← braced do
      let key ← number readInt32
      expectMark .colon
      return (key, ← label)
    expectWord "default"
    return .lookupSwitch (← label) pairs
  | .field op => return .field op (← fieldRef)
  | .invokeVirtual => return .invokeVirtual (← methodRef)
  | .invokeSpecial => do
    let method ← methodRef
    return .invokeSpecial method (← onInterface)
  | .invokeStatic => do
    let method ← methodRef
    return .invokeStatic method (← onInterface)
  | .invokeInterface => return .invokeInterface (← methodRef)
  | .invokeDynamic => do
    let name ← methodName
    let descriptor ← methodDescriptor
    let handle ← handle
    let arguments ← arguments
    return .invokeDynamic ⟨name, descriptor, handle, arguments⟩
  | .type op => return .type op (← className)
  | .newPrimitiveArray =>
    return .newPrimitiveArray (← parsed fun text =>
      match Primitive.ofKeyword? text with
      | some element => .ok element
      | none => .error (.ofCause (.text (.unknownArrayType text))))
  | .newMultiArray => do
    let name ← className
    return .newMultiArray name (← number readUInt8)

def instruction : CodeReader Instruction := do
  let op ← parsed fun text =>
    match mnemonics[text.toUpper]? with
    | some op => .ok op
    | none => .error (.ofCause (.text (.unknownInstruction text)))
  match op with
  | .inl op => return .simple op
  | .inr op => operands op

/-- The code of the lines read so far, and where labels are bound. -/
structure CodeDraft where
  labels : LabelNames := {}
  positions : Std.HashMap Label Nat := ∅
  maxStack : Option UInt16 := none
  maxLocals : Option UInt16 := none
  instructions : Array Instruction := #[]
  handlers : Array ExceptionHandler := #[]
  lineNumbers : Array (Label × UInt16) := #[]
  localVariables : Array LocalVariable := #[]
  visible : Array (AnnotatedType CodeTarget) := #[]
  invisible : Array (AnnotatedType CodeTarget) := #[]
  attributes : Array RawAttribute := #[]

inductive CodeItem where
  | binding (label : Label) (name : String)
  | lineNumber (label : Label) (line : UInt16)
  | localVariable (entry : LocalVariable)
  | handler (entry : ExceptionHandler)
  | maxStack (value : UInt16)
  | maxLocals (value : UInt16)
  | raw (contents : RawAttribute)
  | typeNote (visible : Bool) (note : AnnotatedType CodeTarget)
  | instruction (instruction : Instruction)

def limit (what : Once) (given : Option UInt16) : CodeReader UInt16 := do
  advance
  expectMark .equals
  let value ← number readUInt16
  if given.isSome then fail (.givenTwice what)
  return value

/-- Takes a whole line. Some faults depend on the lines before. -/
def codeItem (draft : CodeDraft) : CodeReader CodeItem := do
  let tokens ← (get : LineReader (List Located))
  match ← peekWord? with
  | none => fail .noInstruction
  | some text =>
    if tokens.length == 1 && isLabelName text then
      let label ← label
      if draft.positions.contains label then fail (.boundTwice text)
      return .binding label text
    match text.toUpper with
    | "LINENUMBER" =>
      advance
      let line ← number readUInt16
      return .lineNumber (← label) line
    | "LOCALVARIABLE" =>
      advance
      let name ← name
      let type ← if ← eatWord "-" then pure none else some <$> fieldType
      let range ← labelRange
      let index ← number readUInt16
      let signature ← if ← isAtEnd then pure none else some <$> plainString
      return .localVariable ⟨range, name, type, signature, index⟩
    | "TRYCATCHBLOCK" =>
      advance
      let range ← labelRange
      let handler ← label
      let caught ← if ← eatWord "*" then pure none else some <$> className
      return .handler ⟨range.start, range.stop, handler, caught⟩
    | "MAXSTACK" => return .maxStack (← limit .maxStack draft.maxStack)
    | "MAXLOCALS" => return .maxLocals (← limit .maxLocals draft.maxLocals)
    | "ATTRIBUTE" =>
      advance
      return .raw (← rawAttribute)
    | "TYPEANNOTATION" =>
      advance
      let invisible ← eatWord "invisible"
      let target ← codeTarget
      let path ← typePath
      let note ← readAnnotation
      return .typeNote (!invisible) ⟨target, path, note⟩
    | _ => return .instruction (← instruction)

namespace CodeDraft

def add (draft : CodeDraft) : CodeItem → CodeDraft
  | .binding label _ =>
    { draft with positions := draft.positions.insert label draft.instructions.size }
  | .lineNumber label line => { draft with lineNumbers := draft.lineNumbers.push (label, line) }
  | .localVariable entry => { draft with localVariables := draft.localVariables.push entry }
  | .handler entry => { draft with handlers := draft.handlers.push entry }
  | .maxStack value => { draft with maxStack := some value }
  | .maxLocals value => { draft with maxLocals := some value }
  | .raw contents => { draft with attributes := draft.attributes.push contents }
  | .typeNote true note => { draft with visible := draft.visible.push note }
  | .typeNote false note => { draft with invisible := draft.invisible.push note }
  | .instruction instruction =>
    { draft with instructions := draft.instructions.push instruction }

def addLine (draft : CodeDraft) (line : Line) : Except Failure CodeDraft := do
  let labels := draft.labels
  let draft := { draft with labels := {} }
  let (item, labels) ← line.read ((codeItem draft).run labels)
  return { draft with labels }.add item

/-- The first annotation on a parameter of a handler that is not there. -/
def strayHandler? (draft : CodeDraft) : Option UInt16 :=
  (draft.visible.toList ++ draft.invisible.toList).findSome? fun note =>
    match note.target with
    | .exceptionParameter index => if draft.handlers.size ≤ index.toNat then some index else none
    | _ => none

def code (draft : CodeDraft) : Code where
  maxStack := draft.maxStack
  maxLocals := draft.maxLocals
  instructions := draft.instructions.toList.map fun instruction => ⟨none, instruction⟩
  handlers := draft.handlers.toList
  lineNumbers := draft.lineNumbers.toList
  localVariables := draft.localVariables.toList
  typeAnnotations := ⟨draft.visible.toList, draft.invisible.toList⟩
  attributes := draft.attributes.toList

/-- The first name of a label that is not bound, in the order in which names appeared. -/
def unboundName? (draft : CodeDraft) : Option String :=
  draft.labels.names.toList.find? fun name =>
    match draft.labels.labels[name]? with
    | some label => !draft.positions.contains label
    | none => false

/-- The labels with their positions, in the order in which their names appeared. -/
def placed (draft : CodeDraft) : List (Nat × Label) :=
  draft.labels.names.toList.filterMap fun name => do
    let label ← draft.labels.labels[name]?
    return (← draft.positions[label]?, label)

/-- The code with its labels bound; those of one position are replaced by one of them. -/
def bound (draft : CodeDraft) : Code :=
  let labels : Std.HashMap Nat Label :=
    draft.placed.foldl (fun found (position, label) => found.insert position label) ∅
  let rename (label : Label) : Label :=
    (draft.positions[label]?.bind fun position => labels[position]?).getD label
  (draft.code.mapReferences rename).bindBy fun position => labels[position]?

/-- The code of a whole body, given the line that ends it. -/
def finish (draft : CodeDraft) (line : Nat) : Except Failure Code :=
  match draft.unboundName? with
  | some name => .error (.ofKind (.unresolvedLabel name))
  | none =>
    match draft.strayHandler? with
    | some index =>
      .error ((Failure.ofCause (.text (.noHandler index draft.handlers.size))).withKind
        (.syntaxError line 1))
    | none => draft.bound.canonicalize

end CodeDraft

end JvmAsm.Text
