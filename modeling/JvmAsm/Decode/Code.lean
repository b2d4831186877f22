import JvmAsm.Bytecode.Decode
import JvmAsm.Bytecode.Resolve
import JvmAsm.Code.Labels
import JvmAsm.Decode.Attribute

namespace JvmAsm

namespace Decode

open Binary ByteReader Bytecode

def labelInside (length : Nat) (offset : UInt16) : Except Failure Label :=
  (insideCode length offset.toNat).map labelOf

def labelUpTo (length : Nat) (offset : UInt16) : Except Failure Label :=
  (insideCode length offset.toNat).map labelOf |> fun inside =>
    if offset.toNat = length then .ok (labelOf offset) else inside

def labelRange (length : Nat) (start size : UInt16) : Except Failure LabelRange := do
  if 0xffff < start.toNat + size.toNat then
    throw (.ofCause (.binary (.rangePastEnd start size)))
  let startLabel ← labelInside length start
  return ⟨startLabel, ← labelUpTo length (start + size)⟩

def readLabel (length : Nat) : ByteReader Label := do
  ofResult (labelInside length (← u16))

def readRange (length : Nat) : ByteReader LabelRange := do
  let start ← u16
  ofResult (labelRange length start (← u16))

def exceptionHandler (table : PoolTable) (length : Nat) : ByteReader ExceptionHandler := do
  let start ← u16
  let stop ← u16
  if stop ≤ start then fail (.emptyRange start stop)
  let startLabel ← ofResult (labelInside length start)
  let stopLabel ← ofResult (labelUpTo length stop)
  let handler ← readLabel length
  return ⟨startLabel, stopLabel, handler, ← optionalEntry table.className⟩

def lineNumber (length : Nat) : ByteReader (Label × UInt16) := do
  let label ← readLabel length
  return (label, ← u16)

def localVariable (table : PoolTable) (length : Nat) : ByteReader LocalVariable := do
  let range ← readRange length
  let name ← entry table.text
  let type ← entry table.fieldType
  return ⟨range, name, some type, none, ← u16⟩

def localVariableType (table : PoolTable) (length : Nat) : ByteReader LocalVariable := do
  let range ← readRange length
  let name ← entry table.text
  let signature ← entry table.text
  return ⟨range, name, none, some signature, ← u16⟩

/-- The target of an annotation on a type in code with the given number of handlers. -/
def codeTarget (length handlerCount : Nat) : ByteReader CodeTarget := do
  let code ← u8
  if code == 0x40 || code == 0x41 then
    let table ← list16 do
      let range ← readRange length
      return (range, ← u16)
    return .variables (code == 0x41) table
  else if code == 0x42 then
    let index ← u16
    if handlerCount ≤ index.toNat then fail (.noHandler index handlerCount)
    return .exceptionParameter index
  else
    match InstructionTarget.ofCode? code with
    | some target => return .instruction target (← readLabel length)
    | none =>
      match ArgumentTarget.ofCode? code with
      | some target =>
        let label ← readLabel length
        return .argument target label (← u8)
      | none => fail (.wrongTarget code .inCode)

/-- The attributes of code, as far as they have been read. -/
structure CodeTables where
  lineNumbers : Array (Label × UInt16) := #[]
  localVariables : Array LocalVariable := #[]
  localVariableTypes : Array LocalVariable := #[]
  visible : Array (AnnotatedType CodeTarget) := #[]
  invisible : Array (AnnotatedType CodeTarget) := #[]
  raw : Array RawAttribute := #[]

namespace CodeTables

/-- Reads an attribute of code. Frames are computed anew, so they are skipped. -/
def step (table : PoolTable) (length handlerCount : Nat) (tables : CodeTables) (name : String)
    (size : Nat) : ByteReader CodeTables := do
  match name with
  | "StackMapTable" =>
    skip size
    return tables
  | "LineNumberTable" =>
    let found ← contents name size (list16 (lineNumber length))
    return { tables with lineNumbers := tables.lineNumbers ++ found }
  | "LocalVariableTable" =>
    let found ← contents name size (list16 (localVariable table length))
    return { tables with localVariables := tables.localVariables ++ found }
  | "LocalVariableTypeTable" =>
    let found ← contents name size (list16 (localVariableType table length))
    return { tables with localVariableTypes := tables.localVariableTypes ++ found }
  | "RuntimeVisibleTypeAnnotations" =>
    let found ← contents name size (annotatedTypes table (codeTarget length handlerCount))
    return { tables with visible := tables.visible ++ found }
  | "RuntimeInvisibleTypeAnnotations" =>
    let found ← contents name size (annotatedTypes table (codeTarget length handlerCount))
    return { tables with invisible := tables.invisible ++ found }
  | _ =>
    let kept ← Decode.raw name size
    return { tables with raw := tables.raw.push kept }

def belongs (signed variable' : LocalVariable) : Bool :=
  variable'.signature.isNone && variable'.range == signed.range && variable'.name == signed.name &&
    variable'.index == signed.index

def addSignature (locals : Array LocalVariable) (signed : LocalVariable) : Array LocalVariable :=
  match locals.findIdx? (belongs signed) with
  | some index => locals.modify index fun found => { found with signature := signed.signature }
  | none => locals.push signed

/-- The code with no instructions yet. -/
def code (tables : CodeTables) (handlers : List ExceptionHandler) : Code where
  handlers := handlers
  lineNumbers := tables.lineNumbers.toList
  localVariables := (tables.localVariableTypes.foldl addSignature tables.localVariables).toList
  typeAnnotations := ⟨tables.visible.toList, tables.invisible.toList⟩
  attributes := tables.raw.toList

end CodeTables

/-- Where the instructions start, with the position of each, and the position of the end. -/
def startPositions {α : Type} (ops : List (Placed α)) (length : Nat) : Std.HashMap Label Nat :=
  let found : Std.HashMap Label Nat :=
    ops.zipIdx.foldl (fun found (placed, index) =>
      found.insert (labelOf (UInt16.ofNat placed.offset)) index) ∅
  found.insert (labelOf (UInt16.ofNat length)) ops.length

/-- The least offset that is used although no instruction starts there. -/
def misplacedOffset? (positions : Std.HashMap Label Nat) (references : List Label) : Option Nat :=
  references.foldl (fun least label =>
    if positions.contains label then least
    else some (match least with
      | some offset => min offset label.id.toNat
      | none => label.id.toNat)) none

/-- The label of an offset, if one has been created. -/
def labelFor (created : Std.HashSet Label) (offset : UInt16) : Option Label :=
  if created.contains (labelOf offset) then some (labelOf offset) else none

/-- An offset for which a label has been created. -/
def known (created : Std.HashSet Label) (reader : ByteReader UInt16) : ByteReader UInt16 := do
  let offset ← reader
  if !created.contains (labelOf offset) then fail (.noLabel offset)
  return offset

/-- The instruction at the cursor, with its constants and the labels of its targets. -/
def readInstruction (table : PoolTable) (bootstrap : PoolTable.Bootstrap)
    (created : Std.HashSet Label) : ByteReader Instruction := do
  ofResult (resolve table bootstrap (← op (known created)))

def readCode (table : PoolTable) (bootstrap : PoolTable.Bootstrap) (classStart : Nat) :
    ByteReader Code := do
  let maxStack ← u16
  let maxLocals ← u16
  let length ← u32
  let length := length.toNat
  if length == 0 || 0xffff < length then fail (.codeLength length)
  let codeStart := (← offset) - classStart
  let bytecode ← bytes length
  let scanned ← ofResult (walk (scan length) bytecode codeStart)
  let handlers ← list16 (exceptionHandler table length)
  let tables ← attributes table (CodeTables.step table length handlers.length) {}
  let code := tables.code handlers
  let references := scanned.flatMap (fun placed => placed.op.map labelOf) ++ code.references
  if let some offset := misplacedOffset? (startPositions scanned length) references then
    throw ((Failure.ofCause (.binary (.insideInstruction offset))).withKind
      (.malformedClass codeStart))
  let created := references.foldl .insert (∅ : Std.HashSet Label)
  let read ← ofResult (walk (readInstruction table bootstrap created) bytecode codeStart)
  let instructions := read.map fun placed =>
    ⟨labelFor created (UInt16.ofNat placed.offset), placed.op⟩
  let lastLabel := labelFor created (UInt16.ofNat length)
  ofResult { code with
    maxStack := some maxStack, maxLocals := some maxLocals, instructions, lastLabel }.canonicalize

end Decode

end JvmAsm
