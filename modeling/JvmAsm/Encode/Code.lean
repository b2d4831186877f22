import JvmAsm.Bytecode.Layout
import JvmAsm.Bytecode.Lower
import JvmAsm.Encode.Annotation
import JvmAsm.StackMap
import JvmAsm.Verification.Inference

namespace JvmAsm

/-- How classes are encoded. -/
structure EncodeOptions where
  /-- Whether frames are written, in class files that can have them. -/
  computeFrames : Bool := true
  /-- Whether the sizes of the stack and of the local variables are found if none are given. -/
  computeMaxs : Bool := true
  hierarchy : Hierarchy := .rootOnly

namespace Encode

open Binary Bytecode

/-- What is known about the code of a method before it is written. -/
structure Analysis where
  computed : Option FrameTable := none
  writesFrames : Bool := false

/-- The frames of a method, where they or the sizes of the code are needed. -/
def analyzeCode (options : EncodeOptions) (owner : ClassFile) (method : Method) (code : Code) :
    Encoder Analysis := do
  let hasSubroutines := code.instructions.any fun entry => entry.instruction.isSubroutine
  let wantsFrames := options.computeFrames && owner.version.hasFrames
  let withoutFrames := wantsFrames && hasSubroutines && owner.version.allowsSubroutines
  if withoutFrames then warn (.usesSubroutines method.title owner.name)
  let writesFrames := wantsFrames && !withoutFrames
  let needsMaxs := code.maxStack.isNone || code.maxLocals.isNone
  if needsMaxs && !options.computeMaxs then fail (.noMaximums method.title)
  if writesFrames || needsMaxs then
    let table ← ofResult (computeFrames options.hierarchy owner.name method)
    return ⟨some table, writesFrames⟩
  return ⟨none, writesFrames⟩

def analyze (options : EncodeOptions) (owner : ClassFile) (method : Method) : Encoder Analysis :=
  match method.code with
  | none => return {}
  | some code => within (.inAnalysis method.title) (analyzeCode options owner method code)

/-- The number of local variables that the instructions name, whether they are reached or not. -/
def localsUsed (code : Code) : Nat :=
  code.instructions.foldl (fun count entry =>
    match entry.instruction with
    | .load kind index | .store kind index => max count (index.toNat + kind.size)
    | .increment index _ | .ret index => max count (index.toNat + 1)
    | _ => count) 0

/-- The code as it is written: its instructions, where they stand, and which are reached. -/
structure Written where
  code : Code
  ops : List (Op Nat)
  layout : Layout
  positions : Std.HashMap Label Nat
  /-- The frames of the code, if they are written. -/
  frames : Option FrameTable

namespace Written

def offset (written : Written) (label : Label) : Nat :=
  written.layout.offset (written.positions[label]?.getD 0)

def label (written : Written) (label : Label) : List UInt8 :=
  bytes16 (UInt16.ofNat (written.offset label))

def range (written : Written) (range : LabelRange) : Encoder (List UInt8) := do
  let start := written.offset range.start
  let stop := written.offset range.stop
  if stop < start then fail (.reversedRange range.start range.stop)
  return bytes16 (UInt16.ofNat start) ++ bytes16 (UInt16.ofNat (stop - start))

/-- Whether an instruction is kept, which it is unless frames show that it is never reached. -/
def isKept (written : Written) (index : Nat) : Bool :=
  match written.frames with
  | some table => table.isReachable index
  | none => true

/-- Whether some code is replaced. -/
def hasReplaced (written : Written) : Bool :=
  match written.frames with
  | some table => table.hasUnreachable
  | none => false

/-- Code that does nothing, and ends if the code after it is reached in another way. -/
def filler (size : Nat) (isLast : Bool) : List UInt8 :=
  if isLast then List.replicate (size - 1) SimpleOp.nop.opcode ++ [SimpleOp.athrow.opcode]
  else List.replicate size SimpleOp.nop.opcode

def bytecode (written : Written) : List UInt8 :=
  let count := written.ops.length
  ((written.layout.bytes written.ops).zipIdx.map fun (bytes, index) =>
    if written.isKept index then bytes
    else filler bytes.length (index + 1 == count || written.isKept (index + 1))).flatten

/-- Whether a conditional branch jumps to the instruction after it. -/
def isInverted (written : Written) (op : Op Nat) (index : Nat) : Bool :=
  op.isBranch && written.layout.isWide index

/-- The frame of an instruction that is reached. -/
def mapFrame (written : Written) (index : Nat) (frame : Frame) :
    Except Failure StackMap.MapFrame := do
  let offsetOf := written.layout.offset
  return ⟨offsetOf index, ← StackMap.localItems offsetOf frame.locals,
    StackMap.stackItems offsetOf frame.stack⟩

/-- The frame of code that is never reached, which may be entered with an exception. -/
def deadFrame (written : Written) (index : Nat) : StackMap.MapFrame :=
  ⟨written.layout.offset index, [], [.object .throwable]⟩

/--
The frames of the code from an index on. They are those that are required, those after inverted
branches, and one at the start of each part of the code that is never reached.
-/
def framesFrom (written : Written) (table : FrameTable) (isRequired : Array Bool)
    (found : Array StackMap.MapFrame) (index : Nat) (isAfterBranch isAfterDead : Bool) :
    List (Op Nat) → Except Failure (List StackMap.MapFrame)
  | [] => .ok found.toList
  | op :: rest => do
    let isInverted := written.isInverted op index
    match table.frame? index with
    | some frame =>
      let found ←
        if isRequired[index]?.getD false || isAfterBranch then
          pure (found.push (← written.mapFrame index frame))
        else pure found
      framesFrom written table isRequired found (index + 1) isInverted false rest
    | none =>
      let found := if isAfterDead then found else found.push (written.deadFrame index)
      framesFrom written table isRequired found (index + 1) isInverted true rest

def mapFrames (written : Written) (table : FrameTable) :
    Except Failure (List StackMap.MapFrame) :=
  let isRequired := table.required.foldl (fun flags index => flags.setIfInBounds index true)
    (Array.replicate written.ops.length false)
  framesFrom written table isRequired #[] 0 false false written.ops

/-- The parts of a range of instructions that are kept; the part under way may have started. -/
def keptRuns (written : Written) : Nat → Nat → Option Nat → List (Nat × Nat)
  | 0, stop, some start => [(start, stop)]
  | 0, _, none => []
  | count + 1, index, started =>
    match started, written.isKept index with
    | none, true => keptRuns written count (index + 1) (some index)
    | some start, false => (start, index) :: keptRuns written count (index + 1) none
    | started, _ => keptRuns written count (index + 1) started

end Written

/-- An entry of the exception table. -/
structure HandlerEntry where
  start : Nat
  stop : Nat
  handler : Nat
  caught : UInt16

def HandlerEntry.bytes (entry : HandlerEntry) : List UInt8 :=
  bytes16 (UInt16.ofNat entry.start) ++ bytes16 (UInt16.ofNat entry.stop) ++
    bytes16 (UInt16.ofNat entry.handler) ++ bytes16 entry.caught

def handlerEntries (written : Written) (handler : ExceptionHandler) :
    Encoder (List HandlerEntry) := do
  let start := written.offset handler.start
  let stop := written.offset handler.stop
  if stop ≤ start then fail (.emptyRange handler.start handler.stop)
  let target := written.offset handler.handler
  let caught ← onPool (PoolBuilder.optional PoolBuilder.className handler.caught)
  if written.hasReplaced then
    let first := written.positions[handler.start]?.getD 0
    let last := written.positions[handler.stop]?.getD 0
    return (written.keptRuns (last - first) first none).map fun run =>
      ⟨written.layout.offset run.1, written.layout.offset run.2, target, caught⟩
  return [⟨start, stop, target, caught⟩]

def firstEntries (lists : List (List HandlerEntry)) : Array (Option Nat) :=
  (lists.foldl (fun (firsts, count) entries =>
    (firsts.push (if entries.isEmpty then none else some count), count + entries.length))
    ((#[] : Array (Option Nat)), 0)).1

/-- Leaves out the annotations on parameters of handlers that are not written. -/
def keepHandled (firsts : Array (Option Nat)) (notes : List (AnnotatedType CodeTarget)) :
    Encoder (List (AnnotatedType CodeTarget)) :=
  notes.filterM fun note => do
    match note.target with
    | .exceptionParameter handler =>
      if (firsts[handler.toNat]?.join).isSome then return true
      warn (.droppedNote handler)
      return false
    | _ => return true

def codeTarget (written : Written) (firsts : Array (Option Nat)) :
    CodeTarget → Encoder (List UInt8)
  | .variables isResource table => do
    let entries ← list16 (.tooMany .annotatedVariables) table fun (range, variableIndex) => do
      return (← written.range range) ++ bytes16 variableIndex
    return (if isResource then 0x41 else 0x40) :: entries
  | .exceptionParameter handler =>
    match firsts[handler.toNat]?.join with
    | some entry => return 0x42 :: bytes16 (UInt16.ofNat entry)
    | none => fail (.missingHandler handler)
  | .instruction target label => return target.code :: written.label label
  | .argument target label argument => return target.code :: (written.label label ++ [argument])

def lineNumbers (written : Written) : AttributeEncoder :=
  attributeOfList written.code.lineNumbers fun lines =>
    namedAfter "LineNumberTable" <|
      list16 (.tooMany .lineNumbers) lines fun (label, line) =>
        return written.label label ++ bytes16 line

def localVariableTable (written : Written) (name : String)
    (known : LocalVariable → Option String) : AttributeEncoder :=
  let entries := written.code.localVariables.filterMap fun entry =>
    (known entry).map fun text => (entry, text)
  attributeOfList entries fun entries =>
    namedAfter name <| list16 (.tooMany .localVariables) entries fun (entry, text) => do
      let range ← written.range entry.range
      let nameIndex ← utf8 entry.name
      let textIndex ← utf8 text
      return range ++ nameIndex ++ textIndex ++ bytes16 entry.index

def stackMapTable (entry : List StackMap.Item) (frames : List StackMap.MapFrame) :
    AttributeEncoder :=
  attributeOfList frames fun frames =>
    namedAfter "StackMapTable" (onPool (StackMap.tableBytes entry frames))

/-- The failure of code whose instructions find no places. -/
def layoutFailure (code : Code) : LayoutFault → Failure
  | .startTooLarge offset =>
    (Failure.ofCause (.binary .numberTooLarge)).within (.encoding (.codeTooLarge offset))
  | .noRoom index offset =>
    let failure := Failure.ofCause (.encoding (.noRoom offset))
    match code.instructions[index]? with
    | some entry => atInstruction index entry.instruction failure
    | none => failure
  | .codeTooLarge size =>
    (Failure.ofCause (.binary .numberTooLarge)).within (.encoding (.codeLength size))
  | .unsettled => .ofCause (.encoding .unsettled)

/--
Lowers and places the instructions of code. If an instruction cannot be lowered, the instructions
before it still have to find their places first.
-/
def layOut (code : Code) : Encoder (List (Op Nat) × Layout) := do
  match ← onPool (lowerAll code) with
  | (ops, none) => return (ops, ← ofResult ((Layout.ofOps ops).mapError (layoutFailure code)))
  | (ops, some failure) =>
    let checked := (Layout.place #[] ops).bind Layout.checkStart
    ofResult (checked.mapError (layoutFailure code))
    throw failure

/-- The first instruction that enters or leaves a subroutine. -/
def subroutine? (code : Code) : Option Nat :=
  code.instructions.findIdx? fun entry => entry.instruction.isSubroutine

def checkCode (version : Version) (code : Code) : Encoder Unit := do
  ofResult code.checkLabels
  if code.instructions.isEmpty then fail .noInstructions
  if !version.allowsSubroutines then
    if let some index := subroutine? code then fail (.subroutine index version)

/-- The number of local variables to write, given those that have been found. -/
def maxLocals (code : Code) (analysis : Analysis) : Encoder UInt16 := do
  match code.maxLocals with
  | some given => return given
  | none =>
    let computed := (analysis.computed.map FrameTable.maxLocals).getD 0
    if analysis.writesFrames then return computed
    let used := localsUsed code
    if 0xffff < used then
      throw ((Failure.ofCause (.binary .numberTooLarge)).within (.encoding (.localsUsed used)))
    return max computed (UInt16.ofNat used)

/-- The size of the stack to write, on which replaced code has the exception it is entered with. -/
def maxStack (written : Written) (analysis : Analysis) : UInt16 :=
  let known := (written.code.maxStack.or (analysis.computed.map FrameTable.maxStack)).getD 0
  if written.hasReplaced then max known 1 else known

/-- The frames that are written, with the local variables that a method starts with. -/
def writtenFrames (written : Written) :
    Encoder (List StackMap.Item × List StackMap.MapFrame) := do
  match written.frames with
  | none => return ([], [])
  | some table =>
    let frames ← ofResult (written.mapFrames table)
    return (← ofResult (StackMap.localItems written.layout.offset table.entry.locals), frames)

/-- The contents of the attribute that holds the code of a method. -/
def codeBody (version : Version) (code : Code) (analysis : Analysis) : Encoder (List UInt8) := do
  checkCode version code
  let (ops, layout) ← layOut code
  let written : Written := {
    code
    ops
    layout
    positions := code.positions
    frames := if analysis.writesFrames then analysis.computed else none }
  let (entry, frames) ← writtenFrames written
  let locals ← maxLocals code analysis
  let bytecode := written.bytecode
  let entryLists ← code.handlers.mapM (handlerEntries written)
  let handlers ← list16 (.tooMany .handlers) entryLists.flatten fun entry => return entry.bytes
  let firsts := firstEntries entryLists
  let attributes ← attributeTable .codeAttributes [stackMapTable entry frames, lineNumbers written,
    localVariableTable written "LocalVariableTable" fun entry => entry.type.map FieldType.text,
    localVariableTable written "LocalVariableTypeTable" LocalVariable.signature,
    typeAnnotations (keepHandled firsts) (codeTarget written firsts) code.typeAnnotations,
    rawAttributes code.attributes]
  return bytes16 (maxStack written analysis) ++ bytes16 locals ++
    bytes32 (UInt32.ofNat bytecode.length) ++ bytecode ++ handlers ++ attributes

end Encode

end JvmAsm
