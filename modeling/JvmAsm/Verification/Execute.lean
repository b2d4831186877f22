import JvmAsm.ClassFile
import JvmAsm.Verification.Frame

namespace JvmAsm

open FrameStep

/-- The types of values that have their own instructions. References have types of many kinds. -/
def ValueKind.exactType? : ValueKind → Option VerificationType
  | .int => some .int
  | .long => some .long
  | .float => some .float
  | .double => some .double
  | .reference => none

/-- Replaces operands of the given types, of which the first is on top of the stack, by a value. -/
def FrameStep.compute (operands : List VerificationType) (result : VerificationType) :
    FrameStep Unit := do
  popAll operands
  push result

def FrameStep.arrayLoad (element : VerificationType) : FrameStep Unit := do
  popExact .int
  discard popReference
  push element

def FrameStep.arrayStore (element : VerificationType) : FrameStep Unit := do
  popExact element
  popExact .int
  discard popReference

/-- Pushes types one after the other. -/
def FrameStep.pushAll (types : List VerificationType) : FrameStep Unit := types.forM push

def VerificationType.component (array : VerificationType) : Except Failure VerificationType :=
  let refuse := .error (.ofCause (.verification (.notReferenceArray array)))
  match array with
  | .null => .ok .null
  | .object (.array type) =>
    match type.component with
    | .element (.primitive _) => refuse
    | component => .ok (.ofFieldType component)
  | _ => refuse

def ClassName.arrayClass (name : ClassName) : Except Failure ClassName :=
  match name.arrayOf? with
  | some found => .ok found
  | none => .error (.ofCause (.text (.invalidName .className ("[" ++ name.fieldType.text))))

def FrameStep.duplicate2 : FrameStep Unit := do
  let first ← pop
  if first.isWide then
    pushAll [first, first]
  else
    let second ← popSingle
    pushAll [second, first, second, first]

def FrameStep.duplicateBelow2 : FrameStep Unit := do
  let first ← popSingle
  let second ← pop
  if second.isWide then
    pushAll [first, second, first]
  else
    let third ← popSingle
    pushAll [first, third, second, first]

def FrameStep.duplicate2Below1 : FrameStep Unit := do
  let first ← pop
  let second ← popSingle
  if first.isWide then
    pushAll [first, second, first]
  else
    let third ← popSingle
    pushAll [second, first, third, second, first]

def FrameStep.duplicate2Below2 : FrameStep Unit := do
  let first ← pop
  if first.isWide then
    let second ← pop
    if second.isWide then
      pushAll [first, second, first]
    else
      let third ← popSingle
      pushAll [first, third, second, first]
  else
    let second ← popSingle
    let third ← pop
    if third.isWide then
      pushAll [second, first, third, second, first]
    else
      let fourth ← popSingle
      pushAll [second, first, fourth, third, second, first]

def ValueKind.isReturnedAs (kind : ValueKind) (declared : FieldType) : Bool :=
  match VerificationType.ofFieldType declared with
  | .object _ => kind == .reference
  | type => kind.exactType? == some type

def FrameStep.returnValue (kind : ValueKind) : Option FieldType → FrameStep Unit
  | none => fail .valueFromVoid
  | some declared => do
    if !kind.isReturnedAs declared then fail (.wrongReturn declared)
    popField declared

def FrameStep.returnNothing : Option FieldType → FrameStep Unit
  | none => pure ()
  | some _ => fail .missingValue

/-- The effect of an instruction without operands in a method with the given return type. -/
def SimpleOp.execute (returned : Option FieldType) : SimpleOp → FrameStep Unit
  | .nop => pure ()
  | .aconstNull => push .null
  | .iconstM1 | .iconst0 | .iconst1 | .iconst2 | .iconst3 | .iconst4 | .iconst5 => push .int
  | .lconst0 | .lconst1 => push .long
  | .fconst0 | .fconst1 | .fconst2 => push .float
  | .dconst0 | .dconst1 => push .double
  | .iaload | .baload | .caload | .saload => arrayLoad .int
  | .laload => arrayLoad .long
  | .faload => arrayLoad .float
  | .daload => arrayLoad .double
  | .aaload => do
    popExact .int
    let array ← popReference
    push (← array.component)
  | .iastore | .bastore | .castore | .sastore => arrayStore .int
  | .lastore => arrayStore .long
  | .fastore => arrayStore .float
  | .dastore => arrayStore .double
  | .aastore => do
    discard popReference
    popExact .int
    discard popReference
  | .pop => discard popSingle
  | .pop2 => do
    let first ← FrameStep.pop
    if !first.isWide then discard popSingle
  | .dup => do
    let first ← popSingle
    pushAll [first, first]
  | .dupX1 => do
    let first ← popSingle
    let second ← popSingle
    pushAll [first, second, first]
  | .dupX2 => duplicateBelow2
  | .dup2 => duplicate2
  | .dup2X1 => duplicate2Below1
  | .dup2X2 => duplicate2Below2
  | .swap => do
    let first ← popSingle
    let second ← popSingle
    pushAll [first, second]
  | .iadd | .isub | .imul | .idiv | .irem | .ishl | .ishr | .iushr | .iand | .ior | .ixor =>
    compute [.int, .int] .int
  | .ladd | .lsub | .lmul | .ldiv | .lrem | .land | .lor | .lxor => compute [.long, .long] .long
  | .fadd | .fsub | .fmul | .fdiv | .frem => compute [.float, .float] .float
  | .dadd | .dsub | .dmul | .ddiv | .drem => compute [.double, .double] .double
  | .lshl | .lshr | .lushr => compute [.int, .long] .long
  | .ineg | .i2b | .i2c | .i2s => compute [.int] .int
  | .lneg => compute [.long] .long
  | .fneg => compute [.float] .float
  | .dneg => compute [.double] .double
  | .i2l => compute [.int] .long
  | .i2f => compute [.int] .float
  | .i2d => compute [.int] .double
  | .l2i => compute [.long] .int
  | .l2f => compute [.long] .float
  | .l2d => compute [.long] .double
  | .f2i => compute [.float] .int
  | .f2l => compute [.float] .long
  | .f2d => compute [.float] .double
  | .d2i => compute [.double] .int
  | .d2l => compute [.double] .long
  | .d2f => compute [.double] .float
  | .lcmp => compute [.long, .long] .int
  | .fcmpl | .fcmpg => compute [.float, .float] .int
  | .dcmpl | .dcmpg => compute [.double, .double] .int
  | .ireturn => returnValue .int returned
  | .lreturn => returnValue .long returned
  | .freturn => returnValue .float returned
  | .dreturn => returnValue .double returned
  | .areturn => returnValue .reference returned
  | .returnVoid => returnNothing returned
  | .arraylength => do
    discard popReference
    push .int
  | .athrow | .monitorenter | .monitorexit => discard popReference

def Condition.popOperands : Condition → FrameStep Unit
  | .eq | .ne | .lt | .ge | .gt | .le => popExact .int
  | .icmpEq | .icmpNe | .icmpLt | .icmpGe | .icmpGt | .icmpLe => popAll [.int, .int]
  | .acmpEq | .acmpNe => do
    discard popReference
    discard popReference
  | .isNull | .isNonNull => discard popReference

def FieldOp.execute (type : FieldType) : FieldOp → FrameStep Unit
  | .getStatic => pushField type
  | .putStatic => popField type
  | .getField => do
    discard popReference
    pushField type
  | .putField => do
    popField type
    discard popReference

/-- The method whose code is looked at. -/
structure CodeContext where
  owner : ClassName
  returned : Option FieldType
  instructions : Array Instruction

namespace CodeContext

/-- The class of an object once its constructor has been called. -/
def initialized (context : CodeContext) (called : MethodRef) :
    VerificationType → Except Failure VerificationType
  | .uninitializedThis => .ok (.object context.owner)
  | .uninitialized index =>
    match context.instructions[index]? with
    | some (.type .new name) => .ok (.object name)
    | _ => .error (.ofCause (.verification .notCreated))
  | other => .error (.ofCause (.verification (.alreadyInitialized called.owner other)))

/-- Calls a method on an object, which is given back. -/
def invoke (method : MethodRef) : FrameStep VerificationType := do
  popArguments method.descriptor
  let receiver ← popReference
  pushResult method.descriptor
  return receiver

def execute (context : CodeContext) (index : Nat) : Instruction → FrameStep Unit
  | .simple op => op.execute context.returned
  | .pushByte _ | .pushShort _ => push .int
  | .constant value => push (.ofLoadable value)
  | .load kind variableIndex =>
    match kind.exactType? with
    | some type => do
      checkLocal variableIndex type
      push type
    | none => do
      push (← referenceLocal variableIndex)
  | .store kind variableIndex =>
    match kind.exactType? with
    | some type => do
      popExact type
      store variableIndex type
    | none => do
      store variableIndex (← popReference)
  | .increment variableIndex _ => checkLocal variableIndex .int
  | .branch condition _ => condition.popOperands
  | .goto _ => pure ()
  | .jsr _ | .ret _ => fail .subroutine
  | .tableSwitch .. | .lookupSwitch .. => popExact .int
  | .field op reference => op.execute reference.type
  | .invokeVirtual method | .invokeInterface method => discard (invoke method)
  | .invokeStatic method _ => do
    popArguments method.descriptor
    pushResult method.descriptor
  | .invokeSpecial method _ => do
    let receiver ← invoke method
    if method.name.isConstructor then
      let created ← context.initialized method receiver
      modify (Frame.replace receiver created)
  | .invokeDynamic site => do
    popArguments site.descriptor
    pushResult site.descriptor
  | .type .new _ => push (.uninitialized index)
  | .type .newArray name => do
    popExact .int
    push (.object (← name.arrayClass))
  | .type .checkCast name => do
    discard popReference
    push (.object name)
  | .type .instanceOf _ => do
    discard popReference
    push .int
  | .newPrimitiveArray element => do
    popExact .int
    push (.object (.array (.single (.primitive element))))
  | .newMultiArray name dimensions => do
    popAll (List.replicate dimensions.toNat .int)
    push (.object name)

end CodeContext

end JvmAsm
