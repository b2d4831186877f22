import JvmAsm.Bytecode.Resolve
import JvmAsm.Code.Labels
import JvmAsm.Pool.Builder

namespace JvmAsm

/-- Whether a constant takes up two entries of the stack. -/
def Loadable.isDouble : Loadable → Bool
  | .long _ | .double _ => true
  | .dynamic _ type _ _ => type.size == 2
  | _ => false

namespace Bytecode

def unencodable {α : Type} (cause : EncodingCause) : PoolM α :=
  throw (.ofCause (.encoding cause))

/-- Whether keys are strictly increasing. -/
def areIncreasing : List (Int32 × Label) → Bool
  | first :: second :: rest => first.1 < second.1 && areIncreasing (second :: rest)
  | _ => true

def lower : Instruction → PoolM (Op Label)
  | .simple op => return .simple op
  | .pushByte value => return .pushByte value
  | .pushShort value => return .pushShort value
  | .constant value => return .constant value.isDouble (← PoolBuilder.loadable value)
  | .load kind index => return .load kind index
  | .store kind index => return .store kind index
  | .increment index amount => return .increment index amount
  | .branch condition target => return .branch condition target
  | .goto target => return .goto target
  | .jsr target => return .jsr target
  | .ret index => return .ret index
  | .tableSwitch default low high targets => do
    if high < low then unencodable (.tableBounds low high)
    let span := high.toInt - low.toInt + 1
    if targets.length ≠ span then unencodable (.tableSize targets.length span)
    return .tableSwitch default low high targets
  | .lookupSwitch default pairs => do
    if !areIncreasing pairs then unencodable .unsortedKeys
    return .lookupSwitch default pairs
  | .field op field => return .field op (← PoolBuilder.fieldRef field)
  | .invokeVirtual method => return .invokeVirtual (← PoolBuilder.methodRef method false)
  | .invokeSpecial method onInterface =>
    return .invokeSpecial (← PoolBuilder.methodRef method onInterface)
  | .invokeStatic method onInterface =>
    return .invokeStatic (← PoolBuilder.methodRef method onInterface)
  | .invokeInterface method => do
    let index ← PoolBuilder.methodRef method true
    match argumentCount method.descriptor with
    | .ok count => return .invokeInterface index count
    | .error failure => throw failure
  | .invokeDynamic site => return .invokeDynamic (← PoolBuilder.invokeDynamic site)
  | .type op name => return .type op (← PoolBuilder.className name)
  | .newPrimitiveArray element => return .newPrimitiveArray element.arrayCode
  | .newMultiArray name dimensions => do
    if dimensions == 0 then unencodable .noDimensions
    return .newMultiArray (← PoolBuilder.className name) dimensions

/--
The index of the instruction that a label stands for. If a label is bound more than once, the last
instruction counts that is not behind the one using the label, or else the last of all.
-/
def targetIndex (bound positions : Std.HashMap Label Nat) (label : Label) : Nat :=
  (bound[label]?.or positions[label]?).getD 0

def atInstruction (index : Nat) (instruction : Instruction) (failure : Failure) : Failure :=
  failure.within (.encoding (.atInstruction index instruction))

/--
Lowers the rest of the instructions, given those lowered so far and the labels bound so far. The
first failure ends it, and is given together with what comes before.
-/
def lowerFrom (positions : Std.HashMap Label Nat) :
    List Entry → Std.HashMap Label Nat → Array (Op Nat) → PoolM (List (Op Nat) × Option Failure)
  | [], _, found => return (found.toList, none)
  | entry :: rest, bound, found => fun pool =>
    let bound := match entry.label with
      | some label => bound.insert label found.size
      | none => bound
    match lower entry.instruction pool with
    | .ok op pool =>
      lowerFrom positions rest bound (found.push (op.map (targetIndex bound positions))) pool
    | .error failure pool =>
      .ok (found.toList, some (atInstruction found.size entry.instruction failure)) pool

def lowerAll (code : Code) : PoolM (List (Op Nat) × Option Failure) :=
  lowerFrom code.positions code.instructions ∅ #[]

end Bytecode

end JvmAsm
