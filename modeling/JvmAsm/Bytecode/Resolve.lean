import JvmAsm.Bytecode.Op
import JvmAsm.Pool.Table

namespace JvmAsm

namespace Bytecode

open PoolTable

def labelOf (offset : UInt16) : Label := ⟨offset⟩

/-- The first two keys in a row that are not increasing. -/
def unsortedKeys? : List (Int32 × UInt16) → Option (Int32 × Int32)
  | first :: second :: rest =>
    if second.1 ≤ first.1 then some (second.1, first.1) else unsortedKeys? (second :: rest)
  | _ => none

/-- The number of local variables of the arguments, if it fits into a byte. -/
def argumentCount (descriptor : MethodDescriptor) : Except Failure UInt8 :=
  let size := descriptor.argumentSize.toNat
  if size ≤ 0xff then .ok (UInt8.ofNat size)
  else .error ((Failure.ofCause (.binary .numberTooLarge)).within
    (.binary (.argumentSize size descriptor)))

def resolve (table : PoolTable) (bootstrap : Bootstrap) : Op UInt16 → Except Failure Instruction
  | .simple op => .ok (.simple op)
  | .pushByte value => .ok (.pushByte value)
  | .pushShort value => .ok (.pushShort value)
  | .constant _ index => return .constant (← table.loadable bootstrap index)
  | .load kind index => .ok (.load kind index)
  | .store kind index => .ok (.store kind index)
  | .increment index amount => .ok (.increment index amount)
  | .branch condition target => .ok (.branch condition (labelOf target))
  | .goto target => .ok (.goto (labelOf target))
  | .jsr target => .ok (.jsr (labelOf target))
  | .ret index => .ok (.ret index)
  | .tableSwitch default low high targets =>
    .ok (.tableSwitch (labelOf default) low high (targets.map labelOf))
  | .lookupSwitch default pairs =>
    match unsortedKeys? pairs with
    | some (key, last) => refuse (.unsortedKeys key last)
    | none =>
      .ok (.lookupSwitch (labelOf default) (pairs.map fun pair => (pair.1, labelOf pair.2)))
  | .field op index => return .field op (← table.fieldRef index)
  | .invokeVirtual index => return .invokeVirtual (← table.methodRef index)
  | .invokeSpecial index => do
    let (method, onInterface) ← table.anyMethodRef index
    return .invokeSpecial method onInterface
  | .invokeStatic index => do
    let (method, onInterface) ← table.anyMethodRef index
    return .invokeStatic method onInterface
  | .invokeInterface index count => do
    let method ← table.interfaceMethodRef index
    let expected ← argumentCount method.descriptor
    if count != expected then refuse (.interfaceCount method count expected)
    return .invokeInterface method
  | .invokeDynamic index => return .invokeDynamic (← table.callSite bootstrap index)
  | .type op index => return .type op (← table.className index)
  | .newPrimitiveArray code =>
    match Primitive.ofArrayCode? code with
    | some element => .ok (.newPrimitiveArray element)
    | none => refuse (.unknownArrayCode code)
  | .newMultiArray index dimensions => do
    let name ← table.className index
    if dimensions == 0 then refuse (.noDimensions name)
    return .newMultiArray name dimensions

end Bytecode

end JvmAsm
