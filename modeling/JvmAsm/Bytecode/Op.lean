import JvmAsm.Instruction.Basic

namespace JvmAsm

inductive Op (τ : Type) where
  | simple (op : SimpleOp)
  | pushByte (value : Int8)
  | pushShort (value : Int16)
  | constant (isWide : Bool) (index : UInt16)
  | load (kind : ValueKind) (index : UInt16)
  | store (kind : ValueKind) (index : UInt16)
  | increment (index : UInt16) (amount : Int16)
  | branch (condition : Condition) (target : τ)
  | goto (target : τ)
  | jsr (target : τ)
  | ret (index : UInt16)
  | tableSwitch (default : τ) (low high : Int32) (targets : List τ)
  | lookupSwitch (default : τ) (pairs : List (Int32 × τ))
  | field (op : FieldOp) (index : UInt16)
  | invokeVirtual (index : UInt16)
  | invokeSpecial (index : UInt16)
  | invokeStatic (index : UInt16)
  | invokeInterface (index : UInt16) (count : UInt8)
  | invokeDynamic (index : UInt16)
  | type (op : TypeOp) (index : UInt16)
  | newPrimitiveArray (code : UInt8)
  | newMultiArray (index : UInt16) (dimensions : UInt8)
  deriving DecidableEq

namespace Op

variable {τ σ : Type}

def targets : Op τ → List τ
  | .branch _ target => [target]
  | .goto target => [target]
  | .jsr target => [target]
  | .tableSwitch default _ _ targets => default :: targets
  | .lookupSwitch default pairs => default :: pairs.map Prod.snd
  | _ => []

/-- Changes the targets of an instruction. -/
def map (f : τ → σ) : Op τ → Op σ
  | .simple op => .simple op
  | .pushByte value => .pushByte value
  | .pushShort value => .pushShort value
  | .constant isWide index => .constant isWide index
  | .load kind index => .load kind index
  | .store kind index => .store kind index
  | .increment index amount => .increment index amount
  | .branch condition target => .branch condition (f target)
  | .goto target => .goto (f target)
  | .jsr target => .jsr (f target)
  | .ret index => .ret index
  | .tableSwitch default low high targets =>
    .tableSwitch (f default) low high (targets.map f)
  | .lookupSwitch default pairs =>
    .lookupSwitch (f default) (pairs.map fun pair => (pair.1, f pair.2))
  | .field op index => .field op index
  | .invokeVirtual index => .invokeVirtual index
  | .invokeSpecial index => .invokeSpecial index
  | .invokeStatic index => .invokeStatic index
  | .invokeInterface index count => .invokeInterface index count
  | .invokeDynamic index => .invokeDynamic index
  | .type op index => .type op index
  | .newPrimitiveArray code => .newPrimitiveArray code
  | .newMultiArray index dimensions => .newMultiArray index dimensions

end Op

end JvmAsm
