import JvmAsm.Constant
import JvmAsm.Instruction.Simple

namespace JvmAsm

/-- A label marks an instruction or the end of the code. -/
structure Label where
  id : UInt16
  deriving DecidableEq, Hashable, Repr

def Label.text (label : Label) : String := "L" ++ toString label.id.toNat

/-- The kinds of values that have their own instructions to load and store local variables. -/
inductive ValueKind where
  | int | long | float | double | reference
  deriving DecidableEq, Repr

namespace ValueKind

/-- The letter that the names of the instructions start with. -/
def letter : ValueKind → String
  | .int => "I"
  | .long => "L"
  | .float => "F"
  | .double => "D"
  | .reference => "A"

/-- The place of the kind in every group of opcodes. -/
def rank : ValueKind → UInt8
  | .int => 0
  | .long => 1
  | .float => 2
  | .double => 3
  | .reference => 4

def all : List ValueKind := [.int, .long, .float, .double, .reference]

def ofRank? (rank : UInt8) : Option ValueKind := all.find? fun kind => kind.rank == rank

/-- The number of local variables that a value takes. -/
def size : ValueKind → Nat
  | .long => 2
  | .double => 2
  | _ => 1

end ValueKind

inductive Condition where
  | eq | ne | lt | ge | gt | le
  | icmpEq | icmpNe | icmpLt | icmpGe | icmpGt | icmpLe
  | acmpEq | acmpNe
  | isNull | isNonNull
  deriving DecidableEq, Repr

namespace Condition

def opcode : Condition → UInt8
  | .eq => 0x99
  | .ne => 0x9a
  | .lt => 0x9b
  | .ge => 0x9c
  | .gt => 0x9d
  | .le => 0x9e
  | .icmpEq => 0x9f
  | .icmpNe => 0xa0
  | .icmpLt => 0xa1
  | .icmpGe => 0xa2
  | .icmpGt => 0xa3
  | .icmpLe => 0xa4
  | .acmpEq => 0xa5
  | .acmpNe => 0xa6
  | .isNull => 0xc6
  | .isNonNull => 0xc7

def mnemonic : Condition → String
  | .eq => "IFEQ"
  | .ne => "IFNE"
  | .lt => "IFLT"
  | .ge => "IFGE"
  | .gt => "IFGT"
  | .le => "IFLE"
  | .icmpEq => "IF_ICMPEQ"
  | .icmpNe => "IF_ICMPNE"
  | .icmpLt => "IF_ICMPLT"
  | .icmpGe => "IF_ICMPGE"
  | .icmpGt => "IF_ICMPGT"
  | .icmpLe => "IF_ICMPLE"
  | .acmpEq => "IF_ACMPEQ"
  | .acmpNe => "IF_ACMPNE"
  | .isNull => "IFNULL"
  | .isNonNull => "IFNONNULL"

def negate : Condition → Condition
  | .eq => .ne
  | .ne => .eq
  | .lt => .ge
  | .ge => .lt
  | .gt => .le
  | .le => .gt
  | .icmpEq => .icmpNe
  | .icmpNe => .icmpEq
  | .icmpLt => .icmpGe
  | .icmpGe => .icmpLt
  | .icmpGt => .icmpLe
  | .icmpLe => .icmpGt
  | .acmpEq => .acmpNe
  | .acmpNe => .acmpEq
  | .isNull => .isNonNull
  | .isNonNull => .isNull

def all : List Condition :=
  [.eq, .ne, .lt, .ge, .gt, .le, .icmpEq, .icmpNe, .icmpLt, .icmpGe, .icmpGt, .icmpLe, .acmpEq,
    .acmpNe, .isNull, .isNonNull]

def ofOpcode? (opcode : UInt8) : Option Condition :=
  all.find? fun condition => condition.opcode == opcode

def ofMnemonic? (text : String) : Option Condition :=
  all.find? fun condition => condition.mnemonic == text

end Condition

inductive FieldOp where
  | getStatic | putStatic | getField | putField
  deriving DecidableEq, Repr

namespace FieldOp

def opcode : FieldOp → UInt8
  | .getStatic => 0xb2
  | .putStatic => 0xb3
  | .getField => 0xb4
  | .putField => 0xb5

def mnemonic : FieldOp → String
  | .getStatic => "GETSTATIC"
  | .putStatic => "PUTSTATIC"
  | .getField => "GETFIELD"
  | .putField => "PUTFIELD"

def all : List FieldOp := [.getStatic, .putStatic, .getField, .putField]

def ofOpcode? (opcode : UInt8) : Option FieldOp := all.find? fun op => op.opcode == opcode

def ofMnemonic? (text : String) : Option FieldOp := all.find? fun op => op.mnemonic == text

end FieldOp

/-- The instructions that name a class. -/
inductive TypeOp where
  | new | newArray | checkCast | instanceOf
  deriving DecidableEq, Repr

namespace TypeOp

def opcode : TypeOp → UInt8
  | .new => 0xbb
  | .newArray => 0xbd
  | .checkCast => 0xc0
  | .instanceOf => 0xc1

def mnemonic : TypeOp → String
  | .new => "NEW"
  | .newArray => "ANEWARRAY"
  | .checkCast => "CHECKCAST"
  | .instanceOf => "INSTANCEOF"

def all : List TypeOp := [.new, .newArray, .checkCast, .instanceOf]

def ofOpcode? (opcode : UInt8) : Option TypeOp := all.find? fun op => op.opcode == opcode

def ofMnemonic? (text : String) : Option TypeOp := all.find? fun op => op.mnemonic == text

end TypeOp

inductive Instruction where
  | simple (op : SimpleOp)
  | pushByte (value : Int8)
  | pushShort (value : Int16)
  | constant (value : Loadable)
  | load (kind : ValueKind) (index : UInt16)
  | store (kind : ValueKind) (index : UInt16)
  | increment (index : UInt16) (amount : Int16)
  | branch (condition : Condition) (target : Label)
  | goto (target : Label)
  | jsr (target : Label)
  | ret (index : UInt16)
  | tableSwitch (default : Label) (low high : Int32) (targets : List Label)
  | lookupSwitch (default : Label) (pairs : List (Int32 × Label))
  | field (op : FieldOp) (field : FieldRef)
  | invokeVirtual (method : MethodRef)
  | invokeSpecial (method : MethodRef) (onInterface : Bool)
  | invokeStatic (method : MethodRef) (onInterface : Bool)
  | invokeInterface (method : MethodRef)
  | invokeDynamic (site : CallSite)
  | type (op : TypeOp) (name : ClassName)
  | newPrimitiveArray (element : Primitive)
  | newMultiArray (name : ClassName) (dimensions : UInt8)
  deriving BEq

namespace Instruction

def targets : Instruction → List Label
  | .branch _ target => [target]
  | .goto target => [target]
  | .jsr target => [target]
  | .tableSwitch default _ _ targets => default :: targets
  | .lookupSwitch default pairs => default :: pairs.map Prod.snd
  | _ => []

def mapTargets (rename : Label → Label) : Instruction → Instruction
  | .branch condition target => .branch condition (rename target)
  | .goto target => .goto (rename target)
  | .jsr target => .jsr (rename target)
  | .tableSwitch default low high targets =>
    .tableSwitch (rename default) low high (targets.map rename)
  | .lookupSwitch default pairs =>
    .lookupSwitch (rename default) (pairs.map fun pair => (pair.1, rename pair.2))
  | instruction => instruction

/-- Whether execution never goes on to the next instruction. -/
def endsFlow : Instruction → Bool
  | .simple op => op.endsFlow
  | .goto _ | .ret _ | .tableSwitch .. | .lookupSwitch .. => true
  | _ => false

/-- Whether the instruction enters or leaves a subroutine. -/
def isSubroutine : Instruction → Bool
  | .jsr _ | .ret _ => true
  | _ => false

def mnemonic : Instruction → String
  | .simple op => op.mnemonic
  | .pushByte _ => "BIPUSH"
  | .pushShort _ => "SIPUSH"
  | .constant _ => "LDC"
  | .load kind _ => kind.letter ++ "LOAD"
  | .store kind _ => kind.letter ++ "STORE"
  | .increment .. => "IINC"
  | .branch condition _ => condition.mnemonic
  | .goto _ => "GOTO"
  | .jsr _ => "JSR"
  | .ret _ => "RET"
  | .tableSwitch .. => "TABLESWITCH"
  | .lookupSwitch .. => "LOOKUPSWITCH"
  | .field op _ => op.mnemonic
  | .invokeVirtual _ => "INVOKEVIRTUAL"
  | .invokeSpecial .. => "INVOKESPECIAL"
  | .invokeStatic .. => "INVOKESTATIC"
  | .invokeInterface _ => "INVOKEINTERFACE"
  | .invokeDynamic _ => "INVOKEDYNAMIC"
  | .type op _ => op.mnemonic
  | .newPrimitiveArray _ => "NEWARRAY"
  | .newMultiArray .. => "MULTIANEWARRAY"

end Instruction

end JvmAsm
