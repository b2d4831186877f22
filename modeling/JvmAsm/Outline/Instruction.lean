import JvmAsm.Instruction.Basic
import JvmAsm.Outline.Constant

namespace JvmAsm

def SimpleOp.title : SimpleOp → String
  | .nop => "Nop"
  | .aconstNull => "AConstNull"
  | .iconstM1 => "IConstM1"
  | .iconst0 => "IConst0"
  | .iconst1 => "IConst1"
  | .iconst2 => "IConst2"
  | .iconst3 => "IConst3"
  | .iconst4 => "IConst4"
  | .iconst5 => "IConst5"
  | .lconst0 => "LConst0"
  | .lconst1 => "LConst1"
  | .fconst0 => "FConst0"
  | .fconst1 => "FConst1"
  | .fconst2 => "FConst2"
  | .dconst0 => "DConst0"
  | .dconst1 => "DConst1"
  | .iaload => "IALoad"
  | .laload => "LALoad"
  | .faload => "FALoad"
  | .daload => "DALoad"
  | .aaload => "AALoad"
  | .baload => "BALoad"
  | .caload => "CALoad"
  | .saload => "SALoad"
  | .iastore => "IAStore"
  | .lastore => "LAStore"
  | .fastore => "FAStore"
  | .dastore => "DAStore"
  | .aastore => "AAStore"
  | .bastore => "BAStore"
  | .castore => "CAStore"
  | .sastore => "SAStore"
  | .pop => "Pop"
  | .pop2 => "Pop2"
  | .dup => "Dup"
  | .dupX1 => "DupX1"
  | .dupX2 => "DupX2"
  | .dup2 => "Dup2"
  | .dup2X1 => "Dup2X1"
  | .dup2X2 => "Dup2X2"
  | .swap => "Swap"
  | .iadd => "IAdd"
  | .ladd => "LAdd"
  | .fadd => "FAdd"
  | .dadd => "DAdd"
  | .isub => "ISub"
  | .lsub => "LSub"
  | .fsub => "FSub"
  | .dsub => "DSub"
  | .imul => "IMul"
  | .lmul => "LMul"
  | .fmul => "FMul"
  | .dmul => "DMul"
  | .idiv => "IDiv"
  | .ldiv => "LDiv"
  | .fdiv => "FDiv"
  | .ddiv => "DDiv"
  | .irem => "IRem"
  | .lrem => "LRem"
  | .frem => "FRem"
  | .drem => "DRem"
  | .ineg => "INeg"
  | .lneg => "LNeg"
  | .fneg => "FNeg"
  | .dneg => "DNeg"
  | .ishl => "IShl"
  | .lshl => "LShl"
  | .ishr => "IShr"
  | .lshr => "LShr"
  | .iushr => "IUShr"
  | .lushr => "LUShr"
  | .iand => "IAnd"
  | .land => "LAnd"
  | .ior => "IOr"
  | .lor => "LOr"
  | .ixor => "IXor"
  | .lxor => "LXor"
  | .i2l => "I2L"
  | .i2f => "I2F"
  | .i2d => "I2D"
  | .l2i => "L2I"
  | .l2f => "L2F"
  | .l2d => "L2D"
  | .f2i => "F2I"
  | .f2l => "F2L"
  | .f2d => "F2D"
  | .d2i => "D2I"
  | .d2l => "D2L"
  | .d2f => "D2F"
  | .i2b => "I2B"
  | .i2c => "I2C"
  | .i2s => "I2S"
  | .lcmp => "LCmp"
  | .fcmpl => "FCmpL"
  | .fcmpg => "FCmpG"
  | .dcmpl => "DCmpL"
  | .dcmpg => "DCmpG"
  | .ireturn => "IReturn"
  | .lreturn => "LReturn"
  | .freturn => "FReturn"
  | .dreturn => "DReturn"
  | .areturn => "AReturn"
  | .returnVoid => "Return"
  | .arraylength => "ArrayLength"
  | .athrow => "AThrow"
  | .monitorenter => "MonitorEnter"
  | .monitorexit => "MonitorExit"

def Condition.title : Condition → String
  | .eq => "IfEq"
  | .ne => "IfNe"
  | .lt => "IfLt"
  | .ge => "IfGe"
  | .gt => "IfGt"
  | .le => "IfLe"
  | .icmpEq => "IfICmpEq"
  | .icmpNe => "IfICmpNe"
  | .icmpLt => "IfICmpLt"
  | .icmpGe => "IfICmpGe"
  | .icmpGt => "IfICmpGt"
  | .icmpLe => "IfICmpLe"
  | .acmpEq => "IfACmpEq"
  | .acmpNe => "IfACmpNe"
  | .isNull => "IfNull"
  | .isNonNull => "IfNonNull"

def FieldOp.title : FieldOp → String
  | .getStatic => "GetStatic"
  | .putStatic => "PutStatic"
  | .getField => "GetField"
  | .putField => "PutField"

def TypeOp.title : TypeOp → String
  | .new => "New"
  | .newArray => "ANewArray"
  | .checkCast => "CheckCast"
  | .instanceOf => "InstanceOf"

def Primitive.title : Primitive → String
  | .byte => "Byte"
  | .char => "Char"
  | .double => "Double"
  | .float => "Float"
  | .int => "Int"
  | .long => "Long"
  | .short => "Short"
  | .boolean => "Boolean"

namespace Outline

def label (label : Label) : Outline := .record "Label" [("id", uint16 label.id)]

def localIndex (index : UInt16) : Outline := .record "LvIndex" [("index", uint16 index)]

def instruction : Instruction → Outline
  | .simple op => .word op.title
  | .pushByte value => .case "BiPush" [int value.toInt]
  | .pushShort value => .case "SiPush" [int value.toInt]
  | .constant value => .case "Ldc" [loadable value]
  | .load kind index => .case (kind.letter ++ "Load") [localIndex index]
  | .store kind index => .case (kind.letter ++ "Store") [localIndex index]
  | .increment index amount => .case "IInc" [localIndex index, int amount.toInt]
  | .branch condition target => .case condition.title [label target]
  | .goto target => .case "Goto" [label target]
  | .jsr target => .case "Jsr" [label target]
  | .ret index => .case "Ret" [localIndex index]
  | .tableSwitch default low high targets =>
    .record "TableSwitch"
      [("default", label default), ("low", int32 low), ("high", int32 high),
        ("table", listOf label targets)]
  | .lookupSwitch default pairs =>
    .record "LookupSwitch"
      [("default", label default),
        ("pairs", listOf (fun (key, target) => pair (int32 key) (label target)) pairs)]
  | .field op field => .case op.title [fieldRef field]
  | .invokeVirtual method => .case "InvokeVirtual" [methodRef method]
  | .invokeSpecial method onInterface =>
    .case "InvokeSpecial" [methodRef method, bool onInterface]
  | .invokeStatic method onInterface =>
    .case "InvokeStatic" [methodRef method, bool onInterface]
  | .invokeInterface method => .case "InvokeInterface" [methodRef method]
  | .invokeDynamic site => .case "InvokeDynamic" [callSite site]
  | .type op name => .case op.title [className name]
  | .newPrimitiveArray element => .case "NewArray" [.word element.title]
  | .newMultiArray name dimensions =>
    .case "MultiANewArray" [className name, uint8 dimensions]

end Outline

end JvmAsm
