import JvmAsm.Binary.Writer
import JvmAsm.Bytecode.Op

namespace JvmAsm

open Binary

namespace Bytecode

def distance16 (offset target : Nat) : List UInt8 :=
  bytes16 (Int16.ofInt (target - offset)).toUInt16

def distance32 (offset target : Nat) : List UInt8 :=
  bytes32 (Int32.ofInt (target - offset)).toUInt32

/-- Whether the distance of a jump fits into two bytes. -/
def isNear (offset target : Nat) : Bool :=
  offset ≤ target + 0x8000 && target ≤ offset + 0x7fff

/-- The number of bytes before the next multiple of four. -/
def paddingAfter (offset : Nat) : Nat := (4 - offset % 4) % 4

/-- An instruction that moves values to or from a local variable. -/
def localBytes (opcode shortOpcode : UInt8) (kind : ValueKind) (index : UInt16) : List UInt8 :=
  if index < 4 then [shortOpcode + kind.rank * 4 + index.toUInt8]
  else if index ≤ 0xff then [opcode + kind.rank, index.toUInt8]
  else 0xc4 :: (opcode + kind.rank) :: bytes16 index

def localSize (index : UInt16) : Nat := if index < 4 then 1 else if index ≤ 0xff then 2 else 4

/-- Whether an increment fits into the short form. -/
def isShortIncrement (index : UInt16) (amount : Int16) : Bool :=
  index ≤ 0xff && -128 ≤ amount && amount ≤ 127

/-- The number of bytes from the start of a wide conditional branch to the jump inside it. -/
def branchSize : Nat := 3

/-- The number of bytes of a wide conditional branch. -/
def wideBranchSize : Nat := 8

end Bytecode

namespace Op

open Bytecode

/-- The number of bytes of an instruction at the given offset. -/
def size {τ : Type} (offset : Nat) (isWide : Bool) : Op τ → Nat
  | .simple _ => 1
  | .pushByte _ => 2
  | .pushShort _ => 3
  | .constant isDouble index => if isDouble then 3 else if index ≤ 0xff then 2 else 3
  | .load _ index => localSize index
  | .store _ index => localSize index
  | .increment index amount => if isShortIncrement index amount then 3 else 6
  | .branch .. => if isWide then wideBranchSize else branchSize
  | .goto _ => if isWide then 5 else 3
  | .jsr _ => if isWide then 5 else 3
  | .ret index => if index ≤ 0xff then 2 else 4
  | .tableSwitch _ _ _ targets => 1 + paddingAfter (offset + 1) + 12 + 4 * targets.length
  | .lookupSwitch _ pairs => 1 + paddingAfter (offset + 1) + 8 + 8 * pairs.length
  | .field .. => 3
  | .invokeVirtual _ => 3
  | .invokeSpecial _ => 3
  | .invokeStatic _ => 3
  | .invokeInterface .. => 5
  | .invokeDynamic _ => 5
  | .type .. => 3
  | .newPrimitiveArray _ => 2
  | .newMultiArray .. => 4

/-- The bytes of an instruction at the given offset, whose targets are offsets. -/
def bytes (offset : Nat) (isWide : Bool) : Op Nat → List UInt8
  | .simple op => [op.opcode]
  | .pushByte value => [0x10, value.toUInt8]
  | .pushShort value => 0x11 :: bytes16 value.toUInt16
  | .constant isDouble index =>
    if isDouble then 0x14 :: bytes16 index
    else if index ≤ 0xff then [0x12, index.toUInt8]
    else 0x13 :: bytes16 index
  | .load kind index => localBytes 0x15 0x1a kind index
  | .store kind index => localBytes 0x36 0x3b kind index
  | .increment index amount =>
    if isShortIncrement index amount then [0x84, index.toUInt8, amount.toInt8.toUInt8]
    else 0xc4 :: 0x84 :: (bytes16 index ++ bytes16 amount.toUInt16)
  | .branch condition target =>
    if isWide then
      condition.negate.opcode :: (bytes16 (UInt16.ofNat wideBranchSize) ++
        0xc8 :: distance32 (offset + branchSize) target)
    else condition.opcode :: distance16 offset target
  | .goto target =>
    if isWide then 0xc8 :: distance32 offset target else 0xa7 :: distance16 offset target
  | .jsr target =>
    if isWide then 0xc9 :: distance32 offset target else 0xa8 :: distance16 offset target
  | .ret index => if index ≤ 0xff then [0xa9, index.toUInt8] else 0xc4 :: 0xa9 :: bytes16 index
  | .tableSwitch default low high targets =>
    0xaa :: (List.replicate (paddingAfter (offset + 1)) 0 ++ distance32 offset default ++
      bytes32 low.toUInt32 ++ bytes32 high.toUInt32 ++ targets.flatMap (distance32 offset))
  | .lookupSwitch default pairs =>
    0xab :: (List.replicate (paddingAfter (offset + 1)) 0 ++ distance32 offset default ++
      bytes32 (UInt32.ofNat pairs.length) ++
      pairs.flatMap fun pair => bytes32 pair.1.toUInt32 ++ distance32 offset pair.2)
  | .field op index => op.opcode :: bytes16 index
  | .invokeVirtual index => 0xb6 :: bytes16 index
  | .invokeSpecial index => 0xb7 :: bytes16 index
  | .invokeStatic index => 0xb8 :: bytes16 index
  | .invokeInterface index count => 0xb9 :: (bytes16 index ++ [count, 0])
  | .invokeDynamic index => 0xba :: (bytes16 index ++ [0, 0])
  | .type op index => op.opcode :: bytes16 index
  | .newPrimitiveArray code => [0xbc, code]
  | .newMultiArray index dimensions => 0xc5 :: (bytes16 index ++ [dimensions])

end Op

end JvmAsm
