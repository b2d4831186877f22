import JvmAsm.Binary.Reader
import JvmAsm.Bytecode.Op

namespace JvmAsm

namespace Bytecode

open Binary ByteReader

variable {α : Type}

def operand8 : ByteReader UInt8 := within .operandsPastEnd u8

def insideCode (length offset : Nat) : Except Failure UInt16 :=
  if offset < length then .ok (UInt16.ofNat offset)
  else .error (.ofCause (.binary (.outOfCode offset length)))

/-- The target of a jump whose distance takes two bytes. -/
def target16 (start : Nat) : ByteReader UInt16 := do
  let distance ← within (.branchUnreadable .i16 start) i16
  let target := (start : Int) + distance.toInt
  if target < 0 || 0xffff < target then fail (.branchUnderflow .i16 distance.toInt start)
  return UInt16.ofNat target.toNat

/-- The target of a jump whose distance takes four bytes. -/
def target32 (start : Nat) : ByteReader UInt16 := do
  let distance ← within (.branchUnreadable .i32 start) i32
  let target := (start : Int) + distance.toInt
  if target < 0 then fail (.branchUnderflow .i32 distance.toInt start)
  if 0xffff < target then
    let cause := .binary (.branchTooLarge target.toNat)
    throw ((Failure.ofCause (.binary .numberTooLarge)).within cause)
  return UInt16.ofNat target.toNat

/-- Skips bytes so that the operands of a switch start at a multiple of four. -/
def padding : ByteReader Unit := do
  discard <| many ((4 - (← offset) % 4) % 4) operand8

/-- The number of targets of a table. -/
def tableSize (low high : Int32) : ByteReader Nat := do
  if high < low then fail (.tableBounds low high)
  return (high.toInt - low.toInt + 1).toNat

/-- The number of pairs of a lookup. -/
def pairCount : ByteReader Nat := do
  let count ← i32
  if count < 0 then fail (.negativePairs count)
  return count.toInt.toNat

/-- What follows an opcode. -/
inductive Operands where
  | bytes (count : Nat)
  | wide
  | shortTarget
  | longTarget
  | tableSwitch
  | lookupSwitch
  | unknown
  deriving DecidableEq

/-- Whether the opcode lies in one of the ranges. -/
def isIn (opcode : UInt8) (ranges : List (UInt8 × UInt8)) : Bool :=
  ranges.any fun (first, last) => first ≤ opcode && opcode ≤ last

def Operands.of (opcode : UInt8) : Operands :=
  if isIn opcode [(0x00, 0x0f), (0x1a, 0x35), (0x3b, 0x83), (0x85, 0x98), (0xac, 0xb1),
    (0xbe, 0xbf), (0xc2, 0xc3)] then .bytes 0
  else if isIn opcode [(0x10, 0x10), (0x12, 0x12), (0x15, 0x19), (0x36, 0x3a), (0xa9, 0xa9),
    (0xbc, 0xbc)] then .bytes 1
  else if isIn opcode [(0x11, 0x11), (0x13, 0x14), (0x84, 0x84), (0xb2, 0xb8), (0xbb, 0xbb),
    (0xbd, 0xbd), (0xc0, 0xc1)] then .bytes 2
  else if opcode == 0xc5 then .bytes 3
  else if isIn opcode [(0xb9, 0xba)] then .bytes 4
  else if opcode == 0xc4 then .wide
  else if isIn opcode [(0x99, 0xa8), (0xc6, 0xc7)] then .shortTarget
  else if isIn opcode [(0xc8, 0xc9)] then .longTarget
  else if opcode == 0xaa then .tableSwitch
  else if opcode == 0xab then .lookupSwitch
  else .unknown

/-- How many bytes follow the opcode of an instruction in its longer form. -/
def wideSize? (opcode : UInt8) : Option Nat :=
  if isIn opcode [(0x15, 0x19), (0x36, 0x3a), (0xa9, 0xa9)] then some 2
  else if opcode == 0x84 then some 4
  else none

/-- A target for which a label is created. -/
def created (length : Nat) (reader : ByteReader UInt16) : ByteReader UInt16 := do
  ofResult (insideCode length (← reader).toNat)

/-- Skips the operands of an instruction, except for the targets. -/
def scanOf (length start : Nat) (opcode : UInt8) : ByteReader (List UInt16) := do
  match Operands.of opcode with
  | .bytes count =>
    discard <| many count operand8
    return []
  | .wide =>
    let opcode ← u8
    match wideSize? opcode with
    | some count =>
      discard <| many count operand8
      return []
    | none => fail (.unknownWideOpcode opcode)
  | .shortTarget => return [← created length (target16 start)]
  | .longTarget => return [← created length (target32 start)]
  | .tableSwitch =>
    padding
    let default ← created length (target32 start)
    let low ← i32
    let count ← tableSize low (← i32)
    return default :: (← many count (created length (target32 start)))
  | .lookupSwitch =>
    padding
    let default ← created length (target32 start)
    let count ← pairCount
    let targets ← many count do
      discard i32
      created length (target32 start)
    return default :: targets
  | .unknown => fail (.unknownOpcode opcode)

/-- The targets of the instruction at the cursor. -/
def scan (length : Nat) : ByteReader (List UInt16) := do
  let start ← offset
  scanOf length start (← u8)

def operand16 : ByteReader UInt16 := do
  let high ← operand8
  let low ← operand8
  return UInt16.ofNat (high.toNat * 0x100 + low.toNat)

def tableSwitch (use : ByteReader UInt16 → ByteReader UInt16) (start : Nat) :
    ByteReader (Op UInt16) := do
  padding
  let default ← use (target32 start)
  let low ← i32
  let high ← i32
  let count ← tableSize low high
  return .tableSwitch default low high (← many count (use (target32 start)))

def lookupSwitch (use : ByteReader UInt16 → ByteReader UInt16) (start : Nat) :
    ByteReader (Op UInt16) := do
  padding
  let default ← use (target32 start)
  let count ← pairCount
  let pairs ← many count do
    let key ← i32
    return (key, ← use (target32 start))
  return .lookupSwitch default pairs

/-- The instructions that have a longer form for larger indices. -/
def wide : ByteReader (Op UInt16) := do
  let opcode ← u8
  if 0x15 ≤ opcode && opcode ≤ 0x19 then
    match ValueKind.ofRank? (opcode - 0x15) with
    | some kind => return .load kind (← operand16)
    | none => fail (.unknownWideOpcode opcode)
  else if 0x36 ≤ opcode && opcode ≤ 0x3a then
    match ValueKind.ofRank? (opcode - 0x36) with
    | some kind => return .store kind (← operand16)
    | none => fail (.unknownWideOpcode opcode)
  else if opcode == 0xa9 then return .ret (← operand16)
  else if opcode == 0x84 then
    let index ← operand16
    return .increment index (← operand16).toInt16
  else fail (.unknownWideOpcode opcode)

/-- The instructions that move values to and from local variables, with all their short forms. -/
def localOp? (opcode : UInt8) : Option (ByteReader (Op UInt16)) :=
  if 0x15 ≤ opcode && opcode ≤ 0x19 then
    (ValueKind.ofRank? (opcode - 0x15)).map fun kind => do
      return .load kind (← operand8).toUInt16
  else if 0x1a ≤ opcode && opcode ≤ 0x2d then
    (ValueKind.ofRank? ((opcode - 0x1a) / 4)).map fun kind =>
      return .load kind ((opcode - 0x1a) % 4).toUInt16
  else if 0x36 ≤ opcode && opcode ≤ 0x3a then
    (ValueKind.ofRank? (opcode - 0x36)).map fun kind => do
      return .store kind (← operand8).toUInt16
  else if 0x3b ≤ opcode && opcode ≤ 0x4e then
    (ValueKind.ofRank? ((opcode - 0x3b) / 4)).map fun kind =>
      return .store kind ((opcode - 0x3b) % 4).toUInt16
  else none

/-- The instructions that come in groups and have one operand. -/
def groupedOp? (use : ByteReader UInt16 → ByteReader UInt16) (start : Nat) (opcode : UInt8) :
    Option (ByteReader (Op UInt16)) :=
  match SimpleOp.ofOpcode? opcode with
  | some op => some (return .simple op)
  | none =>
    match Condition.ofOpcode? opcode with
    | some condition => some (return .branch condition (← use (target16 start)))
    | none =>
      match FieldOp.ofOpcode? opcode with
      | some op => some (return .field op (← operand16))
      | none =>
        match TypeOp.ofOpcode? opcode with
        | some op => some (return .type op (← operand16))
        | none => localOp? opcode

/-- The instructions that do not come in groups. -/
def singleOp (use : ByteReader UInt16 → ByteReader UInt16) (start : Nat) :
    UInt8 → ByteReader (Op UInt16)
  | 0x10 => return .pushByte (← operand8).toInt8
  | 0x11 => return .pushShort (← operand16).toInt16
  | 0x12 => return .constant false (← operand8).toUInt16
  | 0x13 => return .constant false (← operand16)
  | 0x14 => return .constant true (← operand16)
  | 0x84 => do
    let index ← operand8
    return .increment index.toUInt16 (← operand8).toInt8.toInt16
  | 0xa7 => return .goto (← use (target16 start))
  | 0xa8 => return .jsr (← use (target16 start))
  | 0xa9 => return .ret (← operand8).toUInt16
  | 0xaa => tableSwitch use start
  | 0xab => lookupSwitch use start
  | 0xb6 => return .invokeVirtual (← operand16)
  | 0xb7 => return .invokeSpecial (← operand16)
  | 0xb8 => return .invokeStatic (← operand16)
  | 0xb9 => do
    let index ← operand16
    let count ← operand8
    discard operand8
    return .invokeInterface index count
  | 0xba => do
    let index ← operand16
    discard operand16
    return .invokeDynamic index
  | 0xbc => return .newPrimitiveArray (← operand8)
  | 0xc4 => wide
  | 0xc5 => do
    let index ← operand16
    return .newMultiArray index (← operand8)
  | 0xc8 => return .goto (← use (target32 start))
  | 0xc9 => return .jsr (← use (target32 start))
  | opcode => fail (.unknownOpcode opcode)

/-- The instruction with the given opcode, which starts at the given offset. -/
def opOf (use : ByteReader UInt16 → ByteReader UInt16) (start : Nat) (opcode : UInt8) :
    ByteReader (Op UInt16) :=
  (groupedOp? use start opcode).getD (singleOp use start opcode)

/-- The instruction at the cursor, whose targets are used in the given way. -/
def op (use : ByteReader UInt16 → ByteReader UInt16) : ByteReader (Op UInt16) := do
  let start ← offset
  opOf use start (← u8)

/-- What is read of an instruction and the offset that it starts at. -/
structure Placed (α : Type) where
  offset : Nat
  op : α

/--
Reads the instructions from the cursor on; every turn takes a byte at least. A failure is one at the
offset of its instruction, counted from where the code starts in the class.
-/
def walkFrom (reader : ByteReader α) (length codeStart : Nat) :
    Nat → Array (Placed α) → Cursor → Except Failure (List (Placed α))
  | 0, found, _ => .ok found.toList
  | fuel + 1, found, cursor =>
    if cursor.offset < length then
      match reader cursor with
      | .ok value next => walkFrom reader length codeStart fuel (found.push ⟨cursor.offset, value⟩) next
      | .error failure _ =>
        .error ((failure.within (.binary (.atOffset cursor.offset))).orKind
          (.malformedClass (codeStart + cursor.offset)))
    else .ok found.toList

/-- Reads the instructions of code that starts at the given offset of its class. -/
def walk (reader : ByteReader α) (code : List UInt8) (codeStart : Nat) :
    Except Failure (List (Placed α)) :=
  walkFrom reader code.length codeStart code.length #[] (Cursor.at code 0)

end Bytecode

end JvmAsm
