import JvmAsm.Bytecode.Encode

namespace JvmAsm

namespace Op

/-- The target of an instruction that has a narrow and a wide form. -/
def jump? {τ : Type} : Op τ → Option τ
  | .branch _ target => some target
  | .goto target => some target
  | .jsr target => some target
  | _ => none

def isBranch {τ : Type} : Op τ → Bool
  | .branch .. => true
  | _ => false

end Op

namespace Bytecode

/-- The code has no room for offsets beyond this one. -/
def maxOffset : Nat := 0xffff

/-- The reasons why instructions find no places. -/
inductive LayoutFault where
  /-- An instruction would stand behind the largest offset. -/
  | startTooLarge (offset : Nat)
  /-- The narrow branch that stands for a wide one would end behind the largest offset. -/
  | noRoom (index offset : Nat)
  | codeTooLarge (size : Nat)
  | unsettled
  deriving DecidableEq, Repr

/-- Where instructions stand, and which of them are in their wide form. -/
structure Layout where
  offsets : Array Nat := #[]
  wide : Array Bool := #[]
  /-- The offset after the last instruction. -/
  stop : Nat := 0

namespace Layout

/-- The offset of an instruction, or of the end of the code. -/
def offset (layout : Layout) (index : Nat) : Nat := layout.offsets[index]?.getD layout.stop

def isWide (layout : Layout) (index : Nat) : Bool := layout.wide[index]?.getD false

/-- The code is too large for an instruction to stand at the next offset. -/
def checkStart (layout : Layout) : Except LayoutFault Unit :=
  if layout.stop ≤ maxOffset then .ok () else .error (.startTooLarge layout.stop)

/--
The form of the next instruction. It takes its place before its form is chosen, so that it can
jump to itself.
-/
def formOf (requested : Array Bool) (layout : Layout) (op : Op Nat) : Bool :=
  let index := layout.offsets.size
  match op.jump? with
  | none => false
  | some target =>
    if target < index then !isNear layout.stop (layout.offset target)
    else if target = index then false
    else requested[index]?.getD false

/-- Places the next instruction. -/
def push (requested : Array Bool) (layout : Layout) (op : Op Nat) :
    Except LayoutFault Layout := do
  layout.checkStart
  let isWide := layout.formOf requested op
  if isWide && op.isBranch && maxOffset < layout.stop + branchSize then
    throw (.noRoom layout.offsets.size layout.stop)
  return {
    offsets := layout.offsets.push layout.stop
    wide := layout.wide.push isWide
    stop := layout.stop + op.size layout.stop isWide }

/-- Places instructions one after the other, with the requested jumps in their wide forms. -/
def place (requested : Array Bool) (ops : List (Op Nat)) : Except LayoutFault Layout :=
  ops.foldlM (push requested) {}

/-- Whether a narrow jump ahead does not reach its target. -/
def isShort (layout : Layout) (index : Nat) (op : Op Nat) : Bool :=
  match op.jump? with
  | none => false
  | some target =>
    index < target && !layout.isWide index &&
      !isNear (layout.offset index) (layout.offset target)

/-- The first narrow jump, from an index on, that does not reach its target. -/
def firstShort? (layout : Layout) : Nat → List (Op Nat) → Option Nat
  | _, [] => none
  | index, op :: rest =>
    if layout.isShort index op then some index else firstShort? layout (index + 1) rest

/-- Places all instructions of the code, which has to fit into the largest size. -/
def placeAll (requested : Array Bool) (ops : List (Op Nat)) : Except LayoutFault Layout := do
  let layout ← place requested ops
  if maxOffset < layout.stop then throw (.codeTooLarge layout.stop)
  return layout

/-- Places the instructions again until all jumps reach their targets. -/
def settle (ops : List (Op Nat)) : Nat → Array Bool → Except LayoutFault Layout
  | 0, _ => .error .unsettled
  | fuel + 1, requested => do
    let layout ← placeAll requested ops
    match layout.firstShort? 0 ops with
    | none => return layout
    | some index => settle ops fuel (requested.setIfInBounds index true)

/-- Every jump is requested to be wide at most once. -/
def ofOps (ops : List (Op Nat)) : Except LayoutFault Layout :=
  let jumps := (ops.filter fun op => op.jump?.isSome).length
  settle ops (jumps + 1) (Array.replicate ops.length false)

/-- The bytes of each instruction, whose targets are indices of instructions. -/
def bytes (layout : Layout) (ops : List (Op Nat)) : List (List UInt8) :=
  ops.zipIdx.map fun (op, index) =>
    (op.map layout.offset).bytes (layout.offset index) (layout.isWide index)

end Layout

end Bytecode

end JvmAsm
