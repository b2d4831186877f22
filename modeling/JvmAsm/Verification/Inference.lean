import JvmAsm.Code.Labels
import JvmAsm.Verification.Merge
import Std.Data.TreeSet

namespace JvmAsm

/-- The frames of a method, and the sizes of its stack and its local variables. -/
structure FrameTable where
  /-- The frame that the descriptor of the method gives. -/
  entry : Frame
  /-- The frame before each instruction, unless the instruction is never reached. -/
  frames : Array (Option Frame)
  /-- The indices of the instructions whose frames have to be written, in increasing order. -/
  required : List Nat
  maxStack : UInt16
  maxLocals : UInt16

namespace FrameTable

def frame? (table : FrameTable) (index : Nat) : Option Frame := (table.frames[index]?).join

def isReachable (table : FrameTable) (index : Nat) : Bool := (table.frame? index).isSome

def hasUnreachable (table : FrameTable) : Bool := table.frames.any Option.isNone

/-- The frames that have to be written, in the order of the instructions. -/
def explicit (table : FrameTable) : List (Nat × Frame) :=
  table.required.filterMap fun index => (table.frame? index).map fun frame => (index, frame)

end FrameTable

/-- The part of the code that a handler covers, and the class of what it catches. -/
structure Coverage where
  start : Nat
  stop : Nat
  handler : Nat
  caught : ClassName

/-- The code whose frames are looked for. -/
structure FlowProblem extends CodeContext where
  hierarchy : Hierarchy
  positions : Std.HashMap Label Nat
  coverage : List Coverage

/-- The frames found so far. -/
structure FlowState where
  frames : Array (Option Frame)
  /-- The instructions whose frames have changed since they were last looked at. -/
  pending : Std.TreeSet Nat
  maxStack : Nat
  maxLocals : Nat

namespace FlowProblem

def target (problem : FlowProblem) (label : Label) : Except Failure Nat :=
  match problem.positions[label]? with
  | none => .error (.ofCause (.verification (.unplaced label)))
  | some position =>
    if position < problem.instructions.size then .ok position
    else .error (.ofCause (.verification (.jumpToEnd label)))

def next (problem : FlowProblem) (index : Nat) : Except Failure Nat :=
  if index + 1 < problem.instructions.size then .ok (index + 1)
  else .error (.ofCause (.verification .fallsOffEnd))

def handlersAt (problem : FlowProblem) (index : Nat) : List Coverage :=
  problem.coverage.filter fun covered => covered.start ≤ index && index < covered.stop

/--
Where execution may go on after an instruction, and with which frames. A handler is reached with
the local variables before and after the instruction.
-/
def outgoing (problem : FlowProblem) (index : Nat) (instruction : Instruction)
    (before after : Frame) : List (Except Failure Nat × Frame) :=
  ((problem.handlersAt index).flatMap fun covered =>
    [before.locals, after.locals].map fun locals =>
      (.ok covered.handler, ⟨locals, [.object covered.caught]⟩)) ++
    (instruction.targets.map fun label => (problem.target label, after)) ++
    if instruction.endsFlow then [] else [(problem.next index, after)]

def mergeInto (problem : FlowProblem) (target : Nat) (frame : Frame) (state : FlowState) :
    Except Failure FlowState :=
  let change (state : FlowState) (changed : Frame) : FlowState :=
    { state with
      frames := state.frames.setIfInBounds target (some changed)
      pending := state.pending.insert target }
  let new := frame.trim
  match (state.frames[target]?).join with
  | none => .ok (change state new)
  | some old =>
    match Frame.merge problem.hierarchy old new with
    | .ok merged => .ok (if merged == old then state else change state merged)
    | .error failure =>
      .error ((failure.within (.verification (.mergingAt target))).orKind (.verification target))

def visitWith (problem : FlowProblem) (index : Nat) (instruction : Instruction) (before : Frame)
    (state : FlowState) : Except Failure FlowState := do
  let ((), after) ← problem.execute index instruction before
  let after := after.trim
  let caught := if (problem.handlersAt index).isEmpty then 0 else 1
  let state := { state with
    maxStack := max (max state.maxStack (max before.stackSize after.stackSize)) caught
    maxLocals := max state.maxLocals after.locals.length }
  (problem.outgoing index instruction before after).foldlM
    (fun state (target, frame) => do problem.mergeInto (← target) frame state) state

def visit (problem : FlowProblem) (index : Nat) (state : FlowState) : Except Failure FlowState :=
  match problem.instructions[index]?, (state.frames[index]?).join with
  | some instruction, some before =>
    match problem.visitWith index instruction before state with
    | .ok next => .ok next
    | .error failure =>
      .error ((failure.within (.verification (.atInstruction index instruction))).orKind
        (.verification index))
  | _, _ => .ok state

/-- Looks at instructions until no frame has changed, or the fuel is spent. -/
def run (problem : FlowProblem) : Nat → FlowState → Except Failure FlowState
  | 0, _ => .error (.ofCause (.verification .unsettled))
  | fuel + 1, state =>
    match state.pending.min? with
    | none => .ok state
    | some index => do
      let next ← problem.visit index { state with pending := state.pending.erase index }
      problem.run fuel next

/-- No type is merged with others more often than this before it is settled. -/
def typeHeight (problem : FlowProblem) : Nat := 256 * (problem.hierarchy.height + 2)

/--
The number of instructions to look at. The frame of an instruction changes at most as often as the
types of its local variables and its operands do, and an instruction adds at most two operands.
-/
def budget (problem : FlowProblem) (entry : Frame) : Nat :=
  let count := problem.instructions.size
  let slots := max entry.locals.length 65537 + 2 * count
  count * (problem.typeHeight * slots + 1) + 1

def start (problem : FlowProblem) (entry : Frame) : FlowState where
  frames := (Array.replicate problem.instructions.size none).setIfInBounds 0 (some entry)
  pending := (∅ : Std.TreeSet Nat).insert 0
  maxStack := 0
  maxLocals := entry.locals.length

/--
Instructions that are jumped to, that follow one after which execution does not go on, or that
handle exceptions have frames of their own.
-/
def required (problem : FlowProblem) (frames : Array (Option Frame)) : List Nat :=
  let isReached (index : Nat) : Bool := ((frames[index]?).join).isSome
  let after := problem.instructions.toList.zipIdx.flatMap fun (instruction, index) =>
    if isReached index then
      instruction.targets.filterMap (fun label => problem.positions[label]?) ++
        (if instruction.endsFlow && isReached (index + 1) then [index + 1] else [])
    else []
  let handlers := (problem.coverage.map Coverage.handler).filter isReached
  (after ++ handlers).mergeSort.eraseReps

end FlowProblem

def entryFrame (owner : ClassName) (method : Method) : Frame :=
  let this : List VerificationType :=
    if method.access.isStatic then []
    else if method.name.isConstructor && owner ≠ .root then [.uninitializedThis]
    else [.object owner]
  let parameters := method.descriptor.parameters.flatMap fun type =>
    let type := VerificationType.ofFieldType type
    if type.isWide then [type, .top] else [type]
  ⟨this ++ parameters, []⟩

def Code.position (positions : Std.HashMap Label Nat) (label : Label) : Except Failure Nat :=
  match positions[label]? with
  | some position => .ok position
  | none => .error (.ofCause (.verification (.unplaced label)))

def ExceptionHandler.coverage (positions : Std.HashMap Label Nat) (count : Nat)
    (handler : ExceptionHandler) : Except Failure Coverage := do
  let position ← Code.position positions handler.handler
  if count ≤ position then
    throw ((Failure.ofCause (.verification (.handlerAtEnd handler.handler))).orKind
      (.verification position))
  return {
    start := ← Code.position positions handler.start
    stop := ← Code.position positions handler.stop
    handler := position
    caught := handler.caught.getD .throwable }

/-- Fails with the first label that is used without being bound. -/
def Code.checkLabels (code : Code) : Except Failure Unit :=
  match code.unboundLabel? with
  | some label => .error (.ofKind (.unresolvedLabel label.text))
  | none => .ok ()

def FlowProblem.ofMethod (hierarchy : Hierarchy) (owner : ClassName) (method : Method)
    (code : Code) : Except Failure FlowProblem := do
  let positions := code.positions
  return {
    owner
    returned := method.descriptor.returned
    instructions := (code.instructions.map Entry.instruction).toArray
    hierarchy
    positions
    coverage := ← code.handlers.mapM
      (ExceptionHandler.coverage positions code.instructions.length) }

/-- A size that has to fit into sixteen bits. -/
def boundedSize (size : Nat) (cause : VerificationCause) : Except Failure UInt16 :=
  if size ≤ 0xffff then .ok (UInt16.ofNat size)
  else .error (((Failure.ofCause (.binary .numberTooLarge)).within (.verification cause)).orKind
    .encoding)

def computeFrames (hierarchy : Hierarchy) (owner : ClassName) (method : Method) :
    Except Failure FrameTable := do
  let some code := method.code
    | throw (.ofCause (.verification (.noCode method.title)))
  code.checkLabels
  if code.instructions.isEmpty then
    throw ((Failure.ofCause (.verification (.noInstructions method.title))).orKind
      (.verification 0))
  let problem ← FlowProblem.ofMethod hierarchy owner method code
  let entry := entryFrame owner method
  let state ← (problem.run (problem.budget entry) (problem.start entry)).mapError
    (Failure.within (.verification (.inMethod method.title)))
  let required := problem.required state.frames
  let maxStack ← boundedSize state.maxStack (.maxStack state.maxStack)
  let maxLocals ← boundedSize state.maxLocals (.maxLocals state.maxLocals)
  return ⟨entry, state.frames, required, maxStack, maxLocals⟩

end JvmAsm
