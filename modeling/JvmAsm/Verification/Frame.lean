import JvmAsm.Failure.Basic

namespace JvmAsm

/--
A long or double takes one entry of the stack and two local variables, the second of which has the
type top. Apart from such second halves the last local variable does not have the type top.
-/
structure Frame where
  locals : List VerificationType := []
  /-- The operands, with the one on top of the stack first. -/
  stack : List VerificationType := []
  deriving BEq, ReflBEq, LawfulBEq

namespace Frame

/-- The size of the stack, in which a long or double counts twice. -/
def stackSize (frame : Frame) : Nat :=
  frame.stack.foldl (fun size type => size + type.size) 0

/-- Whether the last local variable, which is given in front of the others, can be left out. -/
def isSpare : List VerificationType → Bool
  | .top :: before :: _ => !before.isWide
  | [.top] => true
  | _ => false

def dropSpare : List VerificationType → List VerificationType
  | [] => []
  | last :: before => if isSpare (last :: before) then dropSpare before else last :: before

/-- Leaves out the local variables at the end that hold nothing. -/
def trimLocals (locals : List VerificationType) : List VerificationType :=
  (dropSpare locals.reverse).reverse

def trim (frame : Frame) : Frame := { frame with locals := trimLocals frame.locals }

def replace (old new : VerificationType) (frame : Frame) : Frame :=
  let change (type : VerificationType) : VerificationType := if type = old then new else type
  ⟨frame.locals.map change, frame.stack.map change⟩

/-- At least as many local variables as asked for. -/
def padLocals (count : Nat) (locals : List VerificationType) : List VerificationType :=
  locals ++ List.replicate (count - locals.length) .top

/-- Takes the type of a wide value from a local variable whose second half is written. -/
def breakWide (index : Nat) (locals : List VerificationType) : List VerificationType :=
  match index with
  | 0 => locals
  | before + 1 =>
    if (locals[before]?.getD .top).isWide then locals.set before .top else locals

/-- Writes a value to a local variable, or to two of them. -/
def storeLocal (index : Nat) (type : VerificationType) (locals : List VerificationType) :
    List VerificationType :=
  let locals := breakWide index (padLocals (index + type.size) locals)
  (if type.isWide then locals.set (index + 1) .top else locals).set index type

end Frame

/-- A step that changes a frame, and may refuse to. -/
abbrev FrameStep := StateT Frame (Except Failure)

namespace FrameStep

def fail {α : Type} (cause : VerificationCause) : FrameStep α :=
  throw (.ofCause (.verification cause))

def push (type : VerificationType) : FrameStep Unit :=
  modify fun frame => { frame with stack := type :: frame.stack }

def pop : FrameStep VerificationType := do
  let frame ← get
  match frame.stack with
  | first :: rest =>
    set { frame with stack := rest }
    return first
  | [] => fail .emptyStack

def popExact (expected : VerificationType) : FrameStep Unit := do
  let got ← pop
  if got ≠ expected then fail (.wrongOperand expected got)

def popReference : FrameStep VerificationType := do
  let got ← pop
  if !got.isReference then fail (.operandNoReference got)
  return got

/-- Pops a value that takes up one entry of the stack. -/
def popSingle : FrameStep VerificationType := do
  let got ← pop
  if got.isWide || got = .top then fail (.operandNotSingle got)
  return got

def popField (type : FieldType) : FrameStep Unit := do
  match VerificationType.ofFieldType type with
  | .object _ => discard popReference
  | exact => popExact exact

def popAll (types : List VerificationType) : FrameStep Unit := types.forM popExact

def pushField (type : FieldType) : FrameStep Unit := push (.ofFieldType type)

/-- Pops the arguments of a call, of which the last one is on top of the stack. -/
def popArguments (descriptor : MethodDescriptor) : FrameStep Unit :=
  descriptor.parameters.reverse.forM popField

/-- Pushes the result of a call. -/
def pushResult (descriptor : MethodDescriptor) : FrameStep Unit :=
  match descriptor.returned with
  | some type => pushField type
  | none => pure ()

def localType (index : UInt16) : FrameStep VerificationType := do
  match (← get).locals[index.toNat]? with
  | some type => return type
  | none => fail (.unsetLocal index)

def checkLocal (index : UInt16) (expected : VerificationType) : FrameStep Unit := do
  let got ← localType index
  if got ≠ expected then fail (.wrongLocal index expected got)

def referenceLocal (index : UInt16) : FrameStep VerificationType := do
  let got ← localType index
  if !got.isReference then fail (.localNoReference index got)
  return got

def store (index : UInt16) (type : VerificationType) : FrameStep Unit :=
  modify fun frame => { frame with locals := Frame.storeLocal index.toNat type frame.locals }

end FrameStep

end JvmAsm
