import JvmAsm.Verification.Execute
import JvmAsm.Verification.Hierarchy

namespace JvmAsm

def ClassName.dimensions : ClassName → Nat
  | .object _ => 0
  | .array type => type.dimensions

namespace Hierarchy

def mergeObjects (hierarchy : Hierarchy) (a b : ClassName) : Except Failure ClassName := do
  match ← hierarchy.common a b with
  | some merged => return merged
  | none => throw (.ofCause (.verification (.noCommonSuper a b)))

/-- Merges classes of at most the given number of dimensions. -/
def mergeWithin (hierarchy : Hierarchy) (a b : ClassName) : Nat → Except Failure ClassName
  | 0 =>
    if a = b then .ok a
    else if a = .root ∨ b = .root then .ok .root
    else if a.isArray || b.isArray then .ok .root
    else hierarchy.mergeObjects a b
  | dimensions + 1 =>
    if a = b then .ok a
    else if a = .root ∨ b = .root then .ok .root
    else
      match a, b with
      | .array x, .array y =>
        match x.component.className?, y.component.className? with
        | some component, some component' => do
          (← mergeWithin hierarchy component component' dimensions).arrayClass
        | _, _ => .ok .root
      | .object _, .object _ => hierarchy.mergeObjects a b
      | _, _ => .ok .root

/-- Arrays are merged by their components, if these are no primitives. -/
def mergeClasses (hierarchy : Hierarchy) (a b : ClassName) : Except Failure ClassName :=
  hierarchy.mergeWithin a b a.dimensions

end Hierarchy

namespace VerificationType

/-- The type of two values that are not both objects, if there is one. -/
def mergeKinds? (a b : VerificationType) : Option VerificationType :=
  if a = b then some a
  else
    match a, b with
    | .null, .object _ => some b
    | .object _, .null => some a
    | _, _ => none

/-- A local variable that may hold values of different kinds is not used any more. -/
def mergeLocal (hierarchy : Hierarchy) (a b : VerificationType) :
    Except Failure VerificationType :=
  match a, b with
  | .object x, .object y => return .object (← hierarchy.mergeClasses x y)
  | _, _ => .ok ((mergeKinds? a b).getD .top)

/-- Values on the stack have to be of the same kind. -/
def mergeOperand (hierarchy : Hierarchy) (a b : VerificationType) :
    Except Failure VerificationType :=
  match a, b with
  | .object x, .object y => return .object (← hierarchy.mergeClasses x y)
  | _, _ =>
    match mergeKinds? a b with
    | some merged => .ok merged
    | none => .error (.ofCause (.verification (.unmergeable a b)))

end VerificationType

namespace Frame

/-- Merges stacks of the same depth from their bottoms. -/
def mergeStacks (hierarchy : Hierarchy) (old new : List VerificationType) :
    Except Failure (List VerificationType) := do
  let merged ← (old.zip new).reverse.mapM fun (a, b) => VerificationType.mergeOperand hierarchy a b
  return merged.reverse

/-- Merges the local variables, of which those that are not there hold nothing. -/
def mergeLocals (hierarchy : Hierarchy) (old new : List VerificationType) :
    Except Failure (List VerificationType) :=
  ((padLocals new.length old).zip (padLocals old.length new)).mapM fun (a, b) =>
    VerificationType.mergeLocal hierarchy a b

/-- A long or double cannot be used without its second half. -/
def dropHalves (locals : List VerificationType) : List VerificationType :=
  locals.zipWith (fun type next => if type.isWide && next != some .top then .top else type)
    (locals.tail.map some ++ [none])

def merge (hierarchy : Hierarchy) (old new : Frame) : Except Failure Frame := do
  if old.stack.length ≠ new.stack.length then
    throw (.ofCause (.verification (.differentDepths old.stack.length new.stack.length)))
  let stack ← mergeStacks hierarchy old.stack new.stack
  let locals ← mergeLocals hierarchy old.locals new.locals
  return Frame.trim ⟨dropHalves locals, stack⟩

end Frame

end JvmAsm
