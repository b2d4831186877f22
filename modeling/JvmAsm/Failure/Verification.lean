import JvmAsm.Outline.Instruction
import JvmAsm.Verification.Type

namespace JvmAsm

inductive VerificationCause where
  | noCode (method : String)
  | noInstructions (method : String)
  | handlerAtEnd (handler : Label)
  | inMethod (method : String)
  | atInstruction (index : Nat) (instruction : Instruction)
  | mergingAt (index : Nat)
  | unplaced (label : Label)
  | jumpToEnd (target : Label)
  | fallsOffEnd
  | unsettled
  | emptyStack
  | wrongOperand (expected got : VerificationType)
  | operandNoReference (got : VerificationType)
  | operandNotSingle (got : VerificationType)
  | unsetLocal (index : UInt16)
  | wrongLocal (index : UInt16) (expected got : VerificationType)
  | localNoReference (index : UInt16) (got : VerificationType)
  | differentDepths (old new : Nat)
  | unmergeable (old new : VerificationType)
  | noCommonSuper (a b : ClassName)
  | subroutine
  | valueFromVoid
  | wrongReturn (declared : FieldType)
  | missingValue
  | alreadyInitialized (owner : ClassName) (got : VerificationType)
  | notCreated
  | notReferenceArray (got : VerificationType)
  | maxStack (size : Nat)
  | maxLocals (size : Nat)

def VerificationCause.message : VerificationCause → String
  | .noCode method => "method " ++ method ++ " has no code"
  | .noInstructions method => "method " ++ method ++ " has no instructions"
  | .handlerAtEnd handler =>
    "exception handler " ++ handler.text ++ " is at the end of the code"
  | .inMethod method => "failed to compute frames of method " ++ method
  | .atInstruction index instruction =>
    "at instruction " ++ toString index ++ ": " ++ (Outline.instruction instruction).text
  | .mergingAt index => "failed to merge frames at instruction " ++ toString index
  | .unplaced label => "no position for label " ++ label.text
  | .jumpToEnd target => "can't jump to label " ++ target.text ++ " at the end of the code"
  | .fallsOffEnd => "execution falls off the end of the code"
  | .unsettled => "the types of the values don't settle"
  | .emptyStack => "operand stack is empty"
  | .wrongOperand expected got =>
    "expected " ++ expected.text ++ " on the operand stack, got " ++ got.text
  | .operandNoReference got =>
    "expected a reference on the operand stack, got " ++ got.text
  | .operandNotSingle got =>
    "expected a value of category 1 on the operand stack, got " ++ got.text
  | .unsetLocal index => "local variable " ++ toString index.toNat ++ " is unset"
  | .wrongLocal index expected got =>
    "expected " ++ expected.text ++ " in local variable " ++ toString index.toNat ++ ", got " ++
      got.text
  | .localNoReference index got =>
    "expected a reference in local variable " ++ toString index.toNat ++ ", got " ++ got.text
  | .differentDepths old new =>
    "operand stacks have different depths: " ++ toString old ++ " and " ++ toString new
  | .unmergeable old new =>
    "can't merge " ++ old.text ++ " and " ++ new.text ++ " on the operand stack"
  | .noCommonSuper a b =>
    "no common super class of " ++ a.text ++ " and " ++ b.text ++ " is known"
  | .subroutine => "subroutines (jsr and ret) can't be described by stack map frames"
  | .valueFromVoid => "can't return a value from a void method"
  | .wrongReturn declared =>
    "return instruction doesn't match the return type " ++ declared.text
  | .missingValue => "can't return without value from a method returning a value"
  | .alreadyInitialized owner got =>
    "constructor " ++ owner.text ++ ".<init> called on initialized value " ++ got.text
  | .notCreated => "uninitialized value not created by a `new` instruction"
  | .notReferenceArray got => "expected an array of references, got " ++ got.text
  | .maxStack size => "max stack of " ++ toString size ++ " doesn't fit into u16"
  | .maxLocals size => "max locals of " ++ toString size ++ " doesn't fit into u16"

end JvmAsm
