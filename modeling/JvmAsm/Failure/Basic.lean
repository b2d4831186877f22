import JvmAsm.Failure.Encoding
import JvmAsm.Failure.Files
import JvmAsm.Failure.Text
import JvmAsm.Failure.Verification

namespace JvmAsm

inductive FailureKind where
  | syntaxError (line column : Nat)
  | malformedClass (offset : Nat)
  | unresolvedLabel (label : String)
  | verification (instruction : Nat)
  | encoding
  | poolOverflow
  deriving DecidableEq, Repr

namespace FailureKind

def name : FailureKind → String
  | .syntaxError .. => "syntax"
  | .malformedClass _ => "malformed-class"
  | .unresolvedLabel _ => "unresolved-label"
  | .verification _ => "verification"
  | .encoding => "encoding"
  | .poolOverflow => "constant-pool-overflow"

def exitCode : FailureKind → UInt8
  | .syntaxError .. => 2
  | .malformedClass _ => 3
  | .unresolvedLabel _ => 4
  | .verification _ => 5
  | .encoding => 6
  | .poolOverflow => 7

def message : FailureKind → String
  | .syntaxError line column =>
    "syntax error at line " ++ toString line ++ ", column " ++ toString column
  | .malformedClass offset => "malformed class file at byte offset " ++ toString offset
  | .unresolvedLabel label => "label " ++ label ++ " is never bound"
  | .verification instruction => "verification failed at instruction " ++ toString instruction
  | .encoding => "cannot encode class file"
  | .poolOverflow => "constant pool overflow"

end FailureKind

inductive Cause where
  | text (cause : TextCause)
  | binary (cause : BinaryCause)
  | encoding (cause : EncodingCause)
  | files (cause : FileCause)
  | verification (cause : VerificationCause)

def Cause.message : Cause → String
  | .text cause => cause.message
  | .binary cause => cause.message
  | .encoding cause => cause.message
  | .files cause => cause.message
  | .verification cause => cause.message

inductive Link where
  | cause (cause : Cause)
  | kind (kind : FailureKind)

def Link.message : Link → String
  | .cause reason => reason.message
  | .kind found => found.message

structure Failure where
  links : List Link

namespace Failure

def ofCause (cause : Cause) : Failure := ⟨[.cause cause]⟩

def ofKind (kind : FailureKind) : Failure := ⟨[.kind kind]⟩

def kind? (failure : Failure) : Option FailureKind :=
  failure.links.findSome? fun
    | .kind kind => some kind
    | .cause _ => none

def messages (failure : Failure) : List String := failure.links.map Link.message

def within (cause : Cause) (failure : Failure) : Failure := ⟨.cause cause :: failure.links⟩

def withKind (kind : FailureKind) (failure : Failure) : Failure := ⟨.kind kind :: failure.links⟩

def orKind (kind : FailureKind) (failure : Failure) : Failure :=
  match failure.kind? with
  | some _ => failure
  | none => failure.withKind kind

end Failure

end JvmAsm
