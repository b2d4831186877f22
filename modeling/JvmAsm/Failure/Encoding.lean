import JvmAsm.Failure.Binary
import JvmAsm.Outline.Instruction
import JvmAsm.Verification.Type

namespace JvmAsm

namespace Encode

/-- The lists of a class file whose lengths are limited. -/
inductive Listing where
  | innerClasses | nestMembers | recordComponents | bootstrapMethods | bootstrapArguments
  | annotations | elements | arrayElements | typeAnnotations | exceptions | methodParameters
  | annotatedParameters | lineNumbers | localVariables | annotatedVariables | handlers
  | classAttributes | fieldAttributes | methodAttributes | codeAttributes | componentAttributes
  deriving DecidableEq, Repr

def Listing.title : Listing → String
  | .innerClasses => "inner classes"
  | .nestMembers => "nest members"
  | .recordComponents => "record components"
  | .bootstrapMethods => "bootstrap methods"
  | .bootstrapArguments => "bootstrap method arguments"
  | .annotations => "annotations"
  | .elements => "annotation element values"
  | .arrayElements => "array elements in annotation"
  | .typeAnnotations => "type annotations"
  | .exceptions => "exceptions"
  | .methodParameters => "method parameters"
  | .annotatedParameters => "parameters with annotations"
  | .lineNumbers => "line numbers"
  | .localVariables => "local variables"
  | .annotatedVariables => "local variables in type annotation"
  | .handlers => "exception table entries"
  | .classAttributes => "attributes on class"
  | .fieldAttributes => "attributes on field"
  | .methodAttributes => "attributes on method"
  | .codeAttributes => "attributes on code"
  | .componentAttributes => "attributes on record component"

/-- The lists that make up a class. -/
inductive Members where
  | interfaces | fields | methods
  deriving DecidableEq, Repr

def Members.title : Members → String
  | .interfaces => "interfaces"
  | .fields => "fields"
  | .methods => "methods"

end Encode

inductive EncodingCause where
  | inClass (name : ClassName)
  | newerVersion (version : Version)
  | inAnalysis (method : String)
  | noMaximums (method : String)
  | numberOf (members : Encode.Members) (owner : ClassName)
  | inField (name : UnqualifiedName) (owner : ClassName)
  | inMethod (method : String) (owner : ClassName)
  | inCode
  | inRecordComponent (name : UnqualifiedName)
  | tooLarge (value : Nat) (width : Binary.Width)
  | tooMany (listing : Encode.Listing)
  | pathTooLong
  | attributeTooLarge (name : String)
  | rawTooLarge (name : String)
  | unfitConstant (value : ConstantValue) (type : FieldType)
  | noInstructions
  | subroutine (index : Nat) (version : Version)
  | codeTooLarge (size : Nat)
  | codeLength (size : Nat)
  | atInstruction (index : Nat) (instruction : Instruction)
  | noRoom (offset : Nat)
  | unsettled
  | tableBounds (low high : Int32)
  | tableSize (size : Nat) (span : Int)
  | unsortedKeys
  | noDimensions
  | localsUsed (count : Nat)
  | emptyRange (start stop : Label)
  | reversedRange (start stop : Label)
  | reservedInterface (index : UInt16)
  | missingHandler (index : UInt16)
  | lostHalf (type : VerificationType)
  | poolCount (entry : PoolEntry) (index : Nat)
  | bootstrapCount (handle : Handle) (arguments : List UInt16)
  | stringLength

def EncodingCause.message : EncodingCause → String
  | .inClass name => "failed to encode class " ++ name.text
  | .newerVersion version =>
    "class file version " ++ version.text ++ " is newer than the supported " ++
      Version.latest.text
  | .inAnalysis method => "failed to analyze method " ++ method
  | .noMaximums method =>
    "method " ++ method ++
      " has no max stack or max locals given, and computing them is turned off"
  | .numberOf members owner =>
    "failed to write the number of " ++ members.title ++ " of class " ++ owner.text
  | .inField name owner => "failed to write field " ++ name.text ++ " of class " ++ owner.text
  | .inMethod method owner => "failed to write method " ++ method ++ " of class " ++ owner.text
  | .inCode => "failed to write `Code` attribute"
  | .inRecordComponent name => "failed to write record component " ++ name.text
  | .tooLarge value width =>
    "failed to convert " ++ toString value ++ " to " ++ width.title ++
      " for writing: value too large"
  | .tooMany listing => "too many " ++ listing.title
  | .pathTooLong => "type path is too long"
  | .attributeTooLarge name => "attribute " ++ Text.quoted name ++ " is too large"
  | .rawTooLarge name => "unknown attribute " ++ Text.quoted name ++ " is too large"
  | .unfitConstant value type =>
    "constant value " ++ (Outline.constantValue value).text ++ " doesn't fit a field of type " ++
      type.text
  | .noInstructions => "code must contain at least one instruction"
  | .subroutine index version =>
    "instruction " ++ toString index ++ " is a jsr or ret, which class files of version " ++
      version.text ++ " can't use"
  | .codeTooLarge size =>
    "cannot write code: code size exceeded u16::MAX: " ++ toString size
  | .codeLength size => "`code_length` must be less than 65536, got " ++ toString size
  | .atInstruction index instruction =>
    "while writing instruction " ++ toString index ++ ": " ++ (Outline.instruction instruction).text
  | .noRoom offset =>
    "conditional branch at " ++ toString offset ++
      " leaves no room for a goto_w before the code size limit"
  | .unsettled => "the forms of the branches don't settle"
  | .tableBounds low high =>
    "`low` must be lower or equal to `high`, got " ++ toString low.toInt ++ " and " ++
      toString high.toInt
  | .tableSize size span =>
    "`low` and `high` bounds don't span a range of the size of the table: table has " ++
      toString size ++ ", high and low define " ++ toString span
  | .unsortedKeys => "the keys of `lookupswitch` must be strictly increasing"
  | .noDimensions => "`multianewarray` needs at least one dimension"
  | .localsUsed count =>
    "instructions use " ++ toString count ++
      " local variable slots, more than fit into max_locals"
  | .emptyRange start stop =>
    "exception range from " ++ start.text ++ " to " ++ stop.text ++ " is empty"
  | .reversedRange start stop =>
    "range from " ++ start.text ++ " to " ++ stop.text ++ " ends before it starts"
  | .reservedInterface index =>
    "interface index " ++ toString index.toNat ++
      " of a type annotation is reserved for the super class"
  | .missingHandler index =>
    "exception parameter type annotation refers to missing exception table entry " ++
      toString index.toNat
  | .lostHalf type =>
    "second slot of local variable of type " ++ type.text ++ " holds another value"
  | .poolCount entry index =>
    "pool count overflowed while adding pool entry " ++ (Outline.poolEntry entry).text ++
      " to pool at index " ++ toString index
  | .bootstrapCount handle arguments =>
    "bootstrap methods attribute count overflowed while adding bootstrap method " ++
      (Outline.bootstrapMethod "BootstrapMethodWrite" handle arguments).text
  | .stringLength => "failed to write length of string"

end JvmAsm
