import JvmAsm.JavaString.ModifiedUtf8
import JvmAsm.Outline.Constant
import JvmAsm.Version

namespace JvmAsm

namespace Binary

/-- The numbers of a fixed size. -/
inductive Width where
  | u8 | u16 | u32 | u64 | i16 | i32 | i64
  deriving DecidableEq, Repr

def Width.title : Width → String
  | .u8 => "u8"
  | .u16 => "u16"
  | .u32 => "u32"
  | .u64 => "u64"
  | .i16 => "i16"
  | .i32 => "i32"
  | .i64 => "i64"

/-- The places that an annotation on a type can be in. -/
inductive TargetPlace where
  | onClass | onField | onMethod | inCode
  deriving DecidableEq, Repr

def TargetPlace.description : TargetPlace → String
  | .onClass => "on a class"
  | .onField => "on a field or record component"
  | .onMethod => "on a method"
  | .inCode => "in code"

/-- The steps of a path that have no index. -/
inductive PlainStep where
  | array | nested | wildcard
  deriving DecidableEq, Repr

def PlainStep.title : PlainStep → String
  | .array => "ArrayDeeper"
  | .nested => "NestedDeeper"
  | .wildcard => "WildcardBound"

/-- What an entry of the constant pool should have been. -/
inductive EntryKind where
  | utf8 | string | className | nameAndType | fieldRef | anyMethodRef | methodRef
  | interfaceMethodRef | methodHandle | methodType | dynamic | invokeDynamic
  | integer | float | long | double
  deriving DecidableEq, Repr

def EntryKind.title : EntryKind → String
  | .utf8 => "`Utf8`"
  | .string => "`String`"
  | .className => "`Class`"
  | .nameAndType => "`NameAndType`"
  | .fieldRef => "`FieldRef`"
  | .anyMethodRef => "`MethodRef` or `InterfaceMethodRef`"
  | .methodRef => "`MethodRef`"
  | .interfaceMethodRef => "`InterfaceMethodRef`"
  | .methodHandle => "`MethodHandle`"
  | .methodType => "`MethodType`"
  | .dynamic => "`Dynamic`"
  | .invokeDynamic => "`InvokeDynamic`"
  | .integer => "`Integer`"
  | .float => "`Float`"
  | .long => "`Long`"
  | .double => "`Double`"

end Binary

inductive BinaryCause where
  | endOfData
  | unreadable (width : Binary.Width)
  | missingBytes (expected got : Nat)
  | trailingBytes (count : Nat)
  | wrongMagic (magic : UInt32)
  | unsupportedVersion (version : Version)
  | inAttribute (name : String)
  | attributeLength (name : String) (length taken : Nat)
  | inContents (name : String)
  | onlyOne (name : String)
  | gotTwo (first second : Outline)
  | inField (owner : ClassName)
  | inMethod (owner : ClassName)
  | unfitConstant (value : ConstantValue) (name : UnqualifiedName) (type : FieldType)
  | inCode (name : MethodName) (descriptor : MethodDescriptor)
  | codeLength (length : Nat)
  | emptyRange (start stop : UInt16)
  | atOffset (offset : Nat)
  | operandsPastEnd
  | branchUnreadable (width : Binary.Width) (offset : Nat)
  | branchUnderflow (width : Binary.Width) (branch : Int) (offset : Nat)
  | branchTooLarge (target : Nat)
  | numberTooLarge
  | outOfCode (offset length : Nat)
  | rangePastEnd (start length : UInt16)
  | unknownOpcode (opcode : UInt8)
  | unknownWideOpcode (opcode : UInt8)
  | tableBounds (low high : Int32)
  | negativePairs (count : Int32)
  | insideInstruction (offset : Nat)
  | noLabel (offset : UInt16)
  | unknownArrayCode (code : UInt8)
  | interfaceCount (method : MethodRef) (count expected : UInt8)
  | argumentSize (size : Nat) (descriptor : MethodDescriptor)
  | noDimensions (name : ClassName)
  | unsortedKeys (key last : Int32)
  | wrongTarget (code : UInt8) (place : Binary.TargetPlace)
  | noHandler (index : UInt16) (count : Nat)
  | unknownStep (kind : UInt8)
  | stepIndex (step : Binary.PlainStep) (index : UInt8)
  | elementDepth
  | unknownElement (tag : UInt8)
  | invalidClassLiteral (text : String)
  | readingEntry (index : Nat)
  | invalidUtf8
  | utf8 (fault : JavaString.Utf8Fault)
  | unknownTag (tag : UInt8) (index : Nat)
  | entryPastEnd (count : Nat)
  | noEntry (index : UInt16)
  | gettingEntry (index : UInt16)
  | wrongEntry (expected : Binary.EntryKind) (got : PoolEntry)
  | wrongEntryAt (index : UInt16) (expected : Binary.EntryKind) (got : PoolEntry)
  | wrongOwner (index : UInt16) (onInterface : Bool)
  | notLoadable (got : PoolEntry)
  | notConstantValue (got : PoolEntry)
  | unknownHandleKind (kind : UInt8)
  | dynamicDepth
  | noBootstrapMethods
  | noBootstrapMethod (index : UInt16)
  | inDynamic (name : UnqualifiedName) (type : FieldType)
  | inInvokeDynamic (name : MethodName) (descriptor : MethodDescriptor)

/-- A byte is shown by two digits in base sixteen. -/
def Text.hexByte (byte : UInt8) : String := "0x" ++ hexPadded 2 byte.toNat

open Text in
def BinaryCause.message : BinaryCause → String
  | .endOfData => "failed to fill whole buffer"
  | .unreadable width =>
    "couldn't read " ++ width.title ++ ", perhaps the data's end is reached?"
  | .missingBytes expected got =>
    "expected " ++ toString expected ++ " bytes, but only got " ++ toString got
  | .trailingBytes count => toString count ++ " trailing bytes after the end of the class file"
  | .wrongMagic magic => "wrong magic: got 0x" ++ hex magic.toNat ++ ", expected 0xCAFEBABE"
  | .unsupportedVersion version => "unsupported class file version: " ++ version.text
  | .inAttribute name => "failed to read " ++ quoted name ++ " attribute"
  | .attributeLength name length taken =>
    quoted name ++ " attribute has a length of " ++ toString length ++
      " bytes, but its contents take up " ++ toString taken ++ " bytes"
  | .inContents name => "failed to read contents of attribute " ++ quoted name
  | .onlyOne name => "only one " ++ name ++ " attribute is allowed"
  | .gotTwo first second => "got " ++ first.text ++ " and " ++ second.text
  | .inField owner => "failed to read field of class " ++ owner.text
  | .inMethod owner => "failed to read method of class " ++ owner.text
  | .unfitConstant value name type =>
    "constant value " ++ (Outline.constantValue value).text ++ " doesn't fit field " ++
      name.text ++ " of type " ++ type.text
  | .inCode name descriptor => "failed to read code of method " ++ name.text ++ descriptor.text
  | .codeLength length =>
    "`code_length` must be greater than zero and less than 65536, got " ++ toString length
  | .emptyRange start stop =>
    "exception range from " ++ toString start.toNat ++ " to " ++ toString stop.toNat ++ " is empty"
  | .atOffset offset => "at bytecode offset " ++ toString offset
  | .operandsPastEnd => "instruction operands run past the end of the code"
  | .branchUnreadable width offset =>
    "couldn't read " ++ width.title ++ " for branch based on opcode " ++ toString offset
  | .branchUnderflow width branch offset =>
    "can't add branch offset (" ++ width.title ++ ") of " ++ toString branch ++
      " to opcode position (u16) " ++ toString offset
  | .branchTooLarge target =>
    "branch target " ++ toString target ++ " is larger than any bytecode offset"
  | .numberTooLarge => "number too large to fit in target type"
  | .outOfCode offset length =>
    "label for bytecode offset " ++ toString offset ++ " out of bounds for code length " ++
      toString length
  | .rangePastEnd start length =>
    "range starting at " ++ toString start.toNat ++ " with length " ++ toString length.toNat ++
      " ends after the code"
  | .unknownOpcode opcode => "unknown opcode " ++ hexByte opcode
  | .unknownWideOpcode opcode => "unknown wide opcode " ++ hexByte opcode
  | .tableBounds low high =>
    "in tableswitch `low` must be lower or equal to `high`, it's low=" ++ toString low.toInt ++
      " and high=" ++ toString high.toInt
  | .negativePairs count =>
    "in lookupswitch the `npairs` must be positive, it's npairs=" ++ toString count.toInt
  | .insideInstruction offset =>
    "bytecode offset " ++ toString offset ++
      " is referenced, but it's in the middle of an instruction"
  | .noLabel offset => "no label at bytecode offset " ++ toString offset
  | .unknownArrayCode code => "unknown array type " ++ hex code.toNat
  | .interfaceCount method count expected =>
    "invokeinterface of " ++ method.owner.text ++ "." ++ method.name.text ++
      method.descriptor.text ++ " has a count of " ++ toString count.toNat ++ ", expected " ++
      toString expected.toNat
  | .argumentSize size descriptor =>
    "argument size " ++ toString size ++ " of " ++ (Outline.methodDescriptor descriptor).text ++
      " doesn't fit into u8"
  | .noDimensions name =>
    "multianewarray of " ++ name.text ++ " must create at least one dimension"
  | .unsortedKeys key last =>
    "keys of lookupswitch must be sorted in increasing order, but " ++ toString key.toInt ++
      " follows Some(" ++ toString last.toInt ++ ")"
  | .wrongTarget code place =>
    "type annotation target " ++ hexByte code ++ " is not allowed " ++ place.description
  | .noHandler index count =>
    "exception parameter type annotation refers to entry " ++ toString index.toNat ++
      " of an exception table with " ++ toString count ++ " entries"
  | .unknownStep kind =>
    "`type_path_kind` must be between 0 and 3, got " ++ toString kind.toNat
  | .stepIndex step index =>
    "for " ++ step.title ++ " the `type_argument_index` must be zero, got " ++
      toString index.toNat
  | .elementDepth => "annotation element values nested more than 64 levels deep"
  | .unknownElement tag => "unknown `element_value` tag " ++ toString tag.toNat
  | .invalidClassLiteral text => "invalid class literal " ++ quoted text ++ " in annotation"
  | .readingEntry index => "while reading pool index " ++ toString index
  | .invalidUtf8 => "invalid java utf8 contents"
  | .utf8 (.invalid length index) =>
    "invalid utf-8 sequence of " ++ toString length ++ " bytes from index " ++ toString index
  | .utf8 (.incomplete index) =>
    "incomplete utf-8 byte sequence from index " ++ toString index
  | .unknownTag tag index =>
    "unknown constant pool tag " ++ toString tag.toNat ++ " at pool index " ++ toString index
  | .entryPastEnd count =>
    "last constant pool entry is a long or double, and takes up a slot past the constant pool " ++
      "count " ++ toString count
  | .noEntry index =>
    "pool entry at index " ++ toString index.toNat ++
      " is not there: either index too large, zero or the upper half of long or double"
  | .gettingEntry index => "while getting pool index " ++ toString index.toNat
  | .wrongEntry expected got =>
    "pool entry not " ++ expected.title ++ ": " ++ (Outline.poolEntry got).text
  | .wrongEntryAt index expected got =>
    "pool entry at index " ++ toString index.toNat ++ " not " ++ expected.title ++ ": " ++
      (Outline.poolEntry got).text
  | .wrongOwner index true =>
    "pool entry at index " ++ toString index.toNat ++ " not `MethodRef` but `InterfaceMethodRef`"
  | .wrongOwner index false =>
    "pool entry at index " ++ toString index.toNat ++ " not `InterfaceMethodRef` but `MethodRef`"
  | .notLoadable got => "pool entry is not loadable: " ++ (Outline.poolEntry got).text
  | .notConstantValue got =>
    "pool entry may not be used in a `ConstantValue` attribute: " ++ (Outline.poolEntry got).text
  | .unknownHandleKind kind =>
    "unknown `reference_kind` " ++ toString kind.toNat ++ " for `MethodHandle` pool entry"
  | .dynamicDepth =>
    "`Dynamic` pool entries nested more than 32 levels deep, maybe they refer to themselves?"
  | .noBootstrapMethods =>
    "cannot load dynamically computed pool entry, as there's no `BootstrapMethods` attribute"
  | .noBootstrapMethod index => "there's no bootstrap method at index " ++ toString index.toNat
  | .inDynamic name type =>
    "while reading arguments for `Dynamic` " ++ (Outline.fieldName name).text ++ " " ++
      (Outline.fieldType type).text
  | .inInvokeDynamic name descriptor =>
    "while reading arguments for `InvokeDynamic` " ++ (Outline.methodName name).text ++ " " ++
      (Outline.methodDescriptor descriptor).text

end JvmAsm
