import JvmAsm.Outline.Constant
import JvmAsm.Text.Token
import JvmAsm.TypeAnnotation

namespace JvmAsm

open Number

def Number.IntegerFault.message : IntegerFault → String
  | .empty => "cannot parse integer from empty string"
  | .invalidDigit => "invalid digit found in string"
  | .tooLarge => "number too large to fit in target type"
  | .tooSmall => "number too small to fit in target type"

def Number.DecimalFault.message : DecimalFault → String
  | .empty => "cannot parse float from empty string"
  | .invalid => "invalid float literal"

def JavaString.EscapeFault.message : JavaString.EscapeFault → String
  | .unfinished => "string ends in the middle of an escape sequence"
  | .missingHexDigits => "expected four hex digits after `\\u`"
  | .unknown c => "unknown escape sequence `\\" ++ c.toString ++ "`"

def TypePath.Fault.message (text : String) : TypePath.Fault → String
  | .missingSemicolon => "type argument without `;` in type path " ++ Text.quoted text
  | .badIndex fault =>
    "invalid type argument index in type path " ++ Text.quoted text ++ ": " ++ fault.message
  | .unexpected c => "unexpected " ++ Text.quotedSingle c ++ " in type path " ++ Text.quoted text

/-- The kinds of texts that are checked when they are read. -/
inductive NameKind where
  | className | fieldName | methodName | recordName | fieldDescriptor | methodDescriptor
  deriving DecidableEq, Repr

def NameKind.title : NameKind → String
  | .className => "ClassName"
  | .fieldName => "FieldName"
  | .methodName => "MethodName"
  | .recordName => "RecordName"
  | .fieldDescriptor => "FieldDescriptor"
  | .methodDescriptor => "MethodDescriptor"

namespace Text

/-- What a line has to go on with. -/
inductive Expected where
  | word | name | string
  | exactly (text : String)
  deriving DecidableEq, Repr

def Expected.description : Expected → String
  | .word => "a word"
  | .name => "a name"
  | .string => "a string"
  | .exactly text => "`" ++ text ++ "`"

/-- What may be given only once. -/
inductive Once where
  | version | sourceFile | recordComponents | nestHost | enclosingMethod | signature
  | annotatedParameters | annotationDefault | methodParameters | maxStack | maxLocals
  deriving DecidableEq, Repr

def Once.twice : Once → String
  | .version => "the version is given twice"
  | .sourceFile => "the source file is given twice"
  | .recordComponents => "the record components are given twice"
  | .nestHost => "the nest host is given twice"
  | .enclosingMethod => "the enclosing method is given twice"
  | .signature => "the signature is given twice"
  | .annotatedParameters => "the number of annotated parameters is given twice"
  | .annotationDefault => "the annotation default is given twice"
  | .methodParameters => "the method parameters are given twice"
  | .maxStack => "MAXSTACK is given twice"
  | .maxLocals => "MAXLOCALS is given twice"

/-- The declarations that directives can stand before. -/
inductive Place where
  | ofClass | ofField | ofMethod | ofRecordComponent
  deriving DecidableEq, Repr

def Place.description : Place → String
  | .ofClass => "a class"
  | .ofField => "a field"
  | .ofMethod => "a method"
  | .ofRecordComponent => "a record component"

/-- The target of an annotation on a type before it is known what the declaration is. -/
inductive MemberTarget where
  | typeParameter (index : UInt8)
  | typeBound (parameter bound : UInt8)
  | extends
  | implements (index : UInt16)
  | field
  | returned
  | receiver
  | parameter (index : UInt8)
  | throws (index : UInt16)
  deriving DecidableEq, Repr

open Outline in
def MemberTarget.outline : MemberTarget → Outline
  | .typeParameter index => .case "TypeParameter" [uint8 index]
  | .typeBound index bound => .case "TypeParameterBound" [uint8 index, uint8 bound]
  | .extends => .word "Extends"
  | .implements index => .case "Implements" [uint16 index]
  | .field => .word "Field"
  | .returned => .word "Return"
  | .receiver => .word "Receiver"
  | .parameter index => .case "Parameter" [uint8 index]
  | .throws index => .case "Throws" [uint16 index]

end Text

inductive TextCause where
  | number (fault : IntegerFault)
  | decimal (fault : DecimalFault)
  | escape (fault : JavaString.EscapeFault)
  | typePath (text : String) (fault : TypePath.Fault)
  | invalidName (kind : NameKind) (text : String)
  | loneSurrogates (string : JavaString)
  | openString
  | leftOver (token : Text.Token)
  | expected (expected : Text.Expected) (got : Option Text.Token)
  | missingHeader
  | missingEnd
  | afterEnd
  | givenTwice (what : Text.Once)
  | danglingDirective (inRecord : Bool)
  | methodDirective (place : Text.Place)
  | wrongTarget (target : Text.MemberTarget) (place : Text.Place)
  | recordComponentFlags
  | reservedInterface (index : UInt16)
  | unknownTarget (text : String)
  | unfitConstant (value : ConstantValue) (type : FieldType)
  | noMethodHeader (text : String)
  | noMember (text : String)
  | invalidNumber (text : String)
  | unknownHandleKind (text : String)
  | noConstant
  | noElementValue
  | noInstruction
  | invalidLiteral (text : String)
  | literalSuffix (text : String)
  | literalNoNaN (text : String)
  | annotationMissing (text : String)
  | invalidClassLiteral (text : String)
  | invalidHex (text : String)
  | noLabel (text : String)
  | tooManyLabels
  | boundTwice (label : String)
  | noHandler (index : UInt16) (count : Nat)
  | unknownInstruction (text : String)
  | tableTooLarge (low : Int32) (count : Nat)
  | unknownArrayType (text : String)
  | noParameterCount
  | parameterIndex (index count : Nat)
  | tableSize (low high : Int32) (count : Nat)
  | printingMethod (name : MethodName) (descriptor : MethodDescriptor)
  | printingInstruction (index : Nat)

open Text in
def TextCause.message : TextCause → String
  | .number fault => fault.message
  | .decimal fault => fault.message
  | .escape fault => fault.message
  | .typePath text fault => fault.message text
  | .invalidName kind text => "invalid " ++ kind.title ++ ": " ++ quoted text
  | .loneSurrogates string => "string " ++ string.quoted ++ " contains unpaired surrogates"
  | .openString => "string isn't closed"
  | .leftOver token => "unexpected " ++ token.description ++ " at the end of the line"
  | .expected wanted got =>
    "expected " ++ wanted.description ++ ", got " ++
      (got.map Token.description).getD "the end of the line"
  | .missingHeader => "expected a class header, got the end of the input"
  | .missingEnd => "expected `\x7d`, got the end of the input"
  | .afterEnd => "expected the end of the input"
  | .givenTwice what => what.twice
  | .danglingDirective inRecord =>
    "directive isn't followed by a " ++ if inRecord then "record component" else "field or method"
  | .methodDirective place => "directive only applies to methods, not to " ++ place.description
  | .wrongTarget target place =>
    "type annotation target " ++ target.outline.text ++ " doesn't apply to " ++ place.description
  | .recordComponentFlags => "a record component can't be deprecated or synthetic"
  | .reservedInterface index =>
    "interface index " ++ toString index.toNat ++ " is reserved for the super class"
  | .unknownTarget text => "unknown type annotation target " ++ quoted text
  | .unfitConstant value type =>
    "constant value " ++ (Outline.constantValue value).text ++ " doesn't fit a field of type " ++
      type.text
  | .noMethodHeader text =>
    "expected a method name followed by its descriptor, got " ++ quoted text
  | .noMember text => "expected `owner.name`, got " ++ quoted text
  | .invalidNumber text => "invalid number " ++ quoted text
  | .unknownHandleKind text => "unknown method handle kind " ++ quoted text
  | .noConstant => "expected a constant"
  | .noElementValue => "expected an element value"
  | .noInstruction => "expected an instruction"
  | .invalidLiteral text => "invalid numeric literal " ++ quoted text
  | .literalSuffix text => "NaN bits need a suffix of `F` or `D`, got " ++ quoted text
  | .literalNoNaN text => "the bits of " ++ quoted text ++ " aren't a NaN"
  | .annotationMissing text => "expected an annotation, got " ++ quoted text
  | .invalidClassLiteral text => "invalid class literal " ++ quoted text
  | .invalidHex text => "attribute contents must be pairs of hex digits, got " ++ quoted text
  | .noLabel text => "expected a label like `L0`, got " ++ quoted text
  | .tooManyLabels => "too many labels"
  | .boundTwice label => "label " ++ label ++ " is bound twice"
  | .noHandler index count =>
    "type annotation on exception parameter " ++ toString index.toNat ++ ", but there are only " ++
      toString count ++ " TRYCATCHBLOCK lines"
  | .unknownInstruction text => "unknown instruction " ++ quoted text
  | .tableTooLarge low count =>
    "tableswitch starting at " ++ toString low.toInt ++ " with " ++ toString count ++
      " targets is too large"
  | .unknownArrayType text => "unknown array type " ++ quoted text
  | .noParameterCount => "parameter annotations need a `params` line before them"
  | .parameterIndex index count =>
    "parameter " ++ toString index ++ " is out of bounds for " ++ toString count ++
      " annotated parameters"
  | .tableSize low high count =>
    "tableswitch from " ++ toString low.toInt ++ " to " ++ toString high.toInt ++ " has " ++
      toString count ++ " targets"
  | .printingMethod name descriptor => "failed to print method " ++ name.text ++ descriptor.text
  | .printingInstruction index => "failed to print instruction " ++ toString index

end JvmAsm
