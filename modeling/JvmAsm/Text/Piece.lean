import JvmAsm.Code.Basic
import JvmAsm.Flags
import JvmAsm.Text.Literal

namespace JvmAsm.Text

structure Piece where
  token : Token
  glued : Bool := false
  deriving DecidableEq

abbrev Pieces := Array Piece

structure WrittenLine where
  indent : Nat
  pieces : Pieces

namespace WrittenLine

def pieceText (first : Bool) (piece : Piece) : String :=
  if first || piece.glued then piece.token.text else " " ++ piece.token.text

def text (line : WrittenLine) : String :=
  let start := String.ofList (List.replicate line.indent '\t')
  let written := line.pieces.foldl
    (fun (text, first) piece => (text ++ pieceText first piece, false)) (start, true)
  written.1

end WrittenLine

/-- Every line ends with a line feed. -/
def textOfLines (lines : List WrittenLine) : String :=
  lines.foldl (fun text line => text ++ line.text ++ "\n") ""

/-- Whether a text has two slashes in a row. -/
def hasComment : List Char → Bool
  | '/' :: '/' :: _ => true
  | _ :: rest => hasComment rest
  | [] => false

/-- Whether a name is written as a string, because as a word it would be read as something else. -/
def needsQuotes (text : String) : Bool :=
  let chars := text.toList
  chars.isEmpty || chars.head? == some '@' || text == "*" || hasComment chars ||
    chars.any fun c => isBlank c || isControl c || c == '"' || (Mark.ofChar? c).isSome

def stringToken (text : String) : Token := .string (.ofString text)

def nameToken (text : String) : Token := if needsQuotes text then stringToken text else .word text

namespace Pieces

def token (pieces : Pieces) (token : Token) : Pieces := pieces.push { token }

def glue (pieces : Pieces) (token : Token) : Pieces := pieces.push { token, glued := true }

def word (pieces : Pieces) (text : String) : Pieces := pieces.token (.word text)

def words (pieces : Pieces) (texts : List String) : Pieces := texts.foldl word pieces

def mark (pieces : Pieces) (mark : Mark) : Pieces := pieces.token (.mark mark)

def name (pieces : Pieces) (text : String) : Pieces := pieces.token (nameToken text)

def names (pieces : Pieces) (texts : List String) : Pieces := texts.foldl name pieces

def string (pieces : Pieces) (text : String) : Pieces := pieces.token (stringToken text)

def number (pieces : Pieces) (value : Nat) : Pieces := pieces.word (toString value)

def integer (pieces : Pieces) (value : Int) : Pieces := pieces.word (toString value)

def label (pieces : Pieces) (label : Label) : Pieces := pieces.word label.text

def literal (pieces : Pieces) (literal : Literal) : Pieces := pieces.word literal.text

def comma (pieces : Pieces) : Pieces := pieces.glue (.mark .comma)

def separated {α : Type} (pieces : Pieces) (element : Pieces → α → Pieces) : List α → Pieces
  | [] => pieces
  | [last] => element pieces last
  | first :: second :: rest => separated (element pieces first).comma element (second :: rest)

def braced {α : Type} (pieces : Pieces) (element : Pieces → α → Pieces) (elements : List α) :
    Pieces :=
  ((pieces.mark .openBrace).separated element elements).mark .closeBrace

/-- The names of the flags, and the number of the bits without a name. -/
def flags {kind : FlagKind} (pieces : Pieces) (flags : Flags kind) : Pieces :=
  let pieces := pieces.words flags.keywords
  if flags.other == 0 then pieces else pieces.word ("0x" ++ hexPadded 4 flags.other.toNat)

def member (pieces : Pieces) (owner : ClassName) (name : String) : Pieces :=
  pieces.name (owner.text ++ "." ++ name)

def fieldRef (pieces : Pieces) (field : FieldRef) : Pieces :=
  ((pieces.member field.owner field.name.text).mark .colon).name field.type.text

def methodRef (pieces : Pieces) (method : MethodRef) : Pieces :=
  (pieces.member method.owner method.name.text).name method.descriptor.text

def onInterface (pieces : Pieces) (onInterface : Bool) : Pieces :=
  if onInterface then pieces.word "itf" else pieces

def handle (pieces : Pieces) : Handle → Pieces
  | .field kind field => ((pieces.word "handle").word kind.keyword).fieldRef field
  | .method kind method =>
    let pieces := ((pieces.word "handle").word kind.keyword).methodRef method
    match kind with
    | .static onInterface | .special onInterface => pieces.onInterface onInterface
    | _ => pieces

mutual

def loadable (pieces : Pieces) : Loadable → Pieces
  | .integer value => pieces.literal (.integer value)
  | .float value => pieces.literal (.float value)
  | .long value => pieces.literal (.long value)
  | .double value => pieces.literal (.double value)
  | .className name =>
    if needsQuotes name.text then (pieces.string name.text).glue (.word ".class")
    else pieces.word (name.text ++ ".class")
  | .string value => pieces.token (.string value)
  | .methodHandle value => pieces.handle value
  | .methodType descriptor =>
    if needsQuotes descriptor.text then (pieces.word "type").string descriptor.text
    else pieces.word descriptor.text
  | .dynamic name type handle arguments =>
    let pieces := (((pieces.word "dynamic").name name.text).name type.text).handle handle
    (loadables (pieces.mark .openBrace) arguments).mark .closeBrace

/-- Constants with commas between them. -/
def loadables (pieces : Pieces) : List Loadable → Pieces
  | [] => pieces
  | [last] => loadable pieces last
  | first :: second :: rest => loadables (loadable pieces first).comma (second :: rest)

end

def arguments (pieces : Pieces) (arguments : List Loadable) : Pieces :=
  (loadables (pieces.mark .openBrace) arguments).mark .closeBrace

/-- The type of an annotation right after an at sign. -/
def annotationType (pieces : Pieces) (type : FieldType) : Pieces :=
  if needsQuotes type.text then (pieces.word "@").glue (stringToken type.text)
  else pieces.word ("@" ++ type.text)

mutual

def elementValue (pieces : Pieces) : ElementValue → Pieces
  | .byte value => (pieces.word "byte").integer value.toInt
  | .char value => (pieces.word "char").number value.toNat
  | .short value => (pieces.word "short").integer value.toInt
  | .boolean value => pieces.word (if value then "true" else "false")
  | .int value => pieces.literal (.integer value)
  | .long value => pieces.literal (.long value)
  | .float value => pieces.literal (.float value)
  | .double value => pieces.literal (.double value)
  | .string value => pieces.token (.string value)
  | .enumConstant type name => ((pieces.word "enum").name type.text).name name
  | .classLiteral type => (pieces.word "class").name (returnedText type)
  | .nested type elements =>
    (namedElements ((pieces.annotationType type).mark .openBrace) elements).mark .closeBrace
  | .array values =>
    (elementValues ((pieces.word "array").mark .openBrace) values).mark .closeBrace

def elementValues (pieces : Pieces) : List ElementValue → Pieces
  | [] => pieces
  | [last] => elementValue pieces last
  | first :: second :: rest => elementValues (elementValue pieces first).comma (second :: rest)

/-- Elements of an annotation with commas between them. -/
def namedElements (pieces : Pieces) : List (String × ElementValue) → Pieces
  | [] => pieces
  | [(key, value)] => elementValue ((pieces.name key).mark .equals) value
  | (key, value) :: second :: rest =>
    namedElements (elementValue ((pieces.name key).mark .equals) value).comma (second :: rest)

end

def note (pieces : Pieces) (note : Annotation) : Pieces :=
  (namedElements ((pieces.annotationType note.type).mark .openBrace) note.elements).mark .closeBrace

def typeNote {τ : Type} (pieces : Pieces) (target : Pieces → τ → Pieces) (note : AnnotatedType τ) :
    Pieces :=
  let pieces := target pieces note.target
  let pieces := if note.path.isEmpty then pieces else (pieces.word "path").word note.path.text
  pieces.note note.note

def classTarget (pieces : Pieces) : ClassTarget → Pieces
  | .typeParameter index => (pieces.word "typeparam").number index.toNat
  | .extends => pieces.word "extends"
  | .implements index => (pieces.word "implements").number index.toNat
  | .typeBound parameter bound =>
    ((pieces.word "typebound").number parameter.toNat).number bound.toNat

def fieldTarget (pieces : Pieces) : FieldTarget → Pieces
  | .field => pieces.word "field"

def methodTarget (pieces : Pieces) : MethodTarget → Pieces
  | .typeParameter index => (pieces.word "typeparam").number index.toNat
  | .typeBound parameter bound =>
    ((pieces.word "typebound").number parameter.toNat).number bound.toNat
  | .returned => pieces.word "return"
  | .receiver => pieces.word "receiver"
  | .parameter index => (pieces.word "param").number index.toNat
  | .throws index => (pieces.word "throws").number index.toNat

def labelRange (pieces : Pieces) (range : LabelRange) : Pieces :=
  (pieces.label range.start).label range.stop

def codeTarget (pieces : Pieces) : CodeTarget → Pieces
  | .variables isResource table =>
    (pieces.word (if isResource then "resource" else "local")).braced
      (fun pieces entry => (pieces.labelRange entry.1).number entry.2.toNat) table
  | .exceptionParameter index => (pieces.word "catch").number index.toNat
  | .instruction target label => (pieces.word target.keyword).label label
  | .argument target label index => ((pieces.word target.keyword).label label).number index.toNat

def rawAttribute (pieces : Pieces) (contents : RawAttribute) : Pieces :=
  ((pieces.word "attribute").string contents.name).string
    (String.join (contents.bytes.map fun byte => hexPadded 2 byte.toNat))

end Pieces

end JvmAsm.Text
