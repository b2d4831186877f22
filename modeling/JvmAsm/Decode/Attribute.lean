import JvmAsm.Outline.Declaration
import JvmAsm.Pool.Table

namespace JvmAsm

namespace Decode

open Binary ByteReader

variable {α σ τ : Type}

def contents (name : String) (length : Nat) (reader : ByteReader α) : ByteReader α := do
  let start ← offset
  let value ← within (.inAttribute name) reader
  let taken := (← offset) - start
  if taken != length then fail (.attributeLength name length taken)
  return value

/-- Takes a value of an attribute that a declaration has at most once. -/
def only (name : String) (outline : α → Outline) (given : Option α) (value : α) :
    ByteReader (Option α) :=
  match given with
  | some old => within (.onlyOne name) (fail (.gotTwo (outline old) (outline value)))
  | none => return some value

/-- Reads the contents of an attribute that a declaration has at most once. -/
def once (name : String) (length : Nat) (outline : α → Outline) (given : Option α)
    (reader : ByteReader α) : ByteReader (Option α) := do
  only name outline given (← contents name length reader)

def raw (name : String) (length : Nat) : ByteReader RawAttribute := do
  return ⟨name, ← within (.inContents name) (bytes length)⟩

/-- Reads as many attributes as are left. -/
def attributesFrom (table : PoolTable) (step : σ → String → Nat → ByteReader σ) :
    Nat → σ → ByteReader σ
  | 0, state => return state
  | count + 1, state => do
    let name ← ofResult (table.text (← u16))
    let length ← u32
    attributesFrom table step count (← step state name length.toNat)

/-- Reads attributes one after the other, given what to do with the name and the length of one. -/
def attributes (table : PoolTable) (step : σ → String → Nat → ByteReader σ) (initial : σ) :
    ByteReader σ := do
  attributesFrom table step (← u16).toNat initial

/-- Gets what the next index refers to. -/
def entry (get : UInt16 → Except Failure α) : ByteReader α := do
  ofResult (get (← u16))

/-- Gets what the next index refers to, unless it is zero. -/
def optionalEntry (get : UInt16 → Except Failure α) : ByteReader (Option α) := do
  let index ← u16
  ofResult (PoolTable.optional index (get index))

/-- How deep the values of annotations may be nested. -/
def maxElementDepth : Nat := 64

/-- The elements of an annotation, given how to read their values. -/
def elements (table : PoolTable) (value : ByteReader ElementValue) :
    ByteReader (List (String × ElementValue)) :=
  list16 do
    let name ← entry table.text
    return (name, ← value)

def classLiteral (text : String) : Except Failure ElementValue :=
  match returnedOfChars? text.toList with
  | some type => .ok (.classLiteral type)
  | none => .error (.ofCause (.binary (.invalidClassLiteral text)))

/-- Reads a value that is nested less deep than the fuel. -/
def elementValueWithin (table : PoolTable) : Nat → ByteReader ElementValue
  | 0 => fail .elementDepth
  | fuel + 1 => do
    let tag ← u8
    match Char.ofNat tag.toNat with
    | 'B' => return .byte (← entry table.integer).toInt8
    | 'C' => return .char (← entry table.integer).toUInt32.toUInt16
    | 'D' => return .double (← entry table.double)
    | 'F' => return .float (← entry table.float)
    | 'I' => return .int (← entry table.integer)
    | 'J' => return .long (← entry table.long)
    | 'S' => return .short (← entry table.integer).toInt16
    | 'Z' => return .boolean ((← entry table.integer) != 0)
    | 's' => return .string (← entry table.javaString)
    | 'e' =>
      let type ← entry table.fieldType
      return .enumConstant type (← entry table.text)
    | 'c' =>
      let text ← entry table.text
      ofResult (classLiteral text)
    | '@' =>
      let type ← entry table.fieldType
      return .nested type (← elements table (elementValueWithin table fuel))
    | '[' => return .array (← list16 (elementValueWithin table fuel))
    | _ => fail (.unknownElement tag)

def elementValue (table : PoolTable) : ByteReader ElementValue :=
  elementValueWithin table (maxElementDepth + 1)

def annotationBody (table : PoolTable) : ByteReader Annotation := do
  let type ← entry table.fieldType
  return ⟨type, ← elements table (elementValue table)⟩

def annotationList (table : PoolTable) : ByteReader (List Annotation) :=
  list16 (annotationBody table)

def plainStep (index : UInt8) (plain : PlainStep) (step : PathStep) : ByteReader PathStep := do
  if index != 0 then fail (.stepIndex plain index)
  return step

def pathStep : ByteReader PathStep := do
  let kind ← u8
  let index ← u8
  match kind with
  | 0 => plainStep index .array .array
  | 1 => plainStep index .nested .nested
  | 2 => plainStep index .wildcard .wildcard
  | 3 => return .argument index
  | _ => fail (.unknownStep kind)

def annotatedTypes (table : PoolTable) (target : ByteReader τ) :
    ByteReader (List (AnnotatedType τ)) :=
  list16 do
    let target ← target
    let path ← list8 pathStep
    return ⟨target, path, ← annotationBody table⟩

def classTarget : ByteReader ClassTarget := do
  let code ← u8
  match code with
  | 0x00 => return .typeParameter (← u8)
  | 0x10 =>
    let index ← u16
    return if index == 0xffff then .extends else .implements index
  | 0x11 =>
    let parameter ← u8
    return .typeBound parameter (← u8)
  | _ => fail (.wrongTarget code .onClass)

def fieldTarget : ByteReader FieldTarget := do
  let code ← u8
  match code with
  | 0x13 => return .field
  | _ => fail (.wrongTarget code .onField)

def methodTarget : ByteReader MethodTarget := do
  let code ← u8
  match code with
  | 0x01 => return .typeParameter (← u8)
  | 0x12 =>
    let parameter ← u8
    return .typeBound parameter (← u8)
  | 0x14 => return .returned
  | 0x15 => return .receiver
  | 0x16 => return .parameter (← u8)
  | 0x17 => return .throws (← u16)
  | _ => fail (.wrongTarget code .onMethod)

/-- The attributes that all declarations have, as far as they have been read. -/
structure Shared (τ : Type) where
  signature : Option String := none
  visible : Option (List Annotation) := none
  invisible : Option (List Annotation) := none
  visibleTypes : Option (List (AnnotatedType τ)) := none
  invisibleTypes : Option (List (AnnotatedType τ)) := none
  raw : Array RawAttribute := #[]

namespace Shared

def annotations (shared : Shared τ) : Annotations :=
  ⟨shared.visible.getD [], shared.invisible.getD []⟩

def typeAnnotations (shared : Shared τ) : TypeAnnotations τ :=
  ⟨shared.visibleTypes.getD [], shared.invisibleTypes.getD []⟩

def annotatedOutline (outline : τ → Outline) (found : List (AnnotatedType τ)) : Outline :=
  Outline.listOf (Outline.annotatedType outline) found

/-- Reads one of the attributes that all declarations have, or keeps the attribute as it is. -/
def step (table : PoolTable) (target : ByteReader τ) (outline : τ → Outline) (shared : Shared τ)
    (name : String) (length : Nat) : ByteReader (Shared τ) := do
  match name with
  | "Signature" =>
    let signature ← once name length Outline.quoted shared.signature (entry table.text)
    return { shared with signature }
  | "RuntimeVisibleAnnotations" =>
    let visible ← once name length Outline.notes shared.visible (annotationList table)
    return { shared with visible }
  | "RuntimeInvisibleAnnotations" =>
    let invisible ← once name length Outline.notes shared.invisible (annotationList table)
    return { shared with invisible }
  | "RuntimeVisibleTypeAnnotations" =>
    let visibleTypes ←
      once name length (annotatedOutline outline) shared.visibleTypes
        (annotatedTypes table target)
    return { shared with visibleTypes }
  | "RuntimeInvisibleTypeAnnotations" =>
    let invisibleTypes ←
      once name length (annotatedOutline outline) shared.invisibleTypes
        (annotatedTypes table target)
    return { shared with invisibleTypes }
  | _ =>
    let kept ← Decode.raw name length
    return { shared with raw := shared.raw.push kept }

end Shared

/-- The marks that classes, fields and methods can have. -/
structure Marks where
  isDeprecated : Bool := false
  isSynthetic : Bool := false

end Decode

end JvmAsm
