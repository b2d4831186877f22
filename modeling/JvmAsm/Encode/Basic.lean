import JvmAsm.ClassFile
import JvmAsm.Pool.Builder

namespace JvmAsm

/-- What the bytes of a class do not tell although they could. -/
inductive Warning where
  | withoutFrames (name : ClassName) (version : Version)
  | usesSubroutines (method : String) (owner : ClassName)
  | droppedNote (handler : UInt16)

def Warning.message : Warning → String
  | .withoutFrames name version =>
    "writing class " ++ name.text ++ " of version " ++ version.text ++
      " without stack map frames"
  | .usesSubroutines method owner =>
    "method " ++ method ++ " of class " ++ owner.text ++
      " uses jsr or ret, writing it without stack map frames"
  | .droppedNote handler =>
    "dropping type annotation on exception parameter " ++ toString handler.toNat ++
      ", its exception table entry only covers unreachable code"

namespace Encode

open Binary

structure State where
  pool : PoolBuilder := {}
  warnings : Array Warning := #[]

/-- The warnings are kept when an encoder fails. -/
abbrev Encoder := EStateM Failure State

variable {α : Type}

def fail (cause : EncodingCause) : Encoder α := throw (.ofCause (.encoding cause))

def ofResult : Except Failure α → Encoder α
  | .ok value => pure value
  | .error failure => throw failure

def within (cause : EncodingCause) (encoder : Encoder α) : Encoder α := fun state =>
  match encoder state with
  | .ok value state => .ok value state
  | .error failure state => .error (failure.within (.encoding cause)) state

def warn (warning : Warning) : Encoder Unit :=
  modify fun state => { state with warnings := state.warnings.push warning }

/-- Adds to the constant pool. -/
def onPool (action : PoolM α) : Encoder α
  | ⟨pool, warnings⟩ =>
    match action pool with
    | .ok value pool => .ok value ⟨pool, warnings⟩
    | .error failure pool => .error failure ⟨pool, warnings⟩

def index (action : PoolM UInt16) : Encoder (List UInt8) := do
  return bytes16 (← onPool action)

def utf8 (text : String) : Encoder (List UInt8) := index (PoolBuilder.utf8 text)

def className (name : ClassName) : Encoder (List UInt8) := index (PoolBuilder.className name)

def each (values : List α) (encoder : α → Encoder (List UInt8)) : Encoder (List UInt8) := do
  return (← values.mapM encoder).flatten

/-- Encodes values, with their number before them in two bytes. -/
def list16 (cause : EncodingCause) (values : List α) (encoder : α → Encoder (List UInt8)) :
    Encoder (List UInt8) := do
  let count ← within cause (ofResult (size16 values.length))
  return count ++ (← each values encoder)

/-- Encodes values, with their number before them in one byte. -/
def list8 (cause : EncodingCause) (values : List α) (encoder : α → Encoder (List UInt8)) :
    Encoder (List UInt8) := do
  let count ← within cause (ofResult (size8 values.length))
  return count ++ (← each values encoder)

/-- An attribute whose contents are added to the pool before its name. -/
def namedAfter (name : String) (encoder : Encoder (List UInt8)) : Encoder (List UInt8) := do
  let contents ← encoder
  let nameIndex ← utf8 name
  let length ← within (.attributeTooLarge name) (ofResult (size32 contents.length))
  return nameIndex ++ length ++ contents

def namedBefore (name : String) (encoder : Encoder (List UInt8)) : Encoder (List UInt8) := do
  let nameIndex ← utf8 name
  let contents ← encoder
  let length ← within (.attributeTooLarge name) (ofResult (size32 contents.length))
  return nameIndex ++ length ++ contents

def rawAttribute (kept : RawAttribute) : Encoder (List UInt8) := do
  let nameIndex ← utf8 kept.name
  let length ← within (.rawTooLarge kept.name) (ofResult (size32 kept.bytes.length))
  return nameIndex ++ length ++ kept.bytes

/-- The attributes of a declaration, some of which may not be there. -/
abbrev AttributeEncoder := Encoder (List (List UInt8))

/-- An attribute that is there if a condition holds. -/
def attributeIf (condition : Bool) (encoder : Encoder (List UInt8)) : AttributeEncoder := do
  if condition then return [← encoder] else return []

def attributeOf (value : Option α) (encoder : α → Encoder (List UInt8)) : AttributeEncoder := do
  match value with
  | some given => return [← encoder given]
  | none => return []

def attributeOfList (values : List α) (encoder : List α → Encoder (List UInt8)) :
    AttributeEncoder :=
  attributeIf (!values.isEmpty) (encoder values)

def rawAttributes (kept : List RawAttribute) : AttributeEncoder := kept.mapM rawAttribute

/-- All attributes of a declaration, with their number before them. -/
def attributeTable (listing : Listing) (encoders : List AttributeEncoder) :
    Encoder (List UInt8) := do
  let found := (← encoders.mapM id).flatten
  let count ← within (.tooMany listing) (ofResult (size16 found.length))
  return count ++ found.flatten

/-- The marks of a class, field or method. -/
def marks (isDeprecated isSynthetic : Bool) : AttributeEncoder := do
  let deprecated ← attributeIf isDeprecated (namedBefore "Deprecated" (pure []))
  let synthetic ← attributeIf isSynthetic (namedBefore "Synthetic" (pure []))
  return deprecated ++ synthetic

def signature (value : Option String) : AttributeEncoder :=
  attributeOf value fun text => namedBefore "Signature" (utf8 text)

end Encode

end JvmAsm
