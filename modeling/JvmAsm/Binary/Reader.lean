import JvmAsm.Failure.Basic

namespace JvmAsm.Binary

/-- A place in some data. It may lie past the end of the data, where nothing can be read. -/
structure Cursor where
  /-- The number of all bytes of the data. -/
  size : Nat
  offset : Nat
  /-- The bytes from the offset on. -/
  rest : List UInt8

/-- The place at the given offset of some data. -/
def Cursor.at (data : List UInt8) (offset : Nat) : Cursor := ⟨data.length, offset, data.drop offset⟩

def Cursor.skip (cursor : Cursor) (count : Nat) : Cursor :=
  { cursor with offset := cursor.offset + count, rest := cursor.rest.drop count }

/-- The place at the end of the data. -/
def Cursor.end (cursor : Cursor) : Cursor := { cursor with offset := cursor.size, rest := [] }

abbrev ByteReader := EStateM Failure Cursor

namespace ByteReader

variable {α : Type}

def fail (cause : BinaryCause) : ByteReader α := throw (.ofCause (.binary cause))

def ofResult : Except Failure α → ByteReader α
  | .ok value => pure value
  | .error failure => throw failure

def within (cause : BinaryCause) (reader : ByteReader α) : ByteReader α := fun cursor =>
  match reader cursor with
  | .ok value cursor => .ok value cursor
  | .error failure cursor => .error (failure.within (.binary cause)) cursor

def offset : ByteReader Nat := do
  return (← get).offset

/-- Goes on without reading, even past the end. -/
def skip (count : Nat) : ByteReader Unit := modify fun cursor => cursor.skip count

/-- A number of a fixed size could not be read, which ends at the end of the data. -/
def unreadable (width : Width) : ByteReader α := fun cursor =>
  .error ((Failure.ofCause (.binary .endOfData)).within (.binary (.unreadable width))) cursor.end

def u8As (width : Width) : ByteReader UInt8 := fun cursor =>
  match cursor.rest with
  | a :: _ => .ok a (cursor.skip 1)
  | _ => unreadable width cursor

def u16As (width : Width) : ByteReader UInt16 := fun cursor =>
  match cursor.rest with
  | a :: b :: _ => .ok (UInt16.ofNat (a.toNat * 0x100 + b.toNat)) (cursor.skip 2)
  | _ => unreadable width cursor

def u32As (width : Width) : ByteReader UInt32 := fun cursor =>
  match cursor.rest with
  | a :: b :: c :: d :: _ =>
    .ok (UInt32.ofNat (((a.toNat * 0x100 + b.toNat) * 0x100 + c.toNat) * 0x100 + d.toNat))
      (cursor.skip 4)
  | _ => unreadable width cursor

def u64As (width : Width) : ByteReader UInt64 := fun cursor =>
  match cursor.rest with
  | a :: b :: c :: d :: e :: f :: g :: h :: _ =>
    .ok (UInt64.ofNat (((((((a.toNat * 0x100 + b.toNat) * 0x100 + c.toNat) * 0x100 + d.toNat) *
      0x100 + e.toNat) * 0x100 + f.toNat) * 0x100 + g.toNat) * 0x100 + h.toNat)) (cursor.skip 8)
  | _ => unreadable width cursor

def u8 : ByteReader UInt8 := u8As .u8

def u16 : ByteReader UInt16 := u16As .u16

def u32 : ByteReader UInt32 := u32As .u32

def u64 : ByteReader UInt64 := u64As .u64

def i16 : ByteReader Int16 := do
  return (← u16As .i16).toInt16

def i32 : ByteReader Int32 := do
  return (← u32As .i32).toInt32

def i64 : ByteReader Int64 := do
  return (← u64As .i64).toInt64

/-- The given number of bytes. -/
def bytes (count : Nat) : ByteReader (List UInt8) := fun cursor =>
  let found := cursor.rest.take count
  if found.length == count then .ok found (cursor.skip count)
  else .error (.ofCause (.binary (.missingBytes count found.length))) cursor.end

/-- Reads as many values as are left; those read so far are kept. -/
def manyFrom (reader : ByteReader α) : Nat → Array α → ByteReader (List α)
  | 0, found => return found.toList
  | count + 1, found => do
    let value ← reader
    manyFrom reader count (found.push value)

/-- Reads the given number of values. -/
def many (count : Nat) (reader : ByteReader α) : ByteReader (List α) := manyFrom reader count #[]

/-- Reads values, whose number stands before them in two bytes. -/
def list16 (reader : ByteReader α) : ByteReader (List α) := do
  many (← u16).toNat reader

/-- Reads values, whose number stands before them in one byte. -/
def list8 (reader : ByteReader α) : ByteReader (List α) := do
  many (← u8).toNat reader

end ByteReader

end JvmAsm.Binary
