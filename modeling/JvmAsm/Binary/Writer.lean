import JvmAsm.Failure.Basic

namespace JvmAsm.Binary

/-- The byte of a number with the given place, counted from the lowest. -/
def byteAt (place value : Nat) : UInt8 := UInt8.ofNat (value >>> (8 * place))

def bytes16 (value : UInt16) : List UInt8 := [byteAt 1 value.toNat, byteAt 0 value.toNat]

def bytes32 (value : UInt32) : List UInt8 :=
  [byteAt 3 value.toNat, byteAt 2 value.toNat, byteAt 1 value.toNat, byteAt 0 value.toNat]

def bytes64 (value : UInt64) : List UInt8 :=
  [byteAt 7 value.toNat, byteAt 6 value.toNat, byteAt 5 value.toNat, byteAt 4 value.toNat,
    byteAt 3 value.toNat, byteAt 2 value.toNat, byteAt 1 value.toNat, byteAt 0 value.toNat]

/-- A number does not fit into the given width. -/
def tooLarge (value : Nat) (width : Width) : Failure :=
  (Failure.ofCause (.binary .numberTooLarge)).within (.encoding (.tooLarge value width))

def size8 (value : Nat) : Except Failure (List UInt8) :=
  if value ≤ 0xff then .ok [UInt8.ofNat value] else .error (tooLarge value .u8)

def size16 (value : Nat) : Except Failure (List UInt8) :=
  if value ≤ 0xffff then .ok (bytes16 (UInt16.ofNat value)) else .error (tooLarge value .u16)

def size32 (value : Nat) : Except Failure (List UInt8) :=
  if value ≤ 0xffffffff then .ok (bytes32 (UInt32.ofNat value)) else .error (tooLarge value .u32)

end JvmAsm.Binary
