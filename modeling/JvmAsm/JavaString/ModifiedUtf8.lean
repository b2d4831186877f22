import JvmAsm.JavaString.Basic

namespace JvmAsm

namespace JavaString

def unitBytes (unit : UInt16) : List UInt8 :=
  let n := unit.toNat
  if n = 0 then [0xc0, 0x80]
  else if n < 0x80 then [UInt8.ofNat n]
  else if n < 0x800 then [UInt8.ofNat (0xc0 + n / 0x40), UInt8.ofNat (0x80 + n % 0x40)]
  else
    [UInt8.ofNat (0xe0 + n / 0x1000), UInt8.ofNat (0x80 + n / 0x40 % 0x40),
      UInt8.ofNat (0x80 + n % 0x40)]

def toBytes (string : JavaString) : List UInt8 := string.units.flatMap unitBytes

/-- The reasons why bytes are no string, with the index of the sequence that is at fault. -/
inductive Utf8Fault where
  | invalid (length index : Nat)
  | incomplete (index : Nat)
  deriving DecidableEq, Repr

def isContinuation (byte : UInt8) : Bool := 0x80 ≤ byte && byte < 0xc0

/-- The unit of a sequence of three bytes. -/
def unit3 (a b c : UInt8) : UInt16 :=
  UInt16.ofNat ((a.toNat - 0xe0) * 0x1000 + (b.toNat - 0x80) * 0x40 + (c.toNat - 0x80))

/-- The unit of a sequence of two bytes. -/
def unit2 (a b : UInt8) : UInt16 := UInt16.ofNat ((a.toNat - 0xc0) * 0x40 + (b.toNat - 0x80))

/-- The two units of a sequence of four bytes. -/
def units4 (a b c d : UInt8) : List UInt16 :=
  unitsOf (Char.ofNat ((a.toNat - 0xf0) * 0x40000 + (b.toNat - 0x80) * 0x1000 +
    (c.toNat - 0x80) * 0x40 + (d.toNat - 0x80)))

/-- Whether the second byte of a longer sequence excludes an overlong form or a surrogate. -/
def secondFits (a b : UInt8) : Bool :=
  if a == 0xe0 then 0xa0 ≤ b
  else if a == 0xed then b < 0xa0
  else if a == 0xf0 then 0x90 ≤ b
  else if a == 0xf4 then b < 0x90
  else true

/--
The units of a sequence of ordinary UTF-8, given its first byte and the bytes after it, and the
number of bytes after the first that belong to it.
-/
def plainSequence? (a : UInt8) (rest : List UInt8) : Option (List UInt16 × Nat) :=
  if a < 0x80 then some ([a.toUInt16], 0)
  else if a < 0xc2 then none
  else if a < 0xe0 then
    match rest with
    | b :: _ => if isContinuation b then some ([unit2 a b], 1) else none
    | _ => none
  else if a < 0xf0 then
    match rest with
    | b :: c :: _ =>
      if isContinuation b && secondFits a b && isContinuation c then some ([unit3 a b c], 2)
      else none
    | _ => none
  else if a < 0xf5 then
    match rest with
    | b :: c :: d :: _ =>
      if isContinuation b && secondFits a b && isContinuation c && isContinuation d then
        some (units4 a b c d, 3)
      else none
    | _ => none
  else none

/-- Ordinary UTF-8; the units found so far are kept in reverse. -/
def readPlain (found : List UInt16) : List UInt8 → Option (List UInt16)
  | [] => some found.reverse
  | a :: rest =>
    match plainSequence? a rest with
    | some (units, size) => readPlain (units.reverse ++ found) (rest.drop size)
    | none => none
termination_by bytes => bytes.length
decreasing_by simp only [List.length_drop, List.length_cons]; omega

/--
The unit of a sequence of modified UTF-8 that starts at the given index, and the number of bytes
after the first that belong to it. Surrogates are sequences of three bytes like any others.
-/
def modifiedSequence (index : Nat) (a : UInt8) (rest : List UInt8) :
    Except Utf8Fault (UInt16 × Nat) :=
  if a == 0 then .error (.invalid 1 index)
  else if a < 0x80 then .ok (a.toUInt16, 0)
  else
    match rest with
    | [] => .error (.incomplete index)
    | b :: rest =>
      if a == 0xc0 then
        if b == 0x80 then .ok (0, 1) else .error (.invalid 1 index)
      else if !isContinuation b then .error (.invalid 1 index)
      else if 0xc2 ≤ a && a < 0xe0 then .ok (unit2 a b, 1)
      else if 0xe0 ≤ a && a < 0xf0 then
        match rest with
        | [] => .error (.incomplete index)
        | c :: _ =>
          if !isContinuation c then .error (.invalid 2 index)
          else if a == 0xe0 && b < 0xa0 then .error (.invalid 1 index)
          else .ok (unit3 a b c, 2)
      else .error (.invalid 1 index)

def readModified (index : Nat) (found : List UInt16) :
    List UInt8 → Except Utf8Fault (List UInt16)
  | [] => .ok found.reverse
  | a :: rest =>
    match modifiedSequence index a rest with
    | .ok (unit, size) => readModified (index + size + 1) (unit :: found) (rest.drop size)
    | .error fault => .error fault
termination_by bytes => bytes.length
decreasing_by simp only [List.length_drop, List.length_cons]; omega

def ofBytes (bytes : List UInt8) : Except Utf8Fault JavaString :=
  match readPlain [] bytes with
  | some units => .ok ⟨units⟩
  | none => (readModified 0 [] bytes).map JavaString.mk

end JavaString

end JvmAsm
