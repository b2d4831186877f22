
namespace JvmAsm.Number

/-- The reasons why a text is no number of the wanted size. -/
inductive IntegerFault where
  | empty
  | invalidDigit
  | tooLarge
  | tooSmall
  deriving DecidableEq, Repr

def digit? (base : Nat) (c : Char) : Option Nat :=
  let value :=
    if '0' ≤ c && c ≤ '9' then c.toNat - '0'.toNat
    else if 'a' ≤ c && c ≤ 'f' then c.toNat - 'a'.toNat + 10
    else if 'A' ≤ c && c ≤ 'F' then c.toNat - 'A'.toNat + 10
    else base
  if value < base then some value else none

/--
Digits are taken from the left. A character that is no digit is noticed before a value that has
grown past the limit.
-/
def readDigits (base limit : Nat) (overflow : IntegerFault) :
    Nat → List Char → Except IntegerFault Nat
  | value, [] => .ok value
  | value, c :: rest =>
    match digit? base c with
    | none => .error .invalidDigit
    | some digit =>
      let next := value * base + digit
      if limit < next then .error overflow else readDigits base limit overflow next rest

/-- A number without a sign or with a plus. -/
def readNatural (base limit : Nat) (text : String) : Except IntegerFault Nat :=
  match text.toList with
  | [] => .error .empty
  | ['+'] => .error .invalidDigit
  | '+' :: digits => readDigits base limit .tooLarge 0 digits
  | digits => readDigits base limit .tooLarge 0 digits

/-- A number from `-size` up to but not including `size`, with an optional sign. -/
def readSigned (size : Nat) (text : String) : Except IntegerFault Int :=
  match text.toList with
  | [] => .error .empty
  | ['+'] => .error .invalidDigit
  | ['-'] => .error .invalidDigit
  | '+' :: digits => (readDigits 10 (size - 1) .tooLarge 0 digits).map Int.ofNat
  | '-' :: digits => (readDigits 10 size .tooSmall 0 digits).map fun value => -Int.ofNat value
  | digits => (readDigits 10 (size - 1) .tooLarge 0 digits).map Int.ofNat

def readUInt8 (text : String) : Except IntegerFault UInt8 :=
  (readNatural 10 0xff text).map UInt8.ofNat

def readUInt16 (text : String) : Except IntegerFault UInt16 :=
  (readNatural 10 0xffff text).map UInt16.ofNat

def readInt8 (text : String) : Except IntegerFault Int8 :=
  (readSigned 0x80 text).map Int8.ofInt

def readInt16 (text : String) : Except IntegerFault Int16 :=
  (readSigned 0x8000 text).map Int16.ofInt

def readInt32 (text : String) : Except IntegerFault Int32 :=
  (readSigned 0x80000000 text).map Int32.ofInt

def readInt64 (text : String) : Except IntegerFault Int64 :=
  (readSigned 0x8000000000000000 text).map Int64.ofInt

end JvmAsm.Number
