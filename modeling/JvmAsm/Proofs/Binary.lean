/-
Relates readers to bytes: a reader takes some bytes if it gives a value and stops right behind them,
wherever they stand and whatever follows them.
-/
import JvmAsm.Binary.Reader
import JvmAsm.Binary.Writer
import JvmAsm.Proofs.Result

namespace JvmAsm.Binary

open List ByteReader

variable {α β : Type}
variable {next : α → ByteReader β} {value : α} {chunks : List (List UInt8)} {xs : List α}
variable {result : β} {reader : ByteReader α}

@[simp] lemma Cursor.skip_rest (cursor : Cursor) (count : Nat) :
    (cursor.skip count).rest = cursor.rest.drop count := rfl

@[simp] lemma Cursor.skip_offset (cursor : Cursor) (count : Nat) :
    (cursor.skip count).offset = cursor.offset + count := rfl

@[simp] lemma Cursor.skip_zero (cursor : Cursor) : cursor.skip 0 = cursor := by
  simp [Cursor.skip]

@[simp] lemma Cursor.skip_skip (cursor : Cursor) (first second : Nat) :
    (cursor.skip first).skip second = cursor.skip (first + second) := by
  simp [Cursor.skip, add_assoc]

/-- The reader takes exactly these bytes where they stand at the given offset. -/
def ReadsAt (offset : Nat) (reader : ByteReader α) (bytes : List UInt8) (value : α) : Prop :=
  ∀ (cursor : Cursor) (rest : List UInt8), cursor.offset = offset → cursor.rest = bytes ++ rest →
    reader cursor = .ok value (cursor.skip bytes.length)

/-- The reader takes exactly these bytes, wherever they stand and whatever follows them. -/
def Reads (reader : ByteReader α) (bytes : List UInt8) (value : α) : Prop :=
  ∀ offset, ReadsAt offset reader bytes value

lemma ReadsAt.bind {offset : Nat} {bytes more : List UInt8}
    (first : ReadsAt offset reader bytes value)
    (second : ReadsAt (offset + bytes.length) (next value) more result) :
    ReadsAt offset (reader >>= next) (bytes ++ more) result := by
  intro cursor rest stands equal
  have taken := first cursor (more ++ rest) stands (by rw [equal, append_assoc])
  have after := second (cursor.skip bytes.length) rest (by rw [Cursor.skip_offset, stands])
    (by simp [equal])
  change EStateM.bind reader next cursor = _
  simp only [EStateM.bind, taken, after, Cursor.skip_skip, length_append]

lemma ReadsAt.pure (offset : Nat) (value : α) : ReadsAt offset (pure value) [] value := by
  intro cursor rest _ _
  change EStateM.Result.ok value cursor = _
  simp

lemma Reads.pure (value : α) : Reads (Pure.pure value) [] value :=
  fun offset => ReadsAt.pure offset value

lemma Reads.bind {bytes more : List UInt8} (first : Reads reader bytes value)
    (second : Reads (next value) more result) :
    Reads (reader >>= next) (bytes ++ more) result :=
  fun offset => (first offset).bind (second _)

/-- What is done with a value that has been read takes no bytes of its own. -/
lemma ReadsAt.bind_pure {offset : Nat} {bytes : List UInt8}
    (first : ReadsAt offset reader bytes value)
    (second : ReadsAt (offset + bytes.length) (next value) [] result) :
    ReadsAt offset (reader >>= next) bytes result := by
  have whole := first.bind second
  rwa [append_nil] at whole

lemma Reads.bind_pure {bytes : List UInt8} (first : Reads reader bytes value)
    (second : Reads (next value) [] result) :
    Reads (reader >>= next) bytes result :=
  fun offset => (first offset).bind_pure (second _)

lemma Reads.made {bytes : List UInt8} (make : α → β) (read : Reads reader bytes value) :
    Reads (do return make (← reader)) bytes (make value) :=
  read.bind_pure (Reads.pure _)

lemma ReadsAt.discard {offset : Nat} {bytes : List UInt8}
    (read : ReadsAt offset reader bytes value) : ReadsAt offset (discard reader) bytes () := by
  intro cursor rest stands equal
  change EStateM.map (Function.const α ()) reader cursor = _
  simp only [EStateM.map, read cursor rest stands equal, Function.const]

lemma Reads.discard {bytes : List UInt8} (read : Reads reader bytes value) :
    Reads (discard reader) bytes () :=
  fun offset => (read offset).discard

lemma ReadsAt.within {offset : Nat} {bytes : List UInt8} (cause : BinaryCause)
    (read : ReadsAt offset reader bytes value) :
    ReadsAt offset (within cause reader) bytes value := by
  intro cursor rest stands equal
  simp only [ByteReader.within, read cursor rest stands equal]

lemma Reads.within {bytes : List UInt8} (cause : BinaryCause) (read : Reads reader bytes value) :
    Reads (within cause reader) bytes value :=
  fun offset => (read offset).within cause

lemma Reads.ofResult {result : Except Failure α} (found : result = .ok value) :
    Reads (ofResult result) [] value := by
  subst found
  exact Reads.pure value

lemma ReadsAt.offset (offset : Nat) : ReadsAt offset ByteReader.offset [] offset := by
  intro cursor rest stands _
  change EStateM.Result.ok cursor.offset cursor = _
  simp [stands]

/-- The reader fails on these bytes where they stand at the given offset. -/
def FailsAt (offset : Nat) (reader : ByteReader α) (bytes : List UInt8) : Prop :=
  ∀ (cursor : Cursor) (rest : List UInt8), cursor.offset = offset → cursor.rest = bytes ++ rest →
    ∃ failure stopped, reader cursor = .error failure stopped

lemma ReadsAt.bind_fails {offset : Nat} {bytes more : List UInt8}
    (first : ReadsAt offset reader bytes value)
    (second : FailsAt (offset + bytes.length) (next value) more) :
    FailsAt offset (reader >>= next) (bytes ++ more) := by
  intro cursor rest stands equal
  have taken := first cursor (more ++ rest) stands (by rw [equal, append_assoc])
  obtain ⟨failure, stopped, failed⟩ := second (cursor.skip bytes.length) rest
    (by rw [Cursor.skip_offset, stands]) (by simp [equal])
  exact ⟨failure, stopped, ran_bind taken failed⟩

lemma FailsAt.bind {offset : Nat} {bytes : List UInt8} (fails : FailsAt offset reader bytes) :
    FailsAt offset (reader >>= next) bytes := by
  intro cursor rest stands equal
  obtain ⟨failure, stopped, failed⟩ := fails cursor rest stands equal
  exact ⟨failure, stopped, failed_bind failed⟩

lemma FailsAt.ofResult {offset : Nat} {result : Except Failure α} {failure : Failure}
    (failed : result = .error failure) : FailsAt offset (ofResult result) [] := by
  subst failed
  exact fun cursor _ _ _ => ⟨failure, cursor, rfl⟩

lemma Reads.skip (bytes : List UInt8) : Reads (skip bytes.length) bytes () := by
  intro offset cursor rest _ _
  rfl

lemma Reads.bytes (bytes : List UInt8) : Reads (ByteReader.bytes bytes.length) bytes bytes := by
  intro offset cursor rest _ equal
  simp [ByteReader.bytes, equal]

section Numbers

open ByteReader

@[simp] lemma bytes16_length (value : UInt16) : (bytes16 value).length = 2 := rfl

@[simp] lemma bytes32_length (value : UInt32) : (bytes32 value).length = 4 := rfl

lemma byteAt_toNat (place value : Nat) :
    (byteAt place value).toNat = value / Nat.pow 0x100 place % 0x100 := by
  simp [byteAt, Nat.shiftRight_eq_div_pow, Nat.pow_mul]

lemma bytes16_value (value : UInt16) :
    UInt16.ofNat ((byteAt 1 value.toNat).toNat * 0x100 + (byteAt 0 value.toNat).toNat) = value := by
  have bound := value.toNat_lt
  apply UInt16.toNat_inj.mp
  simp only [byteAt_toNat, UInt16.toNat_ofNat', Nat.pow_eq]
  omega

lemma bytes32_value (value : UInt32) :
    UInt32.ofNat ((((byteAt 3 value.toNat).toNat * 0x100 + (byteAt 2 value.toNat).toNat) * 0x100 +
      (byteAt 1 value.toNat).toNat) * 0x100 + (byteAt 0 value.toNat).toNat) = value := by
  have bound := value.toNat_lt
  apply UInt32.toNat_inj.mp
  simp only [byteAt_toNat, UInt32.toNat_ofNat', Nat.pow_eq]
  omega

lemma bytes64_value (value : UInt64) :
    UInt64.ofNat ((((((((byteAt 7 value.toNat).toNat * 0x100 + (byteAt 6 value.toNat).toNat) *
      0x100 + (byteAt 5 value.toNat).toNat) * 0x100 + (byteAt 4 value.toNat).toNat) * 0x100 +
      (byteAt 3 value.toNat).toNat) * 0x100 + (byteAt 2 value.toNat).toNat) * 0x100 +
      (byteAt 1 value.toNat).toNat) * 0x100 + (byteAt 0 value.toNat).toNat) = value := by
  have bound := value.toNat_lt
  apply UInt64.toNat_inj.mp
  simp only [byteAt_toNat, UInt64.toNat_ofNat', Nat.pow_eq]
  omega

lemma Reads.u8As (width : Width) (value : UInt8) : Reads (u8As width) [value] value := by
  intro offset cursor rest _ equal
  simp [ByteReader.u8As, equal]

lemma Reads.u16As (width : Width) (value : UInt16) :
    Reads (u16As width) (bytes16 value) value := by
  intro offset cursor rest _ equal
  simp only [ByteReader.u16As, equal, bytes16, cons_append, nil_append, bytes16_value,
    length_cons, length_nil]

lemma Reads.u32As (width : Width) (value : UInt32) :
    Reads (u32As width) (bytes32 value) value := by
  intro offset cursor rest _ equal
  simp only [ByteReader.u32As, equal, bytes32, cons_append, nil_append, bytes32_value,
    length_cons, length_nil]

lemma Reads.u64As (width : Width) (value : UInt64) :
    Reads (u64As width) (bytes64 value) value := by
  intro offset cursor rest _ equal
  simp only [ByteReader.u64As, equal, bytes64, cons_append, nil_append, bytes64_value,
    length_cons, length_nil]

lemma Reads.u8 (value : UInt8) : Reads u8 [value] value := Reads.u8As _ value

lemma Reads.u16 (value : UInt16) : Reads u16 (bytes16 value) value := Reads.u16As _ value

lemma Reads.u32 (value : UInt32) : Reads u32 (bytes32 value) value := Reads.u32As _ value

lemma Reads.u64 (value : UInt64) : Reads u64 (bytes64 value) value := Reads.u64As _ value

lemma Reads.i16 (value : Int16) : Reads i16 (bytes16 value.toUInt16) value :=
  (Reads.u16As _ _).made _

lemma Reads.i32 (value : Int32) : Reads i32 (bytes32 value.toUInt32) value :=
  (Reads.u32As _ _).made _

lemma Reads.i64 (value : Int64) : Reads i64 (bytes64 value.toUInt64) value :=
  (Reads.u64As _ _).made _

/-- The reader takes so many bytes, whatever they are, or fails at the end of the data. -/
class IsFixed (count : outParam Nat) (reader : ByteReader α) : Prop where
  result : ∀ cursor : Cursor, (∃ value, reader cursor = .ok value (cursor.skip count) ∧
      count ≤ cursor.rest.length ∧ Reads reader (cursor.rest.take count) value) ∨
    ∃ width, reader cursor = unreadable width cursor

section Fixed

variable {width : Width}

instance : IsFixed 1 (u8As width) where
  result cursor := by
    rcases equal : cursor.rest with _ | ⟨_, _⟩
    · exact .inr ⟨width, by rw [u8As, equal]⟩
    · exact .inl ⟨_, by rw [u8As, equal], by simp, fun _ _ _ _ same => by simp [u8As, same]⟩

instance : IsFixed 2 (u16As width) where
  result cursor := by
    rcases equal : cursor.rest with _ | ⟨_, _ | ⟨_, _⟩⟩
    case cons.cons =>
      exact .inl ⟨_, by rw [u16As, equal], by simp, fun _ _ _ _ same => by simp [u16As, same]⟩
    all_goals exact .inr ⟨width, by rw [u16As, equal]⟩

instance : IsFixed 4 (u32As width) where
  result cursor := by
    rcases equal : cursor.rest with _ | ⟨_, _ | ⟨_, _ | ⟨_, _ | ⟨_, _⟩⟩⟩⟩
    case cons.cons.cons.cons =>
      exact .inl ⟨_, by rw [u32As, equal], by simp, fun _ _ _ _ same => by simp [u32As, same]⟩
    all_goals exact .inr ⟨width, by rw [u32As, equal]⟩

instance : IsFixed 8 (u64As width) where
  result cursor := by
    rcases equal : cursor.rest with
      _ | ⟨_, _ | ⟨_, _ | ⟨_, _ | ⟨_, _ | ⟨_, _ | ⟨_, _ | ⟨_, _ | ⟨_, _⟩⟩⟩⟩⟩⟩⟩⟩
    case cons.cons.cons.cons.cons.cons.cons.cons =>
      exact .inl ⟨_, by rw [u64As, equal], by simp, fun _ _ _ _ same => by simp [u64As, same]⟩
    all_goals exact .inr ⟨width, by rw [u64As, equal]⟩

instance : IsFixed 1 u8 := inferInstanceAs (IsFixed 1 (u8As _))

instance : IsFixed 2 u16 := inferInstanceAs (IsFixed 2 (u16As _))

instance : IsFixed 4 u32 := inferInstanceAs (IsFixed 4 (u32As _))

instance : IsFixed 8 u64 := inferInstanceAs (IsFixed 8 (u64As _))

end Fixed

end Numbers

section Lists

variable {reader : ByteReader α}

section

variable (each : Forall₂ (Reads reader) chunks xs)
include each

/-- Each value is read from its own bytes, which stand one after the other. -/
lemma Reads.manyFrom (found : Array α) :
    Reads (manyFrom reader xs.length found) chunks.flatten
      (found.toList ++ xs) := by
  induction each generalizing found with
  | nil =>
    simpa [ByteReader.manyFrom] using Reads.pure found.toList
  | @cons bytes value chunks xs first _ ih =>
    have tail := ih (found.push value)
    rw [Array.toList_push, append_assoc] at tail
    exact first.bind tail

lemma Reads.many :
    Reads (many xs.length reader) chunks.flatten xs := by
  simpa [ByteReader.many] using Reads.manyFrom each #[]

lemma Reads.list16 (fits : xs.length ≤ 0xffff) :
    Reads (list16 reader) (bytes16 (UInt16.ofNat xs.length) ++ chunks.flatten)
      xs := by
  apply (Reads.u16 _).bind
  rw [UInt16.toNat_ofNat_of_lt' (Nat.lt_succ_of_le fits)]
  exact Reads.many each

lemma Reads.list8 (fits : xs.length ≤ 0xff) :
    Reads (list8 reader) ([UInt8.ofNat xs.length] ++ chunks.flatten) xs := by
  apply (Reads.u8 _).bind
  rw [UInt8.toNat_ofNat_of_lt' (Nat.lt_succ_of_le fits)]
  exact Reads.many each

end

end Lists

section Sizes

variable {bytes : List UInt8} {value : Nat}

lemma size8_ok (written : size8 value = .ok bytes) :
    value ≤ 0xff ∧ bytes = [UInt8.ofNat value] := by
  unfold size8 at written
  split at written
  · exact ⟨‹_›, (Except.ok.inj written).symm⟩
  · contradiction

lemma size16_ok (written : size16 value = .ok bytes) :
    value ≤ 0xffff ∧ bytes = bytes16 (UInt16.ofNat value) := by
  unfold size16 at written
  split at written
  · exact ⟨‹_›, (Except.ok.inj written).symm⟩
  · contradiction

lemma size32_ok (written : size32 value = .ok bytes) :
    value ≤ 0xffffffff ∧ bytes = bytes32 (UInt32.ofNat value) := by
  unfold size32 at written
  split at written
  · exact ⟨‹_›, (Except.ok.inj written).symm⟩
  · contradiction

end Sizes

end JvmAsm.Binary
