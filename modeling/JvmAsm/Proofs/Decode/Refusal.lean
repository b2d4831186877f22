/- Says how the parts of a class are refused. -/
import JvmAsm.Decode.Class
import JvmAsm.Proofs.Binary
import JvmAsm.Proofs.Failure

namespace JvmAsm

open Binary

variable {α β : Type}

namespace PoolTable

variable {table : PoolTable} {boots : Bootstrap} {index : UInt16} {result : Result α}

instance (cause : BinaryCause) : Plain (refuse cause : Result α) := .error

instance [Plain result] : Plain (gettingEntry index result) :=
  inferInstanceAs (Plain (result.mapError _))

instance [Plain result] : Plain (optional index result) := by
  unfold optional
  infer_instance

instance : Plain (table.entry index) := by
  unfold entry
  split <;> infer_instance

instance : Plain (table.javaString index) := .after fun entry => by
  cases entry <;> infer_instance

lemma plain_gettingEntry {next : α → Result β} [Plain result] (each : ∀ value, Plain (next value)) :
    Plain (gettingEntry index (result >>= next)) :=
  inferInstance

instance {kind : NameKind} {read? : String → Option α} {text : String} :
    Plain (checked kind read? text) := by
  unfold checked
  split <;> infer_instance

instance : Plain (table.text index) := plain_gettingEntry fun string => by
  split <;> infer_instance

instance : Plain (table.fieldType index) := .steps

instance : Plain (table.methodDescriptor index) := .steps

instance : Plain (table.fieldName index) := .steps

instance : Plain (table.methodName index) := .steps

instance : Plain (table.recordName index) := .steps

instance : Plain (table.string index) := .after fun entry => by
  cases entry <;> infer_instance

instance : Plain (table.className index) := plain_gettingEntry fun entry => by
  cases entry <;> infer_instance

instance {name : UInt16 → Result α} {descriptor : UInt16 → Result β} [∀ index, Plain (name index)]
    [∀ index, Plain (descriptor index)] : Plain (table.nameAndType name descriptor index) :=
  plain_gettingEntry fun entry => by cases entry <;> infer_instance

instance : Plain (table.fieldNameAndType index) := inferInstanceAs (Plain (table.nameAndType ..))

instance : Plain (table.methodNameAndType index) := inferInstanceAs (Plain (table.nameAndType ..))

instance : Plain (table.fieldRef index) := plain_gettingEntry fun entry => by
  cases entry <;> infer_instance

instance : Plain (table.anyMethodRef index) := plain_gettingEntry fun entry => by
  cases entry <;> infer_instance

instance : Plain (table.methodRef index) := .after fun found => by split <;> infer_instance

instance : Plain (table.interfaceMethodRef index) := .after fun found => by
  split <;> infer_instance

instance : Plain (table.integer index) := .after fun entry => by
  cases entry <;> infer_instance

instance : Plain (table.float index) := .after fun entry => by
  cases entry <;> infer_instance

instance : Plain (table.long index) := .after fun entry => by
  cases entry <;> infer_instance

instance : Plain (table.double index) := .after fun entry => by
  cases entry <;> infer_instance

instance : Plain (table.methodHandle index) := plain_gettingEntry fun entry => by
  cases entry with
  | methodHandle kind reference => dsimp only; split <;> infer_instance
  | _ => infer_instance

instance : Plain (table.methodType index) := .after fun entry => by
  cases entry <;> infer_instance

instance : Plain (bootstrapMethod boots index) := by
  unfold bootstrapMethod
  repeat' split
  all_goals infer_instance

instance {get : UInt16 → Result Loadable} [∀ index, Plain (get index)] {indices : List UInt16}
    {found : Array Loadable} : Plain (allOf get indices found) := by
  induction indices generalizing found with
  | nil => exact inferInstanceAs (Plain (.ok _))
  | cons index rest ih => exact .steps

instance {fuel : Nat} : Plain (table.loadableWithin boots fuel index) := by
  induction fuel generalizing index with
  | zero =>
    rw [loadableWithin]
    exact plain_gettingEntry fun entry => by cases entry <;> infer_instance
  | succ fuel ih =>
    rw [loadableWithin]
    exact plain_gettingEntry fun entry => by cases entry <;> infer_instance

instance : Plain (table.loadable boots index) := inferInstanceAs (Plain (table.loadableWithin ..))

instance : Plain (table.callSite boots index) := plain_gettingEntry fun entry => by
  cases entry <;> infer_instance

instance : Plain (table.constantValue index) := plain_gettingEntry fun entry => by
  cases entry <;> infer_instance

end PoolTable

namespace Binary.ByteReader

variable {width : Width} {reader : ByteReader α} {count : Nat}

/-- A reader of bytes may go anywhere, but it fails because the class is malformed. -/
instance : Conduct Cursor where
  Reaches _ _ := True
  refl _ := trivial
  trans _ _ := trivial
  Permits := Failure.IsMalformed
  plain := .inl

lemma advances_of_malformed
    (malformed : ∀ cursor failure stopped, reader cursor = .error failure stopped →
      failure.IsMalformed) : Advances reader := by
  refine ⟨fun cursor => ?_⟩
  cases ran : reader cursor with
  | ok value next => exact ⟨trivial, trivial⟩
  | error failure stopped => exact ⟨malformed _ _ _ ran, trivial⟩

instance (cause : BinaryCause) : Advances (fail cause : ByteReader α) := .throw (.inl rfl)

instance (cause : BinaryCause) [advances : Advances reader] : Advances (within cause reader) :=
  advances_of_malformed fun cursor failure stopped failed => by
    unfold within at failed
    split at failed
    · cases failed
    · next found =>
      cases failed
      exact Failure.IsMalformed.within (advances.fails found) _

lemma advances_ofResult {result : Except Failure α}
    (malformed : ∀ failure, result = .error failure → failure.IsMalformed) :
    Advances (ofResult result) := by
  cases result with
  | ok value => exact inferInstanceAs (Advances (pure value))
  | error failure => exact .throw (malformed failure rfl)

instance {result : Except Failure α} [plain : Plain result] : Advances (ofResult result) :=
  advances_ofResult fun failure failed => .inl (plain.kinds failure failed)

instance : Advances (bytes count) := advances_of_malformed fun cursor failure stopped failed => by
  unfold bytes at failed
  dsimp only at failed
  split at failed <;> cases failed
  exact .inl rfl

instance : Advances (skip count) := advances_of_malformed fun _ _ _ failed => nomatch failed

instance : Advances offset := advances_of_malformed fun _ _ _ failed => nomatch failed

instance : Advances (get : ByteReader Cursor) :=
  advances_of_malformed fun _ _ _ failed => nomatch failed

instance {cursor : Cursor} : Advances (set cursor : ByteReader PUnit) :=
  advances_of_malformed fun _ _ _ failed => nomatch failed

/-- A reader goes past bytes that are there, or the class is malformed. -/
class Walks (reader : ByteReader α) : Prop extends Advances reader where
  goes : ∀ cursor value next, reader cursor = .ok value next →
    ∃ count ≤ cursor.rest.length, next = cursor.skip count

namespace Walks

instance (value : α) : Walks (pure value : ByteReader α) :=
  ⟨fun cursor _ _ ran => ⟨0, Nat.zero_le _, by cases ran; exact cursor.skip_zero.symm⟩⟩

instance (cause : BinaryCause) : Walks (fail cause : ByteReader α) := ⟨fun _ _ _ ran => nomatch ran⟩

instance (cause cause' : Cause) :
    Walks (MonadExcept.throw ((Failure.ofCause cause).within cause') : ByteReader α) :=
  ⟨fun _ _ _ ran => nomatch ran⟩

instance steps {next : α → ByteReader β} [first : Walks reader] [second : ∀ value, Walks (next value)] :
    Walks (reader >>= next) where
  goes cursor value last ran := by
    obtain ⟨found, between, reached, ran⟩ := ran_parts ran
    obtain ⟨count, inside, rfl⟩ := first.goes _ _ _ reached
    obtain ⟨more, inside', rfl⟩ := (second found).goes _ _ _ ran
    rw [Cursor.skip_rest, List.length_drop] at inside'
    exact ⟨count + more, by omega, cursor.skip_skip count more⟩

lemma after {next : α → ByteReader β} [Walks reader] (each : ∀ value, Walks (next value)) :
    Walks (reader >>= next) :=
  inferInstance

instance {condition : Prop} [Decidable condition] {other : ByteReader α} [Walks reader]
    [Walks other] : Walks (if condition then reader else other) := by
  split <;> infer_instance

instance (cause : BinaryCause) [walks : Walks reader] : Walks (within cause reader) where
  goes cursor value next ran := by
    unfold within at ran
    split at ran <;> cases ran
    exact walks.goes _ _ _ ‹_›

instance {result : Except Failure α} [Plain result] : Walks (ofResult result) where
  goes cursor value next ran := by
    cases result with
    | ok found => exact (inferInstance : Walks (pure found)).goes _ _ _ ran
    | error failure => cases ran

instance [fixed : IsFixed count reader] : Walks reader where
  toAdvances := advances_of_malformed fun cursor failure stopped failed => by
    rcases fixed.result cursor with ⟨_, equal, _⟩ | ⟨_, equal⟩ <;> cases equal.symm.trans failed
    exact .inl rfl
  goes cursor value next ran := by
    rcases fixed.result cursor with ⟨_, equal, inside, _⟩ | ⟨_, equal⟩ <;>
      cases equal.symm.trans ran
    exact ⟨count, inside, rfl⟩

instance : Walks i16 := .steps

instance : Walks i32 := .steps

instance : Walks offset :=
  ⟨fun cursor _ _ ran => ⟨0, Nat.zero_le _, by cases ran; exact cursor.skip_zero.symm⟩⟩

instance [Walks reader] : Walks (many count reader) := by
  unfold many
  generalize #[] = found
  induction count generalizing found with
  | zero => exact inferInstanceAs (Walks (pure _))
  | succ count ih => exact .steps

instance [Walks reader] : Walks (discard reader) :=
  inferInstanceAs (Walks (reader >>= fun _ => pure _))

end Walks

end Binary.ByteReader

namespace Bytecode

open ByteReader

instance {length offset : Nat} : Plain (insideCode length offset) := by
  unfold insideCode
  infer_instance

instance {descriptor : MethodDescriptor} : Plain (argumentCount descriptor) := by
  unfold argumentCount
  dsimp only
  split
  · infer_instance
  · exact .error

instance {table : PoolTable} {boots : PoolTable.Bootstrap} {op : Op UInt16} :
    Plain (resolve table boots op) := by
  cases op with
  | lookupSwitch | newPrimitiveArray =>
    unfold resolve
    dsimp only
    split <;> infer_instance
  | _ =>
    unfold resolve
    infer_instance

variable {length start : Nat} {opcode : UInt8}

instance : Walks operand8 := inferInstanceAs (Walks (within _ (u8As _)))

instance : Walks operand16 := .steps

instance : Walks (target16 start) := .steps

instance : Walks (target32 start) := .steps

instance {reader : ByteReader UInt16} [Walks reader] : Walks (created length reader) := .steps

instance {low high : Int32} : Walks (tableSize low high) := by
  unfold tableSize
  infer_instance

instance : Walks pairCount := .steps

instance : Walks padding := inferInstanceAs (Walks (offset >>= _))

instance : Walks (tableSwitch (created length) start) := .steps

instance : Walks (lookupSwitch (created length) start) := .steps

instance : Walks wide := .after fun opcode => by
  repeat' split
  all_goals infer_instance

instance : Walks (singleOp (created length) start opcode) := by
  unfold singleOp
  split <;> infer_instance

lemma walks_of_localOp? {reader : ByteReader (Op UInt16)}
    (found : localOp? opcode = some reader) : Walks reader := by
  unfold localOp? at found
  split_ifs at found
  all_goals
    obtain ⟨kind, -, rfl⟩ := Option.map_eq_some_iff.mp found
    infer_instance

lemma walks_of_groupedOp? {reader : ByteReader (Op UInt16)}
    (found : groupedOp? (created length) start opcode = some reader) : Walks reader := by
  unfold groupedOp? at found
  split at found
  · cases found
    infer_instance
  · split at found
    · cases found
      infer_instance
    · split at found
      · cases found
        infer_instance
      · split at found
        · cases found
          infer_instance
        · exact walks_of_localOp? found

instance : Walks (opOf (created length) start opcode) := by
  unfold opOf
  cases found : groupedOp? (created length) start opcode with
  | none => exact (inferInstance : Walks (singleOp (created length) start opcode))
  | some reader => exact walks_of_groupedOp? found

instance : Walks (op (created length)) := inferInstanceAs (Walks (offset >>= _))

/-- Divides code that starts at the given offset of its class. -/
def ops (code : List UInt8) (codeStart : Nat) : Except Failure (List (Placed (Op UInt16))) :=
  walk (op (created code.length)) code codeStart

/-- The failure of an instruction is one at its offset. -/
lemma ops_malformed {code : List UInt8} {codeStart : Nat} {failure : Failure}
    (failed : ops code codeStart = .error failure) : failure.IsMalformed := by
  have loop (fuel : Nat) (found : Array (Placed (Op UInt16))) (cursor : Cursor)
      (failed : walkFrom (op (created code.length)) code.length codeStart fuel found cursor = .error failure) :
      failure.IsMalformed := by
    induction fuel generalizing found cursor with
    | zero => cases failed
    | succ fuel ih =>
      unfold walkFrom at failed
      split at failed
      · split at failed
        · exact ih _ _ failed
        · next stopped =>
          cases failed
          have advances : Advances (op (created code.length)) := inferInstance
          have malformed : Failure.IsMalformed _ := advances.fails stopped
          exact .inr ((malformed.within _).orKind _)
      · cases failed
  exact loop _ _ _ failed

end Bytecode

end JvmAsm
