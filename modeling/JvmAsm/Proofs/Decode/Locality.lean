/- Shows that reading depends on nothing but the bytes that are read. -/
import JvmAsm.Proofs.Decode.Positions
import JvmAsm.Proofs.Decode.Refusal
import JvmAsm.Proofs.RoundTrip.Binary

namespace JvmAsm

open Binary ByteReader Cursor
open List hiding Cursor.at

variable {α β γ σ τ : Type}
variable {following : α → ByteReader β} {value : α} {outline : α → Outline} {target : ByteReader τ}
variable {failure : Failure} {result : Except Failure α} {cursor : Cursor}

lemma ran_within_iff {cause : BinaryCause} {reader : ByteReader α} {next : Cursor} :
    within cause reader cursor = .ok value next ↔
      reader cursor = .ok value next := by
  unfold within
  split
  · next found => rw [found]
  · next found => simp [found]

/--
The cursor has gone past the given number of bytes. If these were all there, the reader takes them
and gives the value wherever they stand.
-/
def Passes (reader : ByteReader α) (count : Nat) (cursor : Cursor) (value : α) (next : Cursor) :
    Prop :=
  next = cursor.skip count ∧
    (count ≤ cursor.rest.length → Reads reader (cursor.rest.take count) value)

lemma Passes.bind {reader : ByteReader α} {count more : Nat} {between last : Cursor} {result : β}
    (first : Passes reader count cursor value between)
    (second : Passes (following value) more between result last) :
    Passes (reader >>= following) (count + more) cursor result last := by
  obtain ⟨rfl, reads⟩ := first
  obtain ⟨rfl, reads'⟩ := second
  refine ⟨cursor.skip_skip count more, fun inside => ?_⟩
  rw [take_add]
  refine (reads (by omega)).bind (reads' ?_)
  rw [skip_rest, length_drop]
  omega

/--
What the first reader gives, the second one gives for the same bytes wherever they stand. If it
fails, the class is malformed.
-/
class Relocates (reader other : ByteReader α) : Prop where
  advances : Advances reader
  passes : ∀ cursor value next, reader cursor = .ok value next →
    ∃ count, Passes other count cursor value next

/-- As before, and the bytes are always of the given number. -/
class Occupies (count : Nat) (reader other : ByteReader α) : Prop where
  advances : Advances reader
  passes : ∀ cursor value next, reader cursor = .ok value next →
    Passes other count cursor value next

/-- The reader gives the same wherever it is used. -/
abbrev IsLocal (reader : ByteReader α) : Prop := Relocates reader reader

namespace Occupies

variable {count : Nat} {reader other : ByteReader α}

lemma relocates (count : Nat) [occupies : Occupies count reader other] :
    Relocates reader other where
  advances := occupies.advances
  passes cursor value next ran := ⟨count, occupies.passes cursor value next ran⟩

lemma next_eq (count : Nat) [occupies : Occupies count reader reader] {next : Cursor}
    (ran : reader cursor = .ok value next) : next = cursor.skip count :=
  (occupies.passes _ _ _ ran).1

instance (value : α) : Occupies 0 (pure value) (pure value) where
  advances := inferInstance
  passes := by
    rintro cursor value next ⟨⟩
    exact ⟨cursor.skip_zero.symm, fun _ => Reads.pure value⟩

lemma throw (malformed : failure.IsMalformed) :
    Occupies count (MonadExceptOf.throw failure) other where
  advances := .throw malformed
  passes := by rintro cursor value next ⟨⟩

instance (cause : BinaryCause) : Occupies count (fail cause) other := throw (.inl rfl)

instance steps {following' : α → ByteReader β} [first : Occupies count reader other]
    [second : ∀ value, Occupies 0 (following value) (following' value)] :
    Occupies count (reader >>= following) (other >>= following') where
  advances := @Advances.after _ _ _ _ _ _ first.advances fun value => (second value).advances
  passes cursor result last ran := by
    obtain ⟨value, between, reached, ran⟩ := ran_parts ran
    exact (first.passes _ _ _ reached).bind ((second value).passes _ _ _ ran)

instance {condition : Prop} [Decidable condition] {reader' other' : ByteReader α}
    [Occupies count reader other] [Occupies count reader' other'] :
    Occupies count (if condition then reader else reader')
      (if condition then other else other') := by
  split <;> infer_instance

instance (cause : BinaryCause) [occupies : Occupies count reader other] :
    Occupies count (within cause reader) (within cause other) where
  advances :=
    have := occupies.advances
    inferInstance
  passes cursor value next ran := by
    obtain ⟨passed, reads⟩ := occupies.passes _ _ _ (ran_within_iff.mp ran)
    exact ⟨passed, fun inside => (reads inside).within cause⟩

lemma ofResult {result' : Except Failure α} (entails : Entails result result')
    (malformed : ∀ failure, result = .error failure → failure.IsMalformed) :
    Occupies 0 (ofResult result) (ofResult result') := by
  cases result with
  | error failure => exact throw (malformed failure rfl)
  | ok value =>
    rw [entails value rfl]
    exact inferInstanceAs (Occupies 0 (pure value) (pure value))

instance [plain : Plain result] :
    Occupies 0 (ByteReader.ofResult result) (ByteReader.ofResult result) :=
  ofResult (.refl _) fun failure failed => .inl (plain.kinds failure failed)

end Occupies

namespace Relocates

variable {reader other : ByteReader α}

instance (value : α) : IsLocal (pure value) := Occupies.relocates 0

lemma throw (malformed : failure.IsMalformed) :
    Relocates (MonadExceptOf.throw failure) other :=
  @Occupies.relocates _ _ _ 0 (.throw malformed)

instance (cause : BinaryCause) : Relocates (fail cause) other := throw (.inl rfl)

instance steps {following' : α → ByteReader β} [first : Relocates reader other]
    [second : ∀ value, Relocates (following value) (following' value)] :
    Relocates (reader >>= following) (other >>= following') where
  advances := @Advances.after _ _ _ _ _ _ first.advances fun value => (second value).advances
  passes cursor result last ran := by
    obtain ⟨value, between, reached, ran⟩ := ran_parts ran
    obtain ⟨count, passes⟩ := first.passes _ _ _ reached
    obtain ⟨more, passes'⟩ := (second value).passes _ _ _ ran
    exact ⟨count + more, passes.bind passes'⟩

lemma after {following' : α → ByteReader β} [Relocates reader other]
    (second : ∀ value, Relocates (following value) (following' value)) :
    Relocates (reader >>= following) (other >>= following') :=
  inferInstance

lemma refusal {other : ByteReader β} (malformed : failure.IsMalformed) :
    Relocates ((MonadExceptOf.throw failure : ByteReader α) >>= following) other where
  advances := .refusal malformed
  passes := by rintro cursor value next ⟨⟩

instance {condition : Prop} [Decidable condition] {reader' other' : ByteReader α}
    [Relocates reader other] [Relocates reader' other'] :
    Relocates (if condition then reader else reader') (if condition then other else other') := by
  split <;> infer_instance

instance [Relocates reader other] : Relocates (discard reader) (discard other) :=
  inferInstanceAs (Relocates (reader >>= fun _ => pure _) (other >>= fun _ => pure _))

instance (cause : BinaryCause) [relocates : Relocates reader other] :
    Relocates (within cause reader) (within cause other) where
  advances :=
    have := relocates.advances
    inferInstance
  passes cursor value next ran := by
    obtain ⟨count, passed, reads⟩ := relocates.passes _ _ _ (ran_within_iff.mp ran)
    exact ⟨count, passed, fun inside => (reads inside).within cause⟩

instance [Plain result] : IsLocal (ByteReader.ofResult result) :=
  Occupies.relocates 0

/-- What follows does not depend on the offset. -/
lemma offset {following following' : Nat → ByteReader β}
    (each : ∀ place place', Relocates (following place) (following' place')) :
    Relocates (offset >>= following) (offset >>= following') where
  advances := .after fun place => (each place place).advances
  passes cursor value next ran := by
    obtain ⟨count, passed, -⟩ := (each cursor.offset 0).passes cursor value next ran
    refine ⟨count, passed, fun inside place => ?_⟩
    obtain ⟨count', passed', reads⟩ := (each cursor.offset place).passes cursor value next ran
    have same : count' = count := by
      have offsets := congrArg Cursor.offset (passed'.symm.trans passed)
      simpa using offsets
    subst same
    exact (ReadsAt.offset place).bind (reads inside place)

end Relocates

section Numbers

open ByteReader

variable {count : Nat} {reader other : ByteReader α}

instance [fixed : IsFixed count reader] : Occupies count reader reader where
  advances := inferInstance
  passes cursor value next ran := by
    rcases fixed.result cursor with ⟨_, equal, _, reads⟩ | ⟨_, equal⟩ <;> cases equal.symm.trans ran
    exact ⟨rfl, fun _ => reads⟩

instance [IsFixed count reader] : IsLocal reader := Occupies.relocates count

instance : Occupies count (bytes count) (bytes count) where
  advances := inferInstance
  passes cursor found next ran := by
    unfold bytes at ran
    dsimp only at ran
    split at ran
    · next enough =>
      cases ran
      have length : (cursor.rest.take count).length = count := by simpa using enough
      refine ⟨rfl, fun _ => ?_⟩
      have reads := Reads.bytes (cursor.rest.take count)
      rwa [length] at reads
    · contradiction

instance : Occupies count (skip count) (skip count) where
  advances := inferInstance
  passes cursor value next ran := by
    cases ran
    refine ⟨rfl, fun inside => ?_⟩
    have reads := Reads.skip (cursor.rest.take count)
    rwa [length_take_of_le inside] at reads

instance : IsLocal i32 := .steps

instance : IsLocal i64 := .steps

instance : IsLocal (bytes count) := Occupies.relocates count

instance : IsLocal (skip count) := Occupies.relocates count

variable [Relocates reader other]

instance : Relocates (many count reader) (many count other) := by
  unfold many
  generalize #[] = found
  induction count generalizing found with
  | zero => exact inferInstanceAs (IsLocal (pure _))
  | succ count ih => exact .steps

instance : Relocates (list16 reader) (list16 other) := .steps

instance : Relocates (list8 reader) (list8 other) := .steps

end Numbers

instance {entry : UInt16 → UInt16 → PoolEntry} : IsLocal (readPair entry) := .steps

instance {index : Nat} : IsLocal (readUtf8 index) := .after fun length => .after fun contents => by
  split
  · infer_instance
  · exact .throw (.inl rfl)

instance {index : Nat} : IsLocal (PoolEntry.read index) := .after fun tag => by
  split <;> infer_instance

instance {count fuel : Nat} {entries : Array (Option PoolEntry)} :
    IsLocal (PoolTable.readFrom count fuel entries) := by
  induction fuel generalizing entries with
  | zero => exact inferInstanceAs (IsLocal (pure _))
  | succ fuel ih =>
    rw [PoolTable.readFrom]
    infer_instance

instance : IsLocal PoolTable.read := .steps

namespace Decode

open ByteReader

variable {reader other : ByteReader α} {table : PoolTable} {name : String} {length : Nat}

/-- The contents of an attribute take up its length, which is checked. -/
instance [relocates : Relocates reader other] :
    Occupies length (contents name length reader) (contents name length other) where
  advances :=
    have := relocates.advances
    inferInstanceAs (Advances (offset >>= _))
  passes cursor value next ran := by
    obtain ⟨start, between, started, ran⟩ := ran_parts ran
    cases started
    obtain ⟨found, last, reached, ran⟩ := ran_parts ran
    obtain ⟨stop, last', stopped, ran⟩ := ran_parts ran
    cases stopped
    obtain ⟨count, rfl, reads⟩ := relocates.passes _ _ _ (ran_within_iff.mp reached)
    dsimp only at ran
    split at ran
    · cases ran
    · next same =>
      cases ran
      obtain rfl : count = length := by simpa using same
      refine ⟨rfl, fun inside => ?_⟩
      have whole := contents_reads name (reads inside)
      rwa [length_take_of_le inside] at whole

instance {given : Option α} :
    Occupies 0 (only name outline given value) (only name outline given value) := by
  unfold only
  split <;> infer_instance

instance {given : Option α} [Relocates reader other] :
    Occupies length (once name length outline given reader) (once name length outline given other) :=
  .steps

instance : Occupies length (raw name length) (raw name length) := .steps

section Entries

variable {get : UInt16 → Except Failure α} [∀ index, Plain (get index)]

instance : Occupies 2 (entry get) (entry get) := .steps

instance : IsLocal (entry get) := Occupies.relocates 2

instance : IsLocal (optionalEntry get) := .steps

end Entries

instance {step step' : σ → String → Nat → ByteReader σ} {initial : σ}
    [each : ∀ state name length, Occupies length (step state name length) (step' state name length)] :
    Relocates (attributes table step initial) (attributes table step' initial) := by
  have loop (left : Nat) (state : σ) :
      Relocates (attributesFrom table step left state) (attributesFrom table step' left state) := by
    induction left generalizing state with
    | zero => exact inferInstanceAs (IsLocal (pure _))
    | succ left ih =>
      have one name length := @Occupies.relocates _ _ _ length (each state name length)
      exact .steps
  exact .steps

section Annotations

instance {value : ByteReader ElementValue} [IsLocal value] : IsLocal (elements table value) :=
  inferInstanceAs (IsLocal (list16 _))

instance {text : String} : Plain (classLiteral text) := by
  unfold classLiteral
  split <;> infer_instance

instance {fuel : Nat} : IsLocal (elementValueWithin table fuel) := by
  induction fuel with
  | zero => exact inferInstanceAs (IsLocal (fail _))
  | succ fuel ih => exact .after fun tag => by split <;> infer_instance

instance : IsLocal (elementValue table) := inferInstanceAs (IsLocal (elementValueWithin table _))

instance : IsLocal (annotationBody table) := .steps

instance : IsLocal (annotationList table) := inferInstanceAs (IsLocal (list16 _))

instance {index : UInt8} {kind : PlainStep} {step : PathStep} :
    IsLocal (plainStep index kind step) := by
  unfold plainStep
  infer_instance

instance : IsLocal pathStep := .after fun kind => .after fun index => by
  split <;> infer_instance

instance [IsLocal target] : IsLocal (annotatedTypes table target) :=
  inferInstanceAs (IsLocal (list16 _))

instance : IsLocal classTarget := .after fun code => by split <;> infer_instance

instance : IsLocal fieldTarget := .after fun code => by split <;> infer_instance

instance : IsLocal methodTarget := .after fun code => by split <;> infer_instance

instance {outline : τ → Outline} {shared : Shared τ} [IsLocal target] :
    Occupies length (shared.step table target outline name length)
      (shared.step table target outline name length) := by
  unfold Shared.step
  split <;> infer_instance

end Annotations

section Codes

open Bytecode

/-- Where code stands in its class matters for failures only. -/
lemma ops_entails (code : List UInt8) (codeStart codeStart' : Nat) :
    Entails (ops code codeStart) (ops code codeStart') := by
  have loop (fuel : Nat) (found : Array (Placed (Op UInt16))) (cursor : Cursor) :
      Entails (walkFrom (op (created code.length)) code.length codeStart fuel found cursor)
        (walkFrom (op (created code.length)) code.length codeStart' fuel found cursor) := by
    induction fuel generalizing found cursor with
    | zero => exact .refl _
    | succ fuel ih =>
      rw [walkFrom, walkFrom]
      refine .ite ?_ (.refl _)
      split
      · exact ih _ _
      · exact .failure
  exact loop _ _ _

variable {size handlerCount : Nat}

instance {offset : UInt16} : Plain (labelInside size offset) := inferInstanceAs (Plain (.map ..))

instance {offset : UInt16} : Plain (labelUpTo size offset) := by
  unfold labelUpTo
  infer_instance

instance {start length : UInt16} : Plain (labelRange size start length) := by
  unfold labelRange
  infer_instance

instance : IsLocal (readLabel size) := .steps

instance : IsLocal (readRange size) := .steps

instance : IsLocal (exceptionHandler table size) := .steps

instance : IsLocal (lineNumber size) := .steps

instance : IsLocal (localVariable table size) := .steps

instance : IsLocal (localVariableType table size) := .steps

instance : IsLocal (codeTarget size handlerCount) := .after fun code => by
  repeat' split
  all_goals infer_instance

instance {tables : CodeTables} :
    Occupies length (tables.step table size handlerCount name length)
      (tables.step table size handlerCount name length) := by
  unfold CodeTables.step
  split <;> infer_instance

variable {boots : PoolTable.Bootstrap} {classStart classStart' : Nat}

instance :
    Relocates (readCode table boots classStart) (readCode table boots classStart') := by
  rw [readCode_eq, readCode_eq]
  refine .after fun maxStack => .after fun maxLocals => .after fun size => ?_
  dsimp only
  split
  · exact .refusal (.inl rfl)
  · refine .offset fun place place' => .after fun bytecode => ?_
    refine @Relocates.after _ _ _ _ _ _ (@Occupies.relocates _ _ _ 0
      (.ofResult (ops_entails bytecode _ _) fun _ => ops_malformed)) fun ops => ?_
    refine .after fun handlers => .after fun tables => ?_
    split
    · exact .refusal (.inr ⟨_, rfl⟩)
    · refine @Relocates.after _ _ _ _ _ _ (@Occupies.relocates _ _ _ 0
        (.ofResult (.mapM (fun placed => ?_) ops) fun failure failed => ?_)) fun _ => inferInstance
      · cases resolve table boots placed.op with
        | ok instruction => exact .refl _
        | error failure => exact .failure
      · obtain ⟨placed, -, failed⟩ := error_mapM failed
        have resolves : Plain (resolve table boots placed.op) := inferInstance
        cases refused : resolve table boots placed.op with
        | ok instruction =>
          rw [refused] at failed
          cases failed
        | error failure =>
          rw [refused] at failed
          cases failed
          have malformed : failure.IsMalformed := .inl (resolves.kinds _ refused)
          exact .inr ((malformed.within _).orKind _)

end Codes

section Members

instance {fieldName : UnqualifiedName} {type : FieldType} {draft : FieldDraft} :
    Occupies length (draft.step table fieldName type name length)
      (draft.step table fieldName type name length) := by
  unfold FieldDraft.step
  split <;> infer_instance

instance : IsLocal (readField table) := .steps

instance : IsLocal (methodParameter table) := .steps

variable {boots : PoolTable.Bootstrap} {classStart classStart' : Nat}

instance {methodName : MethodName} {descriptor : MethodDescriptor} {draft : MethodDraft} :
    Occupies length (draft.step table boots classStart methodName descriptor name length)
      (draft.step table boots classStart' methodName descriptor name length) := by
  unfold MethodDraft.step
  split <;> infer_instance

instance :
    Relocates (readMethod table boots classStart) (readMethod table boots classStart') :=
  .steps

instance {owner : ClassName} : Relocates (members table boots classStart owner)
    (members table boots classStart' owner) := .steps

instance : IsLocal (recordComponent table) := .steps

instance : IsLocal (innerClass table) := .steps

instance : IsLocal (Decode.enclosingMethod table) := .steps

instance : IsLocal (bootstrapMethod table) := .steps

instance {draft : ClassDraft} :
    Occupies length (draft.step table name length) (draft.step table name length) := by
  unfold ClassDraft.step
  split <;> infer_instance

end Members

section Skipping

/-- Where both readers succeed, they stop at the same place. -/
def Aligns (first : ByteReader α) (second : ByteReader β) : Prop :=
  ∀ cursor value next value' next', first cursor = .ok value next → second cursor = .ok value' next' →
    next = next'

namespace Aligns

variable {first : ByteReader α} {second : ByteReader β}

lemma pure {value' : β} : Aligns (Pure.pure value) (Pure.pure value') := by
  rintro cursor _ next _ next' ⟨⟩ ⟨⟩
  rfl

/-- What follows may do with values what it likes. -/
lemma bind {following : α → ByteReader γ} {following' : β → ByteReader σ}
    (aligns : Aligns first second)
    (each : ∀ value value', Aligns (following value) (following' value')) :
    Aligns (first >>= following) (second >>= following') := by
  intro cursor value next value' next' ran ran'
  obtain ⟨found, between, reached, ran⟩ := ran_parts ran
  obtain ⟨found', between', reached', ran'⟩ := ran_parts ran'
  obtain rfl := aligns _ _ _ _ _ reached reached'
  exact each found found' _ _ _ _ _ ran ran'

/-- Both start with the same. -/
lemma after {following' : α → ByteReader γ}
    (each : ∀ value, Aligns (following value) (following' value)) :
    Aligns (first >>= following) (first >>= following') := by
  intro cursor value next value' next' ran ran'
  obtain ⟨found, between, reached, ran⟩ := ran_parts ran
  obtain ⟨found', between', reached', ran'⟩ := ran_parts ran'
  rw [reached] at reached'
  cases reached'
  exact each found between value next value' next' ran ran'

section

variable (aligns : Aligns first second)
include aligns

lemma discard : Aligns (discard first) second := by
  intro cursor value next value' next' ran ran'
  obtain ⟨found, between, reached, ran⟩ := ran_parts ran
  cases ran
  exact aligns _ _ _ _ _ reached ran'

/-- Something is made of the value. -/
lemma made (make : β → γ) :
    Aligns first (do return make (← second)) := by
  intro cursor value next value' next' ran ran'
  obtain ⟨found, between, reached, ran'⟩ := ran_parts ran'
  cases ran'
  exact aligns _ _ _ _ _ ran reached

lemma within (cause : BinaryCause) :
    Aligns first (within cause second) :=
  fun _ _ _ _ _ ran ran' => aligns _ _ _ _ _ ran (ran_within_iff.mp ran')

lemma manyFrom (count : Nat) (found : Array α)
    (found' : Array β) :
    Aligns (manyFrom first count found) (manyFrom second count found') := by
  induction count generalizing found found' with
  | zero => exact pure
  | succ count ih => exact aligns.bind fun _ _ => ih _ _

lemma list16 :
    Aligns (list16 first) (list16 second) :=
  after fun _ => aligns.manyFrom _ _ _

end

end Aligns

/-- Attributes are skipped by their lengths, which they take up when they are read. -/
lemma skipAttributes_aligns {step : σ → String → Nat → ByteReader σ} {initial : σ}
    [each : ∀ state name length, Occupies length (step state name length) (step state name length)] :
    Aligns skipAttributes (attributes table step initial) := by
  have loop (left : Nat) (found : Array Unit) (state : σ) :
      Aligns (ByteReader.manyFrom (do discard u16; skip (← u32).toNat) left found)
        (attributesFrom table step left state) := by
    induction left generalizing found state with
    | zero => exact .pure
    | succ left ih =>
      intro cursor value next value' next' ran ran'
      obtain ⟨_, _, skipped, ran⟩ := ran_parts ran
      obtain ⟨_, _, dropped, skipped⟩ := ran_parts skipped
      obtain ⟨index, _, indexed, dropped⟩ := ran_parts dropped
      cases dropped
      obtain ⟨size, sized, measured, skipped⟩ := ran_parts skipped
      cases skipped
      obtain ⟨index', _, indexed', ran'⟩ := ran_parts ran'
      obtain ⟨name, _, named, ran'⟩ := ran_parts ran'
      obtain ⟨size', _, measured', ran'⟩ := ran_parts ran'
      obtain ⟨state', stepped, took, ran'⟩ := ran_parts ran'
      cases indexed.symm.trans indexed'
      obtain rfl := Occupies.next_eq 0 named
      rw [skip_zero] at measured'
      cases measured.symm.trans measured'
      obtain rfl := Occupies.next_eq size.toNat took
      exact ih _ _ _ _ _ _ _ ran ran'
  exact .discard (.after fun count => loop _ _ _)

/-- The flags, the name and the descriptor of a member take six bytes. -/
lemma skipMember_aligns {reader : UInt16 → α → β → ByteReader γ}
    {getName : UInt16 → Except Failure α} {getType : UInt16 → Except Failure β}
    [∀ index, Plain (getName index)] [∀ index, Plain (getType index)]
    (each : ∀ access name type, Aligns skipAttributes (reader access name type)) :
    Aligns (do skip 6; skipAttributes) (do
      let access ← u16
      let name ← entry getName
      let type ← entry getType
      reader access name type) := by
  intro cursor value next value' next' ran ran'
  obtain ⟨_, _, skipped, ran⟩ := ran_parts ran
  cases skipped
  obtain ⟨access, _, flagged, ran'⟩ := ran_parts ran'
  obtain ⟨name, _, named, ran'⟩ := ran_parts ran'
  obtain ⟨type, _, typed, ran'⟩ := ran_parts ran'
  obtain rfl := Occupies.next_eq 2 flagged
  obtain rfl := Occupies.next_eq 2 named
  obtain rfl := Occupies.next_eq 2 typed
  rw [skip_skip, skip_skip] at ran'
  exact each access name type _ _ _ _ _ ran ran'

/-- Members stop where they were skipped to. -/
lemma skipMembers_aligns {boots : PoolTable.Bootstrap} {classStart : Nat} {owner : ClassName} :
    Aligns (do skipMembers; skipMembers) (members table boots classStart owner) := by
  have field : Aligns (do skip 6; skipAttributes) (readField table) :=
    skipMember_aligns fun _ _ _ => skipAttributes_aligns.made _
  have method : Aligns (do skip 6; skipAttributes) (readMethod table boots classStart) :=
    skipMember_aligns fun _ _ _ => skipAttributes_aligns.made _
  exact (field.within _).list16.discard.bind fun _ _ => (method.within _).list16.discard.made _

instance : IsLocal skipAttributes := inferInstanceAs (IsLocal (discard _))

instance : IsLocal skipMembers := inferInstanceAs (IsLocal (discard _))

/--
A reader goes past some bytes, reads what follows them, and only then goes back and reads them too.
It has read them all if it stops there where it went past them to.
-/
lemma revisit_relocates {skips : ByteReader Unit} {ahead : ByteReader α}
    {back back' : α → ByteReader β} {make : α → β → γ} [skipping : IsLocal skips]
    [reading : IsLocal ahead] [revisiting : ∀ value, Relocates (back value) (back' value)]
    (aligns : ∀ value, Aligns (do skips; skips) (back value)) :
    Relocates
      (do
        let start ← get
        skips
        skips
        let value ← ahead
        let stop ← get
        set start
        let skipped ← back value
        set stop
        return make value skipped)
      (do
        let start ← get
        skips
        skips
        let value ← ahead
        let stop ← get
        set start
        let skipped ← back' value
        set stop
        return make value skipped) where
  advances := by
    have skips := skipping.advances
    have ahead := reading.advances
    have back value := (revisiting value).advances
    infer_instance
  passes start result next ran := by
    obtain ⟨_, _, got, ran⟩ := ran_parts ran
    cases got
    obtain ⟨_, middle, skipped, ran⟩ := ran_parts ran
    obtain ⟨_, later, skipped', ran⟩ := ran_parts ran
    obtain ⟨value, stop, read, ran⟩ := ran_parts ran
    obtain ⟨_, _, got, ran⟩ := ran_parts ran
    cases got
    obtain ⟨_, _, went, ran⟩ := ran_parts ran
    cases went
    obtain ⟨given, reached, visited, ran⟩ := ran_parts ran
    obtain ⟨_, _, went, ran⟩ := ran_parts ran
    cases went
    cases ran
    have both : IsLocal (do skips; skips) := inferInstance
    obtain ⟨count, rfl, reads⟩ := both.passes start () later
      (ran_bind skipped skipped')
    obtain ⟨more, rfl, reads'⟩ := reading.passes _ _ _ read
    obtain ⟨count', rfl, reads''⟩ := (revisiting value).passes _ _ _ visited
    obtain rfl : count = count' := by
      have same := aligns value _ _ _ _ _ (ran_bind skipped skipped') visited
      simpa using congrArg Cursor.offset same
    refine ⟨count + more, start.skip_skip count more, fun inside place cursor rest stands equal => ?_⟩
    rw [take_add, append_assoc] at equal
    have taken : (start.rest.take count).length = count := length_take_of_le (by omega)
    have taken' : ((start.rest.drop count).take more).length = more :=
      length_take_of_le (by rw [length_drop]; omega)
    have went := reads (by omega) place cursor _ stands equal
    have read' := reads' (by rw [skip_rest, length_drop]; omega) _ (cursor.skip count) rest
      rfl (by rw [skip_rest, equal, drop_left' taken, skip_rest])
    have visited' := reads'' (by omega) place cursor _ stands equal
    rw [taken] at went visited'
    rw [skip_rest, taken'] at read'
    obtain ⟨_, middle', went, went'⟩ := ran_parts went
    rw [length_take_of_le inside, ← skip_skip]
    exact ran_bind rfl (ran_bind went (ran_bind went' (ran_bind read' (ran_bind rfl (ran_bind rfl
      (ran_bind visited' (ran_bind rfl rfl)))))))

instance : IsLocal classBody := by
  refine .offset fun classStart classStart' => .after fun found => ?_
  dsimp only
  split
  · exact .refusal (.inl rfl)
  · refine .after fun minor => .after fun major => ?_
    split
    · exact .refusal (.inl rfl)
    · exact .after fun table => .after fun access => .after fun name => .after fun superClass =>
        .after fun interfaces => revisit_relocates fun _ => skipMembers_aligns

end Skipping

end Decode

/--
A class that takes up all of some bytes is read from them wherever they stand and whatever surrounds
them, and reading stops right behind them.
-/
theorem readClass_surrounded {bytes : List UInt8} {value : ClassFile}
    (decoded : decode bytes = .ok value) (before after : List UInt8) :
    readClass (Cursor.at (before ++ bytes ++ after) before.length) =
      .ok (value, Cursor.at (before ++ bytes ++ after) (before.length + bytes.length)) := by
  obtain ⟨⟨found, next⟩, read, checked⟩ := ok_parts decoded
  dsimp only at checked
  split at checked
  · cases checked
  · next stopped =>
    cases checked
    unfold readClass at read
    split at read
    · next ran =>
      cases read
      have body : IsLocal Decode.classBody := inferInstance
      obtain ⟨count, rfl, reads⟩ := body.passes _ _ _ ran
      obtain rfl : count = bytes.length := by simpa [Cursor.at] using stopped
      have taken := reads (by simp [Cursor.at]) _ (Cursor.at (before ++ bytes ++ after) before.length)
        after rfl (by simp [Cursor.at])
      rw [readClass, taken]
      simp [Cursor.at, Cursor.skip, drop_append]
    · cases read

/-- The second one of three classes that stand one after the other is read by itself. -/
theorem readClass_surrounded_idleBytes :
    decode idleBytes = .ok (.idle (some 0)) ∧
      readClass (Cursor.at (idleBytes ++ idleBytes ++ idleBytes) idleBytes.length) =
        .ok (.idle (some 0), Cursor.at (idleBytes ++ idleBytes ++ idleBytes)
          (idleBytes.length + idleBytes.length)) :=
  ⟨decode_idleBytes, readClass_surrounded decode_idleBytes idleBytes idleBytes⟩

lemma readClass_malformed (failed : readClass cursor = .error failure) :
    ∃ offset, failure.kinds = [.malformedClass offset] := by
  unfold readClass at failed
  split at failed
  · cases failed
  · next refused =>
    cases failed
    have body : IsLocal Decode.classBody := inferInstance
    exact (body.advances.fails refused).orKind _

/--
Bytes are decoded, or else the only kind of the failure is that of a malformed class. Every label
that decoded code uses is bound, on an instruction or at the end of the code. The code is in
canonical form already, and there are enough numbers for its labels.
-/
theorem decode_ok_or_malformed (bytes : List UInt8) :
    (∃ value, decode bytes = .ok value ∧ ∀ method ∈ value.methods, ∀ code, method.code = some code →
        code.canonical = .ok code ∧ (code.usedPositions code.positions).length ≤ 0x10000 ∧
          ∀ label ∈ code.references, (∃ entry ∈ code.instructions, entry.label = some label) ∨
              code.lastLabel = some label) ∨
      ∃ failure offset, decode bytes = .error failure ∧
        failure.kinds = [.malformedClass offset] := by
  cases decoded : decode bytes with
  | ok value =>
    refine .inl ⟨value, rfl, fun method mem code given => ?_⟩
    have canonical := (((decode_isRead decoded).2.methods method mem).code code given).canonical
    refine ⟨canonical.canonical_eq, Code.usedPositions_length, fun label uses => ?_⟩
    obtain ⟨pos, found⟩ := canonical.bound label uses
    rcases Code.mem_bindings.mp (canonical.once.positions_iff.mp found) with
      ⟨entry, present, bound⟩ | ⟨bound, -⟩
    · exact .inl ⟨entry, mem_of_getElem? present, bound⟩
    · exact .inr bound
  | error failure =>
    refine .inr ⟨failure, ?_⟩
    rcases error_bind_iff.mp decoded with refused | ⟨⟨value, next⟩, -, trailing⟩
    · obtain ⟨offset, kinds⟩ := readClass_malformed refused
      exact ⟨offset, rfl, kinds⟩
    · dsimp only at trailing
      split at trailing
      · cases trailing
        exact ⟨_, rfl, rfl⟩
      · cases trailing

/-- A class with a method whose code has a table of frames that goes far beyond the end. -/
def strayBytes : List UInt8 :=
  [0xca, 0xfe, 0xba, 0xbe, 0, 0, 0, 52, 0, 7, 1, 0, 1, 65, 7, 0, 1, 1, 0, 1, 102, 1, 0, 3, 40, 41,
    86, 1, 0, 4, 67, 111, 100, 101, 1, 0, 13, 83, 116, 97, 99, 107, 77, 97, 112, 84, 97, 98, 108,
    101, 0, 0, 0, 2, 0, 0, 0, 0, 0, 0, 0, 1, 0, 8, 0, 3, 0, 4, 0, 1, 0, 5, 0, 0, 0, 19, 0, 0, 0, 0,
    0, 0, 0, 1, 0xb1, 0, 0, 0, 1, 0, 6, 0xff, 0xff, 0xff, 0xff, 0, 0]

lemma strayBytes_kinds : (match decode strayBytes with
    | .error failure => failure.kinds
    | .ok _ => []) = [.malformedClass 4294967390] := by decide +kernel

/-- The table is skipped, so that reading fails at an offset at which there is no byte. -/
theorem decode_fails_beyond_strayBytes : ∃ failure, decode strayBytes = .error failure ∧
    failure.kinds = [.malformedClass 4294967390] ∧ strayBytes.length = 97 := by
  have kinds := strayBytes_kinds
  split at kinds
  · next failure failed => exact ⟨failure, failed, kinds, rfl⟩
  · cases kinds

end JvmAsm
