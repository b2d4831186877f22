/-
Says what interning gives: the index of a constant refers to that constant, in the pool and in all
pools that it grows into.
-/
import JvmAsm.Proofs.Descriptor
import JvmAsm.Proofs.JavaString
import JvmAsm.Proofs.Pool.Growth
import JvmAsm.Proofs.Result

namespace JvmAsm

open PoolTable UInt16

variable {α β σ : Type}
variable {action : EStateM Failure σ α} {after : α → PoolBuilder → Prop} {name : UnqualifiedName}
variable {descriptor : MethodDescriptor}

/-- States that have a constant pool. -/
class HasPool (σ : Type) where
  pool : σ → PoolBuilder

instance : HasPool PoolBuilder := ⟨id⟩

open HasPool (pool)

/--
An action keeps pools well-formed and lets them grow. What is known before and after it holds for
all pools that the pool grows into.
-/
def Yields [HasPool σ] (before : PoolBuilder → Prop) (action : EStateM Failure σ α)
    (after : α → PoolBuilder → Prop) : Prop :=
  ∀ state value state', (pool state).WellFormed →
    (∀ later, (pool state).Extends later → before later) → action state = .ok value state' →
    (pool state').WellFormed ∧ (pool state).Extends (pool state') ∧
      ∀ later, (pool state').Extends later → after value later

namespace Yields

variable [HasPool σ] {before : PoolBuilder → Prop} {after' : α → PoolBuilder → Prop}

lemma pure {value : α} (holds : ∀ pool, before pool → after value pool) :
    Yields before (Pure.pure value : EStateM Failure σ α) after := by
  intro state value' state' wf known ran
  cases ran
  exact ⟨wf, .refl _, fun later grown => holds later (known later grown)⟩

lemma bind {next : α → EStateM Failure σ β} {middle : α → PoolBuilder → Prop}
    {after : β → PoolBuilder → Prop} (first : Yields before action middle)
    (second : ∀ value, Yields (fun pool => before pool ∧ middle value pool) (next value) after) :
    Yields before (action >>= next) after := by
  intro state value state' wf known ran
  obtain ⟨found, between, reached, ran⟩ := ran_parts ran
  obtain ⟨wf', grown, knownMiddle⟩ := first _ _ _ wf known reached
  obtain ⟨wf'', grown', knownAfter⟩ := second found _ _ _ wf'
    (fun later more => ⟨known later (grown.trans more), knownMiddle later more⟩) ran
  exact ⟨wf'', grown.trans grown', knownAfter⟩

lemma ran {state state' : σ} {value : α} (yields : Yields (fun _ => True) action after)
    (wf : (pool state).WellFormed) (ran : action state = .ok value state') :
    (pool state').WellFormed ∧ (pool state).Extends (pool state') ∧
      ∀ later, (pool state').Extends later → after value later :=
  yields _ _ _ wf (fun _ _ => trivial) ran

/-- Less may be asked for after an action. -/
lemma weaken (yields : Yields before action after')
    (implies : ∀ value pool, before pool → after' value pool → after value pool) :
    Yields before action after := by
  intro state value state' wf known ran
  obtain ⟨wf', grown, knownAfter⟩ := yields _ _ _ wf known ran
  exact ⟨wf', grown, fun later more =>
    implies value later (known later (grown.trans more)) (knownAfter later more)⟩

lemma strengthen {before' : PoolBuilder → Prop} (yields : Yields before' action after)
    (implies : ∀ pool, before pool → before' pool) : Yields before action after :=
  fun _ _ _ wf known ran =>
    yields _ _ _ wf (fun later more => implies later (known later more)) ran

lemma and (yields : Yields before action after) (yields' : Yields before action after') :
    Yields before action fun value pool => after value pool ∧ after' value pool := by
  intro state value state' wf known ran
  obtain ⟨wf', grown, first⟩ := yields _ _ _ wf known ran
  obtain ⟨_, _, second⟩ := yields' _ _ _ wf known ran
  exact ⟨wf', grown, fun later more => ⟨first later more, second later more⟩⟩

/-- What does not depend on the pool may be used as soon as it is known. -/
lemma assuming {fact : Prop} (holds : ∀ pool, before pool → fact)
    (yields : fact → Yields before action after) : Yields before action after :=
  fun state value state' wf known ran =>
    yields (holds _ (known _ (.refl _))) state value state' wf known ran

lemma ofRun {fact : α → Prop} (yields : Yields before action after)
    (runs : ∀ state value state', action state = .ok value state' → fact value) :
    Yields before action fun value _ => fact value := by
  intro state value state' wf known ran
  obtain ⟨wf', grown, _⟩ := yields state value state' wf known ran
  exact ⟨wf', grown, fun _ _ => runs state value state' ran⟩

lemma throw {failure : Failure} {after : α → PoolBuilder → Prop} :
    Yields before (MonadExceptOf.throw failure : EStateM Failure σ α) after := by
  intro state value state' _ _ ran
  cases ran

/-- An action that fails if a condition holds goes on if it does not. -/
lemma refusing {condition : Prop} [Decidable condition] {failing next : EStateM Failure σ α}
    (fails : ∀ state value state', failing state ≠ .ok value state')
    (goesOn : ¬condition → Yields before next after) :
    Yields before (if condition then failing else next) after := by
  split
  · exact fun state value state' _ _ ran => absurd ran (fails state value state')
  · exact goesOn ‹_›

end Yields

namespace PoolBuilder

variable {before : PoolBuilder → Prop} {pool : PoolBuilder} {entry : PoolEntry}

/-- The index is that of a constant, which every table of the pool gives. -/
def Refers (pool : PoolBuilder) (get : PoolTable → UInt16 → Except Failure α) (index : UInt16)
    (value : α) : Prop :=
  index ≠ 0 ∧ ∀ table : PoolTable, table.Has pool → get table index = .ok value

lemma Holds.ne_zero {index : UInt16} (holds : pool.Holds index.toNat entry) :
    index ≠ 0 := by
  rintro rfl
  exact absurd holds.positive (by decide)

lemma put_yields (entry : PoolEntry) :
    Yields before (put entry) fun index pool => pool.Holds index.toNat entry := by
  intro state index state' wf _ ran
  change state.WellFormed at wf
  change state'.WellFormed ∧ state.Extends state' ∧ ∀ later, state'.Extends later → _
  unfold put at ran
  split at ran
  · next got =>
    cases ran
    exact ⟨wf, .refl _, fun later grown =>
      ((wf.indices entry _).mp got).mono grown⟩
  · next new =>
    split at ran
    · next room =>
      cases ran
      have positive := entry.size_cases
      have next : (ofNat state.count).toNat = state.count :=
        toNat_ofNat_of_lt' (show state.count < 0x10000 by omega)
      have holds : (state.pushed entry).Holds (ofNat state.count).toNat entry :=
        (pushed_holds wf entry _ entry).mpr (.inr ⟨rfl, next⟩)
      exact ⟨pushed_wellFormed wf entry new room, state.pushed_extends entry,
        fun later grown => holds.mono grown⟩
    · contradiction

lemma putBootstrap_yields (handle : Handle) (entry : BootstrapEntry)
    (named : ∀ pool, before pool → pool.NamesHandle entry.handle handle) :
    Yields before (putBootstrap handle entry) fun index pool =>
      pool.bootstrapMethods.toList[index.toNat]? = some entry := by
  intro state index state' wf known ran
  change state.WellFormed at wf
  change state'.WellFormed ∧ state.Extends state' ∧ ∀ later, state'.Extends later → _
  unfold putBootstrap at ran
  split at ran
  · next got =>
    cases ran
    exact ⟨wf, .refl _, fun later grown =>
      grown.bootstrapMethod ((wf.bootstrapIndices entry _).mp got)⟩
  · next new =>
    split at ran
    · next room =>
      cases ran
      have next : (ofNat state.bootstrapMethods.size).toNat = state.bootstrapMethods.size :=
        toNat_ofNat_of_lt' (show state.bootstrapMethods.size < 0x10000 by omega)
      refine ⟨pushedBootstrap_wellFormed wf entry new room (named _ (known _ (.refl _))),
        state.pushedBootstrap_extends entry, fun later grown => grown.bootstrapMethod ?_⟩
      rw [next]
      simp
    · contradiction

section Getters

variable {pool : PoolBuilder} {index : UInt16}

lemma Holds.refers {get : PoolTable → UInt16 → Except Failure α} {value : α}
    (holds : pool.Holds index.toNat entry)
    (found : ∀ table : PoolTable, table.Has pool → table.entry index = .ok entry →
      get table index = .ok value) : pool.Refers get index value :=
  ⟨holds.ne_zero, fun table has => found table has (has.entry holds)⟩

lemma Holds.javaString {string : JavaString} (holds : pool.Holds index.toNat (.utf8 string)) :
    pool.Refers javaString index string :=
  holds.refers fun table _ found => by
    simp [PoolTable.javaString, found]

lemma Holds.text {text : String} (holds : pool.Holds index.toNat (.utf8 (.ofString text))) :
    pool.Refers PoolTable.text index text :=
  holds.refers fun table has _ => by
    have string := holds.javaString.2 table has
    simp [PoolTable.text, PoolTable.gettingEntry, string]

lemma Refers.fieldType {type : FieldType} (refers : pool.Refers text index type.text) :
    pool.Refers fieldType index type :=
  ⟨refers.1, fun table has => by
    simp [PoolTable.fieldType, PoolTable.checked, refers.2 table has]⟩

lemma Refers.methodDescriptor (refers : pool.Refers text index descriptor.text) :
    pool.Refers methodDescriptor index descriptor :=
  ⟨refers.1, fun table has => by
    simp [PoolTable.methodDescriptor, PoolTable.checked, refers.2 table has]⟩

lemma Refers.fieldName (refers : pool.Refers text index name.text) :
    pool.Refers fieldName index name :=
  ⟨refers.1, fun table has => by
    simp [PoolTable.fieldName, PoolTable.checked, refers.2 table has]⟩

lemma Refers.methodName {name : MethodName}
    (refers : pool.Refers text index name.text) :
    pool.Refers methodName index name :=
  ⟨refers.1, fun table has => by
    simp [PoolTable.methodName, PoolTable.checked, refers.2 table has]⟩

lemma Refers.recordName (refers : pool.Refers text index name.text) :
    pool.Refers recordName index name :=
  ⟨refers.1, fun table has => by
    simp [PoolTable.recordName, PoolTable.checked, refers.2 table has]⟩

end Getters

section Interning

variable {before : PoolBuilder → Prop}
variable {pool : PoolBuilder} {index : UInt16} {method : MethodRef}

lemma javaUtf8_yields (string : JavaString) :
    Yields before (javaUtf8 string) fun index pool =>
      pool.Refers javaString index string :=
  (put_yields _).weaken fun _ _ _ holds => Holds.javaString holds

lemma utf8_yields (text : String) :
    Yields before (utf8 text) fun index pool => pool.Refers PoolTable.text index text :=
  (put_yields _).weaken fun _ _ _ holds => Holds.text holds

lemma integer_yields (value : Int32) :
    Yields before (integer value) fun index pool => pool.Refers PoolTable.integer index value :=
  (put_yields _).weaken fun _ _ _ holds =>
    Holds.refers holds fun table _ found => by rw [PoolTable.integer, found]; rfl

lemma float_yields (value : Single) :
    Yields before (float value) fun index pool => pool.Refers PoolTable.float index value :=
  (put_yields _).weaken fun _ _ _ holds =>
    Holds.refers holds fun table _ found => by rw [PoolTable.float, found]; rfl

lemma long_yields (value : Int64) :
    Yields before (long value) fun index pool => pool.Refers PoolTable.long index value :=
  (put_yields _).weaken fun _ _ _ holds =>
    Holds.refers holds fun table _ found => by rw [PoolTable.long, found]; rfl

lemma double_yields (value : Double) :
    Yields before (double value) fun index pool => pool.Refers PoolTable.double index value :=
  (put_yields _).weaken fun _ _ _ holds =>
    Holds.refers holds fun table _ found => by rw [PoolTable.double, found]; rfl

lemma className_yields (name : ClassName) :
    Yields before (className name) fun index pool =>
      pool.Refers PoolTable.className index name ∧
        ∃ text, pool.Holds index.toNat (.className text) := by
  apply (utf8_yields _).bind
  intro text
  refine (put_yields _).weaken ?_
  rintro index pool ⟨_, refers⟩ holds
  refine ⟨holds.refers fun table has found => ?_, text, holds⟩
  simp [PoolTable.className, PoolTable.gettingEntry, found, refers.2 table has, PoolTable.checked]

lemma className_refers (name : ClassName) :
    Yields before (className name) fun index pool => pool.Refers PoolTable.className index name :=
  (className_yields name).weaken fun _ _ _ known => known.1

lemma string_yields (value : JavaString) :
    Yields before (string value) fun index pool =>
      pool.Refers PoolTable.string index value ∧ ∃ text, pool.Holds index.toNat (.string text) := by
  apply (javaUtf8_yields _).bind
  intro text
  refine (put_yields _).weaken ?_
  rintro index pool ⟨_, refers⟩ holds
  refine ⟨holds.refers fun table has found => ?_, text, holds⟩
  simp [PoolTable.string, found, refers.2 table has]

/-- A pair of a name and a descriptor is given by all readers of names and descriptors. -/
lemma nameAndType_yields (name descriptor : String) :
    Yields before (nameAndType name descriptor) fun index pool =>
      ∃ nameIndex descriptorIndex, pool.Holds index.toNat (.nameAndType nameIndex descriptorIndex) ∧
        pool.Refers text nameIndex name ∧
        pool.Refers text descriptorIndex descriptor := by
  apply (utf8_yields _).bind
  intro nameIndex
  apply (utf8_yields _).bind
  intro descriptorIndex
  refine (put_yields _).weaken ?_
  rintro index pool ⟨⟨_, named⟩, described⟩ holds
  exact ⟨nameIndex, descriptorIndex, holds, named, described⟩

lemma Holds.fieldNameAndType {nameIndex typeIndex : UInt16} {type : FieldType}
    (holds : pool.Holds index.toNat (.nameAndType nameIndex typeIndex))
    (named : pool.Refers PoolTable.text nameIndex name.text)
    (typed : pool.Refers PoolTable.text typeIndex type.text) :
    pool.Refers PoolTable.fieldNameAndType index (name, type) :=
  holds.refers fun table has found => by
    simp [PoolTable.fieldNameAndType, PoolTable.nameAndType, PoolTable.gettingEntry, found,
      named.fieldName.2 table has, typed.fieldType.2 table has]

lemma Holds.methodNameAndType {nameIndex descriptorIndex : UInt16} {name : MethodName}
    (holds : pool.Holds index.toNat (.nameAndType nameIndex descriptorIndex))
    (named : pool.Refers PoolTable.text nameIndex name.text)
    (described : pool.Refers PoolTable.text descriptorIndex descriptor.text) :
    pool.Refers PoolTable.methodNameAndType index (name, descriptor) :=
  holds.refers fun table has found => by
    simp [PoolTable.methodNameAndType, PoolTable.nameAndType, PoolTable.gettingEntry, found,
      named.methodName.2 table has, described.methodDescriptor.2 table has]

lemma methodNameAndType_yields (method : MethodName × MethodDescriptor) :
    Yields before (nameAndType method.1.text method.2.text) fun index pool =>
      pool.Refers methodNameAndType index method := by
  refine (nameAndType_yields _ _).weaken ?_
  rintro index pool _ ⟨_, _, paired, named, described⟩
  exact paired.methodNameAndType named described

lemma fieldRef_yields (field : FieldRef) :
    Yields before (fieldRef field) fun index pool =>
      pool.Refers PoolTable.fieldRef index field := by
  apply (className_yields _).bind
  intro owner
  apply (nameAndType_yields _ _).bind
  intro pair
  refine (put_yields _).weaken ?_
  rintro index pool ⟨⟨_, owned, _⟩, _, _, paired, named, typed⟩ holds
  refine holds.refers fun table has found => ?_
  simp [PoolTable.fieldRef, PoolTable.gettingEntry, found, owned.2 table has,
    (paired.fieldNameAndType named typed).2 table has]

lemma methodRef_yields (method : MethodRef) (onInterface : Bool) :
    Yields before (methodRef method onInterface) fun index pool =>
      pool.Refers PoolTable.anyMethodRef index (method, onInterface) := by
  apply (className_yields _).bind
  intro owner
  apply (nameAndType_yields _ _).bind
  intro pair
  refine (put_yields _).weaken ?_
  rintro index pool ⟨⟨_, owned, _⟩, _, _, paired, named, described⟩ holds
  refine holds.refers fun table has found => ?_
  cases onInterface <;>
    simp [PoolTable.anyMethodRef, PoolTable.gettingEntry, found, owned.2 table has,
      (paired.methodNameAndType named described).2 table has]

lemma Refers.methodRef (refers : pool.Refers PoolTable.anyMethodRef index (method, false)) :
    pool.Refers PoolTable.methodRef index method :=
  ⟨refers.1, fun table has => by
    simp [PoolTable.methodRef, refers.2 table has]⟩

lemma Refers.interfaceMethodRef (refers : pool.Refers anyMethodRef index (method, true)) :
    pool.Refers interfaceMethodRef index method :=
  ⟨refers.1, fun table has => by
    simp [PoolTable.interfaceMethodRef, refers.2 table has]⟩

lemma methodHandle_yields (handle : Handle) :
    Yields before (methodHandle handle) fun index pool =>
      pool.Refers PoolTable.methodHandle index handle ∧
        ∃ kind reference, pool.Holds index.toNat (.methodHandle kind reference) := by
  cases handle with
  | field kind field =>
    apply (fieldRef_yields _).bind
    intro reference
    refine (put_yields _).weaken ?_
    rintro index pool ⟨_, refers⟩ holds
    refine ⟨holds.refers fun table has found => ?_, _, _, holds⟩
    cases kind <;>
      simp [PoolTable.methodHandle, PoolTable.gettingEntry, found, FieldHandleKind.code,
        refers.2 table has]
  | method kind method =>
    apply (methodRef_yields _ _).bind
    intro reference
    refine (put_yields _).weaken ?_
    rintro index pool ⟨_, refers⟩ holds
    refine ⟨holds.refers fun table has found => ?_, _, _, holds⟩
    have any := refers.2 table has
    cases kind <;>
      simp [PoolTable.methodHandle, PoolTable.gettingEntry, found, MethodHandleKind.code,
        MethodHandleKind.onInterface, PoolTable.methodRef,
        PoolTable.interfaceMethodRef] at any ⊢ <;> simp [any]

lemma methodType_yields (descriptor : MethodDescriptor) :
    Yields before (methodType descriptor) fun index pool =>
      pool.Refers PoolTable.methodType index descriptor ∧
        ∃ text, pool.Holds index.toNat (.methodType text) := by
  apply (utf8_yields _).bind
  intro text
  refine (put_yields _).weaken ?_
  rintro index pool ⟨_, refers⟩ holds
  refine ⟨holds.refers fun table has found => ?_, text, holds⟩
  simp [PoolTable.methodType, found, refers.methodDescriptor.2 table has]

end Interning

end PoolBuilder

end JvmAsm
