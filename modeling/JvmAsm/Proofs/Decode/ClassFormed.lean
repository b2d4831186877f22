/- Says what holds for all classes that are read: they can be written and read again. -/
import JvmAsm.Proofs.Decode.Class
import JvmAsm.Proofs.Decode.CodeFormed

namespace JvmAsm

open Binary ByteReader List

variable {τ : Type} {table : PoolTable}

namespace Decode

section Shared

variable {target : ByteReader τ} {outline : τ → Outline} {good : τ → Prop} {owned : List String}
  {shared : Shared τ}

/-- What holds for the attributes that all declarations have, besides those a declaration owns. -/
structure Shared.IsSound (owned : List String) (good : τ → Prop) (shared : Shared τ) : Prop where
  visible : ∀ notes, shared.visible = some notes → AreShallow notes
  invisible : ∀ notes, shared.invisible = some notes → AreShallow notes
  visibleTypes : ∀ notes, shared.visibleTypes = some notes →
    ∀ note ∈ notes, AnnotatedType.IsGood good note
  invisibleTypes : ∀ notes, shared.invisibleTypes = some notes →
    ∀ note ∈ notes, AnnotatedType.IsGood good note
  others : ∀ kept ∈ shared.raw, kept.name ∉ owned ∧ kept.name ∉ Shared.names

lemma Shared.IsSound.empty : Shared.IsSound owned good ({} : Shared τ) := by
  constructor <;> simp

lemma Shared.step_isSound (sound : shared.IsSound owned good) (targets : Gives target good)
    {name : String} (other : name ∉ owned) (length : Nat) :
    Gives (shared.step table target outline name length) (Shared.IsSound owned good) := by
  unfold step
  split
  · exact .after fun _ => .pure { sound with }
  · exact (once_gives annotationList_gives).bind fun _ found => .pure
      { sound with visible := found }
  · exact (once_gives annotationList_gives).bind fun _ found => .pure
      { sound with invisible := found }
  · exact (once_gives (annotatedTypes_gives targets)).bind fun _ found => .pure
      { sound with visibleTypes := found }
  · exact (once_gives (annotatedTypes_gives targets)).bind fun _ found => .pure
      { sound with invisibleTypes := found }
  · refine (raw_gives name length).bind fun kept same => .pure
      { sound with others := forall_mem_push sound.others ⟨same ▸ other, ?_⟩ }
    simpa [names, same] using ⟨‹_›, ‹_›, ‹_›, ‹_›, ‹_›⟩

lemma forall_mem_getD {α : Type} {good : α → Prop} {xs? : Option (List α)}
    (goods : ∀ xs, xs? = some xs → ∀ value ∈ xs, good value) :
    ∀ value ∈ xs?.getD [], good value := by
  cases xs? with
  | none => simp
  | some xs => exact goods xs rfl

lemma Shared.IsSound.types (sound : shared.IsSound owned good) :
    ∀ note ∈ shared.typeAnnotations.visible ++ shared.typeAnnotations.invisible,
      AnnotatedType.IsGood good note :=
  forall_mem_append.mpr
    ⟨forall_mem_getD sound.visibleTypes, forall_mem_getD sound.invisibleTypes⟩

lemma Shared.IsSound.shallow (sound : shared.IsSound owned good) :
    AreShallow (notesOf shared.annotations shared.typeAnnotations) := by
  simp only [AreShallow, notesOf, forall_mem_append, forall_mem_map]
  have types := forall_mem_append.mp sound.types
  exact ⟨⟨⟨forall_mem_getD sound.visible, forall_mem_getD sound.invisible⟩,
    fun note mem => (types.1 note mem).2⟩, fun note mem => (types.2 note mem).2⟩

end Shared

section Fields

/-- What holds for the attributes of a field that are read. -/
structure FieldDraft.IsSound (type : FieldType) (draft : FieldDraft) : Prop where
  shared : draft.shared.IsSound FieldDraft.names fun _ => True
  constant : ∀ value, draft.constantValue = some value → value.fits type = true

lemma FieldDraft.step_isSound {type : FieldType} {draft : FieldDraft} (sound : draft.IsSound type)
    (fieldName : UnqualifiedName) (name : String) (length : Nat) :
    Gives (draft.step table fieldName type name length) (FieldDraft.IsSound type) := by
  unfold step
  split
  · exact .after fun _ => .pure { sound with }
  · exact .after fun _ => .pure { sound with }
  · refine .after fun value => ?_
    dsimp only
    split
    · exact Gives.refusal
    · next fits =>
      exact (only_gives _ _ _ (by simpa using fits)).bind fun _ found => .pure
        { sound with constant := found }
  · have other : name ∉ names := by simpa [names] using ⟨‹_›, ‹_›, ‹_›⟩
    exact (Shared.step_isSound sound.shared (Gives.anything _) other length).bind
      fun _ found => .pure { sound with shared := found }

lemma readField_gives :
    Gives (readField table) fun field => field.IsReadable ∧ field.IsFormed := by
  refine .after fun access => .after fun name =>
    .after fun type =>
      (attributes_gives (FieldDraft.IsSound type) ⟨Shared.IsSound.empty, by simp⟩
        fun _ key length sound => FieldDraft.step_isSound sound name key length).bind
        fun draft sound => .pure ⟨⟨sound.shared.shallow, fun kept mem =>
          sound.shared.others kept (Array.mem_def.mpr mem)⟩, sound.constant⟩

lemma recordComponent_gives : Gives (recordComponent table) RecordComponent.IsReadable := by
  refine .after fun name => .after fun type =>
    (attributes_gives (Shared.IsSound [] fun _ => True) Shared.IsSound.empty
      fun _ _ length sound => Shared.step_isSound sound (Gives.anything _) not_mem_nil
        length).bind fun shared sound => .pure ⟨sound.shallow, fun kept mem =>
          (sound.others kept (Array.mem_def.mpr mem)).2⟩

end Fields

section Methods

variable {boots : PoolTable.Bootstrap} {classStart : Nat}

/-- What holds for the attributes of a method that are read. -/
structure MethodDraft.IsSound (draft : MethodDraft) : Prop where
  shared : draft.shared.IsSound MethodDraft.names fun _ => True
  code : ∀ code, draft.code = some code → code.IsRead
  visible : ∀ lists, draft.visibleParameters = some lists →
    lists.length ≤ 0xff ∧ ∀ notes ∈ lists, AreShallow notes
  invisible : ∀ lists, draft.invisibleParameters = some lists →
    lists.length ≤ 0xff ∧ ∀ notes ∈ lists, AreShallow notes
  default : ∀ value, draft.annotationDefault = some value → value.depth ≤ maxElementDepth

lemma MethodDraft.step_isSound {draft : MethodDraft} (sound : draft.IsSound)
    (methodName : MethodName) (descriptor : MethodDescriptor) (name : String) (length : Nat) :
    Gives (draft.step table boots classStart methodName descriptor name length)
      MethodDraft.IsSound := by
  have default : Gives (elementValue table) fun value => value.depth ≤ maxElementDepth :=
    (elementValueWithin_gives _).weaken fun _ => Nat.le_of_lt_succ
  unfold step
  split
  · exact .after fun _ => .pure { sound with }
  · exact .after fun _ => .pure { sound with }
  · exact (within_gives _ (contents_gives _ _ (readCode_gives table boots classStart))).bind
      fun _ isRead => (only_gives _ _ _ isRead).bind fun _ found => .pure
        { sound with code := found }
  · exact .after fun _ => .pure { sound with }
  · exact (once_gives (list8_gives annotationList_gives)).bind fun _ found => .pure
      { sound with visible := found }
  · exact (once_gives (list8_gives annotationList_gives)).bind fun _ found => .pure
      { sound with invisible := found }
  · exact (once_gives default).bind fun _ found => .pure { sound with default := found }
  · exact .after fun _ => .pure { sound with }
  · have other : name ∉ names := by
      simpa [names] using ⟨‹_›, ‹_›, ‹_›, ‹_›, ‹_›, ‹_›, ‹_›, ‹_›⟩
    exact (Shared.step_isSound sound.shared (Gives.anything _) other length).bind
      fun _ found => .pure { sound with shared := found }

lemma readMethod_gives :
    Gives (readMethod table boots classStart) fun method =>
      method.IsReadable Code.IsRead ∧ method.IsFormed := by
  refine .after fun access => .after fun name =>
    .after fun descriptor =>
      (attributes_gives MethodDraft.IsSound ⟨Shared.IsSound.empty, by simp, by simp, by simp, by simp⟩
        fun _ key length sound => MethodDraft.step_isSound sound name descriptor key length).bind
        fun draft sound => .pure ⟨?_, ?_⟩
  · exact ⟨sound.code, sound.shared.shallow, fun lists found => (sound.visible lists found).2,
      fun lists found => (sound.invisible lists found).2, sound.default, fun kept mem =>
        sound.shared.others kept (Array.mem_def.mpr mem)⟩
  · exact ⟨fun code found => (sound.code code found).formed,
      fun lists found => (sound.visible lists found).1,
      fun lists found => (sound.invisible lists found).1⟩

end Methods

section Classes

lemma classTarget_gives : Gives classTarget fun target => target ≠ .implements 0xffff := by
  refine .after fun code => ?_
  split
  · exact .after fun _ => .pure (by simp)
  · refine .after fun index => .pure ?_
    split
    · simp
    · next other => simpa using other
  · exact .after fun _ => .after fun _ =>
      .pure (by simp)
  · exact .throw

/-- What holds for the attributes of a class that are read. -/
structure ClassDraft.IsSound (draft : ClassDraft) : Prop where
  shared : draft.shared.IsSound ClassDraft.names fun target => target ≠ .implements 0xffff
  components : ∀ components, draft.recordComponents = some components →
    ∀ component ∈ components, component.IsReadable

lemma ClassDraft.step_isSound {draft : ClassDraft} (sound : draft.IsSound) (name : String)
    (length : Nat) : Gives (draft.step table name length) ClassDraft.IsSound := by
  unfold step
  split
  case h_8 =>
    exact (once_gives (list16_gives recordComponent_gives)).bind fun _ found => .pure
      { sound with components := found }
  case h_10 =>
    have other : name ∉ names := by
      simpa [names] using ⟨‹_›, ‹_›, ‹_›, ‹_›, ‹_›, ‹_›, ‹_›, ‹_›, ‹_›⟩
    exact (Shared.step_isSound sound.shared classTarget_gives other length).bind
      fun _ found => .pure { sound with shared := found }
  all_goals exact .after fun _ => .pure { sound with }

lemma members_gives {boots : PoolTable.Bootstrap} {classStart : Nat} (name : ClassName) :
    Gives (members table boots classStart name) fun found =>
      (∀ field ∈ found.1, field.IsReadable ∧ field.IsFormed) ∧
        ∀ method ∈ found.2, method.IsReadable Code.IsRead ∧ method.IsFormed :=
  (list16_gives (within_gives _ readField_gives)).bind fun _ fields =>
    (list16_gives (within_gives _ readMethod_gives)).bind fun _ methods =>
      .pure ⟨fields, methods⟩

lemma afterPool_gives (classStart : Nat) {version : Version}
    (supported : Version.oldestMajor ≤ version.major) :
    Gives (afterPool classStart version table) fun value =>
      value.IsReadable Code.IsRead ∧ value.IsFormed := by
  refine .after fun access => .after fun name =>
    .after fun superClass => .after fun interfaces =>
    .after fun membersStart => .after fun _ =>
    .after fun _ =>
    (attributes_gives ClassDraft.IsSound ⟨Shared.IsSound.empty, by simp⟩
      fun _ key length sound => ClassDraft.step_isSound sound key length).bind fun draft sound =>
    .after fun classEnd => .after fun _ =>
    (members_gives name).bind fun found known => .after fun _ =>
    .pure ⟨?_, ?_⟩
  · exact ⟨supported, fun field mem => (known.1 field mem).1,
      fun method mem => (known.2 method mem).1, sound.components, sound.shared.shallow,
      fun kept mem => sound.shared.others kept (Array.mem_def.mpr mem)⟩
  · exact ⟨fun field mem => (known.1 field mem).2,
      fun method mem => (known.2 method mem).2,
      fun note mem => (sound.shared.types note mem).1⟩

lemma classBody_gives :
    Gives classBody fun value => value.IsReadable Code.IsRead ∧ value.IsFormed := by
  rw [classBody_eq]
  refine .after fun classStart => .after fun found => ?_
  split
  · exact Gives.refusal
  · refine .after fun minor => .after fun major => ?_
    split
    · exact Gives.refusal
    · next supported =>
      refine .after fun table => afterPool_gives classStart ?_
      simp only [Bool.or_eq_true, decide_eq_true_eq, not_or, UInt16.not_lt] at supported
      exact supported.2

end Classes

end Decode

lemma decode_isRead {bytes : List UInt8} {value : ClassFile} (decoded : decode bytes = .ok value) :
    value.IsReadable Code.IsRead ∧ value.IsFormed := by
  obtain ⟨⟨found, next⟩, ran, decoded⟩ := ok_parts decoded
  dsimp only at decoded
  split at decoded
  · contradiction
  · cases decoded
    unfold readClass at ran
    split at ran
    · next body =>
      cases ran
      exact Decode.classBody_gives _ _ _ body
    · contradiction

end JvmAsm
