/- Shows that fields and the attributes that all declarations have can be written again. -/
import JvmAsm.Proofs.Decode.ClassFormed
import JvmAsm.Proofs.Reassembly.Annotations

namespace JvmAsm

open Binary Encode Decode PoolBuilder

variable {τ : Type} {table : PoolTable} {boots : PoolTable.Bootstrap} {supply : Supply}

namespace Encode

/-- The attributes that all declarations have, as far as they have been read. -/
def sharedEncoders (target : τ → Encoder (List UInt8)) (shared : Shared τ) :
    List AttributeEncoder := [
  signature shared.signature,
  attributeOfList (shared.visible.getD []) fun visible =>
    namedAfter "RuntimeVisibleAnnotations" (annotationList visible),
  attributeOfList (shared.invisible.getD []) fun invisible =>
    namedAfter "RuntimeInvisibleAnnotations" (annotationList invisible),
  annotatedTypes "RuntimeVisibleTypeAnnotations" target (shared.visibleTypes.getD []),
  annotatedTypes "RuntimeInvisibleTypeAnnotations" target (shared.invisibleTypes.getD []),
  rawAttributes shared.raw.toList]

def markEncoders (marks : Marks) : List AttributeEncoder := [
  attributeIf marks.isDeprecated (namedBefore "Deprecated" (pure [])),
  attributeIf marks.isSynthetic (namedBefore "Synthetic" (pure []))]

/-- The attributes of a field, as far as they have been read. -/
def fieldEncoders (draft : FieldDraft) : List AttributeEncoder :=
  markEncoders draft.marks ++ (attributeOf draft.constantValue fun value =>
    namedBefore "ConstantValue" (index (PoolBuilder.constantValue value))) ::
      sharedEncoders fieldTarget draft.shared

/-- The marks of a declaration are written together. -/
lemma marks_fits {total : Nat} {found : Marks} {rest : List AttributeEncoder}
    (totals : Totals (FitsAttributes supply) total (markEncoders found ++ rest)) :
    Totals (FitsAttributes supply) total (marks found.isDeprecated found.isSynthetic :: rest) :=
  totals.pair fun _ _ => FitsAttributes.both

/-- The attributes that all declarations have, as they are written. -/
lemma shared_fits {total : Nat} {target : τ → Encoder (List UInt8)} {shared : Shared τ}
    (totals : Totals (FitsAttributes supply) total (sharedEncoders target shared)) :
    Totals (FitsAttributes supply) total [signature shared.signature,
      annotations shared.annotations, typeAnnotations keepAll target shared.typeAnnotations,
      rawAttributes shared.raw.toList] := by
  obtain ⟨first, later, signed, totals, most⟩ := totals.of_cons
  have noted : Totals (FitsAttributes supply) later (annotations shared.annotations :: _) :=
    totals.pair fun _ _ => FitsAttributes.both
  obtain ⟨second, last, noted, totals, most'⟩ := noted.of_cons
  have typed : Totals (FitsAttributes supply) last
      (typeAnnotations keepAll target shared.typeAnnotations :: _) :=
    totals.pair fun _ _ => FitsAttributes.both
  exact (Totals.cons signed (.cons noted typed)).mono (by omega)

/-- A value that a field can start with is written like any other attribute. -/
lemma constantValue_fits {field : Field} (formed : field.IsFormed) {cost : Nat}
    (fits : FitsAttributes supply cost (attributeOf field.constantValue fun value =>
      namedBefore "ConstantValue" (index (PoolBuilder.constantValue value)))) :
    FitsAttributes supply cost (constantValue field) := by
  suffices same : constantValue field = attributeOf field.constantValue fun value =>
      namedBefore "ConstantValue" (index (PoolBuilder.constantValue value)) by rwa [same]
  unfold constantValue attributeOf
  split
  · next none => rw [none]
  · next value given =>
    rw [given, formed value given]
    rfl

end Encode

namespace Decode

variable {α σ : Type} {encoders : σ → List AttributeEncoder} {before : List AttributeEncoder}
variable {spent length : Nat} {name : String}

/-- An attribute that is there only once takes the place of none, and can be written again. -/
lemma once_fits {reader : ByteReader α} {good : Nat → α → Prop} {outline : α → Outline}
    {given : Option α} {make : Option α → σ} {entry : α → AttributeEncoder}
    (fits : Totals (FitsAttributes supply) spent before) (index : Nat) (spends : Spends reader good)
    (each : ∀ cost value, good cost value → FitsAttributes supply (cost + 6) (entry value))
    (sets : ∀ value, encoders (make (some value)) = before.set index (entry value) := by
      exact fun _ => rfl) :
    Spends (do return make (← once name length outline given reader)) fun cost draft =>
      Totals (FitsAttributes supply) (spent + (cost + 6)) (encoders draft) := by
  refine (once_spends spends).bind fun cost found known => .pure ?_
  obtain ⟨value, rfl, fine⟩ := known
  rw [sets]
  exact FitsAttributes.replace fits index (each cost value fine)

lemma mark_fits {draft : σ} (fits : Totals (FitsAttributes supply) spent before) (index : Nat)
    (listed : .ofText name ∈ supply.constants)
    (sets : encoders draft = before.set index (attributeIf true (namedBefore name (pure []))) := by
      rfl) :
    Spends (do contents name length (pure ()); return draft) fun cost draft =>
      Totals (FitsAttributes supply) (spent + (cost + 6)) (encoders draft) := by
  have empty : Spends (contents name length (pure ())) fun cost _ => cost = 0 :=
    contents_spends (.pure rfl)
  refine empty.bind fun cost _ _ => .pure ?_
  rw [sets]
  exact FitsAttributes.replace fits index
    (.one (namedBefore_fits listed fun _ => .pure (Nat.zero_le _)) (by omega))

end Decode

lemma Decode.fieldTarget_spends :
    Spends fieldTarget fun cost target => Fits supply cost (Encode.fieldTarget target) := by
  refine u8_spends.bind fun _ code one => ?_
  rw [one]
  split
  · exact .pure fun _ => .pure (by simp)
  · exact .throw

section Reading

variable (covers : table.constants boots ⊆ supply.constants)
include covers

namespace Decode

lemma Shared.step_spends {reader : ByteReader τ} {target : τ → Encoder (List UInt8)}
    {outline : τ → Outline} {shared : Shared τ} {spent : Nat}
    (fits : Totals (FitsAttributes supply) spent (sharedEncoders target shared))
    (targets : Spends reader fun cost value => Fits supply cost (target value)) (name : String)
    (length : Nat) (listed : .ofText name ∈ supply.constants) :
    Spends (shared.step table reader outline name length) fun cost shared =>
      Totals (FitsAttributes supply) (spent + (cost + 6)) (sharedEncoders target shared) := by
  unfold step
  split
  · exact once_fits fits 0 (entry_spends _) fun _ _ ⟨two, _, read⟩ => .one (namedBefore_fits listed
      (index_fits (intern_adds (text_covered covers read)) (by omega))) (by omega)
  · exact once_fits fits 1 (annotationList_spends covers) fun _ _ written =>
      .ofList (by omega) fun _ => namedAfter_fits listed written
  · exact once_fits fits 2 (annotationList_spends covers) fun _ _ written =>
      .ofList (by omega) fun _ => namedAfter_fits listed written
  · exact once_fits fits 3 (annotatedTypes_spends covers targets) fun _ _ counted =>
      annotatedTypes_fits listed counted fun _ _ _ fits => fits
  · exact once_fits fits 4 (annotatedTypes_spends covers targets) fun _ _ counted =>
      annotatedTypes_fits listed counted fun _ _ _ fits => fits
  · refine (raw_spends name length).bind fun cost kept known => .pure ?_
    obtain ⟨same, size⟩ := known
    rw [← same] at listed
    have present : (sharedEncoders target shared)[5]? = some (rawAttributes shared.raw.toList) :=
      rfl
    have pushed := fits.set present fun before kept => FitsAttributes.pushRaw kept listed
    rw [size] at pushed
    simpa [sharedEncoders] using pushed

lemma constantValue_adds {index : UInt16} {value : ConstantValue}
    (found : table.constantValue index = .ok value) :
    PoolBuilder.Adds supply (constantValue value) := by
  obtain ⟨entry, present, found⟩ := ok_parts (ok_mapError_iff.mp found)
  cases entry with
  | integer | float | long | double =>
    cases found
    exact intern_adds (covers (PoolTable.mem_constants present List.mem_cons_self))
  | string =>
    obtain ⟨value, got, found⟩ := ok_parts found
    cases found
    exact intern_adds (covers (PoolTable.string_listed got))
  | _ => contradiction

lemma FieldDraft.step_spends {draft : FieldDraft} {spent : Nat}
    (fits : Totals (FitsAttributes supply) spent (fieldEncoders draft)) (fieldName : UnqualifiedName)
    (type : FieldType) (name : String) (length : Nat) (listed : .ofText name ∈ supply.constants) :
    Spends (draft.step table fieldName type name length) fun cost draft =>
      Totals (FitsAttributes supply) (spent + (cost + 6)) (fieldEncoders draft) := by
  unfold step
  split
  · exact mark_fits fits 0 listed
  · exact mark_fits fits 1 listed
  · refine (contents_spends (entry_spends _)).bind fun cost value known => ?_
    obtain ⟨two, _, read⟩ := known
    dsimp only
    split
    · exact .refusal
    · refine only_spends.bind fun none found same => .pure ?_
      obtain ⟨rfl, rfl⟩ := same
      exact FitsAttributes.replace fits 2 (.ofOption (by omega) fun value same => by
        cases same
        exact namedBefore_fits listed (index_fits (constantValue_adds covers read) (by omega)))
  · obtain ⟨first, second, own, shared, most⟩ :=
      @Totals.of_append _ _ _ (markEncoders draft.marks ++ [_]) _ fits
    refine (Shared.step_spends covers shared fieldTarget_spends name length listed).bind
      fun cost shared fits => .pure ?_
    exact (own.append fits).mono (by omega)

lemma readField_spends :
    Spends (readField table) fun cost field => Fits supply cost (fieldBytes field) := by
  refine u16_spends.bind fun _ access two => (entry_spends _).bind fun _ name named =>
    (entry_spends _).bind fun _ type typed => ?_
  refine (attributes_spends (fun spent draft => Totals (FitsAttributes supply) spent
    (fieldEncoders draft) ∧ draft.IsSound type)
    ⟨FitsAttributes.absent 9, Shared.IsSound.empty, by simp⟩
    fun spent draft key length fits known => ?_).bind fun cost draft known => .pure ?_
  · obtain ⟨_, read⟩ := known
    exact (FieldDraft.step_spends covers fits.1 name type key length (text_covered covers read)).and
      (FieldDraft.step_isSound fits.2 name key length)
  · obtain ⟨spent, paid, totals, sound⟩ := known
    obtain ⟨two', _, named⟩ := named
    obtain ⟨two'', _, typed⟩ := typed
    intro few
    refine (Succeeds.utf8 (text_covered covers (PoolTable.fieldName_text named))).bind
      fun nameIndex length => (Succeeds.utf8 (fieldType_covered covers typed)).bind
        fun typeIndex length' => ?_
    obtain ⟨first, later, marked, totals, most⟩ := (marks_fits totals).of_cons
    obtain ⟨second, last, constant, totals, most'⟩ := totals.of_cons
    refine Succeeds.bind (attributeTable_fits (.cons marked (.cons (constantValue_fits
      (by exact sound.constant) constant) (shared_fits totals))) (by omega))
        fun bytes short => .pure ?_
    simp only [List.length_append, bytes16_length]
    omega

lemma recordComponent_spends :
    Spends (recordComponent table) fun cost component =>
      Fits supply cost (Encode.recordComponent component) := by
  refine (entry_spends _).bind fun _ name named => (entry_spends _).bind fun _ type typed => ?_
  refine (attributes_spends (fun spent shared => Totals (FitsAttributes supply) spent
    (sharedEncoders Encode.fieldTarget shared)) (FitsAttributes.absent 6)
    fun spent shared key length fits known => ?_).bind fun cost shared known => .pure ?_
  · obtain ⟨_, read⟩ := known
    exact Shared.step_spends covers fits fieldTarget_spends key length (text_covered covers read)
  · obtain ⟨spent, paid, totals⟩ := known
    obtain ⟨two, _, named⟩ := named
    obtain ⟨two', _, typed⟩ := typed
    intro few
    refine (Succeeds.utf8 (text_covered covers (PoolTable.recordName_text named))).bind
      fun nameIndex length => (Succeeds.utf8 (fieldType_covered covers typed)).bind
        fun typeIndex length' => (attributeTable_fits (shared_fits totals) (by omega)).bind
          fun bytes short => .pure ?_
    simp only [List.length_append]
    omega

end Decode

end Reading

end JvmAsm
