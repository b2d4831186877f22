/- Reads back the fields, the methods and the record components of a class. -/
import JvmAsm.Decode.Class
import JvmAsm.Proofs.Decode.Code
import JvmAsm.Proofs.Encode.Shared

namespace JvmAsm

open Binary ByteReader Decode
open List hiding Cursor.at

variable {before : PoolBuilder → Prop}

/-- All annotations of a declaration. -/
def notesOf {τ : Type} (annotations : Annotations) (types : TypeAnnotations τ) : List Annotation :=
  annotations.visible ++ annotations.invisible ++ types.visible.map AnnotatedType.note ++
    types.invisible.map AnnotatedType.note

section Skipping

variable {pool : PoolBuilder} {pairs : List (String × List UInt8)} {found : List (List UInt8)}

/-- The attributes of a field or method are skipped. -/
lemma skipAttributes_reads (named : Forall₂ pool.IsAttribute pairs found)
    (fits : found.length ≤ 0xffff) :
    Reads skipAttributes (bytes16 (UInt16.ofNat found.length) ++ found.flatten) () := by
  have each : Forall₂ (Reads (do
      discard u16
      skip (← u32).toNat)) found (pairs.map fun _ => ()) := by
    rw [forall₂_map_right_iff]
    refine named.flip.imp ?_
    rintro bytes pair ⟨index, _, small, rfl⟩
    refine (Reads.discard (Reads.u16 index)).bind ((Reads.u32 _).bind ?_)
    rw [UInt32.toNat_ofNat_of_lt' (Nat.lt_succ_of_le small)]
    exact Reads.skip pair.2
  have list := Reads.list16 each (by rwa [← each.length_eq])
  rw [← each.length_eq] at list
  exact list.discard

/-- The length of code, which stands after the sizes of the stack and of the local variables. -/
def codeLength (contents : List UInt8) : Nat :=
  match (do skip 4; u32 : ByteReader UInt32) (Cursor.at contents 0) with
  | .ok length _ => length.toNat
  | .error _ _ => 0

lemma codeLength_eq (stack locals : UInt16) (length : UInt32) (rest : List UInt8) :
    codeLength (bytes16 stack ++ (bytes16 locals ++ (bytes32 length ++ rest))) = length.toNat := by
  have read : Reads (do skip 4; u32)
      ((bytes16 stack ++ bytes16 locals) ++ bytes32 length) length :=
    (Reads.skip (bytes16 stack ++ bytes16 locals)).bind (Reads.u32 length)
  rw [codeLength, read 0 _ rest rfl (by simp [Cursor.at])]

def codeLength? (attributed : String × List UInt8) : Option Nat :=
  if attributed.1 = "Code" then some (codeLength attributed.2) else none

namespace Decode

/-- Adds the length of the code that an attribute holds. -/
def lengthStep (lengths : List Nat) (name : String) (size : Nat) : ByteReader (List Nat) := do
  let contents ← bytes size
  return lengths ++ (codeLength? (name, contents)).toList

def methodLengths (table : PoolTable) : ByteReader (List Nat) := do
  skip 6
  attributes table lengthStep []

/-- Skips a field or method. -/
def skipMember : ByteReader Unit := do
  skip 6
  skipAttributes

end Decode

lemma skipMember_reads (access : UInt16) {name type : List UInt8} (nameSize : name.length = 2)
    (typeSize : type.length = 2) (named : Forall₂ pool.IsAttribute pairs found)
    (fits : found.length ≤ 0xffff) :
    Reads skipMember (bytes16 access ++ name ++ type ++
      (bytes16 (UInt16.ofNat found.length) ++ found.flatten)) () := by
  have head := Reads.skip (bytes16 access ++ name ++ type)
  rw [length_append, length_append, bytes16_length, nameSize, typeSize] at head
  exact head.bind (skipAttributes_reads named fits)

lemma lengths_reads {table : PoolTable} (has : table.Has pool)
    (named : Forall₂ pool.IsAttribute pairs found) (fits : found.length ≤ 0xffff) :
    Reads (attributes table lengthStep [])
      (bytes16 (UInt16.ofNat found.length) ++ found.flatten) (pairs.filterMap codeLength?) := by
  refine attributes_reads has named fits ?_
  have all : ∀ lengths, ReadsAttributes lengthStep lengths pairs
      (lengths ++ pairs.filterMap codeLength?) := by
    clear named
    induction pairs with
    | nil => exact fun lengths => (append_nil lengths).symm
    | cons pair rest ih =>
      intro lengths
      refine ⟨lengths ++ (codeLength? pair).toList, ?_, ?_⟩
      · exact (Reads.bytes pair.2).made _
      · have split : (pair :: rest).filterMap codeLength? =
            (codeLength? pair).toList ++ rest.filterMap codeLength? := by
          cases here : codeLength? pair <;> simp [here]
        rw [split, ← append_assoc]
        exact ih _
  exact all []

end Skipping

/-- What has to be known of annotations so that they are read back. -/
def AreShallow (notes : List Annotation) : Prop := ∀ note ∈ notes, note.IsShallow

lemma AreShallow.parts {τ : Type} {annotations : Annotations} {types : TypeAnnotations τ}
    (shallow : AreShallow (notesOf annotations types)) :
    ((∀ note ∈ annotations.visible, note.IsShallow) ∧
      ∀ note ∈ annotations.invisible, note.IsShallow) ∧
    (∀ note ∈ types.visible, note.note.IsShallow) ∧
      ∀ note ∈ types.invisible, note.note.IsShallow := by
  simp only [AreShallow, notesOf, forall_mem_append, forall_mem_map] at shallow
  exact ⟨shallow.1.1, shallow.1.2, shallow.2⟩

namespace Decode.FieldDraft

/-- The names of the attributes that fields have and not all declarations. -/
def names : List String := ["Deprecated", "Synthetic", "ConstantValue"]

@[simp] def marksPart : Part FieldDraft Marks where
  get := marks
  set draft marks := { draft with marks }

@[simp] def sharedPart : Part FieldDraft (Shared FieldTarget) where
  get := shared
  set draft shared := { draft with shared }

@[simp] def constantPart : Part FieldDraft (Option ConstantValue) where
  get := constantValue
  set draft constantValue := { draft with constantValue }

end Decode.FieldDraft

/-- What has to be known of a field so that it is read back. -/
structure Field.IsReadable (field : Field) : Prop where
  shallow : AreShallow (notesOf field.annotations field.typeAnnotations)
  others : ∀ kept ∈ field.attributes, kept.name ∉ FieldDraft.names ∧ kept.name ∉ Shared.names

/-- What has to be known of a record component so that it is read back. -/
structure RecordComponent.IsReadable (component : RecordComponent) : Prop where
  shallow : AreShallow (notesOf component.annotations component.typeAnnotations)
  others : ∀ kept ∈ component.attributes, kept.name ∉ Shared.names

namespace Encode

open Decode (FieldDraft Shared)
open Decode.Shared

/-- Reads an attribute of a field with the given name and type. -/
abbrev fieldStep (field : Field) (table : PoolTable) (_ : PoolTable.Bootstrap) (draft : FieldDraft)
    (name : String) (length : Nat) : ByteReader FieldDraft :=
  draft.step table field.name field.type name length

lemma field_readsShared (field : Field) : ReadsShared Decode.fieldTarget Outline.fieldTarget
    FieldDraft.names (fieldStep field) FieldDraft.sharedPart where
  distinct := by decide
  via name other table boots draft length := by
    unfold fieldStep FieldDraft.step
    split
    all_goals first | rfl | simp [FieldDraft.names] at other

lemma constantValue_yields (field : Field) :
    Causes before (fieldStep field) (fun _ => True) (constantValue field)
      (.fill FieldDraft.constantPart field.constantValue True) := by
  unfold constantValue
  split
  · next none =>
    rw [none]
    exact .pure fun _ _ => none_affects fun _ applies => fill_none applies
  · next value given =>
    refine .refusing (fun _ _ _ => by rintro ⟨⟩) fun fits => ?_
    refine (namedBefore_yields (index_yields (PoolBuilder.constantValue_yields value))).bind
      fun bytes => .pure ?_
    rintro pool ⟨_, contents, encodes, named⟩
    refine single_affects named fun table boots agrees _ draft applies => ?_
    have read := contents_reads "ConstantValue" (encodes agrees)
    have empty : draft.constantValue = none := applies.1
    refine read.bind_pure ?_
    rw [if_neg fits, empty, given]
    exact (Reads.pure _).made _

lemma fieldBytes_yields {field : Field} (readable : field.IsReadable) :
    Yields before (fieldBytes field) fun bytes pool =>
      pool.Encodes (fun table _ => readField table) bytes field ∧
        Reads skipMember bytes () := by
  have shared := field_readsShared field
  refine ((text_yields PoolBuilder.Refers.fieldName).and (utf8_size _)).bind fun name =>
    ((fieldType_yields field.type).and (utf8_size _)).bind fun type => (attributeTable_yields
      (.cons (marks_yields FieldDraft.marksPart field.isDeprecated field.isSynthetic
        (fun _ _ _ _ => rfl) fun _ _ _ _ => rfl)
      (.cons (constantValue_yields field)
      (.cons (shared.signature_yields field.signature)
      (.cons (shared.annotations_yields field.annotations)
      (.cons (shared.typeAnnotations_yields field.typeAnnotations fieldTarget_yields)
      (.cons (shared.raws_yields field.attributes) .nil))))))).bind fun attributes => .pure ?_
  rintro pool ⟨⟨⟨_, named, nameSize⟩, typed, typeSize⟩, found, fits, rfl, affects⟩
  obtain ⟨⟨visible, invisible⟩, visibleTypes, invisibleTypes⟩ := readable.shallow.parts
  refine ⟨fun table boots agrees => ?_, ?_⟩
  · have read := affects_reads affects fits (fun _ => trivial) {} ⟨⟨trivial, trivial, trivial⟩,
      ⟨rfl, trivial⟩, ⟨rfl, trivial⟩, ⟨⟨rfl, visible⟩, ⟨rfl, invisible⟩, trivial⟩,
      ⟨⟨rfl, visibleTypes⟩, ⟨rfl, invisibleTypes⟩, trivial⟩, readable.others, trivial⟩
    rw [append_assoc, append_assoc]
    refine (Reads.u16 _).bind ((named agrees).bind
      ((typed agrees).bind ((read agrees).bind_pure ?_)))
    refine (congrArg (Reads · [] field) (congrArg pure ?_)).mpr (Reads.pure field)
    simp [Shared.annotations, Shared.typeAnnotations]
  · obtain ⟨pairs, attributed, _⟩ := affects
    exact skipMember_reads field.access.bits nameSize typeSize attributed fits

lemma record_readsShared : ReadsShared Decode.fieldTarget Outline.fieldTarget []
    (fun table _ shared name length =>
      shared.step table Decode.fieldTarget Outline.fieldTarget name length) .whole :=
  ⟨by decide, fun _ _ _ _ _ _ => (bind_pure _).symm⟩

lemma recordComponent_yields {component : RecordComponent} (readable : component.IsReadable) :
    Yields before (recordComponent component) fun bytes pool =>
      pool.Encodes (fun table _ => Decode.recordComponent table) bytes component := by
  have shared := record_readsShared
  refine (text_yields PoolBuilder.Refers.recordName).bind fun name =>
    (fieldType_yields component.type).bind fun type => (attributeTable_yields
      (.cons (show Causes _ _ (fun _ => True) _ _ from
        shared.signature_yields component.signature)
      (.cons (shared.annotations_yields component.annotations)
      (.cons (shared.typeAnnotations_yields component.typeAnnotations fieldTarget_yields)
      (.cons (shared.raws_yields component.attributes) .nil))))).bind fun attributes =>
        .pure ?_
  rintro pool ⟨⟨⟨_, named⟩, typed⟩, found, fits, rfl, affects⟩ table boots agrees
  obtain ⟨⟨visible, invisible⟩, visibleTypes, invisibleTypes⟩ := readable.shallow.parts
  have read := affects_reads affects fits (fun _ => trivial) {} ⟨⟨rfl, trivial⟩,
    ⟨⟨rfl, visible⟩, ⟨rfl, invisible⟩, trivial⟩,
    ⟨⟨rfl, visibleTypes⟩, ⟨rfl, invisibleTypes⟩, trivial⟩,
    fun kept mem => ⟨not_mem_nil, readable.others kept mem⟩, trivial⟩
  rw [append_assoc]
  refine (named agrees).bind
    ((typed agrees).bind ((read agrees).bind_pure ?_))
  refine (congrArg (Reads · [] component) (congrArg pure ?_)).mpr (Reads.pure component)
  simp [Shared.annotations, Shared.typeAnnotations]

end Encode

end JvmAsm
