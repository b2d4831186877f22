/- Gives the effects of the attributes that several declarations have. -/
import JvmAsm.Encode.Class
import JvmAsm.Proofs.Encode.Annotation
import JvmAsm.Proofs.Encode.Attributes

namespace JvmAsm

open Binary

namespace Decode.Shared

variable {τ : Type}

/-- The names of the attributes that all declarations have. -/
def names : List String :=
  ["Signature", "RuntimeVisibleAnnotations", "RuntimeInvisibleAnnotations",
    "RuntimeVisibleTypeAnnotations", "RuntimeInvisibleTypeAnnotations"]

@[simp] def signaturePart : Part (Shared τ) (Option String) where
  get := signature
  set shared signature := { shared with signature }

@[simp] def visiblePart : Part (Shared τ) (Option (List Annotation)) where
  get := visible
  set shared visible := { shared with visible }

@[simp] def invisiblePart : Part (Shared τ) (Option (List Annotation)) where
  get := invisible
  set shared invisible := { shared with invisible }

@[simp] def visibleTypesPart : Part (Shared τ) (Option (List (AnnotatedType τ))) where
  get := visibleTypes
  set shared visibleTypes := { shared with visibleTypes }

@[simp] def invisibleTypesPart : Part (Shared τ) (Option (List (AnnotatedType τ))) where
  get := invisibleTypes
  set shared invisibleTypes := { shared with invisibleTypes }

/-- Keeps an attribute as it is. -/
def push (shared : Shared τ) (kept : RawAttribute) : Shared τ :=
  { shared with raw := shared.raw.push kept }

/-- Keeps an attribute as it is in a part of what has been read. -/
def pushTo {δ : Type} (part : Part δ (Shared τ)) (whole : δ) (kept : RawAttribute) : δ :=
  part.set whole ((part.get whole).push kept)

@[simp] lemma foldl_pushTo {δ : Type} (part : Part δ (Shared τ)) (raws : List RawAttribute)
    (whole : δ) : raws.foldl (pushTo part) whole =
      part.set whole { part.get whole with raw := (part.get whole).raw ++ raws } := by
  induction raws generalizing whole with
  | nil => simp [part.set_get]
  | cons kept rest ih =>
    rw [List.foldl_cons, ih]
    simp [pushTo, push, part.get_set, part.set_set]

lemma step_raw {table : PoolTable} {target : ByteReader τ} {outline : τ → Outline}
    {shared : Shared τ} {name : String} (other : name ∉ names) (length : Nat) :
    shared.step table target outline name length = do
      return shared.push (← Decode.raw name length) := by
  unfold step
  split
  all_goals first | rfl | simp [names] at other

end Decode.Shared

namespace Encode

open Decode (Shared)
open Decode.Shared

variable {τ δ : Type} {before : PoolBuilder → Prop} {target : ByteReader τ} {outline : τ → Outline}
  {owns : List String} {allowed : String × List UInt8 → Prop}
  {step : PoolTable → PoolTable.Bootstrap → δ → String → Nat → ByteReader δ}
  {part : Part δ (Shared τ)}

/-- Attributes are read as those of all declarations unless they have one of the names. -/
structure ReadsShared (target : ByteReader τ) (outline : τ → Outline) (owns : List String)
    (step : PoolTable → PoolTable.Bootstrap → δ → String → Nat → ByteReader δ)
    (part : Part δ (Shared τ)) : Prop where
  distinct : ∀ name ∈ names, name ∉ owns
  via : ∀ name ∉ owns, ∀ table boots whole length,
    step table boots whole name length = do
      return part.set whole (← (part.get whole).step table target outline name length)

namespace ReadsShared

variable (shared : ReadsShared target outline owns step part)
include shared

lemma fills {α : Type} {slot : Part (Shared τ) (Option α)} {name : String}
    {describe : α → Outline} {reader : PoolTable → PoolTable.Bootstrap → ByteReader α}
    (fills : FillsOnce (fun table _ shared name length =>
      shared.step table target outline name length) slot name describe reader)
    (listed : name ∈ names) : FillsOnce step (part.comp slot) name describe reader :=
  fills.comp (shared.via name (shared.distinct name listed))

lemma signature_yields (value : Option String) :
    Causes before step allowed (signature value) (.fill (part.comp signaturePart) value True) :=
  plainOf_yields _ (fun text _ => namedBefore_yields (utf8_yields text))
    (shared.fills (fun _ _ _ _ => rfl) (by decide))

lemma annotations_yields (notes : Annotations) :
    Causes before step allowed (annotations notes) (.chain [
      .fill (part.comp visiblePart) (given notes.visible) (∀ note ∈ notes.visible, note.IsShallow),
      .fill (part.comp invisiblePart) (given notes.invisible)
        (∀ note ∈ notes.invisible, note.IsShallow)]) :=
  both_yields
    (fillOfList_yields (namedAfter_yields (annotationList_yields notes.visible))
      (shared.fills (fun _ _ _ _ => rfl) (by decide)))
    (fillOfList_yields (namedAfter_yields (annotationList_yields notes.invisible))
      (shared.fills (fun _ _ _ _ => rfl) (by decide)))

/-- Annotations on types, if all of them are kept and their targets are read back. -/
lemma typeAnnotations_yields {encoder : τ → Encoder (List UInt8)} (notes : TypeAnnotations τ)
    (targets : ∀ place, Yields before (encoder place) fun bytes pool =>
      pool.Encodes (fun _ _ => target) bytes place) :
    Causes before step allowed (typeAnnotations keepAll encoder notes) (.chain [
      .fill (part.comp visibleTypesPart) (given notes.visible)
        (∀ note ∈ notes.visible, note.note.IsShallow),
      .fill (part.comp invisibleTypesPart) (given notes.invisible)
        (∀ note ∈ notes.invisible, note.note.IsShallow)]) := by
  have list : ∀ listed : List (AnnotatedType τ),
      Yields before (list16 (.tooMany .typeAnnotations) listed (annotatedType encoder))
        fun bytes pool => (∀ note ∈ listed, note.note.IsShallow) →
          pool.Encodes (fun table _ => Decode.annotatedTypes table target) bytes listed := by
    intro listed
    have each : ∀ note ∈ listed, Yields before (encoder note.target) fun bytes pool =>
        True → pool.Encodes (fun _ _ => target) bytes (id note.target) := fun note _ =>
      (targets note.target).weaken fun _ _ _ encodes _ => encodes
    refine (annotatedTypeList_yields (fun _ => True) id each).weaken ?_
    intro bytes pool _ encodes shallow
    have whole := encodes fun note mem => ⟨trivial, shallow note mem⟩
    rwa [show AnnotatedType.withTarget id = id from rfl, List.map_id] at whole
  exact both_yields
    (fillOfList_yields (namedAfter_yields (list notes.visible))
      (shared.fills (fun _ _ _ _ => rfl) (by decide)))
    (fillOfList_yields (namedAfter_yields (list notes.invisible))
      (shared.fills (fun _ _ _ _ => rfl) (by decide)))

lemma raws_yields (raws : List RawAttribute) :
    Causes before step allowed (rawAttributes raws)
      ⟨fun _ => ∀ kept ∈ raws, kept.name ∉ owns ∧ kept.name ∉ names, raws.foldl (pushTo part)⟩ :=
  rawAttributes_yields (fun name => name ∉ owns ∧ name ∉ names)
    fun name other table boots whole length => by
      rw [shared.via name other.1, step_raw other.2]
      simp only [bind_assoc, pure_bind, pushTo]

end ReadsShared

section Targets

lemma classTarget_yields (target : ClassTarget) :
    Yields before (classTarget target) fun bytes pool =>
      pool.Encodes (fun _ _ => Decode.classTarget) bytes target := by
  rcases target with parameter | _ | interface | ⟨parameter, bound⟩
  · exact .pure fun _ _ _ _ _ => (Reads.u8 _).bind ((Reads.u8 _).made _)
  · exact .pure fun _ _ _ _ _ => (Reads.u8 _).bind ((Reads.u16 _).made _)
  · refine .refusing (fun _ _ _ => by rintro ⟨⟩) fun other => .pure fun _ _ _ _ _ => ?_
    refine (Reads.u8 _).bind ((Reads.u16 interface).bind_pure ?_)
    rw [if_neg other]
    exact Reads.pure _
  · exact .pure fun _ _ _ _ _ =>
      (Reads.u8 _).bind ((Reads.u8 _).bind ((Reads.u8 _).made _))

lemma fieldTarget_yields (target : FieldTarget) :
    Yields before (fieldTarget target) fun bytes pool =>
      pool.Encodes (fun _ _ => Decode.fieldTarget) bytes target := by
  cases target
  exact .pure fun _ _ _ _ _ => (Reads.u8 _).bind_pure (Reads.pure _)

lemma methodTarget_yields (target : MethodTarget) :
    Yields before (methodTarget target) fun bytes pool =>
      pool.Encodes (fun _ _ => Decode.methodTarget) bytes target := by
  cases target with
  | typeParameter | parameter =>
    exact .pure fun _ _ _ _ _ => (Reads.u8 _).bind ((Reads.u8 _).made _)
  | typeBound parameter bound =>
    exact .pure fun _ _ _ _ _ =>
      (Reads.u8 _).bind ((Reads.u8 _).bind ((Reads.u8 _).made _))
  | returned | receiver => exact .pure fun _ _ _ _ _ => (Reads.u8 _).bind_pure (Reads.pure _)
  | throws exception =>
    exact .pure fun _ _ _ _ _ => (Reads.u8 _).bind ((Reads.u16 _).made _)

end Targets

end Encode

end JvmAsm
