/-
Says what holds for all classes that are read, from text or from bytes: their code is in canonical
form, and their parts fit each other.
-/
import JvmAsm.Proofs.Code.Readable

namespace JvmAsm

open List

/-- A table has a target for each of its keys. -/
def Instruction.IsSized : Instruction → Prop
  | .tableSwitch _ low high targets => high.toInt - low.toInt + 1 = targets.length
  | _ => True

lemma Instruction.IsSized.mapTargets {instruction : Instruction} (sized : instruction.IsSized)
    (rename : Label → Label) : (instruction.mapTargets rename).IsSized := by
  cases instruction with
  | tableSwitch =>
    simp only [IsSized, Instruction.mapTargets, length_map] at sized ⊢
    exact sized
  | _ => trivial

lemma CodeTarget.IsHandled.mapLabels {target : CodeTarget} {count : Nat}
    (handled : target.IsHandled count) (rename : Label → Label) :
    (target.mapLabels rename).IsHandled count := by
  cases target with
  | exceptionParameter => exact handled
  | _ => trivial

/-- What holds for all code that is read. -/
structure Code.IsFormed (code : Code) : Prop where
  canonical : code.IsCanonical
  handled : ∀ note ∈ code.notes, note.target.IsHandled code.handlers.length
  sized : ∀ entry ∈ code.instructions, entry.instruction.IsSized

lemma Code.renumberedBy_isFormed {code : Code} {positions : Std.HashMap Label Nat}
    (inside : ∀ label ∈ code.references,
      ∃ pos, positions[label]? = some pos ∧ pos ≤ code.instructions.length)
    (handled : ∀ note ∈ code.notes, note.target.IsHandled code.handlers.length)
    (sized : ∀ entry ∈ code.instructions, entry.instruction.IsSized) :
    (code.renumberedBy positions).IsFormed := by
  refine ⟨renumberedBy_isCanonical inside, ?_, ?_⟩
  · rw [renumberedBy_eq]
    simp only [notes, sortLines, bindBy, mapReferences, length_map, ← map_append,
      forall_mem_map] at handled ⊢
    exact fun note mem => (handled note mem).mapLabels _
  · rw [renumberedBy_eq]
    intro entry mem
    obtain ⟨⟨_, index⟩, indexed, rfl⟩ := mem_map.mp mem
    obtain ⟨original, got, rfl⟩ := mem_map.mp (fst_mem_of_mem_zipIdx indexed)
    exact (sized original got).mapTargets _

/-- What holds for all fields that are read. -/
def Field.IsFormed (field : Field) : Prop :=
  ∀ value, field.constantValue = some value → value.fits field.type = true

/-- What holds for all methods that are read. -/
structure Method.IsFormed (method : Method) : Prop where
  code : ∀ code, method.code = some code → code.IsFormed
  visible : ∀ lists, method.parameterAnnotations.visible = some lists → lists.length ≤ 0xff
  invisible : ∀ lists, method.parameterAnnotations.invisible = some lists → lists.length ≤ 0xff

/-- What holds for all classes that are read. -/
structure ClassFile.IsFormed (value : ClassFile) : Prop where
  fields : ∀ field ∈ value.fields, field.IsFormed
  methods : ∀ method ∈ value.methods, method.IsFormed
  targets : ∀ note ∈ value.typeAnnotations.visible ++ value.typeAnnotations.invisible,
    note.target ≠ .implements 0xffff

end JvmAsm
