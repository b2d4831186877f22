/- Renames the labels that code uses. -/
import JvmAsm.Code.Labels
import Mathlib

namespace JvmAsm

open List

/-- What uses labels, which are listed in a fixed order. -/
class Labelled (α : Type) where
  labels : α → List Label
  map : (Label → Label) → α → α
  labels_map : ∀ value rename, labels (map rename value) = (labels value).map rename
  map_eq : ∀ {value value' rename other}, map (fun _ => ⟨0⟩) value = map (fun _ => ⟨0⟩) value' →
      (labels value).map rename = (labels value').map other → map rename value = map other value'

namespace Labelled

variable {α : Type} [Labelled α] {value value' : α} {rename other : Label → Label}

lemma length_eq (shape : map (fun _ => ⟨0⟩) value = map (fun _ => ⟨0⟩) value') :
    ((labels value).map rename).length = ((labels value').map other).length := by
  simpa [labels_map] using congrArg (fun value => (labels value).length) shape

instance : Labelled (List α) where
  labels := List.flatMap labels
  map rename := List.map (map rename)
  labels_map values rename := by simp [List.map_flatMap, List.flatMap_map, labels_map]
  map_eq {values values' rename other} shape same := by
    induction values generalizing values' with
    | nil =>
      obtain rfl := List.map_eq_nil_iff.mp shape.symm
      rfl
    | cons value rest ih =>
      obtain ⟨value', rest', rfl, here, later⟩ := List.map_eq_cons_iff.mp shape.symm
      rw [List.flatMap_cons, List.flatMap_cons, List.map_append, List.map_append] at same
      obtain ⟨first, others⟩ := List.append_inj same (length_eq here.symm)
      rw [List.map_cons, List.map_cons, map_eq here.symm first, ih later.symm others]

instance {κ : Type} : Labelled (κ × Label) where
  labels pair := [pair.2]
  map rename pair := (pair.1, rename pair.2)
  labels_map _ _ := rfl
  map_eq shape same := by simp_all

end Labelled

namespace Instruction

variable {rename other : Label → Label}

lemma targets_mapTargets (instruction : Instruction) :
    (instruction.mapTargets rename).targets = instruction.targets.map rename := by
  cases instruction <;> simp [mapTargets, targets]

instance : Labelled Instruction where
  labels := targets
  map := mapTargets
  labels_map instruction _ := targets_mapTargets instruction
  map_eq {instruction instruction' rename other} shape same := by
    cases instruction with
    | lookupSwitch default pairs =>
      cases instruction' with
      | lookupSwitch default' pairs' =>
        simp only [mapTargets, lookupSwitch.injEq] at shape ⊢
        have listed (pairs : List (Int32 × Label)) :
            pairs.map Prod.snd = Labelled.labels pairs := List.map_eq_flatMap
        simp only [targets, List.map_cons, List.cons.injEq, listed] at same
        exact ⟨same.1, Labelled.map_eq shape.2 same.2⟩
      | _ => simp [mapTargets] at shape
    | _ => cases instruction' <;> simp_all [mapTargets, targets]

@[simp] lemma mapTargets_mapTargets (instruction : Instruction) :
    (instruction.mapTargets rename).mapTargets other =
      instruction.mapTargets (other ∘ rename) := by
  cases instruction <;> simp [mapTargets]

end Instruction

namespace CodeTarget

variable {rename other : Label → Label}

lemma labels_mapLabels (target : CodeTarget) :
    (target.mapLabels rename).labels = target.labels.map rename := by
  cases target <;> simp [mapLabels, labels, flatMap_map, map_flatMap]

instance : Labelled (LabelRange × UInt16) where
  labels entry := [entry.1.start, entry.1.stop]
  map rename entry := (⟨rename entry.1.start, rename entry.1.stop⟩, entry.2)
  labels_map _ _ := rfl
  map_eq shape same := by simp_all

instance : Labelled CodeTarget where
  labels := labels
  map := mapLabels
  labels_map target _ := labels_mapLabels target
  map_eq {target target' rename other} shape same := by
    cases target with
    | «variables» isResource table =>
      cases target' with
      | «variables» isResource' table' =>
        simp only [mapLabels, CodeTarget.variables.injEq] at shape ⊢
        exact ⟨shape.1, Labelled.map_eq shape.2 same⟩
      | _ => simp [mapLabels] at shape
    | _ => cases target' <;> simp_all [mapLabels, labels]

@[simp] lemma mapLabels_mapLabels (target : CodeTarget) :
    (target.mapLabels rename).mapLabels other = target.mapLabels (other ∘ rename) := by
  cases target <;> simp [mapLabels]

end CodeTarget

namespace Code

variable {rename other : Label → Label}

instance : Labelled Entry where
  labels entry := entry.instruction.targets
  map rename entry := { entry with instruction := entry.instruction.mapTargets rename }
  labels_map entry _ := entry.instruction.targets_mapTargets
  map_eq shape same := by
    rw [Entry.mk.injEq] at shape ⊢
    exact ⟨shape.1, Labelled.map_eq shape.2 same⟩

instance : Labelled ExceptionHandler where
  labels handler := [handler.start, handler.stop, handler.handler]
  map rename handler :=
    { handler with
      start := rename handler.start, stop := rename handler.stop,
      handler := rename handler.handler }
  labels_map _ _ := rfl
  map_eq shape same := by simp_all

instance : Labelled (Label × UInt16) where
  labels line := [line.1]
  map rename line := (rename line.1, line.2)
  labels_map _ _ := rfl
  map_eq shape same := by simp_all

instance : Labelled LocalVariable where
  labels entry := [entry.range.start, entry.range.stop]
  map rename entry := { entry with range := ⟨rename entry.range.start, rename entry.range.stop⟩ }
  labels_map _ _ := rfl
  map_eq shape same := by simp_all

instance : Labelled (AnnotatedType CodeTarget) where
  labels note := note.target.labels
  map rename note := { note with target := note.target.mapLabels rename }
  labels_map note _ := note.target.labels_mapLabels
  map_eq shape same := by
    rw [AnnotatedType.mk.injEq] at shape ⊢
    exact ⟨Labelled.map_eq shape.1 same, shape.2⟩

lemma references_mapReferences (code : Code) :
    (code.mapReferences rename).references = code.references.map rename := by
  simp only [mapReferences, references, map_append, map_flatMap, flatMap_map,
    map_map, Instruction.targets_mapTargets, CodeTarget.labels_mapLabels, map_cons,
    map_nil]
  rfl

instance : Labelled Code where
  labels := references
  map := mapReferences
  labels_map code _ := code.references_mapReferences
  map_eq {code code' rename other} shape same := by
    simp only [mapReferences, mk.injEq, ByVisibility.mk.injEq] at shape
    obtain ⟨stack, locals, entries, handlers, last, lines, named, ⟨visible, invisible⟩, raw⟩ :=
      shape
    have lined (code : Code) : code.lineNumbers.map Prod.fst = Labelled.labels code.lineNumbers :=
      map_eq_flatMap
    simp only [references, lined, map_append] at same
    obtain ⟨same, invisible'⟩ := List.append_inj' same (Labelled.length_eq invisible)
    obtain ⟨same, visible'⟩ := append_inj' same (Labelled.length_eq visible)
    obtain ⟨same, named'⟩ := append_inj' same (Labelled.length_eq named)
    obtain ⟨same, lines'⟩ := append_inj' same (Labelled.length_eq lines)
    obtain ⟨entries', handlers'⟩ := append_inj' same (Labelled.length_eq handlers)
    simp only [mapReferences, mk.injEq, ByVisibility.mk.injEq]
    exact ⟨stack, locals, Labelled.map_eq entries entries', Labelled.map_eq handlers handlers', last,
      Labelled.map_eq lines lines', Labelled.map_eq named named',
      ⟨Labelled.map_eq visible visible', Labelled.map_eq invisible invisible'⟩, raw⟩

@[simp] lemma mapReferences_mapReferences (code : Code) :
    (code.mapReferences rename).mapReferences other = code.mapReferences (other ∘ rename) := by
  simp [mapReferences]

section Binding

variable {labelAt labelAt' : Nat → Option Label}

lemma mapReferences_bindBy (code : Code) :
    (code.bindBy labelAt).mapReferences rename = (code.mapReferences rename).bindBy labelAt := by
  simp [bindBy, mapReferences, zipIdx_map]

@[simp] lemma bindBy_bindBy (code : Code) :
    (code.bindBy labelAt).bindBy labelAt' = code.bindBy labelAt' := by
  simp only [bindBy, length_map, length_zipIdx]
  congr 1
  refine ext_getElem? fun index => ?_
  simp [Function.comp_def]

lemma targets_bindBy (code : Code) :
    (code.bindBy labelAt).instructions.flatMap (fun entry => entry.instruction.targets) =
      code.instructions.flatMap fun entry => entry.instruction.targets := by
  have entries := zipIdx_map_fst 0 code.instructions
  rw [bindBy, flatMap_map,
    ← congrArg (flatMap fun entry => entry.instruction.targets) entries, flatMap_map]

@[simp] lemma references_bindBy (code : Code) :
    (code.bindBy labelAt).references = code.references := by
  rw [references, targets_bindBy]
  rfl

/-- Code without its bindings, and without its labels. -/
lemma bindBy_eq_of_shape {code code' : Code}
    (shape : (code.mapReferences fun _ => ⟨0⟩).bindBy (fun _ => none) =
      (code'.mapReferences fun _ => ⟨0⟩).bindBy fun _ => none)
    (same : code.references.map rename = code'.references.map other) :
    (code.mapReferences rename).bindBy labelAt = (code'.mapReferences other).bindBy labelAt := by
  rw [← mapReferences_bindBy, ← mapReferences_bindBy] at shape
  rw [← references_bindBy code, ← references_bindBy code'] at same
  have plain := congrArg (bindBy labelAt) (Labelled.map_eq shape same)
  change bindBy labelAt (mapReferences _ _) = bindBy labelAt (mapReferences _ _) at plain
  rwa [mapReferences_bindBy, mapReferences_bindBy, bindBy_bindBy, bindBy_bindBy] at plain

end Binding

end Code

end JvmAsm
