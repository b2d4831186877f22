/- Says which code is read back from its bytes as it has been. -/
import JvmAsm.Proofs.Bytecode.Lowering
import JvmAsm.Proofs.Code.Canonical
import JvmAsm.Proofs.Code.LocalVariables
import JvmAsm.Proofs.Encode.Annotation

namespace JvmAsm

open List

def CodeTarget.starts : CodeTarget → List Label
  | .variables _ table => table.map fun entry => entry.1.start
  | .exceptionParameter _ => []
  | .instruction _ label => [label]
  | .argument _ label _ => [label]

/-- The handler that a target names exists. -/
def CodeTarget.IsHandled (handlerCount : Nat) : CodeTarget → Prop
  | .exceptionParameter handler => handler.toNat < handlerCount
  | _ => True

lemma CodeTarget.starts_subset (target : CodeTarget) : target.starts ⊆ target.labels := by
  cases target with
  | exceptionParameter => exact nil_subset _
  | instruction | argument => exact Subset.refl _
  | _ =>
    intro label mem
    obtain ⟨entry, got, rfl⟩ := mem_map.mp mem
    exact mem_flatMap.mpr ⟨entry, got, mem_cons_self⟩

lemma CodeTarget.starts_mapLabels (target : CodeTarget) (rename : Label → Label) :
    (target.mapLabels rename).starts = target.starts.map rename := by
  cases target <;> simp [mapLabels, starts]

def LocalVariable.isWritten (entry : LocalVariable) : Bool :=
  entry.type.isSome || entry.signature.isSome

namespace Decode.CodeTables

/-- The names of the attributes of code that are read. -/
def names : List String :=
  ["StackMapTable", "LineNumberTable", "LocalVariableTable", "LocalVariableTypeTable",
    "RuntimeVisibleTypeAnnotations", "RuntimeInvisibleTypeAnnotations"]

end Decode.CodeTables

namespace Code

variable {label : Label}

def notes (code : Code) : List (AnnotatedType CodeTarget) :=
  code.typeAnnotations.visible ++ code.typeAnnotations.invisible

def startReferences (code : Code) : List Label :=
  code.instructions.flatMap (fun entry => entry.instruction.targets) ++
    code.handlers.map ExceptionHandler.handler ++
    code.lineNumbers.map Prod.fst ++
    code.localVariables.map (fun entry => entry.range.start) ++
    code.notes.flatMap (fun note => note.target.starts)

def tableStarts (code : Code) : List Label :=
  code.lineNumbers.map Prod.fst ++
    (code.localVariables.filter LocalVariable.isWritten).map (fun entry => entry.range.start) ++
    code.notes.flatMap fun note => note.target.starts

/-- The labels where execution may go on. -/
def jumpTargets (code : Code) : List Label :=
  code.instructions.flatMap (fun entry => entry.instruction.targets) ++
    code.handlers.map ExceptionHandler.handler

/-- The constants of the code are not nested too deep to be read. -/
def IsNested (code : Code) : Prop :=
  ∀ entry ∈ code.instructions, entry.instruction.dynamicDepth ≤ PoolTable.maxDynamicDepth + 1

/-- What has to be known of code so that it is read back as it has been. -/
structure IsReadable (code : Code) : Prop where
  canonical : code.IsCanonical
  nested : code.IsNested
  starts : ∀ label ∈ code.startReferences, code.lastLabel ≠ some label
  handled : ∀ note ∈ code.notes, note.target.IsHandled code.handlers.length
  shallow : ∀ note ∈ code.notes, note.note.IsShallow
  merged : ∃ typed untyped, code.localVariables = typed ++ untyped ∧
    Decode.CodeTables.IsMerged typed untyped
  others : ∀ kept ∈ code.attributes, kept.name ∉ Decode.CodeTables.names

variable {code : Code}

lemma startReferences_mapReferences (rename : Label → Label) :
    (code.mapReferences rename).startReferences = code.startReferences.map rename := by
  simp only [mapReferences, startReferences, notes, map_append, map_flatMap,
    flatMap_map, flatMap_append, map_map, Instruction.targets_mapTargets,
    CodeTarget.starts_mapLabels]
  rfl

lemma startReferences_bindBy (labels : Nat → Option Label) :
    (code.bindBy labels).startReferences = code.startReferences := by
  rw [startReferences, targets_bindBy]
  rfl

lemma mem_startReferences_sortLines :
    label ∈ code.sortLines.startReferences ↔ label ∈ code.startReferences := by
  simp [startReferences, sortLines, notes]

lemma startReferences_subset : code.startReferences ⊆ code.references := by
  intro label mem
  simp only [startReferences, notes, mem_append, mem_flatMap, mem_map] at mem
  simp only [references, mem_append, mem_flatMap, mem_map]
  rcases mem with (((targets | ⟨handler, got, rfl⟩) | lines) | ⟨entry, got, rfl⟩) |
    ⟨note, visible | invisible, starts⟩
  · exact .inl (.inl (.inl (.inl (.inl targets))))
  · exact .inl (.inl (.inl (.inl (.inr ⟨handler, got, by simp⟩))))
  · exact .inl (.inl (.inl (.inr lines)))
  · exact .inl (.inl (.inr ⟨entry, got, by simp⟩))
  · exact .inl (.inr ⟨note, visible, note.target.starts_subset starts⟩)
  · exact .inr ⟨note, invisible, note.target.starts_subset starts⟩

lemma tableStarts_subset : code.tableStarts ⊆ code.startReferences := by
  intro label mem
  simp only [tableStarts, mem_append, mem_map, mem_filter] at mem
  simp only [startReferences, mem_append, mem_map]
  rcases mem with (lines | ⟨entry, ⟨listed, _⟩, rfl⟩) | notes
  · exact .inl (.inl (.inr lines))
  · exact .inl (.inr ⟨entry, listed, rfl⟩)
  · exact .inr notes

lemma jumpTargets_subset : code.jumpTargets ⊆ code.startReferences := by
  intro label mem
  simp only [startReferences, append_assoc]
  simp only [jumpTargets] at mem
  exact append_assoc .. ▸ mem_append_left _ mem

lemma range_mem_references {entry : LocalVariable} (mem : entry ∈ code.localVariables) :
    entry.range.start ∈ code.references ∧ entry.range.stop ∈ code.references := by
  simp only [references, mem_append, mem_flatMap]
  exact ⟨.inl (.inl (.inr ⟨entry, mem, by simp⟩)), .inl (.inl (.inr ⟨entry, mem, by simp⟩))⟩

lemma labels_subset_references {note : AnnotatedType CodeTarget} (mem : note ∈ code.notes) :
    note.target.labels ⊆ code.references := by
  intro label uses
  simp only [references, mem_append, mem_flatMap]
  rcases mem_append.mp mem with visible | invisible
  · exact .inl (.inr ⟨note, visible, uses⟩)
  · exact .inr ⟨note, invisible, uses⟩

lemma IsCanonical.position_lt (canonical : code.IsCanonical) {pos : Nat}
    (stands : code.positions[label]? = some pos) (other : code.lastLabel ≠ some label) :
    pos < code.instructions.length := by
  rcases mem_bindings.mp (canonical.once.positions_iff.mp stands) with ⟨entry, got, _⟩ | ⟨last, _⟩
  · exact (List.getElem?_eq_some_iff.mp got).1
  · exact absurd last other

/-- A position has one label at most. -/
lemma BindsOnce.label_unique (once : code.BindsOnce) {other : Label} {pos : Nat}
    (stands : code.positions[label]? = some pos)
    (stands' : code.positions[other]? = some pos) : label = other := by
  rcases mem_bindings.mp (once.positions_iff.mp stands) with ⟨entry, got, bound⟩ | ⟨last, rfl⟩
  all_goals rcases mem_bindings.mp (once.positions_iff.mp stands') with
    ⟨entry', got', bound'⟩ | ⟨last', at'⟩
  · rw [got] at got'
    obtain rfl := Option.some.inj got'
    exact Option.some.inj (bound.symm.trans bound')
  · have inside := (List.getElem?_eq_some_iff.mp got).1
    omega
  · have inside := (List.getElem?_eq_some_iff.mp got').1
    omega
  · exact Option.some.inj (last.symm.trans last')

end Code

end JvmAsm
