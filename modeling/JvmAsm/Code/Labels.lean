import JvmAsm.Code.Basic
import JvmAsm.Failure.Basic
import Std.Data.HashMap
import Std.Data.HashSet

namespace JvmAsm

namespace Code

/-- The labels that are bound, with their positions. -/
def bindings (code : Code) : List (Label × Nat) :=
  (code.instructions.zipIdx.filterMap fun (entry, index) =>
    entry.label.map fun label => (label, index)) ++
    (code.lastLabel.map fun label => (label, code.instructions.length)).toList

/-- Of several positions of a label the last one counts. -/
def positions (code : Code) : Std.HashMap Label Nat :=
  code.bindings.foldl (fun found (label, position) => found.insert label position) ∅

/-- The labels that are used, in the order in which they are looked at. -/
def references (code : Code) : List Label :=
  code.instructions.flatMap (fun entry => entry.instruction.targets) ++
    code.handlers.flatMap (fun handler => [handler.start, handler.stop, handler.handler]) ++
    code.lineNumbers.map Prod.fst ++
    code.localVariables.flatMap (fun entry => [entry.range.start, entry.range.stop]) ++
    code.typeAnnotations.visible.flatMap (fun note => note.target.labels) ++
    code.typeAnnotations.invisible.flatMap (fun note => note.target.labels)

/-- The first label that is used without being bound. -/
def unboundLabel? (code : Code) : Option Label :=
  let positions := code.positions
  code.references.find? fun label => !positions.contains label

/-- Changes the labels where they are used. -/
def mapReferences (rename : Label → Label) (code : Code) : Code :=
  let renameTarget (note : AnnotatedType CodeTarget) : AnnotatedType CodeTarget :=
    { note with target := note.target.mapLabels rename }
  { code with
    instructions := code.instructions.map fun entry =>
      { entry with instruction := entry.instruction.mapTargets rename }
    handlers := code.handlers.map fun handler =>
      { handler with
        start := rename handler.start, stop := rename handler.stop,
        handler := rename handler.handler }
    lineNumbers := code.lineNumbers.map fun (label, line) => (rename label, line)
    localVariables := code.localVariables.map fun entry =>
      { entry with range := ⟨rename entry.range.start, rename entry.range.stop⟩ }
    typeAnnotations :=
      ⟨code.typeAnnotations.visible.map renameTarget,
        code.typeAnnotations.invisible.map renameTarget⟩ }

/-- Changes the labels where they are bound, by the positions of the instructions. -/
def bindBy (labelAt : Nat → Option Label) (code : Code) : Code :=
  { code with
    instructions := code.instructions.zipIdx.map fun (entry, index) =>
      { entry with label := labelAt index }
    lastLabel := labelAt code.instructions.length }

def usedPositions (code : Code) (positions : Std.HashMap Label Nat) : List Nat :=
  (code.references.filterMap fun label => positions[label]?).mergeSort.eraseReps

/-- The labels of the given positions, which are numbered one after the other. -/
def labelsOf (used : List Nat) : Std.HashMap Nat Label :=
  used.zipIdx.foldl (fun found (position, id) => found.insert position ⟨UInt16.ofNat id⟩) ∅

/--
Numbers the labels by the given positions, with one label for each position that is used and none
for the others, and sorts the line numbers by position.
-/
def renumberedBy (code : Code) (positions : Std.HashMap Label Nat) : Code :=
  let labels := labelsOf (code.usedPositions positions)
  let rename (label : Label) : Label :=
    (positions[label]?.bind fun position => labels[position]?).getD label
  let code := (code.mapReferences rename).bindBy fun position => labels[position]?
  { code with lineNumbers := code.lineNumbers.mergeSort fun a b => a.1.id ≤ b.1.id }

/-- The canonical form of code whose labels are all bound, or else a label that is not. -/
def canonical (code : Code) : Except Label Code :=
  match code.unboundLabel? with
  | some label => .error label
  | none => .ok (code.renumberedBy code.positions)

/-- Brings code into its canonical form, for which there have to be enough numbers for labels. -/
def canonicalize (code : Code) : Except Failure Code :=
  match code.canonical with
  | .error label => .error (.ofKind (.unresolvedLabel label.text))
  | .ok numbered =>
    if 0x10000 < (code.usedPositions code.positions).length then .error (.ofKind .encoding)
    else .ok numbered

end Code

end JvmAsm
